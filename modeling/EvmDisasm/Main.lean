import EvmDisasm.Files.Path
import EvmDisasm.Run

/-!
# The program

The operations on files, carried out on the disk, and the streams and the environment that a run
needs. All else is `CommandLine.parse` and `Run.runOn`.
-/

namespace EvmDisasm.Main

def fileError : IO.Error → FileError
  | .noFileOrDirectory .. => .notFound
  | .inappropriateType _ 21 _ => .isDirectory
  | .inappropriateType .. => .notDirectory
  | .alreadyExists .. => .alreadyExists
  | .invalidArgument _ 36 _ => .nameTooLong
  | .permissionDenied _ code reason | .resourceVanished code reason =>
    .other (reason ++ " (os error " ++ toString code ++ ")")
  | e => .other (toString e)

/-- The result of an action on what stands at a path, or the error that it reports. -/
def attempt {α : Type} (path : String) (action : IO α) : IO (Except FileError α) :=
  match Path.resolve path with
  | .error e => return .error e
  | .ok _ => try return .ok (← action) catch e => return .error (fileError e)

def isPresent (path : String) : IO Bool := do
  return (← attempt path (IO.FS.Handle.mk path .read)).isOk

/-- Make a directory, given the paths of it and of those that hold it, the closest first. Those that
are missing are made before it. -/
def makeDirectories : List String → IO (Except FileError Unit)
  | [] => return .ok ()
  | path :: above => do
    let make : IO (Except FileError Unit) := do
      let made ← attempt path (IO.FS.createDir path)
      if ← isPresent (path ++ "/.") then return .ok () else return made
    match ← make with
    | .error .notFound =>
      match ← makeDirectories above with
      | .error e => return .error e
      | .ok () => make
    | made => return made

def disk : Files IO where
  read path := attempt path do
    let handle ← IO.FS.Handle.mk path .read
    return (← handle.readBinToEnd).toList
  ensureParent path :=
    match Path.holders path with
    | [] => return .ok ()
    | holder :: above => do
      if ← isPresent holder then return .ok () else makeDirectories (holder :: above)
  write path contents := attempt path (IO.FS.writeBinFile path ⟨contents.toArray⟩)

/-- The streams of the process. What is printed has left it when the answer comes. -/
def console : Streams IO where
  log records := do
    for record in records do
      IO.eprintln ("[" ++ record.level.name ++ "] " ++ record.message)
  print text := do
    try
      IO.print text
      (← IO.getStdout).flush
      return .ok ()
    catch e => return .error (fileError e)

end EvmDisasm.Main

open EvmDisasm in
def main (words : List String) : IO UInt32 := do
  match CommandLine.parse words with
  | .error refusal =>
    match refusal.text? with
    | some text => IO.print text
    | none => IO.eprintln ("error: " ++ refusal.message)
    return UInt32.ofNat refusal.exitCode
  | .ok arguments =>
    let outcome ← Run.runOn Main.disk Main.console (← IO.getEnv "RUST_LOG") arguments
    if let some fault := outcome.fault then
      IO.eprint fault.report
    return UInt32.ofNat outcome.exitCode
