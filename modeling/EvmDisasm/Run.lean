import EvmDisasm.Code.Source
import EvmDisasm.CommandLine
import EvmDisasm.Disassembler
import EvmDisasm.Settings

/-!
# A run of the program

From accepted arguments to the printed listing: the settings are read first, then the code; the code
is disassembled, the log is shown, the listing is printed, and last of all it is written if a file
for it is given. Whatever goes wrong ends the run.
-/

namespace EvmDisasm

/-- What ended a run before its end. -/
inductive Fault where
  | settings (cause : Settings.LoadError)
  | load (cause : Code.LoadError)
  | text (cause : Code.TextError)
  /-- The arguments name no code. -/
  | noCode
  | unknownOpcode (cause : Disassembler.UnknownOpcode)
  | print (cause : FileError)
  | write (cause : Disassembler.WriteError)
deriving DecidableEq, Repr

namespace Fault

def message : Fault → String
  | settings cause => cause.message
  | load cause => cause.message
  | text cause => cause.message
  | noCode => "either --input or --hex is required"
  | unknownOpcode cause => cause.message
  | print cause => cause.message
  | write cause => cause.message

def causes : Fault → List String
  | settings cause => cause.causes
  | load cause => cause.causes
  | write cause => cause.causes
  | text _ | noCode | unknownOpcode _ | print _ => []

def report (fault : Fault) : String :=
  "Error: " ++ fault.message ++ "\n" ++
  if fault.causes.isEmpty then ""
  else "\nCaused by:\n" ++ String.join (fault.causes.map fun cause => "    " ++ cause ++ "\n")

end Fault

/-- What a run leaves behind, beside the files. -/
structure Outcome where
  /-- The text that was handed over to be printed. -/
  output : String
  /-- The log records that were shown. -/
  records : List Log.Record
  fault : Option Fault
deriving DecidableEq, Repr

def Outcome.exitCode (outcome : Outcome) : Nat :=
  if outcome.fault.isSome then 1 else 0

/-- Where a run shows its log and prints its listing. -/
structure Streams (m : Type → Type) where
  log : List Log.Record → m Unit
  /-- Print a text, of which there may be less room than it takes. -/
  print : String → m (Except FileError Unit)

/-- Streams of which nothing is seen but the answer to what is printed. -/
def Streams.answering {m : Type → Type} [Monad m] (answer : Except FileError Unit) : Streams m where
  log _ := return ()
  print _ := return answer

namespace Run

/-- The log records to show: those that the environment names, or else those of the settings. -/
def logFilter (settings : Settings) (environment : Option String) : Log.Filter :=
  (environment.bind Log.Filter.ofName?).getD settings.logLevel

def settings {m : Type → Type} [Monad m] (files : Files m)
    (arguments : CommandLine.Arguments) : m (Except Settings.LoadError Settings) :=
  match arguments.config with
  | some path => Settings.load files path
  | none => return .ok {}

def code {m : Type → Type} [Monad m] (files : Files m)
    (arguments : CommandLine.Arguments) : m (Except Fault (Log.Logged Bytes)) :=
  match arguments.input, arguments.hex with
  | some path, _ => return (← Code.load files path).mapError .load
  | none, some text => return ((Code.parse text).map (⟨·, []⟩)).mapError .text
  | none, none => return .error .noCode

/-- Write the listing if the arguments ask for it. -/
def write {m : Type → Type} [Monad m] (files : Files m)
    (arguments : CommandLine.Arguments) (d : Disassembler) : m (Option Fault) := do
  match arguments.output with
  | none => return none
  | some path =>
    match ← d.write files path with
    | .ok () => return none
    | .error e => return some (.write e)

/-- Run the program. The records to show may be named by a variable of the environment. -/
def runOn {m : Type → Type} [Monad m] (files : Files m) (streams : Streams m)
    (environment : Option String) (arguments : CommandLine.Arguments) : m Outcome := do
  match ← settings files arguments with
  | .error e => return ⟨"", [], some (.settings e)⟩
  | .ok settings =>
    match ← code files arguments with
    | .error fault => return ⟨"", [], some fault⟩
    | .ok code =>
      let strict := arguments.strict || settings.strict
      let (report, d) := (Disassembler.ofCode code.value strict).disassemble
      let records := (logFilter settings environment).select (code.records ++ report.records)
      streams.log records
      match report.value with
      | .error e => return ⟨"", records, some (.unknownOpcode e)⟩
      | .ok () =>
        let output := d.print (settings.showHash && !arguments.noHash)
        match ← streams.print output with
        | .error cause => return ⟨output, records, some (.print cause)⟩
        | .ok () => return ⟨output, records, ← write files arguments d⟩

/-- Run the program with streams that take all that is printed. -/
def run {m : Type → Type} [Monad m] (files : Files m) (environment : Option String)
    (arguments : CommandLine.Arguments) : m Outcome :=
  runOn files (.answering (.ok ())) environment arguments

end Run

end EvmDisasm
