import EvmDisasm.Code.HexText
import EvmDisasm.Files
import EvmDisasm.Log

/-!
# Code from a file

A file holds code either as hexadecimal text or as the bytes themselves. Contents that are no text,
that do not look like digits or whose digits do not pair up are the code as they stand, so contents
are never refused.
-/

namespace EvmDisasm.Code

/-- The code that the contents of the file at `path` stand for. -/
def ofContents (path : String) (contents : Bytes) : Log.Logged Bytes :=
  match Text.ofUtf8? contents with
  | none => ⟨contents, []⟩
  | some text =>
    if looksLikeHex text then
      match parse text with
      | .ok code => ⟨code, [⟨.debug, path ++ " holds hex text"⟩]⟩
      | .error e =>
        ⟨contents,
          [⟨.debug, path ++ " is not valid hex (" ++ e.message ++ "), reading raw bytes"⟩]⟩
    else ⟨contents, []⟩

structure LoadError where
  path : String
  cause : FileError
deriving DecidableEq, Repr

def LoadError.message (e : LoadError) : String :=
  "reading " ++ e.path

def LoadError.causes (e : LoadError) : List String :=
  [e.cause.message]

def load {m : Type → Type} [Monad m] (files : Files m) (path : String) :
    m (Except LoadError (Log.Logged Bytes)) := do
  match ← files.read path with
  | .error cause => return .error ⟨path, cause⟩
  | .ok contents => return .ok (ofContents path contents)

end EvmDisasm.Code
