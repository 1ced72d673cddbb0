import EvmDisasm.Files
import EvmDisasm.Log
import EvmDisasm.Basic
import EvmDisasm.Toml.Document

/-!
# Settings

What a settings file can say. The file is a TOML document; what it does not say keeps its default,
and keys that mean nothing here are passed over.
-/

namespace EvmDisasm

structure Settings where
  /-- Whether a byte that stands for no opcode is refused. -/
  strict : Bool := false
  /-- Whether the digest of the code is printed after the listing. -/
  showHash : Bool := true
  /-- Which log records are shown, unless the environment says otherwise. -/
  logLevel : Log.Filter := .upTo .info
deriving DecidableEq, Repr

namespace Settings

/-- The truth value under a key, or the default if there is none. -/
def boolean? (entries : Toml.Entries) (key : String) (default : Bool) : Option Bool :=
  match entries.lookup key with
  | none => some default
  | some (.boolean value) => some value
  | some _ => none

/-- Whether a value is an empty table or an empty array. -/
def isEmptyValue : Toml.Value → Bool
  | .array items => items.isEmpty
  | .table _ entries => entries.isEmpty
  | .tables elements => elements.isEmpty
  | _ => false

/-- The filter that a value names: by its name, or by a table whose only key is the name and which
holds nothing under it. -/
def filter? : Toml.Value → Option Log.Filter
  | .string name => Log.Filter.ofName? name
  | .table _ [(name, value)] => if isEmptyValue value then Log.Filter.ofName? name else none
  | _ => none

/-- The settings that a TOML document states. -/
def parse? (text : String) : Option Settings := do
  let entries ← Toml.parse? text
  let strict ← boolean? entries "strict" false
  let showHash ← boolean? entries "show_hash" true
  let logLevel ←
    match entries.lookup "log_level" with
    | none => some (.upTo .info)
    | some value => filter? value
  return { strict, showHash, logLevel }

def toml (settings : Settings) : String :=
  "strict = " ++ toString settings.strict ++ "\n" ++
  "show_hash = " ++ toString settings.showHash ++ "\n" ++
  "log_level = \"" ++ settings.logLevel.name ++ "\"\n"

inductive LoadError where
  | read (path : String) (cause : FileError)
  | parse (path : String)
deriving DecidableEq, Repr

def LoadError.message : LoadError → String
  | .read path _ => "reading config " ++ path
  | .parse path => "parsing config " ++ path

def LoadError.causes : LoadError → List String
  | .read _ cause => [cause.message]
  | .parse _ => ["the file does not hold valid settings"]

/-- The settings that the contents of the file at `path` state. -/
def ofContents (path : String) (contents : Bytes) : Except LoadError Settings :=
  match Text.ofUtf8? contents with
  | none => .error (.read path .notText)
  | some text =>
    match parse? text with
    | none => .error (.parse path)
    | some settings => .ok settings

def load {m : Type → Type} [Monad m] (files : Files m) (path : String) :
    m (Except LoadError Settings) := do
  match ← files.read path with
  | .error cause => return .error (.read path cause)
  | .ok contents => return ofContents path contents

end Settings

end EvmDisasm
