import EvmDisasm.Datum
import EvmDisasm.Digest

/-!
# Reading data

What a datum stands for where a text, a size, a truth value, a digest or a list is expected, and the
errors of such readings. The names of what was expected are those that messages show.
-/

namespace EvmDisasm.Datum

inductive ReadError where
  /-- The datum is of another kind than the one expected. -/
  | wrongKind (found : String) (expected : String)
  /-- The integer is negative where a size is expected. -/
  | negative (value : Int)
  /-- A list of that many items stands for a record and has too few of them. -/
  | tooShort (length : Nat) (expected : String)
  /-- A list of that many items stands for a record and has too many of them. -/
  | tooLong (length : Nat)
  /-- A field is missing. -/
  | missing (field : String)
  /-- A text is no digest. -/
  | digest (cause : Digest.Error)
deriving DecidableEq, Repr

def ReadError.message : ReadError → String
  | .wrongKind found expected => "invalid type: " ++ found ++ ", expected " ++ expected
  | .negative value => "invalid value: integer `" ++ toString value ++ "`, expected usize"
  | .tooShort length expected =>
    "invalid length " ++ toString length ++ ", expected " ++ expected
  | .tooLong length =>
    "invalid length " ++ toString length ++ ", expected fewer elements in array"
  | .missing field => "missing field `" ++ field ++ "`"
  | .digest cause => cause.message

def toText : Datum → Except ReadError String
  | .text value => .ok value
  | other => .error (.wrongKind other.description "a string")

def toSize : Datum → Except ReadError Nat
  | .integer value => if value < 0 then .error (.negative value) else .ok value.toNat
  | other => .error (.wrongKind other.description "usize")

def toBoolean : Datum → Except ReadError Bool
  | .boolean value => .ok value
  | other => .error (.wrongKind other.description "a boolean")

def toDigest (datum : Datum) : Except ReadError Digest := do
  let text ← datum.toText
  match Digest.parse text with
  | .ok digest => .ok digest
  | .error cause => .error (.digest cause)

def ofDigest (digest : Digest) : Datum :=
  .text digest.text

/-- The items of a list, each read by `item`. -/
def toListOf {α : Type} (item : Datum → Except ReadError α) : Datum → Except ReadError (List α)
  | .list items => items.mapM item
  | other => .error (.wrongKind other.description "a sequence")

/-- A field that has to be there. -/
def required {α : Type} (field : String) : Option α → Except ReadError α
  | some value => .ok value
  | none => .error (.missing field)

end EvmDisasm.Datum
