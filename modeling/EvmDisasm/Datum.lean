import EvmDisasm.Decimal.Shortest
import EvmDisasm.Text

/-!
# Self-describing data

Data as exchange formats hold them, and the errors of reading a record from them.
-/

namespace EvmDisasm

/-- A piece of self-describing data. -/
inductive Datum where
  | null
  | boolean (value : Bool)
  | integer (value : Int)
  | float (value : Float)
  | text (value : String)
  | list (items : List Datum)
  /-- Fields under names that ascend and are pairwise different. -/
  | record (fields : List (String × Datum))
deriving Inhabited

namespace Datum

/-- Insert a field into fields in ascending order; of two fields of one name the later one stays. -/
def insertField (name : String) (value : Datum) : List (String × Datum) → List (String × Datum)
  | [] => [(name, value)]
  | (other, before) :: rest =>
    if name < other then (name, value) :: (other, before) :: rest
    else if name = other then (name, value) :: rest
    else (other, before) :: insertField name value rest

/-- The record that has the fields, given in any order. -/
def ofFields (fields : List (String × Datum)) : Datum :=
  .record (fields.foldl (fun sorted (name, value) => insertField name value sorted) [])

def description : Datum → String
  | .null => "null"
  | .boolean value => "boolean `" ++ toString value ++ "`"
  | .integer value => "integer `" ++ toString value ++ "`"
  | .float value => "floating point `" ++ Decimal.ofFloat value ++ "`"
  | .text value => "string " ++ Text.quoted value.toList
  | .list _ => "sequence"
  | .record _ => "map"

end Datum

end EvmDisasm
