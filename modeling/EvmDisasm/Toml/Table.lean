/-!
# Tables

The values of a TOML document, and how a document builds its tables up. A table comes into being in
one of four ways, and that decides what later lines may still add to it: no table is defined twice,
a dotted key never reaches into a table that has a header of its own, and an inline table is
complete where it ends.
-/

namespace EvmDisasm.Toml

/-- How a table came into being. -/
inductive Origin where
  /-- By a header that names it. -/
  | header
  /-- By a header that names something below it. -/
  | implied
  /-- By a dotted key that leads through it. -/
  | dotted
  /-- As a value between braces. -/
  | inline
deriving DecidableEq, Repr

inductive Value where
  | string (text : String)
  | integer (value : Int)
  /-- A floating point number, as it is written. -/
  | float (literal : String)
  | boolean (value : Bool)
  /-- A date, a time or both, as it is written. -/
  | dateTime (literal : String)
  | array (items : List Value)
  | table (origin : Origin) (entries : List (String × Value))
  /-- The tables that headers in double brackets made under one name. -/
  | tables (elements : List (List (String × Value)))

abbrev Entries := List (String × Value)

namespace Entries

/-- The entries with the value under the key replaced, or added at the end. -/
def put (entries : Entries) (key : String) (value : Value) : Entries :=
  if entries.any (·.1 == key) then
    entries.map fun (k, v) => if k == key then (k, value) else (k, v)
  else entries ++ [(key, value)]

/-- Change the table that a path leads to. Tables that are missing on the way are made, and the last
table of several under one name stands for them. `dotted` says whether the path is that of a dotted
key, which may not lead through a table that has a header of its own. -/
def within (dotted : Bool) (change : Origin → Entries → Option Entries) :
    List String → Origin → Entries → Option Entries
  | [], origin, entries => change origin entries
  | key :: rest, _, entries =>
    match entries.lookup key with
    | none =>
      let origin := if dotted then Origin.dotted else .implied
      (within dotted change rest origin []).map fun made => entries.put key (.table origin made)
    | some (.table origin inner) =>
      if origin = .inline || (dotted && origin = .header) then none
      else (within dotted change rest origin inner).map fun made =>
        entries.put key (.table origin made)
    | some (.tables elements) =>
      elements.getLast?.bind fun element =>
        (within dotted change rest .header element).map fun made =>
          entries.put key (.tables (elements.dropLast ++ [made]))
    | some _ => none

/-- Add a value under a dotted key to a table. Only the key's own table may stand at its end. -/
def insertDotted (path : List String) (key : String) (value : Value) (origin : Origin)
    (entries : Entries) : Option Entries :=
  within true (fun origin entries =>
    if decide (origin = .dotted) = path.isEmpty then none
    else if (entries.lookup key).isSome then none
    else some (entries.put key value)) path origin entries

/-- Add the table that a header names. A table that other headers implied becomes that table. -/
def insertTable (path : List String) (key : String) (entries : Entries) : Option Entries :=
  within false (fun _ entries =>
    match entries.lookup key with
    | none => some (entries.put key (.table .header []))
    | some (.table .implied inner) => some (entries.put key (.table .header inner))
    | some _ => none) path .header entries

/-- Add a table to those that headers in double brackets made under one name. -/
def appendTable (path : List String) (key : String) (entries : Entries) : Option Entries :=
  within false (fun _ entries =>
    match entries.lookup key with
    | none => some (entries.put key (.tables [[]]))
    | some (.tables elements) => some (entries.put key (.tables (elements ++ [[]])))
    | some _ => none) path .header entries

end Entries

end EvmDisasm.Toml
