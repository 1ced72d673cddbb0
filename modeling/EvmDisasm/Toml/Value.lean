import EvmDisasm.Toml.DateTime
import EvmDisasm.Toml.Key
import EvmDisasm.Toml.Table

/-!
# Values

Reading the value at the start of a text. Arrays may hold line ends, comments and a comma after the
last item; inline tables may not. Arrays and inline tables nest less than 100 deep.
-/

namespace EvmDisasm.Toml

/-- A date, a time or a number, which all start with a digit or a sign. -/
def numeric? (text : List Char) : Option (Value × List Char) :=
  let dated (rest : List Char) :=
    (Value.dateTime (String.ofList (text.take (text.length - rest.length))), rest)
  if startsDate text then (dateTime? text).map dated
  else if startsTime text then (time? text).map dated
  else (number? text).map fun
    | (.integer value, rest) => (.integer value, rest)
    | (.float literal, rest) => (.float (String.ofList literal), rest)

def scalar? (text : List Char) : Option (Value × List Char) :=
  match text with
  | '"' :: _ | '\x27' :: _ => (quoted? text).map fun (t, rest) => (.string (String.ofList t), rest)
  | 't' :: 'r' :: 'u' :: 'e' :: rest => some (.boolean true, rest)
  | 'f' :: 'a' :: 'l' :: 's' :: 'e' :: rest => some (.boolean false, rest)
  | _ => numeric? text

/-- The inline table with the given entries, each a path, a key and a value. -/
def inlineTable? (pairs : List (List String × String × Value)) : Option Value :=
  (pairs.foldlM (fun entries (path, key, value) =>
    Entries.insertDotted path key value .inline entries) []).map (.table .inline)

mutual

def value? (depth : Nat) (text : List Char) : Option (Value × List Char) :=
  match text with
  | '[' :: rest =>
    match depth with
    | 0 => none
    | depth + 1 => (items? depth (skipLines rest)).map fun (items, rest) => (.array items, rest)
  | '\x7b' :: rest =>
    match depth with
    | 0 => none
    | depth + 1 =>
      match skipSpace rest with
      | '\x7d' :: rest => some (.table .inline [], rest)
      | rest => do
        let (pairs, rest) ← pairs? depth rest
        let table ← inlineTable? pairs
        some (table, rest)
  | _ => scalar? text
termination_by (depth, text.length, 0)

/-- The items of an array up to the bracket that closes it; neither a blank nor a comment comes
first. -/
def items? (depth : Nat) (text : List Char) : Option (List Value × List Char) :=
  if text.head? = some ']' then some ([], text.tail)
  else do
    let (value, rest) ← value? depth text
    match skipLines rest with
    | ']' :: rest => some ([value], rest)
    | ',' :: rest =>
      let next := skipLines rest
      if next.length < text.length then
        let (values, rest) ← items? depth next
        some (value :: values, rest)
      else none
    | _ => none
termination_by (depth, text.length, 1)

/-- The entries of an inline table up to the brace that closes it. -/
def pairs? (depth : Nat) (text : List Char) :
    Option (List (List String × String × Value) × List Char) := do
  let (path, key, rest) ← key? text
  let rest ← mark? '=' rest
  let start := skipSpace rest
  if start.length < text.length then
    let (value, rest) ← value? depth start
    match skipSpace rest with
    | '\x7d' :: rest => some ([(path, key, value)], rest)
    | ',' :: rest =>
      if rest.length < text.length then
        let (pairs, rest) ← pairs? depth rest
        some ((path, key, value) :: pairs, rest)
      else none
    | _ => none
  else none
termination_by (depth, text.length, 1)

end

end EvmDisasm.Toml
