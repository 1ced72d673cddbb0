import EvmDisasm.Toml.Quoted

/-!
# Keys

A key is a bare word or a text between quotes, or several of them with points between. It has at
most 99 parts.
-/

namespace EvmDisasm.Toml

/-- The depth at which nesting is refused, in keys and in values. -/
def depthLimit : Nat := 100

def isBare (c : Char) : Bool :=
  c.isAlphanum || c == '_' || c == '-'

def keyPart? (text : List Char) : Option (String × List Char) :=
  match text with
  | '"' :: _ | '\x27' :: _ => (singleLine? text).map fun (part, rest) => (String.ofList part, rest)
  | _ =>
    let part := text.takeWhile isBare
    if part.isEmpty then none else some (String.ofList part, text.dropWhile isBare)

/-- The parts of a key, of which there are at most `limit`, with the blanks around them. -/
def keyParts? : (limit : Nat) → List Char → Option (List String × List Char)
  | 0, _ => none
  | limit + 1, text => do
    let (part, rest) ← keyPart? (skipSpace text)
    match skipSpace rest with
    | '.' :: rest =>
      let (parts, rest) ← keyParts? limit rest
      some (part :: parts, rest)
    | rest => some ([part], rest)

/-- A key with the blanks around it, as the parts before its last one and that one. -/
def key? (text : List Char) : Option (List String × String × List Char) := do
  let (parts, rest) ← keyParts? (depthLimit - 1) text
  let last ← parts.getLast?
  some (parts.dropLast, last, rest)

end EvmDisasm.Toml
