import EvmDisasm.Toml.Value

/-!
# Documents

A document is a row of lines: headers of tables, keys with values, comments and blank lines. Keys
with values belong to the table of the header before them.
-/

namespace EvmDisasm.Toml

/-- What was read of a document: its tables, and the names that lead to the table of the header
before the place. -/
structure Progress where
  root : Entries
  current : List String

inductive Line where
  | header (path : List String) (key : String)
  | element (path : List String) (key : String)
  | pair (path : List String) (key : String) (value : Value)

/-- Take in a line. -/
def Progress.add? (progress : Progress) : Line → Option Progress
  | .header path key =>
    (progress.root.insertTable path key).map (⟨·, path ++ [key]⟩)
  | .element path key =>
    (progress.root.appendTable path key).map (⟨·, path ++ [key]⟩)
  | .pair path key value =>
    (progress.root.within false (Entries.insertDotted path key value) progress.current .header).map
      (⟨·, progress.current⟩)

def line? (text : List Char) : Option (Line × List Char) :=
  match text with
  | '[' :: '[' :: rest => do
    let (path, key, rest) ← key? rest
    let rest ← mark? ']' rest
    let rest ← mark? ']' rest
    some (.element path key, rest)
  | '[' :: rest => do
    let (path, key, rest) ← key? rest
    let rest ← mark? ']' rest
    some (.header path key, rest)
  | _ => do
    let (path, key, rest) ← key? text
    let rest ← mark? '=' rest
    let (value, rest) ← value? (depthLimit - 1) (skipSpace rest)
    some (.pair path key value, rest)

def lines? (progress : Progress) (text : List Char) : Option Progress :=
  match skipLines text with
  | [] => some progress
  | start => do
    let (line, rest) ← line? start
    let progress ← progress.add? line
    let rest ← lineEnd? rest
    if rest.length < text.length then lines? progress rest else none
termination_by text.length

/-- The entries of the root table of a document, if the document is valid. -/
def parse? (text : String) : Option Entries :=
  let chars := match text.toList with
    | '\ufeff' :: rest => rest
    | chars => chars
  (lines? ⟨[], []⟩ chars).map (·.root)

end EvmDisasm.Toml
