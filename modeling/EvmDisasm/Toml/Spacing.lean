/-!
# Blanks, line ends and comments

What stands between the parts of a document without meaning anything. A line ends with a line feed,
which a carriage return may precede.
-/

namespace EvmDisasm.Toml

def isSpace (c : Char) : Bool :=
  c == ' ' || c == '\t'

/-- Whether the character may stand in a comment or, but for quotes, in a text: any but controls. -/
def isPlain (c : Char) : Bool :=
  c == '\t' || (0x20 ≤ c.toNat && c.toNat != 0x7f)

def skipSpace (text : List Char) : List Char :=
  text.dropWhile isSpace

def newline? : List Char → Option (List Char)
  | '\n' :: rest => some rest
  | '\r' :: '\n' :: rest => some rest
  | _ => none

/-- The text after the rest of a line that holds no more than blanks and a comment. -/
def lineEnd? (text : List Char) : Option (List Char) :=
  let after :=
    match skipSpace text with
    | '#' :: rest => rest.dropWhile isPlain
    | rest => rest
  if after.isEmpty then some [] else newline? after

/-- The text after the blanks, comments and line ends at its start. -/
def skipLinesFrom (inComment : Bool) : List Char → List Char
  | [] => []
  | '\n' :: rest => skipLinesFrom false rest
  | '\r' :: '\n' :: rest => skipLinesFrom false rest
  | c :: rest =>
    if inComment then
      if isPlain c then skipLinesFrom true rest else c :: rest
    else if isSpace c then skipLinesFrom false rest
    else if c = '#' then skipLinesFrom true rest
    else c :: rest

/-- The text after the blanks, comments and line ends at its start. -/
def skipLines (text : List Char) : List Char :=
  skipLinesFrom false text

/-- The text after the blanks and line ends at its start. -/
def skipBlankLines : List Char → List Char
  | [] => []
  | '\n' :: rest => skipBlankLines rest
  | '\r' :: '\n' :: rest => skipBlankLines rest
  | c :: rest => if isSpace c then skipBlankLines rest else c :: rest

theorem length_dropWhile_le {α : Type} (p : α → Bool) (l : List α) :
    (l.dropWhile p).length ≤ l.length :=
  (List.dropWhile_suffix p).length_le

theorem length_skipSpace_le (text : List Char) : (skipSpace text).length ≤ text.length :=
  length_dropWhile_le _ _

theorem length_skipBlankLines_le (text : List Char) :
    (skipBlankLines text).length ≤ text.length := by
  fun_induction skipBlankLines text <;> grind

theorem length_newline?_lt {text rest : List Char} (h : newline? text = some rest) :
    rest.length < text.length := by
  unfold newline? at h
  split at h <;> grind

end EvmDisasm.Toml
