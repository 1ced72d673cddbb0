import EvmDisasm.Hex
import EvmDisasm.Toml.Spacing

/-!
# Texts between quotes

The four kinds of quoted texts: double quotes admit escapes and single quotes do not, and three
quotes in a row admit line ends. Up to two quotes may stand anywhere in a text between three of
them, also right before its end.
-/

namespace EvmDisasm.Toml

/-- The character whose code point the digits give. -/
def codePoint? (digits : List Char) : Option Char :=
  if digits.all Hex.isDigitChar then
    let n := Hex.value digits
    if n.isValidChar then some (Char.ofNat n) else none
  else none

/-- The character whose code point the first `count` digits give, and what follows them. -/
def codePointEscape? (count : Nat) (text : List Char) : Option (Char × List Char) :=
  let digits := text.take count
  if digits.length < count then none
  else
    match codePoint? digits with
    | some c => some (c, text.drop count)
    | none => none

/-- The character that an escape stands for, given what follows the backslash, and what follows the
escape. -/
def escape? : List Char → Option (Char × List Char)
  | 'b' :: rest => some ('\x08', rest)
  | 't' :: rest => some ('\t', rest)
  | 'n' :: rest => some ('\n', rest)
  | 'f' :: rest => some ('\x0c', rest)
  | 'r' :: rest => some ('\r', rest)
  | '"' :: rest => some ('"', rest)
  | '\\' :: rest => some ('\\', rest)
  | 'u' :: rest => codePointEscape? 4 rest
  | 'U' :: rest => codePointEscape? 8 rest
  | _ => none

/-- An escape of a code point is taken from the front of the text. -/
theorem length_codePointEscape?_le {count : Nat} {text rest : List Char} {c : Char}
    (h : codePointEscape? count text = some (c, rest)) : rest.length ≤ text.length := by
  unfold codePointEscape? at h
  dsimp only at h
  split at h
  · simp at h
  · split at h
    · simp only [Option.some.injEq, Prod.mk.injEq] at h
      rw [← h.2, List.length_drop]
      omega
    · simp at h

/-- Every escape takes at least one character, so reading what is quoted comes to an end. -/
theorem length_escape?_lt {text rest : List Char} {c : Char} (h : escape? text = some (c, rest)) :
    rest.length < text.length := by
  unfold escape? at h
  split at h
  case h_8 => exact Nat.lt_succ_of_le (length_codePointEscape?_le h)
  case h_9 => exact Nat.lt_succ_of_le (length_codePointEscape?_le h)
  all_goals grind

/-- A text up to the double quote that closes it, after the characters in `acc` in reverse. -/
def basicOnto (acc : List Char) (text : List Char) : Option (List Char × List Char) :=
  match text with
  | [] => none
  | '"' :: rest => some (acc.reverse, rest)
  | '\\' :: rest =>
    match _h : escape? rest with
    | none => none
    | some (c, after) => basicOnto (c :: acc) after
  | c :: rest => if isPlain c then basicOnto (c :: acc) rest else none
termination_by text.length
decreasing_by
  · have := length_escape?_lt _h
    simp only [List.length_cons]
    omega
  · simp

/-- A text up to the three double quotes that close it, after the characters in `acc` in reverse. A
backslash at the end of a line drops all blanks and line ends that follow. -/
def multilineBasicOnto (acc : List Char) (text : List Char) : Option (List Char × List Char) :=
  match text with
  | [] => none
  | '"' :: '"' :: '"' :: rest =>
    match rest with
    | '"' :: '"' :: rest => some (('"' :: '"' :: acc).reverse, rest)
    | '"' :: rest => some (('"' :: acc).reverse, rest)
    | rest => some (acc.reverse, rest)
  | '"' :: rest => multilineBasicOnto ('"' :: acc) rest
  | '\n' :: rest => multilineBasicOnto ('\n' :: acc) rest
  | '\r' :: '\n' :: rest => multilineBasicOnto ('\n' :: acc) rest
  | '\\' :: rest =>
    match _n : newline? (skipSpace rest) with
    | some after => multilineBasicOnto acc (skipBlankLines after)
    | none =>
      match _h : escape? rest with
      | none => none
      | some (c, after) => multilineBasicOnto (c :: acc) after
  | c :: rest => if isPlain c then multilineBasicOnto (c :: acc) rest else none
termination_by text.length
decreasing_by
  · simp
  · simp
  · simp only [List.length_cons]
    omega
  · have := length_newline?_lt _n
    have := length_skipSpace_le rest
    have := length_skipBlankLines_le after
    simp only [List.length_cons]
    omega
  · have := length_escape?_lt _h
    simp only [List.length_cons]
    omega
  · simp

/-- A text up to the single quote that closes it. -/
def literal? (text : List Char) : Option (List Char × List Char) :=
  let inside (c : Char) := isPlain c && c != '\x27'
  match text.dropWhile inside with
  | '\x27' :: rest => some (text.takeWhile inside, rest)
  | _ => none

/-- A text up to the three single quotes that close it, after the characters in `acc` in reverse. -/
def multilineLiteralOnto (acc : List Char) : List Char → Option (List Char × List Char)
  | [] => none
  | '\x27' :: '\x27' :: '\x27' :: rest =>
    match rest with
    | '\x27' :: '\x27' :: rest => some (('\x27' :: '\x27' :: acc).reverse, rest)
    | '\x27' :: rest => some (('\x27' :: acc).reverse, rest)
    | rest => some (acc.reverse, rest)
  | '\n' :: rest => multilineLiteralOnto ('\n' :: acc) rest
  | '\r' :: '\n' :: rest => multilineLiteralOnto ('\n' :: acc) rest
  | c :: rest => if isPlain c then multilineLiteralOnto (c :: acc) rest else none

/-- A text between single quotes of its own line, which a key may be. -/
def singleLine? : List Char → Option (List Char × List Char)
  | '"' :: rest => basicOnto [] rest
  | '\x27' :: rest => literal? rest
  | _ => none

/-- A text of any of the four kinds. A line end right after three opening quotes is not in it. -/
def quoted? : List Char → Option (List Char × List Char)
  | '"' :: '"' :: '"' :: rest => multilineBasicOnto [] ((newline? rest).getD rest)
  | '\x27' :: '\x27' :: '\x27' :: rest => multilineLiteralOnto [] ((newline? rest).getD rest)
  | text => singleLine? text

end EvmDisasm.Toml
