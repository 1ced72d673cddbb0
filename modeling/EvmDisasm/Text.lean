import EvmDisasm.Text.Unprintable

/-!
# Blank characters and quoted texts

The characters with the Unicode property `White_Space` are blank, and texts are trimmed by cutting
them off at the ends.

Messages show a text or a character so that a reader can tell what it holds: between quotes, with a
backslash before whatever would end the quotes or start an escape, short escapes for the common
controls, and the code point in braces for every other character that does not show.
-/

namespace EvmDisasm.Text

/-! ## Blank characters

Space, the controls from tab to carriage return, and what Unicode has of this kind beyond ASCII. -/

/-- Whether a character has the Unicode property `White_Space`. -/
def isBlank (c : Char) : Bool :=
  let n := c.toNat
  (9 ≤ n && n ≤ 13) || n == 0x20 || n == 0x85 || n == 0xa0 || n == 0x1680 ||
    (0x2000 ≤ n && n ≤ 0x200a) || n == 0x2028 || n == 0x2029 || n == 0x202f || n == 0x205f ||
    n == 0x3000

def trimEnd (text : List Char) : List Char :=
  (text.reverse.dropWhile isBlank).reverse

def trim (text : List Char) : List Char :=
  trimEnd (text.dropWhile isBlank)

/-! ## Quoted texts

The escapes are those of a literal, so what is shown in quotes could be copied into a program. -/

/-- The escape `\u{...}` with the code point of the character. -/
def codePointEscape (c : Char) : List Char :=
  ['\\', 'u', '\x7b'] ++ Nat.toDigits 16 c.toNat ++ ['\x7d']

/-- A character between quotes, where `quote` is the kind of quote around it. -/
def escapeChar (quote c : Char) : List Char :=
  if c = quote ∨ c = '\\' then ['\\', c]
  else if c = '\n' then ['\\', 'n']
  else if c = '\r' then ['\\', 'r']
  else if c = '\t' then ['\\', 't']
  else if c = '\x00' then ['\\', '0']
  else if isUnprintable c then codePointEscape c
  else [c]

def quoted (text : List Char) : String :=
  String.ofList ('"' :: text.flatMap (escapeChar '"') ++ ['"'])

def quotedChar (c : Char) : String :=
  String.ofList ('\x27' :: escapeChar '\x27' c ++ ['\x27'])

end EvmDisasm.Text
