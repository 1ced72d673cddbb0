import EvmDisasm.Hex

/-!
# Spellings of hexadecimal digits

Which texts stand for a row of digits, said without a reader. The writer puts digits in lower case
one after the other. Whoever else writes them may use either case, put a mark in front of them and
blank characters around them, and in code between them as well.

`FirstInvalid` says which byte a reader should complain about.
-/

namespace EvmDisasm.Hex

/-- What may stand in front of digits: a mark of hexadecimal, or nothing. -/
inductive Mark : List Char → Prop where
  | none : Mark []
  | lower : Mark ['0', 'x']
  | upper : Mark ['0', 'X']

/-- The text has blank characters at its ends, `written` between them, and perhaps a mark right in
front of `written`. -/
def Framed (written text : List Char) : Prop :=
  ∃ before mark after, (∀ c ∈ before, Text.isBlank c = true) ∧ Mark mark ∧
    (∀ c ∈ after, Text.isBlank c = true) ∧ text = before ++ mark ++ written ++ after

/-- The two texts are frames around the same digits, in whatever case these are written. -/
def Respelled (text other : String) : Prop :=
  ∃ digits digits', digits.all isDigitChar = true ∧ digits'.map Char.toLower = digits.map Char.toLower ∧
    Framed digits text.toList ∧ Framed digits' other.toList

/-- The second row is the first with some of its characters in upper case and with blank characters
put in anywhere. -/
inductive Spaced : List Char → List Char → Prop where
  | nil : Spaced [] []
  | blank {digits written : List Char} {c : Char} (hblank : Text.isBlank c = true)
      (rest : Spaced digits written) : Spaced digits (c :: written)
  | digit {digits written : List Char} (c : Char) (rest : Spaced digits written) :
      Spaced (c.toLower :: digits) (c :: written)

/-- The byte at the index is no digit, and all bytes before it are digits. -/
structure FirstInvalid (bytes : Bytes) (byte : UInt8) (index : Nat) : Prop where
  getElem?_eq : bytes[index]? = some byte
  not_digit : isDigit byte = false
  digit_before : ∀ i < index, ∀ b, bytes[i]? = some b → isDigit b = true

end EvmDisasm.Hex
