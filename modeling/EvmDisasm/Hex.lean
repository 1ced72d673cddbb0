import EvmDisasm.Basic
import EvmDisasm.Text

/-!
# Hexadecimal digits

Bytes and numbers written with hexadecimal digits. Digits are written in lower case and read in
either case. The reader works on the bytes of a text and reports the first byte that is no digit;
it gives back what the writer was given (`decode_encode`).
-/

namespace EvmDisasm.Hex

/-! ## Writing

Digits are written in lower case. -/

/-- The two digits of a byte, the upper half first. -/
def byteDigits (b : UInt8) : List Char :=
  [Nat.digitChar (b.toNat / 16), Nat.digitChar (b.toNat % 16)]

def encode (bytes : Bytes) : List Char :=
  bytes.flatMap byteDigits

def marked (bytes : Bytes) : String :=
  "0x" ++ String.ofList (encode bytes)

/-- A number with the mark of hexadecimal and at least `width` digits. -/
def number (width n : Nat) : String :=
  "0x" ++ String.ofList ((Nat.toDigits 16 n).leftpad width '0')

/-! ## Reading

Either case is accepted. Of what is not, the first thing that is wrong is reported. -/

inductive Error where
  /-- The number of digits is odd. -/
  | oddLength
  /-- The digits stand for more or for fewer bytes than are asked for. -/
  | wrongSize
  /-- The byte at the given index is no digit. -/
  | invalidDigit (byte : UInt8) (index : Nat)
deriving DecidableEq, Repr

/-- The wording of the error. A byte that is no digit is shown as the character of that number. -/
def Error.message : Error → String
  | .oddLength => "Odd number of digits"
  | .wrongSize => "Invalid string length"
  | .invalidDigit byte index =>
    "Invalid character " ++ Text.quotedChar (Char.ofNat byte.toNat) ++ " at position " ++
      toString index

/-- The value of a digit, given as its ASCII byte. -/
def digitValue? (b : UInt8) : Option Nat :=
  let n := b.toNat
  if 48 ≤ n ∧ n ≤ 57 then some (n - 48)
  else if 97 ≤ n ∧ n ≤ 102 then some (n - 87)
  else if 65 ≤ n ∧ n ≤ 70 then some (n - 55)
  else none

def isDigit (b : UInt8) : Bool :=
  (digitValue? b).isSome

def isDigitChar (c : Char) : Bool :=
  let n := c.toNat
  (48 ≤ n && n ≤ 57) || (97 ≤ n && n ≤ 102) || (65 ≤ n && n ≤ 70)

def value (digits : List Char) : Nat :=
  digits.foldl (fun n c => 16 * n + (digitValue? (UInt8.ofNat c.toNat)).getD 0) 0

/-- The bytes that pairs of digits stand for, onto `acc` in reverse. -/
def packOnto (acc : Bytes) : Bytes → Bytes
  | high :: low :: rest =>
    packOnto (UInt8.ofNat (16 * (digitValue? high).getD 0 + (digitValue? low).getD 0) :: acc) rest
  | _ => acc.reverse

/-- The bytes that the digits stand for. An odd number of them is refused first, then the first
byte that is no digit. -/
def decode (digits : Bytes) : Except Error Bytes :=
  if digits.length % 2 = 1 then .error .oddLength
  else
    match digits.find? (!isDigit ·) with
    | some byte => .error (.invalidDigit byte (digits.findIdx (!isDigit ·)))
    | none => .ok (packOnto [] digits)

/-- The bytes that the digits stand for, where `size` of them are asked for. Another number of bytes
is refused after an odd number of digits and before a byte that is no digit. -/
def decodeExactly (size : Nat) (digits : Bytes) : Except Error Bytes :=
  if digits.length % 2 = 1 then .error .oddLength
  else if digits.length / 2 ≠ size then .error .wrongSize
  else decode digits

/-- The bytes that digits with the mark of hexadecimal stand for. -/
def ofMarked? : List Char → Option Bytes
  | '0' :: 'x' :: digits => (decode (Text.utf8 digits)).toOption
  | _ => none

/-- The number that digits with the mark of hexadecimal stand for. -/
def toNumber? : List Char → Option Nat
  | '0' :: 'x' :: digits =>
    if !digits.isEmpty && digits.all isDigitChar then some (value digits) else none
  | _ => none

/-! ## Reading what was written

All that the writer puts out are digits, two for each byte, so the reader refuses none of it and
packs the pairs again. -/

/-- The ASCII byte of the digit of a value below 16. -/
def digitByte (n : Nat) : UInt8 :=
  UInt8.ofNat (Nat.digitChar n).toNat

theorem utf8EncodeChar_digitChar {n : Nat} (h : n < 16) :
    String.utf8EncodeChar (Nat.digitChar n) = [digitByte n] := by
  have : ∀ n : Fin 16, String.utf8EncodeChar (Nat.digitChar n) = [digitByte n] := by decide
  exact this ⟨n, h⟩

theorem digitValue?_digitByte {n : Nat} (h : n < 16) : digitValue? (digitByte n) = some n := by
  have : ∀ n : Fin 16, digitValue? (digitByte n) = some n.val := by decide
  exact this ⟨n, h⟩

/-- The bytes of what is written, pair by pair. -/
theorem utf8_encode (bytes : Bytes) :
    Text.utf8 (encode bytes) =
      bytes.flatMap fun b => [digitByte (b.toNat / 16), digitByte (b.toNat % 16)] := by
  induction bytes with
  | nil => rfl
  | cons b rest ih =>
    have hb := b.toNat_lt
    simp only [Text.utf8, encode] at ih ⊢
    simp only [List.flatMap_cons, List.flatMap_append, ih, byteDigits, List.flatMap_nil,
      utf8EncodeChar_digitChar (show b.toNat / 16 < 16 by omega),
      utf8EncodeChar_digitChar (show b.toNat % 16 < 16 by omega)]
    rfl

theorem packOnto_digitBytes (acc bytes : Bytes) :
    packOnto acc (bytes.flatMap fun b => [digitByte (b.toNat / 16), digitByte (b.toNat % 16)]) =
      acc.reverse ++ bytes := by
  -- each pair goes onto what is already packed, so that varies
  induction bytes generalizing acc with
  | nil => simp [packOnto]
  | cons b rest ih =>
    have hb := b.toNat_lt
    simp only [List.flatMap_cons, List.cons_append, List.nil_append, packOnto, ih,
      digitValue?_digitByte (show b.toNat / 16 < 16 by omega),
      digitValue?_digitByte (show b.toNat % 16 < 16 by omega), Option.getD_some]
    rw [show 16 * (b.toNat / 16) + b.toNat % 16 = b.toNat by omega]
    simp

/-- Reading the digits of a string of bytes gives the bytes back. -/
theorem decode_encode (bytes : Bytes) : decode (Text.utf8 (encode bytes)) = .ok bytes := by
  have even : (Text.utf8 (encode bytes)).length % 2 = 0 := by
    rw [utf8_encode]
    induction bytes with
    | nil => rfl
    | cons b rest ih => 
      simp only [List.flatMap_cons, List.length_append, List.length_cons, List.length_nil]
      omega
  -- the reader would complain about a byte that is no digit, and there is none
  have digits : (Text.utf8 (encode bytes)).find? (!isDigit ·) = none := by
    rw [utf8_encode, List.find?_eq_none]
    intro x hx
    simp only [List.mem_flatMap, List.mem_cons, List.not_mem_nil, or_false] at hx
    obtain ⟨b, -, hx⟩ := hx
    have hb := b.toNat_lt
    have : isDigit x = true := by
      rcases hx with rfl | rfl
      · simp [isDigit, digitValue?_digitByte (show b.toNat / 16 < 16 by omega)]
      · simp [isDigit, digitValue?_digitByte (show b.toNat % 16 < 16 by omega)]
    simp [this]
  unfold decode
  rw [if_neg (by omega), digits, utf8_encode, packOnto_digitBytes]
  rfl

/-! ## The body of a text

A text that holds digits may have blank characters around it and, before the digits, one mark that
says that they are hexadecimal. What is left without them is its body. -/

/-- The text without the mark of hexadecimal at its start, if it has one. -/
def dropMark : List Char → List Char
  | '0' :: 'x' :: rest => rest
  | '0' :: 'X' :: rest => rest
  | text => text

/-- The text without the blank characters around it and then without the mark. -/
def body (text : String) : List Char :=
  dropMark (Text.trim text.toList)

end EvmDisasm.Hex
