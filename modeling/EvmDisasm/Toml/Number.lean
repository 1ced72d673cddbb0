import EvmDisasm.Hex

/-!
# Numbers

Integers in four bases and floating point numbers. An underscore may stand between two digits. An
integer has to fit into 64 bits with a sign, and a positive floating point number into the finite
ones of 64 bits. Digits of a power of ten count only until the power reaches 65536.
-/

namespace EvmDisasm.Toml

def isDecimal (c : Char) : Bool :=
  '0' ≤ c && c ≤ '9'

/-- The digits that follow those in `acc`, without the underscores between them. -/
def moreDigits? (isDigit : Char → Bool) (acc : List Char) :
    List Char → Option (List Char × List Char)
  | [] => some (acc.reverse, [])
  | ['_'] => none
  | '_' :: c :: rest => if isDigit c then moreDigits? isDigit (c :: acc) rest else none
  | c :: rest =>
    if isDigit c then moreDigits? isDigit (c :: acc) rest else some (acc.reverse, c :: rest)

/-- One digit or more, without the underscores between them. -/
def digits? (isDigit : Char → Bool) : List Char → Option (List Char × List Char)
  | [] => none
  | c :: rest => if isDigit c then moreDigits? isDigit [c] rest else none

/-- The sign at the start of a text, which is true for a minus, and what follows it. -/
def sign : List Char → Bool × List Char
  | '-' :: rest => (true, rest)
  | '+' :: rest => (false, rest)
  | text => (false, text)

/-- The digits of a decimal number, of which only the number zero starts with a zero. -/
def wholeDigits? : List Char → Option (List Char × List Char)
  | '0' :: rest => some (['0'], rest)
  | text => digits? isDecimal text

def digitsValue (base : Nat) (digits : List Char) : Nat :=
  digits.foldl (fun n c => base * n + (Hex.digitValue? (UInt8.ofNat c.toNat)).getD 0) 0

inductive Number where
  | integer (value : Int)
  | float (literal : List Char)

/-- The least number above all integers that fit into 64 bits with a sign. -/
def integerLimit : Nat := 0x8000000000000000

/-- An integer with the mark of its base in front. -/
def radixInteger? (base : Nat) (isDigit : Char → Bool) (text : List Char) :
    Option (Number × List Char) :=
  (digits? isDigit text).bind fun (digits, rest) =>
    let value := digitsValue base digits
    if value < integerLimit then some (.integer value, rest) else none

def fraction? : List Char → Option (Option (List Char) × List Char)
  | '.' :: rest => (digits? isDecimal rest).map fun (digits, rest) => (some digits, rest)
  | text => some (none, text)

/-- The power from which on the digits that follow are passed over. -/
def powerLimit : Nat := 0x10000

/-- The power that digits stand for. It is read from the left only until it reaches the limit. -/
def powerValue (digits : List Char) : Nat :=
  digits.foldl (fun n c => if n < powerLimit then 10 * n + digitsValue 10 [c] else n) 0

/-- The power of ten after an `e`, if there is one. -/
def power? : List Char → Option (Option Int × List Char)
  | c :: rest =>
    if c = 'e' ∨ c = 'E' then
      let (negative, rest) := sign rest
      (digits? isDecimal rest).map fun (digits, rest) =>
        let value : Int := powerValue digits
        (some (if negative then -value else value), rest)
    else some (none, c :: rest)
  | [] => some (none, [])

/-- Whether the number that the digits give with the power of ten is too large for the finite
floating point numbers. Only a number of about as many digits as they have needs a closer look. -/
def overflows (digits : List Char) (power : Int) : Bool :=
  let significant := digits.dropWhile (· == '0')
  let length := significant.length + power
  !significant.isEmpty && 300 ≤ length &&
    (400 < length ||
      Nat.pow 2 1024 - Nat.pow 2 970 ≤
        digitsValue 10 significant * Nat.pow 10 power.toNat / Nat.pow 10 (-power).toNat)

/-- A decimal number, or one of the words for infinity and for no number. -/
def decimal? (text : List Char) : Option (Number × List Char) :=
  let (negative, unsigned) := sign text
  let float (rest : List Char) := Number.float (text.take (text.length - rest.length))
  match unsigned with
  | 'i' :: 'n' :: 'f' :: rest => some (float rest, rest)
  | 'n' :: 'a' :: 'n' :: rest => some (float rest, rest)
  | _ => do
    let (whole, rest) ← wholeDigits? unsigned
    let (fraction, rest) ← fraction? rest
    let (power, rest) ← power? rest
    if fraction.isNone && power.isNone then
      let value := digitsValue 10 whole
      if negative then
        if value ≤ integerLimit then some (.integer (-(Int.ofNat value)), rest) else none
      else if value < integerLimit then some (.integer (Int.ofNat value), rest) else none
    else
      let fraction := fraction.getD []
      if !negative && overflows (whole ++ fraction) (power.getD 0 - fraction.length) then none
      else some (float rest, rest)

def number? : List Char → Option (Number × List Char)
  | '0' :: 'x' :: rest => radixInteger? 16 Hex.isDigitChar rest
  | '0' :: 'o' :: rest => radixInteger? 8 (fun c => '0' ≤ c && c ≤ '7') rest
  | '0' :: 'b' :: rest => radixInteger? 2 (fun c => c == '0' || c == '1') rest
  | text => decimal? text

end EvmDisasm.Toml
