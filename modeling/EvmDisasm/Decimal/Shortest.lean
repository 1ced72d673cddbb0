/-!
# The shortest decimal of a floating point number

A finite 64-bit floating point number is the nearest one to every real in an interval around it.
Among the decimals in that interval, the one with the fewest digits is found on the coarsest power
of ten that has a multiple there; of two neighbouring multiples the nearer one is taken, and the
even one if they are equally near.
-/

namespace EvmDisasm.Decimal

/-- The number `significand * 2 ^ exponent`, as the bits of a positive floating point number give
it. -/
structure Binary where
  significand : Nat
  exponent : Int
  /-- Whether the number is a power of two with half the usual distance to the one below it. -/
  narrowBelow : Bool

/-- The bit of the significand that is not among the 52 bits that are stored of it. -/
def hiddenBit : Nat := 0x10000000000000

/-- The number that the bits stand for, apart from its sign; they must be those of a finite one. -/
def Binary.ofBits (bits : UInt64) : Binary :=
  let fraction := bits.toNat % hiddenBit
  let biased := bits.toNat / hiddenBit % 2048
  if biased = 0 then ⟨fraction, -1074, false⟩
  else ⟨hiddenBit + fraction, Int.ofNat biased - 1075, fraction = 0 && biased > 1⟩

/-- The multiple of `10 ^ scale` nearest to the number, as the factor of the power, if it lies in
the interval around the number. -/
def Binary.onGrid? (x : Binary) (scale : Int) : Option Nat :=
  -- The number is `4 * significand` units, and a unit is `unit / step` times the power of ten.
  let unit := Nat.pow 2 (x.exponent - 2).toNat * Nat.pow 10 (-scale).toNat
  let step := Nat.pow 10 scale.toNat * Nat.pow 2 (2 - x.exponent).toNat
  let value := 4 * x.significand * unit
  let low := (4 * x.significand - if x.narrowBelow then 1 else 2) * unit
  let high := (4 * x.significand + 2) * unit
  let inside (factor : Nat) : Bool :=
    if x.significand % 2 = 0 then low ≤ factor * step && factor * step ≤ high
    else low < factor * step && factor * step < high
  let below := value / step
  let toBelow := value - below * step
  let toAbove := (below + 1) * step - value
  let nearBelow := toBelow < toAbove || (toBelow == toAbove && below % 2 == 0)
  match inside below, inside (below + 1) with
  | true, true => some (if nearBelow then below else below + 1)
  | true, false => some below
  | false, true => some (below + 1)
  | false, false => none

/-- The factor and the exponent of the shortest decimal of the number. -/
def Binary.shortest (x : Binary) : Nat × Int :=
  let scales := (List.range 650).map fun n => 310 - Int.ofNat n
  (scales.findSome? fun scale => (x.onGrid? scale).map (·, scale)).getD (0, 0)

/-- The text of a row of digits with `exponent` as the power of ten of the first of them: with a
point where the power is from -5 to 15, and otherwise with the power written after it. -/
def text (digits : List Char) (exponent : Int) : List Char :=
  if 0 ≤ exponent ∧ exponent ≤ 15 then
    let whole := exponent.toNat + 1
    let fraction := digits.drop whole
    (digits.take whole).rightpad whole '0' ++ ['.'] ++ if fraction.isEmpty then ['0'] else fraction
  else if -5 ≤ exponent ∧ exponent < 0 then
    ['0', '.'] ++ List.replicate ((-exponent).toNat - 1) '0' ++ digits
  else
    digits.take 1 ++ (if digits.length > 1 then '.' :: digits.drop 1 else []) ++
      ['e', if exponent < 0 then '-' else '+'] ++ Nat.toDigits 10 exponent.natAbs

def ofFloat (x : Float) : String :=
  if x.isNaN then "NaN"
  else
    let sign := if x.toBits ≥ 0x8000000000000000 then "-" else ""
    if x.isInf then sign ++ "inf"
    else if x == 0 then sign ++ "0.0"
    else
      let (factor, scale) := (Binary.ofBits x.toBits).shortest
      let digits := Nat.toDigits 10 factor
      sign ++ String.ofList (text digits (scale + digits.length - 1))

end EvmDisasm.Decimal
