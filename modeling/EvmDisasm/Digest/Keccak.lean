import EvmDisasm.Basic

/-!
# Keccak-256

The sponge over the permutation Keccak-f[1600] with a rate of 136 bytes, a digest of 32 bytes and
the padding `0x01 0x00 … 0x00 0x80`. The state is 25 lanes of 64 bits; the lane in column `x` of row
`y` stands at index `x + 5 y`.
-/

namespace EvmDisasm.Keccak

/-- The state of the sponge. -/
abbrev Lanes := Vector UInt64 25

def rate : Nat := 136

/-- The constant that each round adds to the first lane. -/
def roundConstants : List UInt64 :=
  [0x0000000000000001, 0x0000000000008082, 0x800000000000808a, 0x8000000080008000,
   0x000000000000808b, 0x0000000080000001, 0x8000000080008081, 0x8000000000008009,
   0x000000000000008a, 0x0000000000000088, 0x0000000080008009, 0x000000008000000a,
   0x000000008000808b, 0x800000000000008b, 0x8000000000008089, 0x8000000000008003,
   0x8000000000008002, 0x8000000000000080, 0x000000000000800a, 0x800000008000000a,
   0x8000000080008081, 0x8000000000008080, 0x0000000080000001, 0x8000000080008008]

/-- The number of places by which the lane at each index is rotated. -/
def rotations : Vector UInt64 25 :=
  #v[0, 1, 62, 28, 27, 36, 44, 6, 55, 20, 3, 10, 43, 25, 39, 41, 45, 15, 21, 8, 18, 2, 61, 56, 14]

/-- A lane rotated towards its upper end by fewer than 64 places. -/
def rotateLeft (lane places : UInt64) : UInt64 :=
  lane <<< places ||| lane >>> (64 - places)

/-- The lane in column `x` of row `y`; both are taken modulo 5. -/
def laneAt (a : Lanes) (x y : Nat) : UInt64 :=
  a.get ⟨x % 5 + 5 * (y % 5), by omega⟩

/-- Add to every lane the parities of two columns beside it. -/
def theta (a : Lanes) : Lanes :=
  let parity : Vector UInt64 5 := Vector.ofFn fun x =>
    laneAt a x 0 ^^^ laneAt a x 1 ^^^ laneAt a x 2 ^^^ laneAt a x 3 ^^^ laneAt a x 4
  let change : Vector UInt64 5 := Vector.ofFn fun x =>
    parity.get (x + 4) ^^^ rotateLeft (parity.get (x + 1)) 1
  Vector.ofFn fun i => a[i] ^^^ change.get ⟨i.val % 5, by omega⟩

/-- Rotate each lane and move it to its new place: the lane of column `x` and row `y` goes to column
`y` and row `2 x + 3 y`. -/
def rhoPi (a : Lanes) : Lanes :=
  let rotated : Lanes := Vector.ofFn fun i => rotateLeft a[i] rotations[i]
  Vector.ofFn fun i => laneAt rotated (i.val % 5 + 3 * (i.val / 5)) (i.val % 5)

/-- Combine each lane with the two after it in its row. -/
def chi (a : Lanes) : Lanes :=
  Vector.ofFn fun i =>
    let x := i.val % 5
    let y := i.val / 5
    a[i] ^^^ (~~~laneAt a (x + 1) y &&& laneAt a (x + 2) y)

def round (a : Lanes) (constant : UInt64) : Lanes :=
  let b := chi (rhoPi (theta a))
  b.set 0 (b[0] ^^^ constant)

/-- The permutation Keccak-f[1600]. -/
def permute (a : Lanes) : Lanes :=
  roundConstants.foldl round a

/-- The number that eight bytes stand for, the first of them weighing least. -/
def littleEndian (bytes : Bytes) : UInt64 :=
  bytes.foldr (fun b n => n <<< 8 ||| b.toUInt64) 0

/-- The eight bytes of a lane, the least significant first. -/
def laneBytes (lane : UInt64) : Bytes :=
  (List.range 8).map fun i => (lane >>> (8 * UInt64.ofNat i)).toUInt8

/-- The lanes that a string of bytes fills, eight bytes each. -/
def lanesOf : Bytes → List UInt64
  | [] => []
  | b :: rest => littleEndian (b :: rest.take 7) :: lanesOf (rest.drop 7)
termination_by bytes => bytes.length

/-- The message with the padding that fills its last block. -/
def pad (message : Bytes) : Bytes :=
  let missing := rate - message.length % rate
  message ++ if missing = 1 then [0x81] else 0x01 :: List.replicate (missing - 2) 0 ++ [0x80]

/-- Take in the bytes one block after the other. -/
def absorb (state : Lanes) : Bytes → Lanes
  | [] => state
  | b :: rest =>
    let block := lanesOf (b :: rest.take (rate - 1))
    absorb (permute (Vector.ofFn fun i => state[i] ^^^ block.getD i 0)) (rest.drop (rate - 1))
termination_by bytes => bytes.length

def hash (message : Bytes) : Bytes :=
  ((absorb (Vector.replicate 25 0) (pad message)).toList.take 4).flatMap laneBytes

theorem length_hash (message : Bytes) : (hash message).length = 32 := by
  simp [hash, laneBytes, List.length_flatMap, List.map_const']

end EvmDisasm.Keccak
