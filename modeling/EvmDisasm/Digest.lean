import EvmDisasm.Digest.Keccak
import EvmDisasm.Hex

/-!
# Digests

The Keccak-256 digest of a piece of code, and its text of 64 hexadecimal digits. Digests are ordered
byte by byte.
-/

namespace EvmDisasm

/-- A string of 32 bytes that stands for a piece of code. -/
structure Digest where
  bytes : Bytes
  length_bytes : bytes.length = 32
deriving DecidableEq

namespace Digest

instance : Ord Digest := ⟨fun a b => compare a.bytes b.bytes⟩

/-- The first 32 of the bytes, with zeros after them if there are fewer. -/
def ofSlice (bytes : Bytes) : Digest :=
  ⟨(bytes.take 32).rightpad 32 0, by simp only [List.length_rightpad, List.length_take]; omega⟩

def zero : Digest :=
  ⟨List.replicate 32 0, List.length_replicate⟩

def hash (data : Bytes) : Digest :=
  ⟨Keccak.hash data, Keccak.length_hash data⟩

/-- The digest of the data after its first `skip` bytes. -/
def hashAfter (skip : Nat) (data : Bytes) : Digest :=
  hash (data.drop skip)

def isZero (digest : Digest) : Bool :=
  digest.bytes.all (· == 0)

def hex (digest : Digest) : String :=
  String.ofList (Hex.encode digest.bytes)

def text (digest : Digest) : String :=
  Hex.marked digest.bytes

inductive Error where
  /-- The body of the text is that many bytes long. -/
  | wrongLength (length : Nat)
  /-- The body has the right length, but holds something that is no digit. -/
  | invalidDigits (body : List Char) (cause : Hex.Error)
deriving DecidableEq, Repr

def Error.message : Error → String
  | .wrongLength length => "digest must be 64 hex digits, got " ++ toString length
  | .invalidDigits body _ => "invalid digest " ++ Text.quoted body

def Error.causes : Error → List String
  | .wrongLength _ => []
  | .invalidDigits _ cause => [cause.message]

/-- The digest that a text stands for. Blank characters around it, a mark of hexadecimal and the
case of the digits do not matter; a text without a body is the digest of zeros. -/
def parse (text : String) : Except Error Digest :=
  let body := Hex.body text
  let digits := Text.utf8 body
  if digits.isEmpty then .ok zero
  else if digits.length ≠ 64 then .error (.wrongLength digits.length)
  else
    match Hex.decodeExactly 32 digits with
    | .ok bytes => .ok (ofSlice bytes)
    | .error cause => .error (.invalidDigits body cause)

theorem ofSlice_bytes (digest : Digest) : ofSlice digest.bytes = digest := by
  obtain ⟨bytes, length⟩ := digest
  simp [ofSlice, List.rightpad, length, List.take_of_length_le]

end Digest

end EvmDisasm
