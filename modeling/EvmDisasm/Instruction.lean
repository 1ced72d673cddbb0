import EvmDisasm.Hex
import EvmDisasm.Opcode

/-!
# Decoded instructions

An instruction as it stands in code: where it starts, the byte there, the opcode that the byte
stands for and the immediate bytes that follow. Reading an instruction never fails. A byte that
stands for no opcode is an instruction too, of one byte, and a push at the end of the code keeps the
immediate bytes that are there, be it none at all.
-/

namespace EvmDisasm

/-- An instruction at a place in code. -/
structure Instruction where
  /-- The offset of its first byte. -/
  offset : Nat
  /-- Its first byte. -/
  code : UInt8
  /-- The opcode that the first byte stands for, if there is one. -/
  opcode : Option Opcode
  /-- The immediate bytes that are present; only a push has them. -/
  immediate : Option Bytes
deriving DecidableEq, Repr

namespace Instruction

/-- The instruction that starts at `offset` with the byte `code`, where `following` are the bytes
after that one. -/
def read (offset : Nat) (code : UInt8) (following : Bytes) : Instruction :=
  let opcode := Opcode.ofByte? code
  { offset, code, opcode
    immediate := (opcode.filter Opcode.isPush).map fun op => following.take op.immediateLength }

def isKnown (inst : Instruction) : Bool :=
  inst.opcode.isSome

/-- The mnemonic of the opcode, or a text that shows the byte if there is none. -/
def mnemonic (inst : Instruction) : String :=
  match inst.opcode with
  | some op => op.mnemonic
  | none => "UNKNOWN(" ++ Hex.number 2 inst.code.toNat ++ ")"

def nominalLength (inst : Instruction) : Nat :=
  match inst.opcode with
  | some op => op.immediateLength
  | none => 0

def presentLength (inst : Instruction) : Nat :=
  match inst.immediate with
  | some bytes => bytes.length
  | none => 0

/-- Whether the code ends before the immediate does. -/
def isTruncated (inst : Instruction) : Bool :=
  inst.immediate.any fun bytes => bytes.length < inst.nominalLength

def encodedLength (inst : Instruction) : Nat :=
  1 + inst.presentLength

def nextOffset (inst : Instruction) : Nat :=
  inst.offset + inst.encodedLength

/-- The immediate as the processor reads it: zeros stand for the bytes past the end of the code. -/
def paddedImmediate (inst : Instruction) : Option Bytes :=
  inst.immediate.map fun bytes => (bytes.take inst.nominalLength).rightpad inst.nominalLength 0

/-- The word that the instruction pushes, its most significant byte first. -/
def pushValue (inst : Instruction) : Option Bytes :=
  inst.paddedImmediate.map fun bytes => bytes.leftpad wordSize 0

/-- The digits of the immediate bytes that are present, marked as hexadecimal. -/
def immediateText (inst : Instruction) : Option String :=
  inst.immediate.map Hex.marked

/-- The line of a listing: offset, mnemonic and immediate, two blanks apart. -/
def text (inst : Instruction) : String :=
  Hex.number 4 inst.offset ++ "  " ++ inst.mnemonic ++
    match inst.immediateText with
    | some digits => "  " ++ digits
    | none => ""

end Instruction

end EvmDisasm
