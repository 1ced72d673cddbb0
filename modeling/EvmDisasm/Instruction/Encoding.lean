import EvmDisasm.Instruction.Cursor

/-!
# Lists of instructions as code

The bytes that a list of instructions stands for, and which lists can be the decoding of some code.
-/

namespace EvmDisasm

namespace Instruction

def encode (inst : Instruction) : Bytes :=
  inst.code :: inst.immediate.getD []

def encodeAll (insts : List Instruction) : Bytes :=
  insts.flatMap encode

/-- The instruction, `distance` bytes further on. -/
def shift (distance : Nat) (inst : Instruction) : Instruction :=
  { inst with offset := inst.offset + distance }

/-- Each instruction starts where the one before it ends, and the first one at `offset`. -/
def ChainedFrom (offset : Nat) : List Instruction → Prop
  | [] => True
  | inst :: rest => inst.offset = offset ∧ ChainedFrom inst.nextOffset rest

/-- The lists of instructions that could stand in code: they follow each other from offset zero,
each is what its first byte says, and only the last one may lack immediate bytes. -/
structure WellFormed (insts : List Instruction) : Prop where
  chained : ChainedFrom 0 insts
  opcode_eq : ∀ inst ∈ insts, inst.opcode = Opcode.ofByte? inst.code
  isSome_immediate : ∀ inst ∈ insts, inst.immediate.isSome = inst.opcode.any Opcode.isPush
  presentLength_le : ∀ inst ∈ insts, inst.presentLength ≤ inst.nominalLength
  complete : ∀ inst ∈ insts.dropLast, inst.presentLength = inst.nominalLength

end Instruction

end EvmDisasm
