import EvmDisasm.Checked
import EvmDisasm.Instruction.Cursor
import EvmDisasm.JumpTable

/-!
# Decoding with offsets that are checked

The arithmetic of decoding as a machine carries it out: on the whole code and an offset into it,
with a check wherever a sum, a difference, a slice or a mark could go wrong. A cursor has no such
places, since it carries the rest of the code with it.
-/

namespace EvmDisasm.Checked

/-- The instruction at the offset and the offset behind it, unless the code is at its end. -/
def next? (code : Bytes) (offset : Nat) : Except Failure (Option (Instruction × Nat)) :=
  match code[offset]? with
  | none => .ok none
  | some first => do
    let start ← add offset 1
    match Descriptor.lookup first with
    | none => return some (⟨offset, first, none, none⟩, start)
    | some entry =>
      if 0 < entry.immediateLength then
        let wanted ← add start entry.immediateLength
        let stop := min wanted code.length
        let bytes ← slice code start stop
        return some (⟨offset, first, Opcode.ofByte? first, some bytes⟩, stop)
      else return some (⟨offset, first, Opcode.ofByte? first, none⟩, start)

def countBounds (code : Bytes) (offset : Nat) : Except Failure (Nat × Nat) := do
  let remaining ← sub code.length offset
  return (min remaining 1, remaining)

def encodedLength (inst : Instruction) : Except Failure Nat :=
  add 1 inst.presentLength

def nextOffset (inst : Instruction) : Except Failure Nat := do
  add inst.offset (← encodedLength inst)

/-- The number of immediate bytes that the warning of a truncated instruction gives as present. -/
def warnedLength (inst : Instruction) : Except Failure Nat := do
  sub (← encodedLength inst) 1

/-- The word that the instruction pushes: the padded immediate, put at the end of a word of
zeros. -/
def pushValue (inst : Instruction) : Except Failure (Option Bytes) :=
  match inst.paddedImmediate with
  | none => .ok none
  | some bytes => do
    let start ← sub wordSize bytes.length
    return some (← overwrite (List.replicate wordSize 0) start bytes)

def mark (table : JumpTable) (offset : Nat) : Except Failure JumpTable :=
  if offset < table.marks.size then .ok (table.mark offset) else .error .outOfBounds

def visit (table : JumpTable) (inst : Instruction) : Except Failure JumpTable :=
  if inst.opcode = some .jumpDest then mark table inst.offset else .ok table

def analyze (code : Bytes) : Except Failure JumpTable :=
  (decode code).foldlM visit ⟨Array.replicate code.length false⟩

end EvmDisasm.Checked
