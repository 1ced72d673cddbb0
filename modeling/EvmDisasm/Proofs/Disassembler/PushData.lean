import EvmDisasm.Proofs.Disassembler.Sweep
import EvmDisasm.Proofs.Instruction.Tiling
import EvmDisasm.Proofs.JumpTable.Destinations

/-!
# Push data influences nothing but its own immediate

Two pieces of code of the same length that agree wherever an instruction of the first one starts may
differ in every other byte. All those bytes are immediates, and whatever they are changed to, be it
to a `JUMPDEST`, a push or a byte without an opcode, nothing but the immediates changes.

## The architecture

* **`mask`** — the instruction with its immediate bytes made zero: what can be seen of it by someone
  who may see the length of the immediate only.
* **`map_mask_remaining`** — two sweeps in lockstep. The cursors stay together although the bytes
  that they skip differ, since how far they skip hangs on the first byte alone.
* **`visit_mask`**, **`accepts_mask`**, **`refusal_mask`** — neither the jump table nor strict mode
  looks at more of an instruction than its mask, so both come out the same.
-/

namespace EvmDisasm

namespace Instruction

/-- The instruction with zeros for the bytes of its immediate. -/
def mask (inst : Instruction) : Instruction :=
  { inst with immediate := inst.immediate.map fun bytes => List.replicate bytes.length 0 }

variable (inst : Instruction)

@[simp] theorem offset_mask : inst.mask.offset = inst.offset := rfl

@[simp] theorem code_mask : inst.mask.code = inst.code := rfl

@[simp] theorem opcode_mask : inst.mask.opcode = inst.opcode := rfl

/-- The mask has an immediate just where the instruction has one. -/
theorem map_immediate_mask (bytes : Bytes) :
    inst.mask.immediate.map (fun _ => bytes) = inst.immediate.map fun _ => bytes := by
  rw [mask, Option.map_map]
  rfl

@[simp] theorem encodedLength_mask : inst.mask.encodedLength = inst.encodedLength := by
  unfold encodedLength presentLength mask
  cases inst.immediate with
  | none => rfl
  | some bytes => simp

@[simp] theorem isTruncated_mask : inst.mask.isTruncated = inst.isTruncated := by
  unfold isTruncated nominalLength mask
  cases inst.immediate with
  | none => rfl
  | some bytes => simp

/-- Of the bytes after the first, the mask shows how many there are. -/
theorem mask_read (offset : Nat) (code : UInt8) {following other : Bytes}
    (hlength : other.length = following.length) :
    (read offset code other).mask = (read offset code following).mask := by
  rw [read_eq, read_eq]
  by_cases hpush : 0 < width code
  · simp [mask, hpush, hlength]
  · simp [mask, hpush]

end Instruction

open Instruction

/-! ## Two sweeps in lockstep

The bytes at which the sweep of the first code looks are the same in the other, so both take steps
of the same length and meet at the same offsets. -/

/-- **From any offset on the two sweeps yield the same masks.** The other code is asked to agree
at the instructions of the first code alone; that those are its own instructions too comes out of
it. -/
theorem map_mask_remaining {code other : Bytes} (hlength : other.length = code.length)
    (offset : Nat) (bytes : Bytes) (hbytes : code.drop offset = bytes)
    (hheads : ∀ inst ∈ (Cursor.mk offset bytes).remaining,
      other[inst.offset]? = code[inst.offset]?) :
    (Cursor.mk offset (other.drop offset)).remaining.map mask =
      (Cursor.mk offset bytes).remaining.map mask := by
  -- on the sweep of the first code, with the other one carried along by its offset
  induction offset, bytes using sweep_induction with
  | done offset =>
    have hend : other.drop offset = [] := by
      rw [List.drop_eq_nil_iff] at hbytes ⊢
      omega
    rw [hend]
  | step offset b following ih =>
    rw [Cursor.remaining_cons] at hheads ⊢
    have hfollowing : code.drop (offset + 1) = following := by
      rw [← List.drop_drop, hbytes]
      rfl
    have hother : other.drop offset = b :: other.drop (offset + 1) := by
      -- the other code has the same byte here, because an instruction starts here
      have hhead : other[offset]? = some b := by
        have hsame := hheads (read offset b following) List.mem_cons_self
        rw [offset_read] at hsame
        rw [hsame, ← List.head?_drop, hbytes]
        rfl
      obtain ⟨hlt, hget⟩ := List.getElem?_eq_some_iff.mp hhead
      rw [List.drop_eq_getElem_cons hlt, hget]
    have hskipped : code.drop (offset + 1 + width b) = following.drop (width b) := by
      rw [← List.drop_drop, hfollowing]
    have hrest := ih hskipped fun inst hmem => hheads inst (List.mem_cons_of_mem _ hmem)
    -- the rests agree, which leaves the two instructions that start here
    rw [hother, Cursor.remaining_cons, List.map_cons, List.map_cons, List.drop_drop, hrest]
    congr 1
    apply mask_read
    rw [← hfollowing, List.length_drop, List.length_drop, hlength]

theorem map_mask_decode {code other : Bytes} (hlength : other.length = code.length)
    (hheads : ∀ inst ∈ decode code, other[inst.offset]? = code[inst.offset]?) :
    (decode other).map mask = (decode code).map mask :=
  map_mask_remaining hlength 0 code rfl hheads

/-! ## What looks at masks only

The jump table is made from offsets and opcodes, a verdict from bytes and offsets. No immediate goes
into either. -/

theorem JumpTable.visit_mask (table : JumpTable) (inst : Instruction) :
    table.visit inst.mask = table.visit inst := rfl

/-- The masks determine the jump destinations, along with the length of the code. -/
theorem JumpTable.analyze_eq_of_map_mask {code other : Bytes}
    (hlength : other.length = code.length)
    (hmask : (decode other).map mask = (decode code).map mask) :
    analyze code = analyze other := by
  have hvisit (insts : List Instruction) (table : JumpTable) :
      (insts.map mask).foldl visit table = insts.foldl visit table := by
    simp only [List.foldl_map, visit_mask]
  rw [analyze, analyze, hlength, ← hvisit (decode code), ← hvisit (decode other), hmask]

namespace Disassembler

theorem accepts_mask (strict : Bool) (inst : Instruction) :
    accepts strict inst.mask = accepts strict inst := rfl

theorem refusal_mask (inst : Instruction) : refusal inst.mask = id (refusal inst) := rfl

theorem refused?_map_mask (strict : Bool) (insts : List Instruction) :
    refused? strict (insts.map mask) = refused? strict insts := by
  rw [refused?_map (accepts_mask strict) refusal_mask, Option.map_id, id_eq]

end Disassembler

/-! ## The two decodings side by side

Equal masks leave the bytes of the immediates open. Those are fixed by the other code, as the slice
of it that stands behind the first byte. -/

/-- An immediate is the slice of the code between the first byte and the next instruction. -/
theorem immediate_eq_map_extract {code : Bytes} {inst : Instruction} (hmem : inst ∈ decode code) :
    inst.immediate =
      inst.immediate.map fun _ => code.extract (inst.offset + 1) inst.nextOffset := by
  cases hbytes : inst.immediate with
  | none => rfl
  | some bytes =>
    have hslice := (standsIn_of_mem_decode hmem).immediate_eq bytes hbytes
    have hnext : inst.nextOffset = inst.offset + 1 + bytes.length := by
      rw [nextOffset, encodedLength, presentLength, hbytes, Nat.add_assoc]
    -- the slice is what follows the first byte, up to its own length
    have hprefix : bytes <+: code.drop (inst.offset + 1) := by
      rw [hslice, List.extract_eq_take_drop]
      exact List.take_prefix _ _
    rw [hnext, List.extract_eq_take_drop, Nat.add_sub_cancel_left, Option.map_some,
      ← List.prefix_iff_eq_take.mp hprefix]

namespace Instruction

/-- The instruction `other` of `code` differs from `inst` in the bytes of its immediate at most, and
those are the bytes that `code` has in the place. -/
structure SameButImmediate (code : Bytes) (inst other : Instruction) : Prop where
  offset_eq : other.offset = inst.offset
  code_eq : other.code = inst.code
  opcode_eq : other.opcode = inst.opcode
  encodedLength_eq : other.encodedLength = inst.encodedLength
  isTruncated_eq : other.isTruncated = inst.isTruncated
  immediate_eq : other.immediate =
    inst.immediate.map fun _ => code.extract (inst.offset + 1) inst.nextOffset

/-- Two instructions with one mask differ in the immediate at most, and the immediate of the second
is read off its code. -/
theorem sameButImmediate_of_mask_eq {code : Bytes} {inst other : Instruction}
    (hmem : other ∈ decode code) (hmask : other.mask = inst.mask) :
    SameButImmediate code inst other := by
  have hoffset : other.offset = inst.offset := by rw [← offset_mask, hmask, offset_mask]
  have hcode : other.code = inst.code := by rw [← code_mask, hmask, code_mask]
  have hopcode : other.opcode = inst.opcode := by rw [← opcode_mask, hmask, opcode_mask]
  have hlength : other.encodedLength = inst.encodedLength := by
    rw [← encodedLength_mask, hmask, encodedLength_mask]
  have htruncated : other.isTruncated = inst.isTruncated := by
    rw [← isTruncated_mask, hmask, isTruncated_mask]
  have hnext : other.nextOffset = inst.nextOffset := by
    rw [nextOffset, nextOffset, hoffset, hlength]
  have himmediate : other.immediate =
      inst.immediate.map fun _ => code.extract (inst.offset + 1) inst.nextOffset := by
    -- the bytes are read off the code, and the mask says whether there is an immediate at all
    calc other.immediate
        = other.immediate.map fun _ => code.extract (other.offset + 1) other.nextOffset :=
          immediate_eq_map_extract hmem
      _ = other.mask.immediate.map fun _ => code.extract (inst.offset + 1) inst.nextOffset := by
          rw [map_immediate_mask, hoffset, hnext]
      _ = inst.immediate.map fun _ => code.extract (inst.offset + 1) inst.nextOffset := by
          rw [hmask, map_immediate_mask]
  exact ⟨hoffset, hcode, hopcode, hlength, htruncated, himmediate⟩

end Instruction

/-- **Push data is inert.** Where the bytes of two codes of one length may differ only inside the
immediates of the first, both decode to the same instructions up to those immediates, have the same
jump destinations, and strict mode gives the same answer to both, whatever was found before. -/
theorem pushData_noninterference {code other : Bytes} (hlength : other.length = code.length)
    (hheads : ∀ inst ∈ decode code, other[inst.offset]? = code[inst.offset]?) :
    (decode other).length = (decode code).length ∧
    (∀ (i : Nat) inst inst', (decode code)[i]? = some inst → (decode other)[i]? = some inst' →
      SameButImmediate other inst inst') ∧
    JumpTable.analyze code = JumpTable.analyze other ∧
    (∀ found found' : List Instruction,
      (Disassembler.mk code true found).disassemble.1.value.mapError
          Disassembler.UnknownOpcode.message =
        (Disassembler.mk other true found').disassemble.1.value.mapError
          Disassembler.UnknownOpcode.message) := by
  -- all of the conclusions are read off the masks
  have hmask := map_mask_decode hlength hheads
  refine ⟨?_, ?_, JumpTable.analyze_eq_of_map_mask hlength hmask, ?_⟩
  · simpa using congrArg List.length hmask
  · intro i inst inst' hinst hinst'
    apply sameButImmediate_of_mask_eq (List.mem_of_getElem? hinst')
    have hat := congrArg (·[i]?) hmask
    simpa [hinst, hinst'] using hat
  · intro found found'
    have hrefused : Disassembler.refused? true (decode code) =
        Disassembler.refused? true (decode other) := by
      rw [← Disassembler.refused?_map_mask, ← hmask, Disassembler.refused?_map_mask]
    rw [Disassembler.value_disassemble, Disassembler.value_disassemble, hrefused]

/-- A `PUSH2` whose immediate turns into a `JUMPDEST` and a byte without an opcode, before a byte of
that kind which strict mode refuses in both. -/
theorem pushData_noninterference_push :
    let code : Bytes := [0x61, 0x00, 0x00, 0x5b, 0xfe]
    let other : Bytes := [0x61, 0x5b, 0xfe, 0x5b, 0xfe]
    other.length = code.length ∧
      (∀ inst ∈ decode code, other[inst.offset]? = code[inst.offset]?) ∧
      decode other ≠ decode code ∧
      (decode other).length = (decode code).length ∧
      JumpTable.analyze code = JumpTable.analyze other ∧
      (Disassembler.ofCode code true).disassemble.1.value.mapError
          Disassembler.UnknownOpcode.message =
        (Disassembler.ofCode other true).disassemble.1.value.mapError
          Disassembler.UnknownOpcode.message := by
  intro code other
  have hlength : other.length = code.length := by decide
  have hheads : ∀ inst ∈ decode code, other[inst.offset]? = code[inst.offset]? := by
    decide +kernel
  have hdiffers : decode other ≠ decode code := by decide +kernel
  obtain ⟨hcount, -, hjumps, hstrict⟩ := pushData_noninterference hlength hheads
  exact ⟨hlength, hheads, hdiffers, hcount, hjumps, hstrict [] []⟩

end EvmDisasm
