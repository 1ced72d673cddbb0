import EvmDisasm.Instruction.Encoding
import EvmDisasm.Opcode.Lemmas

/-!
# What reading one instruction gives

`Instruction.read` looks at one byte and at what follows it. Everything that later proofs need to
know of it is said here once, in terms of `Instruction.width`, the number of immediate bytes that a
first byte asks for:

* **`width_eq`** — the width as arithmetic on the byte: `0x60` to `0x7f` ask for one byte up to
  thirty-two, every other byte asks for none.
* **`read_eq`** — the instruction in full: its immediate is what follows, cut off at the width.
* **`width_eq_lookup`**, **`read_eq_lookup`** — the same width and the same instruction, read off
  the catalog entry of the byte.
* **`encode_read`**, **`presentLength_read`**, **`nextOffset_read`** — how many bytes it takes up.
* **`Shaped`** — what is true of an instruction by itself if it was read from some bytes. Such an
  instruction is read back from its own bytes (`Shaped.read_eq`): what follows them may be anything
  if the immediate is complete, while an immediate that is cut short must be the end.
-/

namespace EvmDisasm

/-! ## The width of a byte

How far an instruction reaches depends on its first byte alone. -/

/-- A push is an opcode that asks for an immediate. -/
theorem Opcode.isPush_iff (op : Opcode) : op.isPush = true ↔ 0 < op.immediateLength := by
  cases op <;> simp [Opcode.isPush, Opcode.immediateLength]

namespace Instruction

/-- The number of immediate bytes that an instruction with the given first byte asks for. -/
def width (code : UInt8) : Nat :=
  match Opcode.ofByte? code with
  | some op => op.immediateLength
  | none => 0

theorem width_pos_iff {code : UInt8} :
    0 < width code ↔ (Opcode.ofByte? code).any Opcode.isPush = true := by
  unfold width
  cases Opcode.ofByte? code with
  | none => simp
  | some op => simp [Opcode.isPush_iff]

/-- **The width as arithmetic on the byte**, which is how the walk over raw bytes knows it. -/
theorem width_eq (code : UInt8) :
    width code = if 0x60 ≤ code.toNat ∧ code.toNat ≤ 0x7f then code.toNat - 0x60 + 1 else 0 := by
  -- the bytes of the pushes are a range, and they ask for one more byte each
  by_cases h : 0x60 ≤ code.toNat ∧ code.toNat ≤ 0x7f
  · have hpush : 0x60 ≤ code.toNat ∧ code.toNat < 0x80 := by omega
    rw [if_pos h]
    simp [width, Opcode.ofByte?, hpush, Opcode.immediateLength]
  · -- the byte may stand for any other opcode or for none; the byte of a push lies in the range
    rw [if_neg h]
    unfold width
    cases hop : Opcode.ofByte? code with
    | none => rfl
    | some op =>
      have hbyte := Opcode.toByte_of_ofByte? hop
      cases op with
      | push n =>
        have hn := n.isLt
        have hval : code.toNat = 0x60 + n.val := by
          rw [← hbyte]
          simp [Opcode.toByte]
          omega
        omega
      | _ => rfl

/-- The widest immediate fills a word. -/
theorem width_le (code : UInt8) : width code ≤ wordSize := by
  rw [width_eq, wordSize]
  split <;> omega

/-- The catalog gives the same width as the opcode. -/
theorem width_eq_lookup (code : UInt8) :
    width code =
      match Descriptor.lookup code with
      | none => 0
      | some entry => entry.immediateLength := by
  rw [Descriptor.lookup_eq, width]
  cases Opcode.ofByte? code with
  | none => rfl
  | some op => rfl

/-! ## The instruction that is read

The fields of the instruction as functions of the byte and what follows it. The immediate is the
only one that depends on the latter. -/

variable (offset : Nat) (code : UInt8) (following : Bytes)

@[simp] theorem offset_read : (read offset code following).offset = offset := rfl

@[simp] theorem code_read : (read offset code following).code = code := rfl

@[simp] theorem opcode_read : (read offset code following).opcode = Opcode.ofByte? code := rfl

@[simp] theorem nominalLength_read :
    (read offset code following).nominalLength = width code := rfl

/-- There is an immediate if the byte asks for one, and it is as much of what follows. -/
theorem immediate_read :
    (read offset code following).immediate =
      if 0 < width code then some (following.take (width code)) else none := by
  unfold read width
  cases Opcode.ofByte? code with
  | none => rfl
  | some op =>
    by_cases h : op.isPush = true
    · have hpos := op.isPush_iff.mp h
      simp [Option.filter, h, hpos]
    · have hzero : ¬ 0 < op.immediateLength := fun hpos => h (op.isPush_iff.mpr hpos)
      simp [Option.filter, h, hzero]

/-- **The instruction in full.** -/
theorem read_eq :
    read offset code following =
      { offset, code
        opcode := Opcode.ofByte? code
        immediate := if 0 < width code then some (following.take (width code)) else none } := by
  rw [← immediate_read offset code following]
  rfl

/-- The catalog says of every byte what reading an instruction does with it: without an entry the
byte is an unknown instruction, and an entry says whether there is an immediate and how long it
is. -/
theorem read_eq_lookup :
    read offset code following =
      match Descriptor.lookup code with
      | none => { offset, code, opcode := none, immediate := none }
      | some entry =>
        { offset, code
          opcode := Opcode.ofByte? code
          immediate :=
            if 0 < entry.immediateLength then some (following.take entry.immediateLength)
            else none } := by
  rw [read_eq, Descriptor.lookup_eq, width]
  cases Opcode.ofByte? code with
  | none => rfl
  | some op => rfl

@[simp] theorem getD_immediate_read :
    (read offset code following).immediate.getD [] = following.take (width code) := by
  rw [immediate_read]
  split
  · rfl
  · have hzero : width code = 0 := by omega
    simp [hzero]

/-- An instruction is encoded as the bytes it was read from. -/
@[simp] theorem encode_read :
    (read offset code following).encode = code :: following.take (width code) := by
  simp [encode]

/-- The number of present bytes, without a case for instructions that have no immediate. -/
theorem presentLength_eq (inst : Instruction) :
    inst.presentLength = (inst.immediate.getD []).length := by
  unfold presentLength
  cases inst.immediate <;> rfl

/-- As many bytes are present as are asked for, or as there are. -/
@[simp] theorem presentLength_read :
    (read offset code following).presentLength = min (width code) following.length := by
  simp [presentLength_eq]

theorem nextOffset_read :
    (read offset code following).nextOffset = offset + 1 + min (width code) following.length := by
  simp only [nextOffset, encodedLength, offset_read, presentLength_read]
  omega

/-! ## Instructions that could have been read

What is true of an instruction that was read from some bytes, without the bytes. It is what the
later proofs ask of an instruction when they meet it in a list. -/

/-- The instruction could be read from some bytes. -/
structure Shaped (inst : Instruction) : Prop where
  opcode_eq : inst.opcode = Opcode.ofByte? inst.code
  isSome_immediate : inst.immediate.isSome = inst.opcode.any Opcode.isPush
  presentLength_le : inst.presentLength ≤ inst.nominalLength

theorem shaped_read : Shaped (read offset code following) where
  opcode_eq := rfl
  isSome_immediate := by
    rw [immediate_read, opcode_read, Bool.eq_iff_iff, ← width_pos_iff]
    by_cases hpush : 0 < width code
    · simp [hpush]
    · simp [hpush]
  presentLength_le := by
    rw [presentLength_read, nominalLength_read]
    exact Nat.min_le_left _ _

namespace Shaped

variable {inst : Instruction}

theorem width_eq (h : Shaped inst) : width inst.code = inst.nominalLength := by
  show (read inst.offset inst.code []).nominalLength = inst.nominalLength
  unfold nominalLength
  rw [opcode_read, h.opcode_eq]

theorem nominalLength_le (h : Shaped inst) : inst.nominalLength ≤ wordSize := by
  rw [← h.width_eq]
  exact width_le inst.code

theorem immediate_eq (h : Shaped inst) :
    inst.immediate =
      if 0 < width inst.code then some (inst.immediate.getD []) else none := by
  have hsome := h.isSome_immediate
  rw [h.opcode_eq, Bool.eq_iff_iff, ← width_pos_iff] at hsome
  cases himmediate : inst.immediate with
  | none =>
    have hpush : ¬ 0 < width inst.code := fun hpos => by
      have := hsome.mpr hpos
      simp [himmediate] at this
    rw [if_neg hpush]
  | some bytes =>
    have hpush : 0 < width inst.code := hsome.mp (by rw [himmediate]; rfl)
    rw [if_pos hpush]
    rfl

/-- It is cut short if fewer bytes are present than it asks for. -/
theorem isTruncated_eq (h : Shaped inst) :
    inst.isTruncated = decide (inst.presentLength < inst.nominalLength) := by
  -- without an immediate it asks for no bytes, so it is not cut short either
  cases himmediate : inst.immediate with
  | none =>
    have hpush : ¬ 0 < width inst.code := fun hpos => by
      have := h.immediate_eq
      rw [himmediate, if_pos hpos] at this
      cases this
    rw [h.width_eq] at hpush
    have hnominal : inst.nominalLength = 0 := by omega
    simp [isTruncated, himmediate, hnominal]
  | some bytes => simp [isTruncated, presentLength, himmediate]

/-- Reading at the bytes of the instruction gives the instruction, whatever the bytes of its
immediate are. -/
theorem read_eq (h : Shaped inst) {tail : Bytes}
    (hend : inst.presentLength = inst.nominalLength ∨ tail = []) :
    read inst.offset inst.code (inst.immediate.getD [] ++ tail) = inst := by
  have hle : (inst.immediate.getD []).length ≤ width inst.code := by
    rw [h.width_eq, ← presentLength_eq]
    exact h.presentLength_le
  have htake : (inst.immediate.getD [] ++ tail).take (width inst.code) =
      inst.immediate.getD [] := by
    rcases hend with hfull | rfl
    · apply List.take_left'
      rw [h.width_eq, ← presentLength_eq, hfull]
    · rw [List.append_nil, List.take_of_length_le hle]
  rw [Instruction.read_eq, htake, ← h.opcode_eq, ← h.immediate_eq]

end Shaped

/-- An instruction that is read is cut short if too few bytes follow. -/
@[simp] theorem isTruncated_read :
    (read offset code following).isTruncated = decide (following.length < width code) := by
  rw [(shaped_read offset code following).isTruncated_eq, presentLength_read, nominalLength_read,
    decide_eq_decide]
  omega

end Instruction

end EvmDisasm
