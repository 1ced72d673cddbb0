import EvmDisasm.Checked.Decoding
import EvmDisasm.Proofs.Bytes.BigEndian
import EvmDisasm.Proofs.Instruction.Sweep

/-!
# The value that a push pushes

The immediate of a push is padded twice: behind, up to the length that the opcode asks for, and in
front, up to a whole word. As a number it is therefore the bytes that are present, times 256 for
every byte that is missing.

* **`paddedImmediate_eq`**, **`pushValue_eq`** — the two paddings as lists of bytes. Read as
  numbers, the first multiplies and the second changes nothing.
* **`checked_pushValue`** — the padded immediate is never longer than a word, so there is always
  room for it at the end of one.
* **`pushValue_numeric`** — the three together, for the instructions of a piece of code.
-/

namespace EvmDisasm

namespace Instruction

theorem any_isPush_iff {opcode : Option Opcode} :
    opcode.any Opcode.isPush = true ↔ ∃ n, opcode = some (.push n) := by
  cases opcode with
  | none => simp
  | some op => cases op <;> simp [Opcode.isPush]

namespace Shaped

variable {inst : Instruction} {bytes : Bytes}

theorem length_le (h : Shaped inst) (hbytes : inst.immediate = some bytes) :
    bytes.length ≤ inst.nominalLength := by
  have hle := h.presentLength_le
  rwa [presentLength, hbytes] at hle

/-- **Padding on the right** puts zeros for the bytes that are missing. -/
theorem paddedImmediate_eq (h : Shaped inst) (hbytes : inst.immediate = some bytes) :
    inst.paddedImmediate =
      some (bytes ++ List.replicate (inst.nominalLength - bytes.length) 0) := by
  rw [paddedImmediate, hbytes, Option.map_some, List.take_of_length_le (h.length_le hbytes)]
  rfl

theorem length_paddedImmediate (h : Shaped inst) {padded : Bytes}
    (hpadded : inst.paddedImmediate = some padded) : padded.length = inst.nominalLength := by
  obtain ⟨bytes, hbytes, -⟩ := Option.map_eq_some_iff.mp hpadded
  have hle := h.length_le hbytes
  rw [h.paddedImmediate_eq hbytes, Option.some.injEq] at hpadded
  simp [← hpadded]
  omega

/-- **Padding on the left** fills a word. -/
theorem pushValue_eq (h : Shaped inst) {padded : Bytes}
    (hpadded : inst.paddedImmediate = some padded) :
    inst.pushValue = some (List.replicate (wordSize - inst.nominalLength) 0 ++ padded) := by
  rw [pushValue, hpadded, Option.map_some, List.leftpad, h.length_paddedImmediate hpadded]

/-- A push pushes a word, and nothing else does. -/
theorem isSome_pushValue_iff (h : Shaped inst) :
    inst.pushValue.isSome = true ↔ ∃ n, inst.opcode = some (.push n) := by
  rw [pushValue, paddedImmediate, Option.isSome_map, Option.isSome_map, h.isSome_immediate,
    any_isPush_iff]

/-- Putting the padded immediate into a word of zeros goes right. -/
theorem checked_pushValue (h : Shaped inst) : Checked.pushValue inst = .ok inst.pushValue := by
  cases hpadded : inst.paddedImmediate with
  | none => simp [Checked.pushValue, pushValue, hpadded]
  | some padded =>
    have hlength := h.length_paddedImmediate hpadded
    have hle := h.nominalLength_le
    have hzeros : (List.replicate wordSize (0 : UInt8)).length = wordSize := List.length_replicate
    rw [Checked.pushValue, hpadded, h.pushValue_eq hpadded]
    dsimp only
    rw [Checked.sub_of_le (by omega), Checked.ok_bind,
      Checked.overwrite_of_length (by omega) (by omega), Checked.ok_bind, List.take_replicate,
      hlength, Nat.min_eq_left (Nat.sub_le _ _)]
    rfl

end Shaped

end Instruction

open Instruction

/-- **The pushed word is the immediate as a number.** A word is pushed exactly by the opcodes
`PUSH1` to `PUSH32`. No more immediate bytes are present than such an opcode asks for, and it asks
for no more than a word has; padded, there are as many as it asks for. Read with the most
significant byte first the word is the bytes that are present, times 256 for every byte that is
missing. Every difference and every copy on the way to it goes right. -/
theorem pushValue_numeric {code : Bytes} {inst : Instruction} (hmem : inst ∈ decode code) :
    (inst.pushValue.isSome = true ↔ ∃ n : Fin 32, inst.opcode = some (.push n)) ∧
    inst.presentLength ≤ inst.nominalLength ∧ inst.nominalLength ≤ 32 ∧
    (∀ n : Fin 32, inst.opcode = some (.push n) →
      inst.nominalLength = n.val + 1 ∧
      ∃ bytes padded word, inst.immediate = some bytes ∧ bytes.length = inst.presentLength ∧
        inst.paddedImmediate = some padded ∧ padded.length = inst.nominalLength ∧
        inst.pushValue = some word ∧ word.length = 32 ∧
        bigEndian word = bigEndian bytes * 256 ^ (inst.nominalLength - inst.presentLength) ∧
        bigEndian word < 256 ^ inst.nominalLength) ∧
    Checked.pushValue inst = .ok inst.pushValue := by
  have hshaped := shaped_of_mem_decode hmem
  have hword : inst.nominalLength ≤ 32 := hshaped.nominalLength_le
  refine ⟨hshaped.isSome_pushValue_iff, hshaped.presentLength_le, hword, ?_,
    hshaped.checked_pushValue⟩
  intro n hpush
  have hsome : inst.immediate.isSome = true := by
    rw [hshaped.isSome_immediate, hpush]
    rfl
  obtain ⟨bytes, hbytes⟩ := Option.isSome_iff_exists.mp hsome
  have hpresent : inst.presentLength = bytes.length := by rw [presentLength, hbytes]
  have hpadded := hshaped.paddedImmediate_eq hbytes
  have hlength := hshaped.length_paddedImmediate hpadded
  refine ⟨?_, bytes, _, _, hbytes, hpresent.symm, hpadded, hlength, hshaped.pushValue_eq hpadded,
    ?_, ?_, ?_⟩
  · rw [nominalLength, hpush]
    rfl
  · rw [List.length_append, hlength, List.length_replicate, wordSize]
    omega
  · -- the zeros in front do not count, and each of those behind is a factor of 256
    rw [bigEndian_replicate_append, bigEndian_append_replicate, hpresent]
  · have hlt := bigEndian_lt (bytes ++ List.replicate (inst.nominalLength - bytes.length) 0)
    rw [hlength] at hlt
    rwa [bigEndian_replicate_append]

/-- A `PUSH2` of whose immediate only the byte `0xaa` is there pushes `0xaa` times 256. -/
theorem pushValue_numeric_cut_short :
    let push : Instruction := ⟨0, 0x61, some (.push 1), some [0xaa]⟩
    push ∈ decode [0x61, 0xaa] ∧ push.opcode = some (.push 1) ∧
      ∃ word, push.pushValue = some word ∧ word.length = 32 ∧ bigEndian word = 0xaa * 256 := by
  intro push
  have hmem : push ∈ decode [0x61, 0xaa] := by decide +kernel
  have hpush : push.opcode = some (.push 1) := rfl
  obtain ⟨-, bytes, padded, word, hbytes, -, -, -, hword, hlength, hvalue, -⟩ :=
    (pushValue_numeric hmem).2.2.2.1 1 hpush
  refine ⟨hmem, hpush, word, hword, hlength, ?_⟩
  cases hbytes
  exact hvalue

end EvmDisasm
