import EvmDisasm.Proofs.Instruction.Bounds

/-!
# How many instructions are still to come

A cursor announces bounds on the number of instructions that it would still read, from the bytes in
front of it alone. The number itself depends on the whole sweep over those bytes. An instruction
takes up one byte at least and thirty-three at most, and laid one after the other the instructions
take up every byte once, so the bytes bound the number from both sides.

* **`length_encodeAll_le`** — if each instruction takes up at most `n` bytes, so do all of them
  together on average.
* **`length_decode_le`**, **`length_le_mul_length_decode`** — the two bounds for a piece of code.
* **`Counted`** and **`counted_of_reached`** — the bounds at every reached cursor, where what
  remains is the decoding of the bytes in front of it.
-/

namespace EvmDisasm

namespace Instruction

/-- The largest instruction has a first byte and a word behind it. -/
theorem Shaped.encodedLength_le {inst : Instruction} (h : Shaped inst) :
    inst.encodedLength ≤ 33 := by
  have hpresent := h.presentLength_le
  have hnominal := h.nominalLength_le
  unfold wordSize at hnominal
  unfold encodedLength
  omega

/-- Instructions of at most `n` bytes take up at most `n` times as many bytes as they are. -/
theorem length_encodeAll_le {n : Nat} {insts : List Instruction}
    (h : ∀ inst ∈ insts, inst.encodedLength ≤ n) :
    (encodeAll insts).length ≤ n * insts.length := by
  induction insts with
  | nil => exact Nat.zero_le _
  | cons inst rest ih =>
    have hinst : inst.encodedLength ≤ n := h inst List.mem_cons_self
    have hrest := ih fun other hmem => h other (List.mem_cons_of_mem _ hmem)
    show (inst.encode ++ encodeAll rest).length ≤ n * (rest.length + 1)
    rw [List.length_append, length_encode, Nat.mul_succ]
    omega

end Instruction

open Instruction

theorem length_decode_le (code : Bytes) : (decode code).length ≤ code.length :=
  Cursor.length_remaining_le (Cursor.start code)

theorem length_le_mul_length_decode (code : Bytes) :
    code.length ≤ 33 * (decode code).length := by
  -- laid one after the other, the instructions are the code
  have hlength : (encodeAll (decode code)).length ≤ 33 * (decode code).length := by
    apply length_encodeAll_le
    intro inst hmem
    exact (shaped_of_mem_decode hmem).encodedLength_le
  rwa [encodeAll_decode] at hlength

namespace Cursor

variable {code : Bytes} {cursor : Cursor}

/-- Looking for an instruction that is never found goes through all of them. -/
theorem upTo_none (insts : List Instruction) : upTo (fun _ => false) insts = insts := by
  induction insts with
  | nil => rfl
  | cons inst rest ih => simp [upTo, ih]

theorem answer_count (cursor : Cursor) : cursor.count.answer = cursor.remaining.length := by
  obtain ⟨after, hseek, -⟩ := exists_passes_seekOnto (fun _ => false) [] cursor
  show (seekOnto (fun _ => false) [] cursor).1.length = _
  rw [hseek, upTo_none]
  rfl

/-- As many instructions remain as the bytes in front of the cursor decode to. -/
theorem Inside.length_remaining (h : Inside code cursor) :
    cursor.remaining.length = (decode (code.drop cursor.offset)).length := by
  rw [h.remaining_eq_decode_drop, List.length_map]

/-- What a cursor in the code announces, and the number of instructions that it would read. -/
structure Counted (code : Bytes) (cursor : Cursor) : Prop where
  countBounds_eq : cursor.countBounds =
    (min (code.length - cursor.offset) 1, code.length - cursor.offset)
  count_eq : cursor.count.answer = cursor.remaining.length
  low_le : cursor.countBounds.1 ≤ cursor.remaining.length
  le_high : cursor.remaining.length ≤ cursor.countBounds.2
  low_eq_zero_iff : cursor.countBounds.1 = 0 ↔ cursor.remaining.length = 0
  length_le : cursor.remaining.length ≤ code.length - cursor.offset
  le_mul_length : code.length - cursor.offset ≤ 33 * cursor.remaining.length

theorem Inside.counted (h : Inside code cursor) : Counted code cursor := by
  have hbounds : cursor.countBounds =
      (min (code.length - cursor.offset) 1, code.length - cursor.offset) := by
    rw [countBounds, h.rest_eq, List.length_drop, Nat.min_comm]
  have hupper := length_decode_le (code.drop cursor.offset)
  have hlower := length_le_mul_length_decode (code.drop cursor.offset)
  rw [← h.length_remaining, List.length_drop] at hupper hlower
  refine ⟨hbounds, answer_count cursor, ?_, ?_, ?_, hupper, hlower⟩
  · rw [hbounds]
    show min (code.length - cursor.offset) 1 ≤ _
    omega
  · rw [hbounds]
    exact hupper
  · rw [hbounds]
    show min (code.length - cursor.offset) 1 = 0 ↔ _
    omega

/-- **A cursor announces what is to come.** Wherever a cursor gets to in the code, the number of
instructions that it would still read lies between the bounds that it announces, the lower of which
is zero only at the end; and the bytes in front of it are at least as many as the instructions and
at most thirty-three times as many. For the cursor at the start this bounds the decoding of the
code. -/
theorem counted_of_reached (code : Bytes) :
    (∀ cursor, Reached code cursor → Counted code cursor) ∧
    (code.length + 32) / 33 ≤ (decode code).length ∧ (decode code).length ≤ code.length := by
  refine ⟨fun cursor hreached => (inside_of_reached hreached).counted, ?_, length_decode_le code⟩
  have hlower := length_le_mul_length_decode code
  omega

/-- Behind a `JUMPDEST` a whole `PUSH32`, thirty-three bytes that are one instruction: both sides of
the count are attained, the lower bound that is announced and the factor. -/
theorem counted_of_reached_widest :
    let code : Bytes := 0x5b :: 0x7f :: List.replicate 32 0xaa
    let cursor := (start code).next.cursor
    Reached code cursor ∧ cursor.countBounds = (1, 33) ∧ cursor.remaining.length = 1 ∧
      cursor.countBounds.1 ≤ cursor.remaining.length ∧
      code.length - cursor.offset ≤ 33 * cursor.remaining.length := by
  intro code cursor
  have hreached : Reached code cursor := .next .start
  have hcounted := (counted_of_reached code).1 cursor hreached
  have hbounds : cursor.countBounds = (1, 33) := by decide +kernel
  have hone : cursor.remaining.length = 1 := by decide +kernel
  exact ⟨hreached, hbounds, hone, hcounted.low_le, hcounted.le_mul_length⟩

end Cursor

end EvmDisasm
