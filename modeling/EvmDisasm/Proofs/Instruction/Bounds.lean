import EvmDisasm.Checked.Decoding
import EvmDisasm.Proofs.Instruction.Walk
import EvmDisasm.Proofs.JumpTable.Destinations

/-!
# No offset goes out of bounds

A machine decodes with offsets of 64 bits into the whole code. Every sum and difference of them,
every slice and every mark could fail; none does, wherever a decoder gets to. All of it comes from
one invariant, `Inside`: a cursor never stands past the end, because a push that the end cuts short
stops there.

## The architecture

* **`Checked.next?_of_getElem?`** — the checked reading of an instruction, with each sum and the
  slice. This is the only place where the clamp at the end of the code is needed.
* **`Checked.foldlM_visit`** — marking goes right as long as the instructions start inside the
  table.
* **`Cursor.inside_of_reached`**, **`Cursor.Inside.offset_next?`** — every reached cursor is inside
  the code, and so are the two offsets of a move from there.
* **`WithinBounds`** and **`withinBounds_of_reached`** — all that is computed at a reached cursor.
-/

namespace EvmDisasm

open Instruction

namespace Checked

/-! ## Reading with checks

The checked reading adds up offsets before it looks whether there are that many bytes. What the sums
come to is bounded by the length of the code and the width of a word. -/

/-- **Reading with checks goes right** and gives the instruction at the offset, with the offset
behind it. -/
theorem next?_of_getElem? {code : Bytes} {offset : Nat} {first : UInt8}
    (hlength : code.length < 2 ^ 63) (hfirst : code[offset]? = some first) :
    next? code offset =
      .ok (some (read offset first (code.drop (offset + 1)),
        (read offset first (code.drop (offset + 1))).nextOffset)) := by
  have hlt := (List.getElem?_eq_some_iff.mp hfirst).1
  have hwidth : width first ≤ 32 := width_le first
  rw [width_eq_lookup] at hwidth
  rw [nextOffset_read, List.length_drop, width_eq_lookup, read_eq_lookup, next?, hfirst]
  dsimp only
  rw [add_of_lt (by omega), ok_bind]
  cases hlookup : Descriptor.lookup first with
  | none => rfl
  | some entry =>
    rw [hlookup] at hwidth
    dsimp only at hwidth ⊢
    by_cases hpush : 0 < entry.immediateLength
    · -- a push that asks for more than there is stops at the end of the code
      have hstop : min (offset + 1 + entry.immediateLength) code.length =
          offset + 1 + min entry.immediateLength (code.length - (offset + 1)) := by
        omega
      rw [if_pos hpush, if_pos hpush, add_of_lt (by omega), ok_bind,
        slice_of_le (by omega) (Nat.min_le_right _ _), ok_bind, extract_min_eq_take, hstop]
      rfl
    · have hzero : entry.immediateLength = 0 := by omega
      rw [if_neg hpush, if_neg hpush, hzero, Nat.zero_min]
      rfl

/-! ## Marking with checks

A mark is set inside the table if its offset lies in the code. The table does not grow or shrink on
the way. -/

/-- One mark inside the table goes right. -/
theorem visit_of_offset_lt {table : JumpTable} {inst : Instruction}
    (h : inst.offset < table.marks.size) : visit table inst = .ok (table.visit inst) := by
  unfold visit JumpTable.visit mark
  rw [if_pos h]
  split <;> rfl

/-- **All marks do**, if all instructions start inside the table. -/
theorem foldlM_visit {insts : List Instruction} {table : JumpTable}
    (h : ∀ inst ∈ insts, inst.offset < table.marks.size) :
    insts.foldlM visit table = .ok (insts.foldl JumpTable.visit table) := by
  induction insts generalizing table with
  | nil => rfl
  | cons inst rest ih =>
    have hinst : inst.offset < table.marks.size := h inst List.mem_cons_self
    rw [List.foldlM_cons, visit_of_offset_lt hinst, ok_bind, List.foldl_cons]
    apply ih
    intro other hmem
    -- a mark leaves the table as long as it was
    rw [JumpTable.size_marks_visit]
    exact h other (List.mem_cons_of_mem _ hmem)

/-- The table of some code is as long as the code, so marking it goes right. -/
theorem analyze_eq (code : Bytes) : analyze code = .ok (JumpTable.analyze code) := by
  apply foldlM_visit
  intro inst hmem
  rw [Array.size_replicate]
  exact offset_lt_of_mem_decode hmem

end Checked

/-! ## Moves of a cursor

Where a cursor stands the code goes on as it was, so what is computed from the whole code and an
offset is what is computed from the cursor. -/

namespace Cursor

variable {code : Bytes} {cursor after : Cursor} {inst : Instruction}

theorem inside_of_reached (h : Reached code cursor) : Inside code cursor := by
  obtain ⟨steps, rfl⟩ := reached_iff.mp h
  exact (inside_start code).passes (passes_walk steps _)

/-- The two offsets of a move: an instruction is read inside the code, and behind a push that asks
for more than there is the cursor stands at the end. -/
theorem Inside.offset_next? (h : Inside code cursor) (hnext : cursor.next? = some (inst, after)) :
    cursor.offset < code.length ∧ inst.nominalLength ≤ wordSize ∧
      inst.nextOffset = min (cursor.offset + 1 + inst.nominalLength) code.length := by
  rcases h.end_or_read with ⟨-, hnone⟩ | ⟨first, hfirst, hread⟩
  · rw [hnone] at hnext
    cases hnext
  · have hlt := (List.getElem?_eq_some_iff.mp hfirst).1
    rw [hread] at hnext
    cases hnext
    refine ⟨hlt, width_le first, ?_⟩
    rw [nextOffset_read, nominalLength_read, List.length_drop]
    omega

/-- The checked move is the move of the cursor. -/
theorem Inside.checked_next? (h : Inside code cursor) (hlength : code.length < 2 ^ 63) :
    Checked.next? code cursor.offset =
      .ok (cursor.next?.map fun (inst, after) => (inst, after.offset)) := by
  rcases h.end_or_read with ⟨hend, hnone⟩ | ⟨first, hfirst, hread⟩
  · rw [Checked.next?, hnone, hend, List.getElem?_eq_none (Nat.le_refl _)]
    rfl
  · rw [Checked.next?_of_getElem? hlength hfirst, hread]
    rfl

theorem Inside.checked_countBounds (h : Inside code cursor) :
    Checked.countBounds code cursor.offset = .ok cursor.countBounds := by
  rw [Checked.countBounds, Checked.sub_of_le h.offset_le, Checked.ok_bind, countBounds, h.rest_eq,
    List.length_drop, Nat.min_comm]
  rfl

end Cursor

/-! ## Sizes of an instruction

The lengths and offsets that an instruction is asked for. Its end lies inside the code, so none of
the sums is too large. -/

namespace Instruction

variable {inst : Instruction}

theorem checked_encodedLength (h : inst.nextOffset < 2 ^ 64) :
    Checked.encodedLength inst = .ok inst.encodedLength := by
  rw [nextOffset] at h
  exact Checked.add_of_lt (by rw [← encodedLength]; omega)

theorem checked_nextOffset (h : inst.nextOffset < 2 ^ 64) :
    Checked.nextOffset inst = .ok inst.nextOffset := by
  rw [Checked.nextOffset, checked_encodedLength h, Checked.ok_bind]
  exact Checked.add_of_lt h

/-- The length without the first byte, which is always there. -/
theorem checked_warnedLength (h : inst.nextOffset < 2 ^ 64) :
    Checked.warnedLength inst = .ok (inst.encodedLength - 1) := by
  have hpos : 1 ≤ inst.encodedLength := by
    rw [encodedLength]
    omega
  rw [Checked.warnedLength, checked_encodedLength h, Checked.ok_bind, Checked.sub_of_le hpos]

end Instruction

/-! ## Everything stays within bounds

All of it put together for one cursor, and then for all that are reached. -/

/-- What is computed where the cursor stands goes right with checks too, and gives the same. -/
structure WithinBounds (code : Bytes) (cursor : Cursor) : Prop where
  offset_le : cursor.offset ≤ code.length
  next?_eq : Checked.next? code cursor.offset =
    .ok (cursor.next?.map fun (inst, after) => (inst, after.offset))
  countBounds_eq : Checked.countBounds code cursor.offset = .ok cursor.countBounds
  /-- The sums of a move, and where the slice that it takes begins and ends. -/
  slice_bounds : ∀ inst after, cursor.next? = some (inst, after) →
    cursor.offset + 1 < 2 ^ 64 ∧ cursor.offset + 1 + inst.nominalLength < 2 ^ 64 ∧
      cursor.offset + 1 ≤ after.offset ∧ after.offset ≤ code.length ∧
      after.offset = min (cursor.offset + 1 + inst.nominalLength) code.length
  nextOffset_eq : ∀ inst after, cursor.next? = some (inst, after) →
    Checked.nextOffset inst = .ok inst.nextOffset ∧ inst.nextOffset ≤ code.length

theorem Cursor.Inside.withinBounds {code : Bytes} {cursor : Cursor} (h : Inside code cursor)
    (hlength : code.length < 2 ^ 63) : WithinBounds code cursor where
  offset_le := h.offset_le
  next?_eq := h.checked_next? hlength
  countBounds_eq := h.checked_countBounds
  slice_bounds := by
    intro inst after hnext
    obtain ⟨hlt, hnominal, hstop⟩ := h.offset_next? hnext
    rw [wordSize] at hnominal
    rw [(offset_of_next? hnext).2]
    omega
  nextOffset_eq := by
    intro inst after hnext
    obtain ⟨-, -, hstop⟩ := h.offset_next? hnext
    exact ⟨checked_nextOffset (by omega), by omega⟩

/-- **No offset goes out of bounds.** Wherever a cursor gets to in code of less than 2⁶³ bytes, it
stands inside the code or at its end, and the checked operations go right there and give what the
unchecked ones give: the next instruction with its slice, the bounds on the number of instructions
and the offset behind the instruction. So do the marking of the destinations and the count of
present bytes in a warning. -/
theorem withinBounds_of_reached {code : Bytes} (hlength : code.length < 2 ^ 63) :
    (∀ cursor, Cursor.Reached code cursor → WithinBounds code cursor) ∧
    (∀ inst ∈ decode code, inst.offset < code.length ∧
      Checked.warnedLength inst = .ok (inst.encodedLength - 1)) ∧
    Checked.analyze code = .ok (JumpTable.analyze code) := by
  refine ⟨fun cursor hreached => (Cursor.inside_of_reached hreached).withinBounds hlength, ?_,
    Checked.analyze_eq code⟩
  intro inst hmem
  have hend := nextOffset_le_of_mem_decode hmem
  exact ⟨offset_lt_of_mem_decode hmem, checked_warnedLength (by omega)⟩

/-- A `JUMPDEST` in front of a `PUSH32` that is the last byte: behind the first the push is read,
all of whose immediate is missing. -/
theorem withinBounds_of_reached_last_byte :
    let code : Bytes := [0x5b, 0x7f]
    let cursor := (Cursor.start code).next.cursor
    code.length < 2 ^ 63 ∧ Cursor.Reached code cursor ∧ WithinBounds code cursor ∧
      Checked.next? code 1 = .ok (some (⟨1, 0x7f, some (.push 31), some []⟩, 2)) := by
  intro code cursor
  have hlength : code.length < 2 ^ 63 := by decide
  have hreached : Cursor.Reached code cursor := .next .start
  have hwithin := (withinBounds_of_reached hlength).1 cursor hreached
  exact ⟨hlength, hreached, hwithin, hwithin.next?_eq⟩

end EvmDisasm
