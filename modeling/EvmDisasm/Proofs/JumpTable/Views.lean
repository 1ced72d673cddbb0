import Mathlib.Data.List.Sort
import EvmDisasm.Proofs.JumpTable.Padding

/-!
# The views of a jump table

A table can be asked for an offset, listed, counted, tested for being empty and compared. All five
read one row of marks, which the analysis sets while it goes through the instructions, and all five
agree. Equality sees the length of the code as well, which no single query shows.

## The architecture

* **`toList_marks`** — the marks are the answers of `isJumpDest`, one for each offset. Every view of
  the marks becomes a statement about `isJumpDest` by this one equation (`length_toList`,
  `isEmpty_iff`, `eq_iff`).
* **`ChainedFrom.pairwise_offset`** — the instructions of a chain start at ascending offsets, so the
  marks of an analysis hit pairwise different places.
* **`toList_analyze`** — the listing of a table is the row of its `JUMPDEST`s as they come in the
  code: both ascend and have the same members.
* **`Views`** and **`views_analyze`** — the agreement in full.
-/

namespace EvmDisasm

open Instruction

/-! ## Ascending offsets

Each instruction takes up at least one byte, so offsets ascend along a chain and with them the
destinations. -/

namespace Instruction

variable {offset : Nat} {insts : List Instruction}

/-- **The offsets of a chain ascend.** -/
theorem ChainedFrom.pairwise_offset (h : ChainedFrom offset insts) :
    (insts.map Instruction.offset).Pairwise (· < ·) := by
  induction insts generalizing offset with
  | nil => exact .nil
  | cons inst rest ih =>
    obtain ⟨-, hrest⟩ := h
    rw [List.map_cons, List.pairwise_cons]
    refine ⟨?_, ih hrest⟩
    intro start hstart
    obtain ⟨other, hmem, rfl⟩ := List.mem_map.mp hstart
    -- what comes behind an instruction starts where it ends or later
    have hbehind : inst.nextOffset ≤ other.offset := hrest.le_offset hmem
    rw [nextOffset, encodedLength] at hbehind
    omega

theorem ChainedFrom.pairwise_destinations (h : ChainedFrom offset insts) :
    (destinations insts).Pairwise (· < ·) := by
  apply List.Pairwise.sublist _ h.pairwise_offset
  exact List.filter_sublist.map _

theorem length_destinations (insts : List Instruction) :
    (destinations insts).length = insts.countP fun inst => inst.opcode = some .jumpDest := by
  rw [destinations, List.length_map, List.countP_eq_length_filter]

end Instruction

namespace JumpTable

/-! ## What the views have to do with the marks

The views read the row of marks in their own ways. Through `toList_marks` all of them come to speak
of single offsets. -/

variable {table other : JumpTable}

/-- **The marks are the answers**, one for each offset. -/
theorem toList_marks (table : JumpTable) :
    table.marks.toList = (List.range table.marks.size).map table.isJumpDest := by
  apply List.ext_getElem
  · simp
  · intro i hi _
    have hmark : i < table.marks.size := by simpa using hi
    simp [isJumpDest, hmark]

theorem mem_toList {offset : Nat} :
    offset ∈ table.toList ↔ table.isJumpDest offset = true := by
  rw [toList, List.mem_filter, List.mem_range]
  constructor
  · exact fun h => h.2
  · intro h
    refine ⟨?_, h⟩
    -- no offset past the end is marked
    by_contra hpast
    rw [isJumpDest_of_size_le (by omega)] at h
    cases h

theorem pairwise_toList (table : JumpTable) : table.toList.Pairwise (· < ·) :=
  List.pairwise_lt_range.filter _

/-- As many offsets are listed as there are marks. -/
theorem length_toList (table : JumpTable) : table.toList.length = table.size := by
  rw [size, ← Array.count_toList, toList_marks, List.count, List.countP_map, toList,
    ← List.countP_eq_length_filter]
  congr 1
  funext offset
  simp

/-- A table is empty if it has no marks. -/
theorem isEmpty_iff : table.isEmpty = true ↔ table.size = 0 := by
  rw [isEmpty, size, Array.count_eq_zero, Bool.not_eq_true', ← Bool.not_eq_true,
    Array.contains_iff_mem]

/-- **Two tables are equal if they are equally long and give the same answers.** -/
theorem eq_iff :
    table = other ↔
      table.marks.size = other.marks.size ∧
        ∀ offset, table.isJumpDest offset = other.isJumpDest offset := by
  constructor
  · rintro rfl
    exact ⟨rfl, fun _ => rfl⟩
  · rintro ⟨hsize, hsame⟩
    -- the marks are the answers, and there are as many of them in both
    have hmarks : table.marks.toList = other.marks.toList := by
      rw [toList_marks, toList_marks, hsize, funext hsame]
    cases table
    cases other
    exact congrArg JumpTable.mk (Array.toList_inj.mp hmarks)

/-! ## The table of an analysis

The marks of an analysis are the destinations of the decoding, which ascend as the listing does. -/

/-- **The table of some code lists its destinations in order.** Two ascending rows with the same
members are one. -/
theorem toList_analyze (code : Bytes) : (analyze code).toList = destinations (decode code) := by
  apply (pairwise_toList _).eq_of_mem_iff (chainedFrom_decode code).pairwise_destinations
  intro offset
  rw [mem_toList, isJumpDest_analyze_iff_mem]

/-- Two pieces of code have the same table if they are equally long and have the same
destinations. -/
theorem analyze_eq_iff {a b : Bytes} :
    analyze a = analyze b ↔
      a.length = b.length ∧
        ∀ offset, (analyze a).isJumpDest offset = (analyze b).isJumpDest offset := by
  rw [eq_iff, size_marks_analyze, size_marks_analyze]

theorem analyze_nil : analyze [] = empty := by
  rw [analyze, decode, Cursor.start, Cursor.remaining_nil]
  rfl

theorem analyze_eq_empty_iff {code : Bytes} : analyze code = empty ↔ code = [] := by
  rw [← analyze_nil, analyze_eq_iff]
  constructor
  · exact fun h => List.length_eq_zero_iff.mp h.1
  · rintro rfl
    exact ⟨rfl, fun _ => rfl⟩

/-- What a table of the code shows in its several views. -/
structure Views (code : Bytes) (table : JumpTable) : Prop where
  ascending : table.toList.Pairwise (· < ·)
  mem_toList_iff : ∀ offset, offset ∈ table.toList ↔ table.isJumpDest offset = true
  lt_length : ∀ offset ∈ table.toList, offset < code.length
  size_eq_length : table.size = table.toList.length
  size_eq_countP : table.size = (decode code).countP fun inst => inst.opcode = some .jumpDest
  isEmpty_iff : table.isEmpty = true ↔ table.size = 0

theorem views_of_analyze (code : Bytes) : Views code (analyze code) where
  ascending := pairwise_toList _
  mem_toList_iff := fun _ => mem_toList
  lt_length := by
    intro offset hmem
    rw [toList_analyze, mem_destinations] at hmem
    obtain ⟨inst, hinst, rfl, -⟩ := hmem
    exact offset_lt_of_mem_decode hinst
  size_eq_length := (length_toList _).symm
  size_eq_countP := by rw [← length_toList, toList_analyze, length_destinations]
  isEmpty_iff := isEmpty_iff

/-- Zeros have no destination. -/
theorem isEmpty_analyze_zeros (n : Nat) : (analyze (List.replicate n 0)).isEmpty = true := by
  rw [isEmpty_iff, (views_of_analyze _).size_eq_countP, List.countP_eq_zero]
  intro inst hmem
  simp [(stop_of_mem_decode_zeros hmem).1]

/-- **The views of a jump table agree.** The listing of the table of a piece of code ascends and
holds exactly the offsets that the table answers to, all of them inside the code; its size is the
length of the listing and the number of `JUMPDEST`s that are instructions, and it is empty if that
is zero. Two tables are equal exactly if the codes are equally long and the tables answer alike. So
only code without bytes has the empty table, although there is code of every length without a
destination. -/
theorem views_analyze :
    (∀ code, Views code (analyze code)) ∧
    (∀ a b, analyze a = analyze b ↔
      a.length = b.length ∧
        ∀ offset, (analyze a).isJumpDest offset = (analyze b).isJumpDest offset) ∧
    (∀ code, analyze code = empty ↔ code = []) ∧
    (∀ n, ∃ code : Bytes, code.length = n + 1 ∧ (analyze code).isEmpty = true ∧
      analyze code ≠ empty) := by
  refine ⟨views_of_analyze, fun a b => analyze_eq_iff, fun code => analyze_eq_empty_iff, ?_⟩
  intro n
  refine ⟨List.replicate (n + 1) 0, List.length_replicate, isEmpty_analyze_zeros _, ?_⟩
  rw [ne_eq, analyze_eq_empty_iff]
  exact List.cons_ne_nil _ _

end JumpTable

end EvmDisasm
