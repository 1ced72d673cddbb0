import EvmDisasm.JumpTable
import EvmDisasm.Proofs.Instruction.Tiling

/-!
# Jump analysis finds the valid jump destinations

`JumpTable.analyze` decodes the code and marks bits; `rawDestinations` walks over the raw bytes and
knows of no instruction. The two agree on all code and all offsets.

## The architecture

* **`isJumpDest_foldl_visit`** — the table side: after any list of instructions, exactly the offsets
  of its `JUMPDEST`s are marked, as far as the table reaches.
* **`rawDestinations_cons`** — the byte side: one step of the walk, with the advance written as the
  `width` that the sweep uses. This is the only place where the two ways of saying how long a push
  is meet.
* **`rawDestinations_eq`** — the walk from an offset lists the `JUMPDEST`s of the sweep from there,
  by induction along the sweep.
* **`isJumpDest_analyze`** — the two sides together.
-/

namespace EvmDisasm

open Instruction

/-- The offsets of the `JUMPDEST`s among the instructions, in order. -/
def Instruction.destinations (insts : List Instruction) : List Nat :=
  (insts.filter fun inst => inst.opcode = some .jumpDest).map offset

theorem Instruction.mem_destinations {insts : List Instruction} {offset : Nat} :
    offset ∈ destinations insts ↔
      ∃ inst ∈ insts, inst.offset = offset ∧ inst.opcode = some .jumpDest := by
  simp only [destinations, List.mem_map, List.mem_filter, decide_eq_true_eq]
  constructor
  · rintro ⟨inst, ⟨hmem, hop⟩, hoffset⟩
    exact ⟨inst, hmem, hoffset, hop⟩
  · rintro ⟨inst, hmem, hoffset, hop⟩
    exact ⟨inst, ⟨hmem, hop⟩, hoffset⟩

/-- One byte stands for `JUMPDEST`. -/
theorem Opcode.ofByte?_eq_jumpDest_iff {b : UInt8} :
    Opcode.ofByte? b = some .jumpDest ↔ b.toNat = 0x5b := by
  rw [Opcode.ofByte?_eq_some_iff]
  constructor
  · rintro rfl
    rfl
  · intro h
    exact UInt8.toNat.inj (h.symm ▸ rfl)

/-! ## The bit table

Every instruction is visited in turn. The table keeps its length, and a bit is set if some
instruction has set it. -/

namespace JumpTable

@[simp] theorem size_marks_visit (table : JumpTable) (inst : Instruction) :
    (table.visit inst).marks.size = table.marks.size := by
  unfold visit mark
  split
  · exact Array.size_setIfInBounds
  · rfl

/-- **One visit** marks the offset of the instruction, if that is a `JUMPDEST` and the table reaches
so far. -/
theorem isJumpDest_visit (table : JumpTable) (inst : Instruction) (offset : Nat) :
    (table.visit inst).isJumpDest offset = true ↔
      table.isJumpDest offset = true ∨
        (inst.offset = offset ∧ inst.opcode = some .jumpDest) ∧ offset < table.marks.size := by
  unfold visit
  -- any other instruction leaves the table alone
  by_cases hop : inst.opcode = some .jumpDest
  · rw [if_pos hop]
    simp only [isJumpDest, mark, Array.getElem?_setIfInBounds, hop, and_true]
    by_cases heq : inst.offset = offset
    · subst heq
      by_cases hlt : inst.offset < table.marks.size
      · simp [hlt]
      · simp [hlt]
    · simp [heq]
  · rw [if_neg hop]
    simp [hop]

/-- **All visits** mark the destinations among the instructions. -/
theorem isJumpDest_foldl_visit (insts : List Instruction) (table : JumpTable) (offset : Nat) :
    (insts.foldl visit table).isJumpDest offset = true ↔
      table.isJumpDest offset = true ∨
        offset ∈ destinations insts ∧ offset < table.marks.size := by
  rw [mem_destinations]
  -- one instruction after the other, on the table that those before it left
  induction insts generalizing table with
  | nil => simp
  | cons inst rest ih =>
    rw [List.foldl_cons, ih, isJumpDest_visit, size_marks_visit, or_assoc]
    simp only [List.mem_cons, exists_eq_or_imp]
    rw [or_and_right]

theorem isJumpDest_replicate (n offset : Nat) :
    (JumpTable.mk (Array.replicate n false)).isJumpDest offset = false := by
  unfold isJumpDest
  rw [Array.getElem?_replicate]
  split <;> rfl

/-- The table of some code has the destinations of its decoding. -/
theorem isJumpDest_analyze_iff_mem {code : Bytes} {offset : Nat} :
    (analyze code).isJumpDest offset = true ↔ offset ∈ destinations (decode code) := by
  rw [analyze, isJumpDest_foldl_visit, isJumpDest_replicate, Array.size_replicate]
  constructor
  · rintro (hfalse | ⟨hmem, -⟩)
    · cases hfalse
    · exact hmem
  · intro hmem
    refine .inr ⟨hmem, ?_⟩
    -- the table is as long as the code, and an instruction starts at a byte of it
    obtain ⟨inst, hinst, rfl, -⟩ := mem_destinations.mp hmem
    exact offset_lt_of_mem_decode hinst

end JumpTable

/-! ## The walk over raw bytes

The walk advances by what each byte asks for, as the sweep does, but looks at bytes and not at
instructions. -/

theorem rawDestinations_of_drop_eq_nil {code : Bytes} {i : Nat} (h : code.drop i = []) :
    rawDestinations code i = [] := by
  have hle : code.length ≤ i := List.drop_eq_nil_iff.mp h
  rw [rawDestinations, dif_neg (by omega)]

/-- **One step of the walk**, with the advance of the sweep. -/
theorem rawDestinations_cons {code following : Bytes} {i : Nat} {b : UInt8}
    (h : code.drop i = b :: following) :
    rawDestinations code i =
      if b.toNat = 0x5b then i :: rawDestinations code (i + 1 + width b)
      else rawDestinations code (i + 1 + width b) := by
  have hlt : i < code.length := by
    rcases Nat.lt_or_ge i code.length with hlt | hge
    · exact hlt
    · rw [List.drop_eq_nil_of_le hge] at h
      cases h
  have hget : code[i] = b := by
    have hcons := List.drop_eq_getElem_cons hlt
    rw [h] at hcons
    exact (List.cons.inj hcons).1.symm
  rw [rawDestinations, dif_pos hlt, hget, width_eq]
  -- three kinds of bytes: a destination, a push, and any other
  by_cases hdest : b.toNat = 0x5b
  · simp [hdest]
  · by_cases hpush : 0x60 ≤ b.toNat ∧ b.toNat ≤ 0x7f
    · have hadvance : i + (b.toNat - 0x60) + 2 = i + 1 + (b.toNat - 0x60 + 1) := by omega
      simp [hdest, hpush, hadvance]
    · simp [hdest, hpush]

/-- **The walk lists the destinations of the sweep**, from any offset on. -/
theorem rawDestinations_eq {code : Bytes} (offset : Nat) (bytes : Bytes)
    (hbytes : code.drop offset = bytes) :
    rawDestinations code offset = destinations (Cursor.mk offset bytes).remaining := by
  induction offset, bytes using sweep_induction with
  | done offset =>
    rw [rawDestinations_of_drop_eq_nil hbytes, Cursor.remaining_nil]
    rfl
  | step offset b following ih =>
    have hnext : code.drop (offset + 1 + width b) = following.drop (width b) := by
      rw [← List.drop_drop, ← List.drop_drop, hbytes]
      rfl
    rw [rawDestinations_cons hbytes, ih hnext, Cursor.remaining_cons]
    by_cases hdest : b.toNat = 0x5b
    · simp [destinations, hdest, Opcode.ofByte?_eq_jumpDest_iff]
    · simp [destinations, hdest, Opcode.ofByte?_eq_jumpDest_iff]

theorem rawDestinations_zero (code : Bytes) :
    rawDestinations code 0 = destinations (decode code) :=
  rawDestinations_eq 0 code rfl

namespace JumpTable

/-- **The table holds the valid jump destinations.** They are the ones of the walk over the raw
bytes, which are the `JUMPDEST`s that start an instruction; there are none past the end of the code
and none inside an immediate, whatever byte stands there. -/
theorem isJumpDest_analyze (code : Bytes) (offset : Nat) :
    ((analyze code).isJumpDest offset = true ↔ offset ∈ rawDestinations code 0) ∧
    ((analyze code).isJumpDest offset = true ↔
      ∃ inst ∈ decode code, inst.offset = offset ∧ inst.opcode = some .jumpDest) ∧
    (code.length ≤ offset → (analyze code).isJumpDest offset = false) ∧
    (∀ inst ∈ decode code, inst.offset < offset → offset < inst.nextOffset →
      (analyze code).isJumpDest offset = false) := by
  refine ⟨?_, ?_, ?_, ?_⟩
  · rw [isJumpDest_analyze_iff_mem, rawDestinations_zero]
  · rw [isJumpDest_analyze_iff_mem, mem_destinations]
  · -- an instruction starts inside the code
    intro hpast
    rw [Bool.eq_false_iff, ne_eq, isJumpDest_analyze_iff_mem, mem_destinations]
    rintro ⟨inst, hmem, rfl, -⟩
    have hlt := (List.getElem?_eq_some_iff.mp (standsIn_of_mem_decode hmem).code_eq).1
    omega
  · intro inst hmem hafter hbefore
    rw [Bool.eq_false_iff, ne_eq, isJumpDest_analyze_iff_mem, mem_destinations]
    rintro ⟨other, hother, rfl, -⟩
    -- two instructions do not overlap
    have hle := (chainedFrom_decode code).nextOffset_le hmem hother hafter
    omega

/-- A `JUMPDEST`, a push over the same byte, a `JUMPDEST` and a push that is cut short: the byte at
two is passed over, and no offset past the end counts. -/
theorem isJumpDest_analyze_immediate :
    let code : Bytes := [0x5b, 0x60, 0x5b, 0x5b, 0x61, 0x5b]
    (code.length ≤ 100 ∧ (analyze code).isJumpDest 100 = false) ∧
      ∃ inst ∈ decode code, inst.offset < 2 ∧ 2 < inst.nextOffset ∧
        (analyze code).isJumpDest 2 = false := by
  intro code
  have hmem : (⟨1, 0x60, some (.push 0), some [0x5b]⟩ : Instruction) ∈ decode code := by
    decide +kernel
  have hpast : code.length ≤ 100 := by decide
  exact ⟨⟨hpast, (isJumpDest_analyze code 100).2.2.1 hpast⟩,
    _, hmem, by decide, by decide,
    (isJumpDest_analyze code 2).2.2.2 _ hmem (by decide) (by decide)⟩

end JumpTable

end EvmDisasm
