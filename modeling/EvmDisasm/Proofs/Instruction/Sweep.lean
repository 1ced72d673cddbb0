import EvmDisasm.Proofs.Instruction.Reading

/-!
# The sweep over a byte string

What a cursor reads from its place to the end of the code, as an equation on the bytes and as an
induction along them. A cursor stops at the end of the code even where a push asks for more, so its
own step is clamped; since nothing is read past the end, the clamped step and the plain one by
`1 + width` read the same instructions (`remaining_cons`), and no later proof meets the clamp again.

* **`sweep_induction`** — a property of an offset and the bytes from there on holds if it holds at
  the end and is handed on from behind an instruction to the front of it.
* **`encodeAll_remaining`**, **`chainedFrom_remaining`**, **`exists_following_of_mem_remaining`**,
  **`presentLength_of_mem_dropLast`** — the four invariants of a sweep: its instructions take up
  exactly the bytes, each starts where the one before ends, each is what is read at its offset, and
  only the last may be cut short.
* **`remaining_add`** — a sweep does not depend on where in the code it takes place, the offsets
  apart.
-/

namespace EvmDisasm

open Instruction

/-- Induction along a sweep, one instruction at a time. -/
theorem sweep_induction {motive : Nat → Bytes → Prop}
    (done : ∀ offset, motive offset [])
    (step : ∀ offset code following,
      motive (offset + 1 + width code) (following.drop (width code)) →
        motive offset (code :: following)) :
    ∀ offset bytes, motive offset bytes := by
  intro offset bytes
  induction hn : bytes.length using Nat.strongRecOn generalizing offset bytes with
  | _ n ih =>
    cases bytes with
    | nil => exact done offset
    | cons code following =>
      refine step offset code following (ih _ ?_ _ _ rfl)
      simp only [← hn, List.length_drop, List.length_cons]
      omega

namespace Cursor

/-- Induction along the moves of a cursor, for loops that are written with them. -/
theorem next_induction {motive : Cursor → Prop}
    (done : ∀ cursor, cursor.next? = none → motive cursor)
    (step : ∀ cursor inst after, cursor.next? = some (inst, after) → motive after → motive cursor) :
    ∀ cursor, motive cursor := by
  intro cursor
  induction hn : cursor.rest.length using Nat.strongRecOn generalizing cursor with
  | _ n ih =>
    -- on the number of bytes that are left, of which every move takes some
    cases hnext : cursor.next? with
    | none => exact done cursor hnext
    | some next =>
      obtain ⟨inst, after⟩ := next
      exact step cursor inst after hnext (ih _ (hn ▸ length_rest_lt hnext) after rfl)

@[simp] theorem remaining_nil (offset : Nat) : (Cursor.mk offset []).remaining = [] := by
  rw [remaining_eq]
  rfl

/-- The sweep in one equation, with the offset behind the instruction not clamped to the end. -/
theorem remaining_cons (offset : Nat) (code : UInt8) (following : Bytes) :
    (Cursor.mk offset (code :: following)).remaining =
      read offset code following ::
        (Cursor.mk (offset + 1 + width code) (following.drop (width code))).remaining := by
  rw [remaining_eq]
  simp only [next?, nextOffset_read, presentLength_read]
  rcases Nat.le_total (width code) following.length with hfits | hshort
  · rw [Nat.min_eq_left hfits]
  · -- the two offsets differ, but no byte remains and nothing is read at either
    rw [Nat.min_eq_right hshort]
    simp [List.drop_eq_nil_of_le hshort]

@[simp] theorem remaining_eq_nil_iff {offset : Nat} {bytes : Bytes} :
    (Cursor.mk offset bytes).remaining = [] ↔ bytes = [] := by
  cases bytes with
  | nil => simp
  | cons code following => simp [remaining_cons]

/-! ## The invariants of a sweep

Each is carried from behind an instruction to the front of it. The first two speak of the
instructions alone, the others of the code that they stand in. -/

/-- **No byte is lost.** The instructions that are read take up all bytes from the cursor on. -/
theorem encodeAll_remaining (offset : Nat) (bytes : Bytes) :
    encodeAll (Cursor.mk offset bytes).remaining = bytes := by
  induction offset, bytes using sweep_induction with
  | done offset => simp [encodeAll]
  | step offset code following ih =>
    simp only [encodeAll] at ih
    rw [remaining_cons, encodeAll, List.flatMap_cons, encode_read, ih, List.cons_append,
      List.take_append_drop]

/-- **The offsets are without gaps.** Each instruction starts where the one in front of it ends. -/
theorem chainedFrom_remaining (offset : Nat) (bytes : Bytes) :
    ChainedFrom offset (Cursor.mk offset bytes).remaining := by
  induction offset, bytes using sweep_induction with
  | done offset => simp [ChainedFrom]
  | step offset code following ih =>
    rw [remaining_cons]
    refine ⟨rfl, ?_⟩
    rw [nextOffset_read]
    rcases Nat.le_total (width code) following.length with hfits | hshort
    · rwa [Nat.min_eq_left hfits]
    · -- the instruction runs up to the end, so none stands behind it
      simp [List.drop_eq_nil_of_le hshort, ChainedFrom]

/-- **Every instruction is read at its own offset**, from the bytes of the code that stand there. -/
theorem exists_following_of_mem_remaining {code : Bytes} {inst : Instruction} (offset : Nat)
    (bytes : Bytes) (hbytes : code.drop offset = bytes)
    (hmem : inst ∈ (Cursor.mk offset bytes).remaining) :
    ∃ following, code.drop inst.offset = inst.code :: following ∧
      inst = read inst.offset inst.code following := by
  induction offset, bytes using sweep_induction with
  | done offset => simp at hmem
  | step offset first following ih =>
    rw [remaining_cons, List.mem_cons] at hmem
    -- the first instruction is read here, and any other further on
    rcases hmem with rfl | hmem
    · exact ⟨following, hbytes, rfl⟩
    · refine ih ?_ hmem
      have htail : code.drop (offset + 1) = following := by
        rw [← List.drop_drop, hbytes]
        rfl
      rw [← List.drop_drop, htail]

/-- **Only the last instruction can be cut short**, because the others have one behind them. -/
theorem presentLength_of_mem_dropLast {inst : Instruction} (offset : Nat) (bytes : Bytes)
    (hmem : inst ∈ (Cursor.mk offset bytes).remaining.dropLast) :
    inst.presentLength = inst.nominalLength := by
  induction offset, bytes using sweep_induction with
  | done offset => simp at hmem
  | step offset code following ih =>
    rw [remaining_cons] at hmem
    -- an instruction with another one behind it has all of its bytes in front of that
    by_cases hrest : following.drop (width code) = []
    · simp [hrest] at hmem
    · have hne : (Cursor.mk (offset + 1 + width code) (following.drop (width code))).remaining ≠ [] :=
        fun h => hrest (remaining_eq_nil_iff.mp h)
      rw [List.dropLast_cons_of_ne_nil hne, List.mem_cons] at hmem
      rcases hmem with rfl | hmem
      · have hfits : width code < following.length := by
          simpa [List.drop_eq_nil_iff] using hrest
        rw [presentLength_read, nominalLength_read]
        omega
      · exact ih hmem

/-! ## Moving a sweep

The offset of a cursor goes into the instructions that it reads and nowhere else. -/

@[simp] theorem shift_read (distance offset : Nat) (code : UInt8) (following : Bytes) :
    (read offset code following).shift distance = read (offset + distance) code following := rfl

/-- **A sweep does not depend on where it takes place.** -/
theorem remaining_add (distance offset : Nat) (bytes : Bytes) :
    (Cursor.mk (offset + distance) bytes).remaining =
      (Cursor.mk offset bytes).remaining.map (shift distance) := by
  induction offset, bytes using sweep_induction with
  | done offset => simp
  | step offset code following ih =>
    rw [remaining_cons, remaining_cons, List.map_cons, shift_read, ← ih]
    congr 3
    omega

/-- What remains at a cursor is the decoding of the bytes there, moved up to it. -/
theorem remaining_eq_map_shift (offset : Nat) (bytes : Bytes) :
    (Cursor.mk offset bytes).remaining = (decode bytes).map (shift offset) := by
  have h := remaining_add offset 0 bytes
  rwa [Nat.zero_add] at h

end Cursor

/-! ## The sweep over all of some code

The invariants at the start of the code, where later proofs use them. -/

theorem encodeAll_decode (code : Bytes) : encodeAll (decode code) = code :=
  Cursor.encodeAll_remaining 0 code

theorem chainedFrom_decode (code : Bytes) : ChainedFrom 0 (decode code) :=
  Cursor.chainedFrom_remaining 0 code

theorem exists_following_of_mem_decode {code : Bytes} {inst : Instruction}
    (hmem : inst ∈ decode code) :
    ∃ following, code.drop inst.offset = inst.code :: following ∧
      inst = read inst.offset inst.code following :=
  Cursor.exists_following_of_mem_remaining 0 code rfl hmem

theorem shaped_of_mem_decode {code : Bytes} {inst : Instruction} (hmem : inst ∈ decode code) :
    Shaped inst := by
  obtain ⟨following, -, hread⟩ := exists_following_of_mem_decode hmem
  rw [hread]
  exact shaped_read _ _ _

theorem presentLength_of_mem_dropLast_decode {code : Bytes} {inst : Instruction}
    (hmem : inst ∈ (decode code).dropLast) : inst.presentLength = inst.nominalLength :=
  Cursor.presentLength_of_mem_dropLast 0 code hmem

/-- What stands in front of an instruction is not the last one. -/
theorem mem_dropLast_decode {code : Bytes} {front rest : List Instruction}
    {inst other : Instruction} (hcode : decode code = front ++ inst :: rest) (hmem : other ∈ front) :
    other ∈ (decode code).dropLast := by
  rw [hcode, List.dropLast_append_of_ne_nil (List.cons_ne_nil inst rest)]
  exact List.mem_append_left _ hmem

theorem isTruncated_of_mem_dropLast_decode {code : Bytes} {inst : Instruction}
    (hmem : inst ∈ (decode code).dropLast) : inst.isTruncated = false := by
  have hshaped := shaped_of_mem_decode (List.dropLast_subset _ hmem)
  rw [hshaped.isTruncated_eq, presentLength_of_mem_dropLast_decode hmem]
  exact decide_eq_false (Nat.lt_irrefl _)

end EvmDisasm
