import EvmDisasm.Proofs.Instruction.Sweep

/-!
# Decoding code piece by piece

What becomes of a decoding when more code is put behind it. Only an instruction that the end had cut
short notices: it takes the bytes that it lacks from the front of what follows, and decoding goes on
behind those.

Both the boundary between two instructions and the one inside an immediate are one equation
(`remaining_append`). Since an instruction that is complete lacks nothing, handing the bytes to
every instruction is the same as handing them to the last, and the `overrun` of a whole list, the
number of bytes by which its instructions run past the end, is what the last one lacks. The two
cases come apart only in `decode_append_of_whole` and `decode_append_of_cut`.
-/

namespace EvmDisasm

namespace Instruction

def lacking (inst : Instruction) : Nat :=
  inst.nominalLength - inst.presentLength

def extend (more : Bytes) (inst : Instruction) : Instruction :=
  { inst with immediate := inst.immediate.map (· ++ more) }

/-- The instruction with the bytes that it lacks taken from the front of `more`. -/
def fill (more : Bytes) (inst : Instruction) : Instruction :=
  inst.extend (more.take inst.lacking)

/-- The number of bytes that the instructions ask for past their end. -/
def overrun : List Instruction → Nat
  | [] => 0
  | inst :: rest => inst.lacking + overrun rest

@[simp] theorem offset_fill (more : Bytes) (inst : Instruction) :
    (inst.fill more).offset = inst.offset := rfl

@[simp] theorem opcode_fill (more : Bytes) (inst : Instruction) :
    (inst.fill more).opcode = inst.opcode := rfl

@[simp] theorem overrun_nil : overrun [] = 0 := rfl

@[simp] theorem overrun_cons (inst : Instruction) (rest : List Instruction) :
    overrun (inst :: rest) = inst.lacking + overrun rest := rfl

theorem overrun_append (front rest : List Instruction) :
    overrun (front ++ rest) = overrun front + overrun rest := by
  induction front with
  | nil => simp
  | cons inst front ih =>
    rw [List.cons_append, overrun_cons, overrun_cons, ih, Nat.add_assoc]

/-- An instruction lacks what does not follow it. -/
theorem lacking_read (offset : Nat) (code : UInt8) (following : Bytes) :
    (read offset code following).lacking = width code - following.length := by
  rw [lacking, nominalLength_read, presentLength_read]
  omega

/-- It lacks nothing if it is whole. -/
theorem Shaped.lacking_eq_zero_iff {inst : Instruction} (h : Shaped inst) :
    inst.lacking = 0 ↔ inst.isTruncated = false := by
  rw [h.isTruncated_eq, decide_eq_false_iff_not, lacking]
  omega

/-- **Filling up is reading with more behind.** What the instruction lacked it would have found
there.
-/
theorem fill_read (offset : Nat) (code : UInt8) (following more : Bytes) :
    (read offset code following).fill more = read offset code (following ++ more) := by
  rw [fill, lacking_read, extend, read_eq, read_eq, List.take_append]
  by_cases hpush : 0 < width code
  · simp [hpush]
  · simp [hpush]

theorem fill_of_lacking_eq_zero {inst : Instruction} (h : inst.lacking = 0) (more : Bytes) :
    inst.fill more = inst := by
  simp [fill, extend, h]

end Instruction

open Instruction

namespace Cursor

/-- A sweep over code in two parts: the instructions of the first part, with what they lack filled
up from the second, and then the sweep over the rest of the second part. -/
theorem remaining_append (offset : Nat) (front back : Bytes) :
    (Cursor.mk offset (front ++ back)).remaining =
      (Cursor.mk offset front).remaining.map (fill back) ++
        (Cursor.mk (offset + front.length + overrun (Cursor.mk offset front).remaining)
          (back.drop (overrun (Cursor.mk offset front).remaining))).remaining := by
  -- along the sweep of the first part; the second part comes in at its last instruction only
  induction offset, front using sweep_induction with
  | done offset => simp
  | step offset code following ih =>
    rw [remaining_cons offset code following, overrun_cons, lacking_read, List.cons_append,
      remaining_cons, List.map_cons, List.cons_append, fill_read]
    congr 1
    rcases Nat.le_total (width code) following.length with hfits | hshort
    · -- the immediate ends inside the first part, and the induction goes on behind it
      have hzero : width code - following.length = 0 := by omega
      rw [List.drop_append_of_le_length hfits, ih, hzero, Nat.zero_add]
      congr 3
      simp only [List.length_drop, List.length_cons]
      omega
    · -- the immediate takes up the first part and runs on into the second
      have hrest : following.drop (width code) = [] := List.drop_eq_nil_of_le hshort
      have hnext : offset + (code :: following).length + (width code - following.length) =
          offset + 1 + width code := by
        rw [List.length_cons]
        omega
      rw [List.drop_append, hrest, remaining_nil, overrun_nil, List.map_nil]
      simp only [List.nil_append, Nat.add_zero, hnext]

end Cursor

/-- The decoding of code in two parts, with that of the second moved up. -/
theorem decode_append (front back : Bytes) :
    decode (front ++ back) =
      (decode front).map (fill back) ++
        (decode (back.drop (overrun (decode front)))).map
          (shift (front.length + overrun (decode front))) := by
  have h := Cursor.remaining_append 0 front back
  rwa [Nat.zero_add, Cursor.remaining_eq_map_shift (front.length + _)] at h

/-! ## The two kinds of boundary

The equation says at once what the two cases say by themselves: where nothing is lacking nothing is
filled up, and where the last instruction lacks some bytes nothing in front of it does. -/

/-- What stands in front of an instruction is whole. -/
theorem lacking_eq_zero_of_mem_front {code : Bytes} {front rest : List Instruction}
    {inst : Instruction} (hcode : decode code = front ++ inst :: rest) :
    ∀ other ∈ front, other.lacking = 0 := by
  intro other hmem
  rw [lacking, presentLength_of_mem_dropLast_decode (mem_dropLast_decode hcode hmem), Nat.sub_self]

namespace Instruction

theorem map_fill_eq_self {insts : List Instruction} (h : ∀ inst ∈ insts, inst.lacking = 0)
    (more : Bytes) : insts.map (fill more) = insts := by
  calc insts.map (fill more)
      = insts.map id :=
        List.map_congr_left fun inst hmem => fill_of_lacking_eq_zero (h inst hmem) more
    _ = insts := List.map_id insts

theorem overrun_eq_zero {insts : List Instruction} (h : ∀ inst ∈ insts, inst.lacking = 0) :
    overrun insts = 0 := by
  induction insts with
  | nil => rfl
  | cons inst rest ih =>
    rw [overrun_cons, h inst List.mem_cons_self,
      ih fun other hmem => h other (List.mem_cons_of_mem _ hmem)]

end Instruction

/-- If the last instruction is whole, all are. -/
theorem lacking_eq_zero_of_isTruncated_last {code : Bytes}
    (hlast : ∀ last, (decode code).getLast? = some last → last.isTruncated = false) :
    ∀ inst ∈ decode code, inst.lacking = 0 := by
  intro inst hmem
  -- the last instruction is whole by assumption, the others because they are not the last
  rcases List.eq_nil_or_concat (decode code) with hnil | ⟨init, last, hcode⟩
  · rw [hnil] at hmem
    cases hmem
  · rw [List.concat_eq_append] at hcode
    have hmem' := hmem
    rw [hcode, List.mem_append, List.mem_singleton] at hmem'
    rcases hmem' with hinit | rfl
    · exact lacking_eq_zero_of_mem_front hcode inst hinit
    · rw [(shaped_of_mem_decode hmem).lacking_eq_zero_iff]
      exact hlast inst (by rw [hcode, List.getLast?_concat])

/-- At a boundary between two instructions the second part is decoded by itself. -/
theorem decode_append_of_whole {front : Bytes}
    (hlast : ∀ last, (decode front).getLast? = some last → last.isTruncated = false)
    (back : Bytes) :
    decode (front ++ back) = decode front ++ (decode back).map (shift front.length) := by
  have hnone := lacking_eq_zero_of_isTruncated_last hlast
  rw [decode_append, map_fill_eq_self hnone, overrun_eq_zero hnone, List.drop_zero, Nat.add_zero]

/-- Inside an immediate the second part first completes it, as far as it reaches. -/
theorem decode_append_of_cut {front : Bytes} {init : List Instruction} {last : Instruction}
    (hfront : decode front = init ++ [last]) (back : Bytes) :
    decode (front ++ back) =
      init ++ last.extend (back.take (min last.lacking back.length)) ::
        (decode (back.drop (min last.lacking back.length))).map
          (shift (front.length + min last.lacking back.length)) := by
  have hinit := lacking_eq_zero_of_mem_front hfront
  have hoverrun : overrun (init ++ [last]) = last.lacking := by
    rw [overrun_append, overrun_eq_zero hinit, overrun_cons, overrun_nil, Nat.zero_add,
      Nat.add_zero]
  rw [decode_append, hfront, hoverrun, List.map_append, map_fill_eq_self hinit, List.append_assoc]
  rcases Nat.le_total last.lacking back.length with henough | hshort
  · rw [Nat.min_eq_left henough]
    rfl
  · -- nothing is left of the second part, so it does not matter where that would stand
    rw [Nat.min_eq_right hshort, List.drop_eq_nil_of_le hshort, List.drop_length, List.take_length]
    simp [fill, List.take_of_length_le hshort, decode, Cursor.start]

end EvmDisasm
