import EvmDisasm.Disassembler
import EvmDisasm.Proofs.Instruction.Sweep

/-!
# What disassembling gives

`Disassembler.disassemble` decodes and judges in one loop that may stop in the middle. Here the loop
is taken apart: it keeps the instructions up to the first that the mode does not let pass, and what
it keeps, records and reports are three questions to the full decoding.

* **`sweepOnto_next`** — one turn of the loop.
* **`sweepOnto_eq`**, **`sweepOnto_start`** — the whole loop in one equation, from any cursor and
  from the start of the code. Nothing later opens it again.
* **`instructions_disassemble`**, **`value_disassemble`** — the state and the answer of a call. Both
  speak of the code and the mode alone, and not of what the disassembler held before.
-/

namespace EvmDisasm.Disassembler

open Instruction

/-- Whether the mode lets the instruction pass. -/
def accepts (strict : Bool) (inst : Instruction) : Bool :=
  !strict || inst.isKnown

/-- What is reported of an instruction that the mode does not let pass. -/
def refusal (inst : Instruction) : UnknownOpcode :=
  ⟨inst.code, inst.offset⟩

/-- What is reported of the instructions: the first that the mode does not let pass. -/
def refused? (strict : Bool) (insts : List Instruction) : Option UnknownOpcode :=
  (insts.find? (!accepts strict ·)).map refusal

/-- The answer of a call that reports what is given. -/
def verdict : Option UnknownOpcode → Except UnknownOpcode Unit
  | some e => .error e
  | none => .ok ()

@[simp] theorem verdict_eq_ok_iff {refused : Option UnknownOpcode} :
    verdict refused = .ok () ↔ refused = none := by
  cases refused with
  | none => simp [verdict]
  | some e => simp [verdict]

@[simp] theorem verdict_eq_error_iff {refused : Option UnknownOpcode} {e : UnknownOpcode} :
    verdict refused = .error e ↔ refused = some e := by
  cases refused with
  | none => simp [verdict]
  | some e' => simp [verdict]

/-- The lenient mode lets everything pass, the strict one what is known. -/
theorem accepts_eq_true_iff {strict : Bool} {inst : Instruction} :
    accepts strict inst = true ↔ strict = false ∨ inst.isKnown = true := by
  simp [accepts]

@[simp] theorem accepts_true (inst : Instruction) : accepts true inst = inst.isKnown := rfl

@[simp] theorem accepts_false (inst : Instruction) : accepts false inst = true := rfl

theorem takeWhile_accepts_false (insts : List Instruction) :
    insts.takeWhile (accepts false) = insts := by
  induction insts with
  | nil => rfl
  | cons inst rest ih => rw [List.takeWhile_cons_of_pos (accepts_false inst), ih]

/-! ## Lists that are put together or changed

What is kept and what is refused of a list, in terms of its parts. The first instruction that does
not pass is what decides, so a part in front has the first word. -/

/-- The first refusal is that of the front, if there is one there. -/
theorem refused?_append (strict : Bool) (front rest : List Instruction) :
    refused? strict (front ++ rest) = (refused? strict front).or (refused? strict rest) := by
  rw [refused?, List.find?_append, Option.map_or]
  rfl

/-- Behind an instruction that is refused, nothing is kept. -/
theorem takeWhile_accepts_append_of_refused {strict : Bool} {front : List Instruction}
    {e : UnknownOpcode} (h : refused? strict front = some e) (rest : List Instruction) :
    (front ++ rest).takeWhile (accepts strict) = front.takeWhile (accepts strict) := by
  obtain ⟨inst, hfind, -⟩ := Option.map_eq_some_iff.mp h
  obtain ⟨hinst, init, behind, rfl, hinit⟩ := List.find?_eq_some_iff_append.mp hfind
  have hstop (others : List Instruction) : (inst :: others).takeWhile (accepts strict) = [] :=
    List.takeWhile_cons_of_neg (by simpa using hinst)
  have hall : ∀ other ∈ init, accepts strict other = true := by simpa using hinit
  rw [List.append_assoc, List.takeWhile_append_of_pos hall, List.takeWhile_append_of_pos hall,
    List.cons_append, hstop, hstop]

/-- Behind a front that passes, what is kept of the rest is kept. -/
theorem takeWhile_accepts_append_of_accepted {strict : Bool} {front : List Instruction}
    (h : refused? strict front = none) (rest : List Instruction) :
    (front ++ rest).takeWhile (accepts strict) = front ++ rest.takeWhile (accepts strict) := by
  rw [refused?, Option.map_eq_none_iff, List.find?_eq_none] at h
  apply List.takeWhile_append_of_pos
  intro inst hmem
  simpa using h inst hmem

theorem takeWhile_accepts_of_refused?_eq_none {strict : Bool} {insts : List Instruction}
    (h : refused? strict insts = none) : insts.takeWhile (accepts strict) = insts := by
  have hfront := takeWhile_accepts_append_of_accepted h []
  rwa [List.append_nil, List.takeWhile_nil, List.append_nil] at hfront

section

variable {strict : Bool} {change : Instruction → Instruction}

/-- A change that the mode does not notice at most renames what is refused. -/
theorem refused?_map {rename : UnknownOpcode → UnknownOpcode}
    (haccepts : ∀ inst, accepts strict (change inst) = accepts strict inst)
    (hrefusal : ∀ inst, refusal (change inst) = rename (refusal inst))
    (insts : List Instruction) :
    refused? strict (insts.map change) = (refused? strict insts).map rename := by
  simp only [refused?, List.find?_map, Option.map_map, Function.comp_def, haccepts, hrefusal]

theorem takeWhile_accepts_map
    (haccepts : ∀ inst, accepts strict (change inst) = accepts strict inst)
    (insts : List Instruction) :
    (insts.map change).takeWhile (accepts strict) =
      (insts.takeWhile (accepts strict)).map change := by
  simp only [List.takeWhile_map, Function.comp_def, haccepts]

end

/-! ## The loop

The loop carries what it has kept and recorded in reverse. Its turns follow the cursor, so the
induction is along that. -/

theorem sweepOnto_done {cursor : Cursor} (h : cursor.next? = none) (strict : Bool)
    (kept : List Instruction) (records : List Log.Record) :
    sweepOnto strict kept records cursor = ⟨kept.reverse, records.reverse, none⟩ := by
  rw [sweepOnto]
  split
  · rfl
  · rename_i hnext
    rw [h] at hnext
    cases hnext

/-- **One turn of the loop.** Decoding is recorded before the mode is asked, so a refused
instruction leaves its trace. -/
theorem sweepOnto_next {cursor after : Cursor} {inst : Instruction}
    (h : cursor.next? = some (inst, after)) (strict : Bool) (kept : List Instruction)
    (records : List Log.Record) :
    sweepOnto strict kept records cursor =
      if accepts strict inst then
        sweepOnto strict (inst :: kept)
          (inst.warnings.reverse ++ (inst.trace.reverse ++ records)) after
      else ⟨kept.reverse, (inst.trace.reverse ++ records).reverse, some (refusal inst)⟩ := by
  rw [sweepOnto]
  split
  · rename_i hend
    rw [h] at hend
    cases hend
  · rename_i hnext
    rw [h] at hnext
    cases hnext
    -- the loop asks whether to stop, `accepts` whether to go on
    by_cases haccepts : accepts strict inst = true
    · have hpass : ¬ (strict && !inst.isKnown) = true := by
        rcases accepts_eq_true_iff.mp haccepts with hlenient | hknown
        · simp [hlenient]
        · simp [hknown]
      rw [if_pos haccepts]
      exact if_neg hpass
    · have hstop : (strict && !inst.isKnown) = true := by
        simpa [accepts] using haccepts
      rw [if_neg haccepts]
      exact if_pos hstop

/-- **The loop in one equation.** What it gives from a cursor on is said by the remaining
instructions, without any loop. -/
theorem sweepOnto_eq (strict : Bool) (kept : List Instruction) (records : List Log.Record)
    (cursor : Cursor) :
    sweepOnto strict kept records cursor =
      { kept := kept.reverse ++ cursor.remaining.takeWhile (accepts strict)
        records := records.reverse ++
          ((cursor.remaining.takeWhile (accepts strict)).flatMap
            (fun inst => inst.trace ++ inst.warnings) ++
          (cursor.remaining.find? (!accepts strict ·)).toList.flatMap trace)
        refused := refused? strict cursor.remaining } := by
  -- along the cursor; each turn has more kept and recorded than the one before, so both vary
  induction cursor using Cursor.next_induction generalizing kept records with
  | done cursor hend =>
    have hremaining : cursor.remaining = [] := by rw [Cursor.remaining_eq, hend]
    rw [sweepOnto_done hend, hremaining]
    simp [refused?]
  | step cursor inst after hnext ih =>
    have hremaining : cursor.remaining = inst :: after.remaining := by
      rw [Cursor.remaining_eq, hnext]
    rw [sweepOnto_next hnext, hremaining]
    by_cases haccepts : accepts strict inst = true
    · rw [if_pos haccepts, ih]
      simp [refused?, haccepts]
    · rw [if_neg haccepts]
      simp [refused?, haccepts]

/-- The loop from the start of the code, where the remaining instructions are all there are. -/
theorem sweepOnto_start (strict : Bool) (code : Bytes) :
    sweepOnto strict [] [] (Cursor.start code) =
      { kept := (decode code).takeWhile (accepts strict)
        records := ((decode code).takeWhile (accepts strict)).flatMap
            (fun inst => inst.trace ++ inst.warnings) ++
          ((decode code).find? (!accepts strict ·)).toList.flatMap trace
        refused := refused? strict (decode code) } :=
  sweepOnto_eq strict [] [] (Cursor.start code)

/-! ## The call

A call runs the loop from the start of the code, and takes its result apart into the answer and the
new state. -/

variable (d : Disassembler)

@[simp] theorem code_disassemble : d.disassemble.2.code = d.code := by
  unfold disassemble
  dsimp only
  split <;> rfl

@[simp] theorem strict_disassemble : d.disassemble.2.strict = d.strict := by
  unfold disassemble
  dsimp only
  split <;> rfl

/-- **The state after a call**: of the decoded code, what the mode lets pass. -/
theorem instructions_disassemble :
    d.disassemble.2.instructions = (decode d.code).takeWhile (accepts d.strict) := by
  unfold disassemble
  rw [sweepOnto_start]
  dsimp only
  split <;> rfl

/-- **The answer of a call**: what is refused of the decoded code. -/
theorem value_disassemble :
    d.disassemble.1.value = verdict (refused? d.strict (decode d.code)) := by
  unfold disassemble
  rw [sweepOnto_start]
  dsimp only
  cases refused? d.strict (decode d.code) with
  | none => rfl
  | some e => rfl

variable {d}

theorem value_disassemble_eq_ok_iff :
    d.disassemble.1.value = .ok () ↔ refused? d.strict (decode d.code) = none := by
  rw [value_disassemble, verdict_eq_ok_iff]

theorem value_disassemble_eq_error_iff {e : UnknownOpcode} :
    d.disassemble.1.value = .error e ↔ refused? d.strict (decode d.code) = some e := by
  rw [value_disassemble, verdict_eq_error_iff]

end EvmDisasm.Disassembler
