import EvmDisasm.Proofs.Disassembler.History
import EvmDisasm.Proofs.Hex.Texts

/-!
# What disassembling records

The records of a call come from two places. Decoding an instruction makes one before it is known
whether the instruction is kept, and keeping it makes the other. Both say how many immediate bytes
are there, but one counts them and the other subtracts the first byte from the length of the
instruction.

## The architecture

* **`report`** — the records of one instruction, with every wording in full. What decoding and
  keeping an instruction make of it is that (`trace_append_warnings`).
* **`records_of_accepted`**, **`records_of_refused`** — the records of a call that goes through, and
  of one that is refused.
* **`flatMap_report_eq_nil`** — known instructions in front of another one are not reported, since
  only the last instruction of the code can be cut short.
* **`records_trail`** — the trail of both modes.
-/

namespace EvmDisasm

namespace Instruction

/-! ## The wording of the records

Two wordings for each of two occasions, and which instruction gives rise to them. -/

/-- How many of the immediate bytes that the instruction asks for are present. -/
def counts (inst : Instruction) : String :=
  toString inst.presentLength ++ " of " ++ toString inst.nominalLength

def unknownTrace (code : UInt8) (offset : Nat) : Log.Record :=
  ⟨.trace, "unknown opcode " ++ Hex.number 2 code.toNat ++ " at " ++ Hex.number 1 offset⟩

def unknownWarning (code : UInt8) (offset : Nat) : Log.Record :=
  ⟨.warn, "unknown opcode " ++ Hex.number 2 code.toNat ++ " at offset " ++ Hex.number 1 offset⟩

def truncationTrace (inst : Instruction) : Log.Record :=
  ⟨.trace, inst.mnemonic ++ " at " ++ Hex.number 1 inst.offset ++ " truncated: " ++
    inst.counts ++ " immediate bytes"⟩

def truncationWarning (inst : Instruction) : Log.Record :=
  ⟨.warn, inst.mnemonic ++ " at offset " ++ Hex.number 1 inst.offset ++
    " runs past the end of the code (" ++ inst.counts ++ " bytes)"⟩

/-- The records of an instruction that is kept. -/
def report (inst : Instruction) : List Log.Record :=
  if !inst.isKnown then
    [unknownTrace inst.code inst.offset, unknownWarning inst.code inst.offset]
  else if inst.isTruncated then [truncationTrace inst, truncationWarning inst]
  else []

/-- The warning of an instruction that is kept, if there is one. -/
def warning? (inst : Instruction) : Option Log.Record :=
  if !inst.isKnown then some (unknownWarning inst.code inst.offset)
  else if inst.isTruncated then some (truncationWarning inst)
  else none

section

variable {inst : Instruction}

/-- An unknown instruction asks for no immediate. -/
theorem isTruncated_of_unknown (h : inst.isKnown = false) : inst.isTruncated = false := by
  have hop : inst.opcode = none := by simpa [isKnown] using h
  simp [isTruncated, nominalLength, hop]

theorem trace_of_unknown (h : inst.isKnown = false) :
    inst.trace = [unknownTrace inst.code inst.offset] := by
  rw [trace, h]
  rfl

/-- **The two places together make the report.** One of them subtracts the first byte from the
length and the other counts the immediate, which is the same. -/
theorem trace_append_warnings (inst : Instruction) :
    inst.trace ++ inst.warnings = inst.report := by
  have hcount : inst.encodedLength - 1 = inst.presentLength := Nat.add_sub_cancel_left 1 _
  unfold warnings report
  rw [hcount]
  -- an instruction is unknown, cut short or neither; no unknown one is cut short
  by_cases hknown : inst.isKnown = true
  · by_cases hcut : inst.isTruncated = true
    · simp [trace, hknown, hcut, truncationTrace, truncationWarning, counts, String.append_assoc]
    · simp [trace, hknown, hcut]
  · have hunknown : inst.isKnown = false := by simpa using hknown
    rw [trace_of_unknown hunknown, isTruncated_of_unknown hunknown, hunknown]
    rfl

theorem report_eq_nil (hknown : inst.isKnown = true) (hwhole : inst.isTruncated = false) :
    inst.report = [] := by
  simp [report, hknown, hwhole]

/-- The second of the two records is the warning. -/
theorem filter_report (inst : Instruction) :
    inst.report.filter (·.level = .warn) = inst.warning?.toList := by
  unfold report warning?
  split
  · rfl
  · split <;> rfl

end

end Instruction

namespace Disassembler

open Instruction

/-- What is recorded at the end of the code. -/
def summary (code : Bytes) : Log.Record :=
  ⟨.info, "decoded " ++ toString (decode code).length ++ " instructions from " ++
    toString code.length ++ " bytes"⟩

/-! ## The records of a call

The equation of the loop says which instructions are kept and which is refused. Their reports are
put together here, and most of them turn out to be empty. -/

/-- The instruction that a refusal is about is unknown. -/
theorem find?_of_refused?_eq_some {strict : Bool} {insts : List Instruction} {e : UnknownOpcode}
    (h : refused? strict insts = some e) :
    ∃ inst, insts.find? (!accepts strict ·) = some inst ∧ inst.isKnown = false ∧
      e = refusal inst := by
  obtain ⟨inst, hfind, rfl⟩ := Option.map_eq_some_iff.mp h
  have hstop : accepts strict inst = false := by simpa using List.find?_some hfind
  refine ⟨inst, hfind, ?_, rfl⟩
  rw [accepts, Bool.or_eq_false_iff] at hstop
  exact hstop.2

variable {d : Disassembler} {code : Bytes}

/-- **A call that goes through** reports all instructions and sums up. -/
theorem records_of_accepted (h : refused? d.strict (decode d.code) = none) :
    d.disassemble.1.records = (decode d.code).flatMap report ++ [summary d.code] := by
  have hfind : (decode d.code).find? (!accepts d.strict ·) = none := Option.map_eq_none_iff.mp h
  unfold disassemble
  rw [sweepOnto_start, takeWhile_accepts_of_refused?_eq_none h, hfind, h]
  simp [trace_append_warnings, summary]

/-- Known instructions in front of another one leave no record: only the last instruction of the
code can be cut short. -/
theorem flatMap_report_eq_nil {front rest : List Instruction} {inst : Instruction}
    (hcode : decode code = front ++ inst :: rest)
    (hknown : ∀ other ∈ front, other.isKnown = true) : front.flatMap report = [] := by
  rw [List.flatMap_eq_nil_iff]
  intro other hmem
  have hwhole := isTruncated_of_mem_dropLast_decode (mem_dropLast_decode hcode hmem)
  exact report_eq_nil (hknown other hmem) hwhole

/-- **A call that is refused** reports the byte for which it is, and that alone. -/
theorem records_of_refused {e : UnknownOpcode} (h : refused? d.strict (decode d.code) = some e) :
    d.disassemble.1.records = [unknownTrace e.code e.offset] := by
  obtain ⟨front, first, rest, hcode, hknown, -, -, hkept⟩ := exists_split_of_refused? h
  obtain ⟨inst, hfind, hunknown, rfl⟩ := find?_of_refused?_eq_some h
  -- the byte that is refused has been recorded by then, and nothing in front of it is
  have hfront := flatMap_report_eq_nil hcode hknown
  unfold disassemble
  rw [sweepOnto_start, hkept, hfind, h]
  simp [trace_append_warnings, hfront, trace_of_unknown hunknown, refusal]

/-! ## The warnings

The warning of an unknown byte and that of a cut instruction are told apart by a parenthesis, which
only the second one has. Since only the last instruction can be cut short, no warning comes behind
such a one. -/

/-- The warning of a cut instruction gives its counts in parentheses. -/
theorem parenthesis_mem_truncationWarning (inst : Instruction) :
    '(' ∈ (truncationWarning inst).message.toList := by
  have hmiddle : '(' ∈ " runs past the end of the code (".toList := by decide
  simp only [truncationWarning, String.toList_append, List.mem_append]
  exact .inl (.inl (.inr hmiddle))

theorem parenthesis_not_mem_unknownWarning (code : UInt8) (offset : Nat) :
    '(' ∉ (unknownWarning code offset).message.toList := by
  have hnumber : ∀ width n, '(' ∉ (Hex.number width n).toList := by
    intro width n hmem
    rcases Hex.mem_number hmem with hmark | hdigit
    · exact absurd hmark (by decide)
    · exact absurd hdigit (by decide)
  simp only [unknownWarning, String.toList_append, List.mem_append, not_or]
  exact ⟨⟨⟨by decide, hnumber 2 _⟩, by decide⟩, hnumber 1 _⟩

/-- The warnings among the records are those of the instructions, and the summary is none. -/
theorem filter_records (code : Bytes) (insts : List Instruction) :
    (insts.flatMap report ++ [summary code]).filter (·.level = .warn) =
      insts.filterMap warning? := by
  -- one report after the other; each has its warning behind its trace
  induction insts with
  | nil => rfl
  | cons inst rest ih =>
    rw [List.flatMap_cons, List.append_assoc, List.filter_append, ih, filter_report,
      List.filterMap_cons]
    cases inst.warning? <;> rfl

/-- The warnings of all instructions but the last are about unknown ones. -/
theorem parenthesis_not_mem_of_mem_init {init : List Instruction} {last : Instruction}
    (hcode : decode code = init ++ [last]) {record : Log.Record}
    (hmem : record ∈ init.filterMap warning?) : '(' ∉ record.message.toList := by
  obtain ⟨inst, hinst, hwarning⟩ := List.mem_filterMap.mp hmem
  have hwhole := isTruncated_of_mem_dropLast_decode (mem_dropLast_decode hcode hinst)
  rw [warning?, hwhole] at hwarning
  split at hwarning
  · cases hwarning
    exact parenthesis_not_mem_unknownWarning inst.code inst.offset
  · cases hwarning

/-- **No warning comes behind that of a cut instruction.** -/
theorem length_of_truncationWarning {inst : Instruction} {i : Nat}
    (h : ((decode code).filterMap warning?)[i]? = some (truncationWarning inst)) :
    ((decode code).filterMap warning?).length = i + 1 := by
  rcases List.eq_nil_or_concat (decode code) with hnil | ⟨init, last, hcode⟩
  · rw [hnil] at h
    cases h
  · rw [List.concat_eq_append] at hcode
    have hone : ([last].filterMap warning?).length ≤ 1 := List.length_filterMap_le warning? [last]
    rw [hcode, List.filterMap_append] at h ⊢
    -- the wording shows that the place is not among the warnings in front of the last instruction
    rcases Nat.lt_or_ge i (init.filterMap warning?).length with hlt | hge
    · rw [List.getElem?_append_left hlt] at h
      exact absurd (parenthesis_mem_truncationWarning inst)
        (parenthesis_not_mem_of_mem_init hcode (List.mem_of_getElem? h))
    · rw [List.getElem?_append_right hge] at h
      have hlt := (List.getElem?_eq_some_iff.mp h).1
      rw [List.length_append]
      omega

/-! ## The trail

The records in full, for both modes and both outcomes. -/

/-- **The trail of a call matches the instructions.** Whatever was found before, a lenient call
records every instruction in order, an unknown one and one that is cut short with two records each
and any other with none, and the two numbers of instructions and bytes at the end. Both records of
an instruction that is cut short show the same counts, the first of them less than the second; only
the last of the warnings can be such a one. A strict call that goes through records the same, and
one that is refused records nothing but that the byte it stops at was met. -/
theorem records_trail (code : Bytes) (found found' : List Instruction) :
    let lenient := (Disassembler.mk code false found).disassemble.1
    let strict := (Disassembler.mk code true found').disassemble.1
    let warnings := lenient.records.filter (·.level = .warn)
    lenient.records = (decode code).flatMap report ++ [summary code] ∧
    (∀ inst ∈ decode code, inst.isTruncated = true → inst.presentLength < inst.nominalLength) ∧
    (∀ i inst, warnings[i]? = some (truncationWarning inst) → warnings.length = i + 1) ∧
    (strict.value = .ok () → strict.records = lenient.records) ∧
    (∀ e, strict.value = .error e → strict.records = [unknownTrace e.code e.offset]) := by
  intro lenient strict warnings
  have hlenient : lenient.records = (decode code).flatMap report ++ [summary code] :=
    records_of_accepted (refused?_eq_none_iff.mpr (.inl rfl))
  have hwarnings : warnings = (decode code).filterMap warning? := by
    show lenient.records.filter _ = _
    rw [hlenient, filter_records]
  refine ⟨hlenient, ?_, ?_, ?_, ?_⟩
  · intro inst hmem hcut
    rw [(shaped_of_mem_decode hmem).isTruncated_eq] at hcut
    exact of_decide_eq_true hcut
  · intro i inst hwarning
    rw [hwarnings] at hwarning ⊢
    exact length_of_truncationWarning hwarning
  · -- a strict call that goes through meets the same instructions as a lenient one
    intro hok
    rw [hlenient]
    exact records_of_accepted (value_disassemble_eq_ok_iff.mp hok)
  · intro e herror
    exact records_of_refused (value_disassemble_eq_error_iff.mp herror)

/-- The byte `0xfe` and a `PUSH2` of whose immediate one byte is there: both are recorded, and
strict mode stops at the first. The `PUSH2` alone goes through in strict mode. -/
theorem records_trail_cut_short :
    let code : Bytes := [0xfe, 0x61, 0xaa]
    let push : Instruction := ⟨1, 0x61, some (.push 1), some [0xaa]⟩
    let lenient := (Disassembler.mk code false []).disassemble.1
    let strict := (Disassembler.mk code true []).disassemble.1
    let alone := (Disassembler.mk [0x61, 0xaa] true []).disassemble.1
    (push ∈ decode code ∧ push.isTruncated = true ∧ push.presentLength < push.nominalLength) ∧
    (lenient.records.filter (·.level = .warn)).length = 2 ∧
    (strict.value = .error ⟨0xfe, 0⟩ ∧ strict.records = [unknownTrace 0xfe 0]) ∧
    (alone.value = .ok () ∧
      alone.records = (Disassembler.mk [0x61, 0xaa] false []).disassemble.1.records) := by
  intro code push lenient strict alone
  obtain ⟨hrecords, hcounts, hlast, -, hrefused⟩ := records_trail code [] []
  have hmem : push ∈ decode code := by decide +kernel
  have hcut : push.isTruncated = true := by decide
  -- the warning of the cut push comes second, so there are two
  have hwarning : (lenient.records.filter (·.level = .warn))[1]? = some (truncationWarning push) := by
    rw [hrecords, filter_records]
    decide +kernel
  have herror : strict.value = .error ⟨0xfe, 0⟩ :=
    value_disassemble_eq_error_iff.mpr (by decide +kernel)
  have hok : alone.value = .ok () := value_disassemble_eq_ok_iff.mpr (by decide +kernel)
  exact ⟨⟨hmem, hcut, hcounts push hmem hcut⟩, hlast 1 push hwarning,
    ⟨herror, hrefused ⟨0xfe, 0⟩ herror⟩, hok, (records_trail [0x61, 0xaa] [] []).2.2.2.1 hok⟩

end Disassembler

end EvmDisasm
