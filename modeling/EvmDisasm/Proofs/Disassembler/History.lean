import EvmDisasm.Disassembler.History
import EvmDisasm.Proofs.Disassembler.Sweep
import EvmDisasm.Proofs.Instruction.Tiling

/-!
# A disassembler over whole histories

Strict mode stops in the middle of the code and leaves what it found so far, and later requests see
that. Still a disassembler never drifts: its state is a function of the code, the mode and whether
it has disassembled at all, and so is every answer that it gives.

## The architecture

* **`Standing`** — the invariant, with **`standing_perform`** for one request and
  **`standing_performAll`** for a row of them.
* **`LongestKnownPrefix`** — what strict mode keeps, said without a loop.
* **`exists_split_of_refused?`**, **`offset_eq_totalLength`** — a refusal in full: the
  instructions in front of it, the one that is refused, and where that stands.
* **`performAll_invariant`** — the two together, for any row of requests.
-/

namespace EvmDisasm.Disassembler

open Instruction

/-! ## The invariant

The code and the mode never change. The instructions found are none at first and from the first
disassembly on always the same, so one truth value is all that a history leaves behind. -/

/-- How a disassembler of the code stands; `asked` says whether it has disassembled before. -/
structure Standing (code : Bytes) (strict asked : Bool) (d : Disassembler) : Prop where
  code_eq : d.code = code
  strict_eq : d.strict = strict
  instructions_eq : d.instructions =
    if asked then (decode code).takeWhile (accepts strict) else []

variable {code : Bytes} {strict asked : Bool} {d : Disassembler}

theorem standing_ofCode (code : Bytes) (strict : Bool) :
    Standing code strict false (ofCode code strict) :=
  ⟨rfl, rfl, rfl⟩

/-- Disassembling leaves the instructions of the code behind, whatever was there before. -/
theorem Standing.disassemble (h : Standing code strict asked d) :
    Standing code strict true d.disassemble.2 := by
  refine ⟨?_, ?_, ?_⟩
  · rw [code_disassemble, h.code_eq]
  · rw [strict_disassemble, h.strict_eq]
  · rw [instructions_disassemble, h.code_eq, h.strict_eq]
    rfl

/-- Only disassembling leaves another disassembler behind. -/
theorem perform_of_ne {request : Request} (h : request ≠ .disassemble) (d : Disassembler)
    (tree : FileTree) : (request.perform d tree).1 = d := by
  cases request with
  | disassemble => exact absurd rfl h
  | instructions => rfl
  | codeHash => rfl
  | print showHash => rfl
  | write path => rfl

/-- **One request keeps the invariant.** It is asked from then on if the request was to disassemble.
-/
theorem standing_perform (h : Standing code strict asked d) (request : Request)
    (tree : FileTree) :
    Standing code strict (asked || request == .disassemble) (request.perform d tree).1 := by
  by_cases hrequest : request = .disassemble
  · subst hrequest
    rw [beq_self_eq_true, Bool.or_true]
    exact h.disassemble
  · have hother : (request == .disassemble) = false := beq_false_of_ne hrequest
    rw [perform_of_ne hrequest, hother, Bool.or_false]
    exact h

/-- **A row of requests keeps it**, whatever they do to the files in between. -/
theorem standing_performAll (h : Standing code strict asked d) (requests : List Request)
    (tree : FileTree) :
    Standing code strict (asked || requests.contains .disassemble)
      (performAll requests d tree).1 := by
  -- one request at a time, so what was asked before it and the files it finds vary
  induction requests generalizing asked d tree with
  | nil =>
    rw [List.contains_nil, Bool.or_false]
    exact h
  | cons request rest ih =>
    have hstep := standing_perform h request tree
    have hrest := ih hstep (request.perform d tree).2
    rw [Bool.or_assoc] at hrest
    rw [List.contains_cons, BEq.comm]
    exact hrest

/-- The requests alone say how a disassembler stands that began with nothing found. -/
theorem standing_of_ofCode (code : Bytes) (strict : Bool) (requests : List Request)
    (tree : FileTree) :
    Standing code strict (requests.contains .disassemble)
      (performAll requests (ofCode code strict) tree).1 := by
  have hrun := standing_performAll (standing_ofCode code strict) requests tree
  rwa [Bool.false_or] at hrun

/-- The answer to disassembling is a function of the code and the mode as well. -/
theorem Standing.value_disassemble (h : Standing code strict asked d) :
    d.disassemble.1.value = verdict (refused? strict (decode code)) := by
  rw [Disassembler.value_disassemble, h.code_eq, h.strict_eq]

/-! ## What is kept and what is refused

Strict mode keeps instructions up to the first unknown one and refuses that. The two are said here
without the loop, for any list of instructions and then for those of the code. -/

/-- The longest of the prefixes of `insts` that have known instructions only. -/
structure LongestKnownPrefix (insts kept : List Instruction) : Prop where
  isPrefix : kept <+: insts
  known : ∀ inst ∈ kept, inst.isKnown = true
  longest : ∀ other, other <+: insts → (∀ inst ∈ other, inst.isKnown = true) → other <+: kept

/-- Taking known instructions while there are any gives the longest prefix of them. -/
theorem longestKnownPrefix_takeWhile (insts : List Instruction) :
    LongestKnownPrefix insts (insts.takeWhile isKnown) where
  isPrefix := List.takeWhile_prefix isKnown
  known := List.all_eq_true.mp List.all_takeWhile
  longest := by
    rintro other ⟨rest, rfl⟩ hknown
    rw [List.takeWhile_append_of_pos hknown]
    exact List.prefix_append _ _

/-- Nothing is refused in lenient mode, and in strict mode if all instructions are known. -/
theorem refused?_eq_none_iff {insts : List Instruction} :
    refused? strict insts = none ↔ strict = false ∨ ∀ inst ∈ insts, inst.isKnown = true := by
  rw [refused?, Option.map_eq_none_iff, List.find?_eq_none]
  -- the mode is in the filter, so each has its own reading of it
  cases strict with
  | false => simp
  | true => simp

/-- A refusal splits the instructions at the first unknown one. -/
theorem exists_split_of_refused? {insts : List Instruction} {e : UnknownOpcode}
    (h : refused? strict insts = some e) :
    ∃ front inst rest, insts = front ++ inst :: rest ∧
      (∀ other ∈ front, other.isKnown = true) ∧ inst.isKnown = false ∧ e = refusal inst ∧
      insts.takeWhile (accepts strict) = front := by
  obtain ⟨inst, hfind, rfl⟩ := Option.map_eq_some_iff.mp h
  obtain ⟨hinst, front, rest, rfl, hfront⟩ := List.find?_eq_some_iff_append.mp hfind
  -- the lenient mode refuses nothing, so this is the strict one
  cases strict with
  | false => simp at hinst
  | true =>
    simp only [accepts_true, Bool.not_eq_true', Bool.not_not] at hinst hfront
    refine ⟨front, inst, rest, rfl, hfront, hinst, rfl, ?_⟩
    have hstop : (inst :: rest).takeWhile isKnown = [] :=
      List.takeWhile_cons_of_neg (by simp [hinst])
    show (front ++ inst :: rest).takeWhile isKnown = front
    rw [List.takeWhile_append_of_pos hfront, hstop, List.append_nil]

/-- A disassembler that refuses has kept all that stands in front of the unknown instruction. -/
theorem Standing.exists_split_of_error (h : Standing code strict asked d) {e : UnknownOpcode}
    (herror : d.disassemble.1.value = .error e) :
    ∃ front inst rest, decode code = front ++ inst :: rest ∧
      (∀ other ∈ front, other.isKnown = true) ∧ inst.isKnown = false ∧ e = refusal inst ∧
      d.disassemble.2.instructions = front := by
  rw [h.value_disassemble, verdict_eq_error_iff] at herror
  have hkept := h.disassemble.instructions_eq
  rw [if_pos rfl] at hkept
  rw [hkept]
  exact exists_split_of_refused? herror

def totalLength : List Instruction → Nat
  | [] => 0
  | inst :: rest => inst.encodedLength + totalLength rest

theorem length_encodeAll (insts : List Instruction) :
    (encodeAll insts).length = totalLength insts := by
  induction insts with
  | nil => rfl
  | cons inst rest ih =>
    rw [totalLength, ← ih, ← length_encode, ← List.length_append]
    rfl

/-- An instruction starts where those in front of it reach. -/
theorem offset_eq_totalLength {front rest : List Instruction} {inst : Instruction}
    (h : decode code = front ++ inst :: rest) :
    inst.offset = totalLength front := by
  have hchain := chainedFrom_decode code
  rw [h] at hchain
  -- the chain of offsets passes from the front to this instruction
  have hoffset := (chainedFrom_append.mp hchain).2.1
  rwa [Nat.zero_add, length_encodeAll] at hoffset

/-! ## Whole histories

What has been said of a standing disassembler holds after any row of requests, because that leaves
it standing. -/

/-- **A disassembler never drifts.** After any row of requests it holds its code, its mode and, once
it has disassembled, the same instructions: all of the code, or in strict mode the longest known
prefix. Disassembling gives the same answer every time, an error exactly if strict mode meets an
unknown instruction; the error names its byte and its offset, up to where the kept instructions
reach. No other request changes anything. -/
theorem performAll_invariant (code : Bytes) (strict : Bool) (requests : List Request)
    (tree : FileTree) :
    let d := (performAll requests (ofCode code strict) tree).1
    d.code = code ∧ d.strict = strict ∧
    (.disassemble ∉ requests → d.instructions = []) ∧
    (.disassemble ∈ requests → strict = false → d.instructions = decode code) ∧
    (.disassemble ∈ requests → strict = true →
      LongestKnownPrefix (decode code) d.instructions) ∧
    d.disassemble.1.value = (ofCode code strict).disassemble.1.value ∧
    (d.disassemble.1.value = .ok () ↔
      strict = false ∨ ∀ inst ∈ decode code, inst.isKnown = true) ∧
    (∀ e, d.disassemble.1.value = .error e →
      ∃ front inst rest, decode code = front ++ inst :: rest ∧
        (∀ other ∈ front, other.isKnown = true) ∧ inst.isKnown = false ∧
        e.message = "unknown opcode " ++ Hex.number 2 inst.code.toNat ++
          " at offset " ++ Hex.number 1 inst.offset ∧
        d.disassemble.2.instructions = front ∧
        inst.offset = totalLength front) ∧
    (∀ request : Request, request ≠ .disassemble → ∀ tree', (request.perform d tree').1 = d) := by
  intro d
  have hd := standing_of_ofCode code strict requests tree
  have hfresh := standing_ofCode code strict
  refine ⟨hd.code_eq, hd.strict_eq, ?_, ?_, ?_, ?_, ?_, ?_, ?_⟩
  · -- whether a disassembly is among the requests decides which instructions are held
    intro hnever
    have hcontains : requests.contains .disassemble = false := by simpa using hnever
    rw [hd.instructions_eq, hcontains]
    rfl
  · intro honce hlenient
    have hcontains : requests.contains .disassemble = true := by simpa using honce
    rw [hd.instructions_eq, hcontains, if_pos rfl, hlenient, takeWhile_accepts_false]
  · intro honce hstrict
    have hcontains : requests.contains .disassemble = true := by simpa using honce
    rw [hd.instructions_eq, hcontains, if_pos rfl, hstrict]
    exact longestKnownPrefix_takeWhile (decode code)
  · rw [hd.value_disassemble, hfresh.value_disassemble]
  · rw [hd.value_disassemble, verdict_eq_ok_iff, refused?_eq_none_iff]
  · intro e herror
    obtain ⟨front, inst, rest, hsplit, hfront, hinst, rfl, hkept⟩ :=
      hd.exists_split_of_error herror
    exact ⟨front, inst, rest, hsplit, hfront, hinst, rfl, hkept,
      offset_eq_totalLength hsplit⟩
  · intro request hother tree'
    exact perform_of_ne hother d tree'

/-- A `STOP`, the byte `0xfe` and a `JUMPDEST`. Before anything is asked for nothing is found. After
a refusal, a failed attempt to write and another refusal strict mode has kept the `STOP`, gives the
same answer once more and does not mind being printed; lenient mode has found everything. -/
theorem performAll_invariant_refused :
    let code : Bytes := [0x00, 0xfe, 0x5b]
    let requests : List Request :=
      [.print true, .disassemble, .write "", .codeHash, .disassemble]
    let tree := FileTree.empty []
    let strict := (performAll requests (ofCode code true) tree).1
    let lenient := (performAll requests (ofCode code false) tree).1
    (.disassemble ∉ [Request.print true] ∧
      (performAll [.print true] (ofCode code true) tree).1.instructions = []) ∧
    (.disassemble ∈ requests ∧ lenient.instructions = decode code ∧
      LongestKnownPrefix (decode code) strict.instructions) ∧
    (strict.disassemble.1.value = .error ⟨0xfe, 1⟩ ∧
      ∃ front inst rest, decode code = front ++ inst :: rest ∧
        UnknownOpcode.message ⟨0xfe, 1⟩ = "unknown opcode " ++ Hex.number 2 inst.code.toNat ++
          " at offset " ++ Hex.number 1 inst.offset ∧
        strict.disassemble.2.instructions = front) ∧
    (Request.print true ≠ .disassemble ∧ (Request.perform (.print true) strict tree).1 = strict) := by
  intro code requests tree strict lenient
  have hnever : .disassemble ∉ [Request.print true] := by decide
  have honce : .disassemble ∈ requests := by decide
  have hother : Request.print true ≠ .disassemble := by decide
  have hempty := (performAll_invariant code true [.print true] tree).2.2.1 hnever
  have hall := (performAll_invariant code false requests tree).2.2.2.1 honce rfl
  obtain ⟨-, -, -, -, hkept, hsame, -, herror, hframe⟩ :=
    performAll_invariant code true requests tree
  have hvalue : strict.disassemble.1.value = .error ⟨0xfe, 1⟩ := by
    -- strict mode comes to a stop at the second byte
    have hrefused : refused? true (decode code) = some ⟨0xfe, 1⟩ := by decide +kernel
    rw [hsame, value_disassemble, verdict_eq_error_iff]
    exact hrefused
  obtain ⟨front, inst, rest, hsplit, -, -, hmessage, hfront, -⟩ := herror _ hvalue
  exact ⟨⟨hnever, hempty⟩, ⟨honce, hall, hkept honce rfl⟩,
    ⟨hvalue, front, inst, rest, hsplit, hmessage, hfront⟩, hother, hframe _ hother tree⟩

end EvmDisasm.Disassembler
