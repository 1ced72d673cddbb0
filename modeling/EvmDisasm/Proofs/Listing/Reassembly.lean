import EvmDisasm.Listing.Reassembly
import EvmDisasm.Proofs.Disassembler.History
import EvmDisasm.Proofs.Instruction.Mnemonic

/-!
# Stored listings can be assembled again

A stored listing keeps of each instruction the address, the mnemonic, the operand and whether it is
cut short, and nothing else. That is enough: assembling the entries gives back the bytes that the
instructions were read from, whatever the disassembler went through before.

## The architecture

* **`Entry.code?_ofInstruction`** — one entry: the mnemonic gives the first byte, the operand the
  others.
* **`reassemble?_ofInstructions`** — all entries, by induction on the instructions.
* **`mnemonic_eq_push_iff`** — the mnemonics `PUSH1` to `PUSH32` tell the pushes, and how many bytes
  they ask for. The names of opcodes are read back to bytes, so no other instruction has one of
  them.
* **`IsRecordOf`** — what the entries have to do with the code at any time; the instructions of a
  reached disassembler are a front of the decoding (`exists_decode_eq_append`), and of a front all
  of it can be said (`isRecordOf_of_decode_eq_append`).
* **`reassemble_listing`** — the entries at any time, after a success and after a refusal.
-/

namespace EvmDisasm

/-! ## The mnemonics of pushes

Entries keep no length, so it has to be read off the mnemonic how many bytes an instruction asks
for.
-/

/-- The mnemonic of a push says how many bytes it asks for. -/
theorem Opcode.mnemonic_push (n : Fin 32) :
    (Opcode.push n).mnemonic = "PUSH" ++ toString (n.val + 1) := by
  revert n
  decide +kernel

namespace Instruction

/-- An instruction with the mnemonic of an opcode is of this opcode. -/
theorem opcode_eq_of_mnemonic_eq {inst : Instruction} (h : Shaped inst) {op : Opcode}
    (hname : inst.mnemonic = op.mnemonic) : inst.opcode = some op := by
  have hcode := codeOfMnemonic?_mnemonic h
  -- both the instruction and the opcode have their byte read back from the one mnemonic
  have hbyte : codeOfMnemonic? op.mnemonic = some op.toByte := by
    rw [codeOfMnemonic?, Opcode.ofMnemonic?_mnemonic]
  rw [hname, hbyte] at hcode
  rw [h.opcode_eq, ← Option.some.inj hcode, Opcode.ofByte?_toByte]

/-- The mnemonic tells how many bytes a push asks for. -/
theorem mnemonic_eq_push_iff {inst : Instruction} (h : Shaped inst) {n : Nat}
    (hn : 1 ≤ n ∧ n ≤ 32) :
    inst.mnemonic = "PUSH" ++ toString n ↔
      inst.immediate.isSome = true ∧ inst.nominalLength = n := by
  obtain ⟨m, rfl⟩ : ∃ m, n = m + 1 := ⟨n - 1, by omega⟩
  have hm : m < 32 := by omega
  have hpush : (Opcode.push ⟨m, hm⟩).mnemonic = "PUSH" ++ toString (m + 1) :=
    Opcode.mnemonic_push ⟨m, hm⟩
  constructor
  · intro hname
    have hop := opcode_eq_of_mnemonic_eq h (hname.trans hpush.symm)
    refine ⟨?_, ?_⟩
    · rw [h.isSome_immediate, hop]
      rfl
    · unfold nominalLength
      rw [hop]
      rfl
  · rintro ⟨hsome, hnominal⟩
    rw [h.isSome_immediate] at hsome
    unfold mnemonic
    unfold nominalLength at hnominal
    cases hop : inst.opcode with
    | none =>
      rw [hop] at hsome
      cases hsome
    | some op =>
      rw [hop] at hsome hnominal
      -- among the opcodes only a push has an immediate
      cases op with
      | push k =>
        have hk : k = ⟨m, hm⟩ := Fin.ext (Nat.succ.inj hnominal)
        show (Opcode.push k).mnemonic = _
        rw [hk, hpush]
      | _ => cases hsome

/-- An instruction with an immediate asks for one byte at least and a word at most. -/
theorem nominalLength_of_isSome_immediate {inst : Instruction} (h : Shaped inst)
    (hsome : inst.immediate.isSome = true) :
    1 ≤ inst.nominalLength ∧ inst.nominalLength ≤ 32 := by
  rw [h.isSome_immediate] at hsome
  unfold nominalLength
  cases hop : inst.opcode with
  | none =>
    rw [hop] at hsome
    cases hsome
  | some op =>
    rw [hop] at hsome
    cases op with
    | push k =>
      have hk := k.isLt
      show 1 ≤ k.val + 1 ∧ k.val + 1 ≤ 32
      omega
    | _ => cases hsome

end Instruction

namespace Listing

open Instruction

/-! ## One entry

What an entry says of its instruction, in terms of the texts that it consists of. -/

/-- **One entry is assembled** to the bytes of its instruction. -/
theorem Entry.code?_ofInstruction {inst : Instruction} (h : Shaped inst) :
    (Entry.ofInstruction inst).code? = some inst.encode := by
  have hcode : codeOfMnemonic? (Entry.ofInstruction inst).mnemonic = some inst.code :=
    codeOfMnemonic?_mnemonic h
  have hoperands : (Entry.ofInstruction inst).operands = inst.immediateText.toList := rfl
  unfold Entry.code?
  rw [hcode, hoperands, encode]
  unfold immediateText
  cases inst.immediate with
  | none => rfl
  | some bytes =>
    show (Hex.ofMarked? (Hex.marked bytes).toList).map (inst.code :: ·) = _
    rw [Hex.ofMarked?_marked]
    rfl

theorem operands_ofInstruction (inst : Instruction) :
    (Entry.ofInstruction inst).operands =
      (inst.immediate.map fun bytes => "0x" ++ String.ofList (Hex.encode bytes)).toList := rfl

/-- An entry has an operand just when its mnemonic is that of a push. -/
theorem operands_ne_nil_iff {inst : Instruction} (h : Shaped inst) :
    (Entry.ofInstruction inst).operands ≠ [] ↔
      ∃ n, 1 ≤ n ∧ n ≤ 32 ∧ (Entry.ofInstruction inst).mnemonic = "PUSH" ++ toString n := by
  have hoperands : (Entry.ofInstruction inst).operands ≠ [] ↔ inst.immediate.isSome = true := by
    rw [operands_ofInstruction]
    cases inst.immediate with
    | none => simp
    | some bytes => simp
  rw [hoperands]
  constructor
  · intro hsome
    obtain ⟨hpos, hle⟩ := nominalLength_of_isSome_immediate h hsome
    exact ⟨_, hpos, hle, (mnemonic_eq_push_iff h ⟨hpos, hle⟩).mpr ⟨hsome, rfl⟩⟩
  · rintro ⟨n, hpos, hle, hname⟩
    exact ((mnemonic_eq_push_iff h ⟨hpos, hle⟩).mp hname).1

/-- An entry is marked as truncated just when its operand has fewer digits than its mnemonic asks
for.
-/
theorem truncated_iff {inst : Instruction} (h : Shaped inst) :
    (Entry.ofInstruction inst).truncated = true ↔
      ∃ n digits, 1 ≤ n ∧ n ≤ 32 ∧ (Entry.ofInstruction inst).mnemonic = "PUSH" ++ toString n ∧
        (Entry.ofInstruction inst).operands = ["0x" ++ digits] ∧ digits.length < 2 * n := by
  have htruncated : (Entry.ofInstruction inst).truncated = true ↔
      inst.presentLength < inst.nominalLength := by
    show inst.isTruncated = true ↔ _
    rw [h.isTruncated_eq, decide_eq_true_iff]
  rw [htruncated, operands_ofInstruction]
  cases himmediate : inst.immediate with
  | none =>
    -- without an immediate there is no operand, and no byte is asked for
    constructor
    · intro hlt
      have hpush : 0 < width inst.code := by
        rw [h.width_eq]
        omega
      have hsome := h.immediate_eq
      rw [himmediate, if_pos hpush] at hsome
      cases hsome
    · rintro ⟨n, digits, -, -, -, hoperands, -⟩
      cases hoperands
  | some bytes =>
    have hsome : inst.immediate.isSome = true := by rw [himmediate]; rfl
    have hpresent : inst.presentLength = bytes.length := by rw [presentLength, himmediate]
    have hdigits : (String.ofList (Hex.encode bytes)).length = 2 * bytes.length := by
      rw [String.length_ofList, Hex.length_encode]
    constructor
    · intro hlt
      obtain ⟨hpos, hle⟩ := nominalLength_of_isSome_immediate h hsome
      refine ⟨inst.nominalLength, String.ofList (Hex.encode bytes), hpos, hle, ?_, rfl, ?_⟩
      · exact (mnemonic_eq_push_iff h ⟨hpos, hle⟩).mpr ⟨hsome, rfl⟩
      · omega
    · rintro ⟨n, digits, hpos, hle, hname, hoperands, hlt⟩
      have hnominal := ((mnemonic_eq_push_iff h ⟨hpos, hle⟩).mp hname).2
      have hsame : String.ofList (Hex.encode bytes) = digits :=
        (String.append_right_inj "0x").mp (List.cons.inj hoperands).1
      rw [← hsame] at hlt
      omega

/-! ## All entries

Entries are assembled one by one, so what has been said of one carries over to a row of them. -/

/-- **Entries are assembled to the bytes of their instructions.** -/
theorem reassemble?_ofInstructions {insts : List Instruction} (h : ∀ inst ∈ insts, Shaped inst) :
    reassemble? (insts.map Entry.ofInstruction) = some (encodeAll insts) := by
  have hall : (insts.map Entry.ofInstruction).mapM Entry.code? = some (insts.map encode) := by
    induction insts with
    | nil => rfl
    | cons inst rest ih =>
      have hinst := Entry.code?_ofInstruction (h inst List.mem_cons_self)
      have hrest := ih fun other hmem => h other (List.mem_cons_of_mem _ hmem)
      rw [List.map_cons, List.mapM_cons, hinst, hrest]
      rfl
  rw [reassemble?, hall, encodeAll, List.flatMap_def]
  rfl

/-- What the entries have to do with the code that they were made from. -/
structure IsRecordOf (code : Bytes) (entries : List Entry) : Prop where
  exists_prefix : ∃ bytes, reassemble? entries = some bytes ∧ bytes <+: code
  address_eq : ∀ front entry rest, entries = front ++ entry :: rest →
    ∃ before, reassemble? front = some before ∧ entry.address = before.length
  operands_ne_nil_iff : ∀ entry ∈ entries, entry.operands ≠ [] ↔
    ∃ n, 1 ≤ n ∧ n ≤ 32 ∧ entry.mnemonic = "PUSH" ++ toString n
  truncated_iff : ∀ entry ∈ entries, entry.truncated = true ↔
    ∃ n digits, 1 ≤ n ∧ n ≤ 32 ∧ entry.mnemonic = "PUSH" ++ toString n ∧
      entry.operands = ["0x" ++ digits] ∧ digits.length < 2 * n
  truncated_last : ∀ front entry rest, entries = front ++ entry :: rest →
    entry.truncated = true → rest = []

variable {code : Bytes}

/-- An instruction with another one behind it is whole. -/
theorem isTruncated_eq_false {front rest : List Instruction} {inst : Instruction}
    (h : decode code = front ++ inst :: rest) (hrest : rest ≠ []) : inst.isTruncated = false := by
  have hmem : inst ∈ (decode code).dropLast := by
    rw [h, List.dropLast_append_of_ne_nil (List.cons_ne_nil inst rest),
      List.dropLast_cons_of_ne_nil hrest]
    exact List.mem_append_right _ List.mem_cons_self
  exact isTruncated_of_mem_dropLast_decode hmem

/-- **The entries of a front of the decoding** are a record of the code, each of them and all
together. -/
theorem isRecordOf_of_decode_eq_append {insts others : List Instruction}
    (h : decode code = insts ++ others) : IsRecordOf code (insts.map Entry.ofInstruction) := by
  have hshaped : ∀ inst ∈ insts, Shaped inst := by
    intro inst hmem
    exact shaped_of_mem_decode (h ▸ List.mem_append_left others hmem)
  constructor
  · refine ⟨encodeAll insts, reassemble?_ofInstructions hshaped, encodeAll others, ?_⟩
    have hcode := encodeAll_decode code
    rwa [h, encodeAll, List.flatMap_append] at hcode
  · intro front entry rest hsplit
    obtain ⟨before, behind, rfl, rfl, hbehind⟩ := List.map_eq_append_iff.mp hsplit
    obtain ⟨inst, behind, rfl, rfl, -⟩ := List.map_eq_cons_iff.mp hbehind
    refine ⟨encodeAll before, ?_, ?_⟩
    · exact reassemble?_ofInstructions fun other hmem => hshaped other (List.mem_append_left _ hmem)
    · have hchain := chainedFrom_decode code
      rw [h, List.append_assoc] at hchain
      have hoffset := (chainedFrom_append.mp hchain).2.1
      rwa [Nat.zero_add] at hoffset
  · intro entry hmem
    obtain ⟨inst, hinst, rfl⟩ := List.mem_map.mp hmem
    exact operands_ne_nil_iff (hshaped inst hinst)
  · intro entry hmem
    obtain ⟨inst, hinst, rfl⟩ := List.mem_map.mp hmem
    exact truncated_iff (hshaped inst hinst)
  · -- a truncated entry with another one behind it would be that of a whole instruction
    intro front entry rest hsplit htruncated
    obtain ⟨before, behind, rfl, rfl, hbehind⟩ := List.map_eq_append_iff.mp hsplit
    obtain ⟨inst, behind, rfl, rfl, rfl⟩ := List.map_eq_cons_iff.mp hbehind
    cases behind with
    | nil => rfl
    | cons second behind =>
      rw [List.append_assoc] at h
      have hfull := isTruncated_eq_false h (List.cons_ne_nil second (behind ++ others))
      exact absurd (hfull.symm.trans htruncated) Bool.false_ne_true

end Listing

/-! ## The listing of a disassembler

A disassembler that has been through any number of requests stands as the invariant says, and its
instructions are a front of the decoding. -/

namespace Disassembler

open Instruction Listing

variable {code : Bytes} {strict asked : Bool} {d : Disassembler}

/-- Every reached disassembler stands as the invariant says. -/
theorem Reached.exists_standing (h : Reached code strict d) :
    ∃ asked, Standing code strict asked d := by
  induction h with
  | ofCode => exact ⟨false, standing_ofCode code strict⟩
  | disassemble _ ih =>
    obtain ⟨asked, hstanding⟩ := ih
    exact ⟨true, hstanding.disassemble⟩

/-- At any time the instructions found so far are a front of the decoding. -/
theorem Standing.exists_decode_eq_append (h : Standing code strict asked d) :
    ∃ others, decode code = d.instructions ++ others := by
  rw [h.instructions_eq]
  cases asked with
  | false => exact ⟨decode code, rfl⟩
  | true =>
    obtain ⟨others, hothers⟩ := List.takeWhile_prefix (l := decode code) (accepts strict)
    exact ⟨others, hothers.symm⟩

/-- After a success all instructions of the code are found. -/
theorem Standing.instructions_of_ok (h : Standing code strict asked d)
    (hok : d.disassemble.1.value = .ok ()) : d.disassemble.2.instructions = decode code := by
  rw [h.value_disassemble, verdict_eq_ok_iff] at hok
  rw [h.disassemble.instructions_eq, if_pos rfl, takeWhile_accepts_of_refused?_eq_none hok]

/-- The entries are assembled to the bytes in which instructions have been found. -/
theorem reassemble?_listing (h : Standing code strict asked d) :
    reassemble? d.listing.entries = some (encodeAll d.instructions) := by
  obtain ⟨others, hsplit⟩ := h.exists_decode_eq_append
  apply reassemble?_ofInstructions
  intro inst hmem
  exact shaped_of_mem_decode (hsplit ▸ List.mem_append_left others hmem)

/-- **A stored listing can be assembled again.** Whatever a disassembler went through, the
entries of its listing give back the bytes that it has found instructions in, each entry tells
where it stands and only the last can be cut short. After a success these bytes are all of the
code, with the size and the digest that the listing states; after a refusal they end where the
refused byte stands. -/
theorem reassemble_listing (h : Reached code strict d) :
    IsRecordOf code d.listing.entries ∧
    (d.disassemble.1.value = .ok () →
      ∃ bytes, reassemble? d.disassemble.2.listing.entries = some bytes ∧ bytes = code ∧
        d.disassemble.2.listing.size = bytes.length ∧
        d.disassemble.2.listing.codeHash = Digest.hash bytes) ∧
    (∀ e, d.disassemble.1.value = .error e →
      reassemble? d.disassemble.2.listing.entries = some (code.take e.offset)) := by
  obtain ⟨asked, hstanding⟩ := h.exists_standing
  have hafter := hstanding.disassemble
  refine ⟨?_, ?_, ?_⟩
  · obtain ⟨others, hsplit⟩ := hstanding.exists_decode_eq_append
    exact isRecordOf_of_decode_eq_append hsplit
  · intro hok
    have hall := hstanding.instructions_of_ok hok
    refine ⟨code, ?_, rfl, ?_, ?_⟩
    · rw [reassemble?_listing hafter, hall, encodeAll_decode]
    · show d.disassemble.2.code.length = code.length
      rw [hafter.code_eq]
    · show Digest.hash d.disassemble.2.code = Digest.hash code
      rw [hafter.code_eq]
  · intro e herror
    obtain ⟨front, inst, rest, hsplit, -, -, rfl, hkept⟩ := hstanding.exists_split_of_error herror
    -- the refused byte stands where the instructions in front of it end
    have hoffset : inst.offset = (encodeAll front).length := by
      rw [length_encodeAll]
      exact offset_eq_totalLength hsplit
    have hcode : code = encodeAll front ++ encodeAll (inst :: rest) := by
      have hall := encodeAll_decode code
      rwa [hsplit, encodeAll, List.flatMap_append, eq_comm] at hall
    rw [reassemble?_listing hafter, hkept]
    show some (encodeAll front) = some (code.take inst.offset)
    rw [hoffset, hcode, List.take_left]

/-- A `PUSH1`, the byte `0xfe` and a `PUSH2` with one byte of two. Strict mode, asked twice, has
the listing of the first two bytes; lenient mode has that of all five, and its last entry is cut
short. -/
theorem reassemble_listing_refused :
    let code : Bytes := [0x60, 0x01, 0xfe, 0x61, 0xaa]
    let strict := (ofCode code true).disassemble.2
    let lenient := (ofCode code false).disassemble.2
    Reached code true strict ∧ Reached code false lenient ∧
      strict.disassemble.1.value = .error ⟨0xfe, 2⟩ ∧
      reassemble? strict.disassemble.2.listing.entries = some (code.take 2) ∧
      lenient.disassemble.1.value = .ok () ∧
      reassemble? lenient.disassemble.2.listing.entries = some code ∧
      lenient.listing.entries =
        [⟨0, "PUSH1", ["0x01"], false⟩, ⟨2, "UNKNOWN(0xfe)", [], false⟩,
          ⟨3, "PUSH2", ["0xaa"], true⟩] ∧
      IsRecordOf code lenient.listing.entries := by
  intro code strict lenient
  have hstrict : Reached code true strict := Reached.ofCode.disassemble
  have hlenient : Reached code false lenient := Reached.ofCode.disassemble
  -- asked once more, it refuses the same byte
  have herror : strict.disassemble.1.value = .error ⟨0xfe, 2⟩ := by
    rw [value_disassemble, verdict_eq_error_iff, strict_disassemble, code_disassemble]
    show refused? true (decode code) = some ⟨0xfe, 2⟩
    decide +kernel
  have hok : lenient.disassemble.1.value = .ok () := by
    rw [value_disassemble, verdict_eq_ok_iff, strict_disassemble, code_disassemble]
    show refused? false (decode code) = none
    decide +kernel
  have hentries : lenient.listing.entries =
      [⟨0, "PUSH1", ["0x01"], false⟩, ⟨2, "UNKNOWN(0xfe)", [], false⟩,
        ⟨3, "PUSH2", ["0xaa"], true⟩] := by
    show lenient.instructions.map Entry.ofInstruction = _
    rw [instructions_disassemble]
    decide +kernel
  obtain ⟨bytes, hbytes, rfl, -, -⟩ := (reassemble_listing hlenient).2.1 hok
  exact ⟨hstrict, hlenient, herror, (reassemble_listing hstrict).2.2 _ herror, hok, hbytes, hentries,
    (reassemble_listing hlenient).1⟩

end Disassembler

end EvmDisasm
