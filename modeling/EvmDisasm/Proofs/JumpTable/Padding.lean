import EvmDisasm.Proofs.Instruction.Tiling
import EvmDisasm.Proofs.JumpTable.Append

/-!
# What a processor reads past the end of the code

A processor that runs off the end of the code reads zeros. There are two ways to say what it then
finds: to pad the immediate of the instruction that is cut short (`paddedImmediate`, `pushValue`),
or to put zeros behind the code and decode that. They agree, whatever the number of zeros is: below
the number of bytes that are missing, equal to it, or above.

## The architecture

* **`paddedImmediate_read`**, **`paddedImmediate_read_append_zeros`** — padding an immediate by
  itself, and padding what stands after the first byte.
* **`decode_append_zeros`** — the decoding of the padded code in two parts: the instructions of the
  code, each read with the zeros behind it, and the `STOP`s that the other zeros are.
* **`toList_analyze_append_zeros`** — a `STOP` is no destination, so the table only grows longer.
-/

namespace EvmDisasm

namespace Instruction

/-! ## Padding an immediate

Padding an immediate puts zeros where bytes are missing, and zeros behind the code put them in the
same places. -/

/-- The padded immediate, from what follows the first byte. -/
theorem paddedImmediate_read (offset : Nat) (code : UInt8) (following : Bytes) :
    (read offset code following).paddedImmediate =
      if 0 < width code then
        some (following.take (width code) ++ List.replicate (width code - following.length) 0)
      else none := by
  rw [paddedImmediate, immediate_read, nominalLength_read]
  by_cases hpush : 0 < width code
  · have hmissing : width code - min (width code) following.length =
        width code - following.length := by omega
    simp [hpush, List.rightpad, List.take_take, hmissing]
  · simp [hpush]

/-- **Zeros behind do not change it**, however many there are. -/
theorem paddedImmediate_read_append_zeros (offset : Nat) (code : UInt8) (following : Bytes)
    (k : Nat) :
    (read offset code (following ++ List.replicate k 0)).paddedImmediate =
      (read offset code following).paddedImmediate := by
  -- zeros that are read and zeros that are put for missing bytes add up to those that were missing
  -- before
  have hzeros : min (width code - following.length) k +
      (width code - (following.length + k)) = width code - following.length := by omega
  rw [paddedImmediate_read, paddedImmediate_read]
  simp only [List.take_append, List.take_replicate, List.append_assoc,
    List.replicate_append_replicate, List.length_append, List.length_replicate, hzeros]

/-- An immediate that is whole is its own padding. -/
theorem paddedImmediate_read_of_width_le (offset : Nat) {code : UInt8} {following : Bytes}
    (hwhole : width code ≤ following.length) :
    (read offset code following).paddedImmediate = (read offset code following).immediate := by
  have hnone : width code - following.length = 0 := by omega
  rw [paddedImmediate_read, immediate_read, hnone, List.replicate_zero, List.append_nil]

/-- What is pushed depends on the padded immediate alone. -/
theorem pushValue_eq_of_paddedImmediate_eq {inst other : Instruction}
    (h : inst.paddedImmediate = other.paddedImmediate) : inst.pushValue = other.pushValue := by
  rw [pushValue, h, ← pushValue]

end Instruction

open Instruction

/-! ## Decoding the padded code

The zeros first complete the last instruction. Those that are left are instructions of their own. -/

/-- Zeros decode to `STOP`s. -/
theorem stop_of_mem_decode_zeros {k : Nat} {inst : Instruction}
    (hmem : inst ∈ decode (List.replicate k 0)) :
    inst.opcode = some .stop ∧ inst.immediate = none := by
  have hstands := standsIn_of_mem_decode hmem
  have hzero : inst.code = 0 :=
    List.eq_of_mem_replicate (List.mem_of_getElem? hstands.code_eq)
  have hstop : inst.opcode = some .stop := by
    rw [hstands.opcode_eq, hzero]
    rfl
  have hnone : inst.immediate.isSome = false := by
    rw [hstands.isSome_immediate, hstop]
    rfl
  exact ⟨hstop, Option.isSome_eq_false_iff.mp hnone |> Option.isNone_iff_eq_none.mp⟩

/-- **The padded code in two parts**: the instructions of the code, filled up with zeros, and
`STOP`s.
-/
theorem decode_append_zeros (code : Bytes) (k : Nat) :
    ∃ stops, decode (code ++ List.replicate k 0) =
        (decode code).map (fill (List.replicate k 0)) ++ stops ∧
      ∀ inst ∈ stops, inst.opcode = some .stop ∧ inst.immediate = none := by
  refine ⟨_, decode_append code (List.replicate k 0), ?_⟩
  intro inst hmem
  obtain ⟨zero, hzero, rfl⟩ := List.mem_map.mp hmem
  rw [List.drop_replicate] at hzero
  have hstop := stop_of_mem_decode_zeros hzero
  exact hstop

/-- The instructions of the code and those in their places in the padded code are read at the same
places, the latter with zeros behind. -/
theorem exists_read_of_getElem?_decode_append_zeros {code : Bytes} {k i : Nat}
    {inst inst' : Instruction} (hinst : (decode code)[i]? = some inst)
    (hinst' : (decode (code ++ List.replicate k 0))[i]? = some inst') :
    ∃ offset first following, inst = read offset first following ∧
      inst' = read offset first (following ++ List.replicate k 0) := by
  obtain ⟨stops, hdecode, -⟩ := decode_append_zeros code k
  obtain ⟨following, -, hread⟩ := exists_following_of_mem_decode (List.mem_of_getElem? hinst)
  have hlt : i < ((decode code).map (fill (List.replicate k 0))).length := by
    rw [List.length_map]
    exact (List.getElem?_eq_some_iff.mp hinst).1
  refine ⟨inst.offset, inst.code, following, hread, ?_⟩
  rw [hdecode, List.getElem?_append_left hlt, List.getElem?_map, hinst, Option.map_some,
    Option.some.injEq] at hinst'
  rw [← fill_read, ← hread, hinst']

/-- With a word of zeros behind it, no instruction is cut short. -/
theorem isTruncated_of_mem_decode_append_zeros {code : Bytes} {k : Nat} (hk : wordSize ≤ k)
    {inst : Instruction} (hmem : inst ∈ decode (code ++ List.replicate k 0)) :
    inst.isTruncated = false := by
  obtain ⟨stops, hdecode, hstops⟩ := decode_append_zeros code k
  rw [hdecode, List.mem_append, List.mem_map] at hmem
  rcases hmem with ⟨short, hshort, rfl⟩ | hstop
  · -- the zeros alone are as many as the immediate can ask for
    obtain ⟨following, -, hread⟩ := exists_following_of_mem_decode hshort
    have hwidth := width_le short.code
    rw [hread, fill_read, isTruncated_read, decide_eq_false_iff_not, List.length_append,
      List.length_replicate]
    omega
  · rw [isTruncated, (hstops inst hstop).2]
    rfl

/-! ## The destinations in the padded code

A `STOP` is no destination. What changes is the length of the table, and past the end of the code
there are no marks. -/

namespace JumpTable

theorem size_marks_analyze (code : Bytes) : (analyze code).marks.size = code.length := by
  have hfold (insts : List Instruction) (table : JumpTable) :
      (insts.foldl visit table).marks.size = table.marks.size := by
    induction insts generalizing table with
    | nil => rfl
    | cons inst rest ih => rw [List.foldl_cons, ih, size_marks_visit]
  rw [analyze, hfold, Array.size_replicate]

theorem isJumpDest_of_size_le {table : JumpTable} {offset : Nat}
    (h : table.marks.size ≤ offset) : table.isJumpDest offset = false := by
  rw [isJumpDest, Array.getElem?_eq_none h]
  rfl

/-- **The padded code has the same destinations.** -/
theorem isJumpDest_analyze_append_zeros (code : Bytes) (k offset : Nat) :
    (analyze (code ++ List.replicate k 0)).isJumpDest offset =
      (analyze code).isJumpDest offset := by
  obtain ⟨stops, hdecode, hstops⟩ := decode_append_zeros code k
  have hnone : offset ∉ destinations stops := by
    rw [mem_destinations]
    rintro ⟨inst, hmem, -, hdest⟩
    rw [(hstops inst hmem).1] at hdest
    cases hdest
  rw [Bool.eq_iff_iff, isJumpDest_analyze_iff_mem, isJumpDest_analyze_iff_mem, hdecode,
    destinations_append, destinations_map_fill, List.mem_append, or_iff_left hnone]

theorem toList_analyze_append_zeros (code : Bytes) (k : Nat) :
    (analyze (code ++ List.replicate k 0)).toList = (analyze code).toList := by
  have hpast : ∀ offset ∈ (List.range k).map (code.length + ·),
      ¬ (analyze code).isJumpDest offset = true := by
    intro offset hmem
    obtain ⟨i, -, rfl⟩ := List.mem_map.mp hmem
    have hout : (analyze code).marks.size ≤ code.length + i := by
      rw [size_marks_analyze]
      omega
    rw [isJumpDest_of_size_le hout]
    exact Bool.false_ne_true
  have hsame : (analyze (code ++ List.replicate k 0)).isJumpDest = (analyze code).isJumpDest :=
    funext (isJumpDest_analyze_append_zeros code k)
  rw [toList, toList, hsame, size_marks_analyze, size_marks_analyze, List.length_append,
    List.length_replicate, List.range_add, List.filter_append,
    List.filter_eq_nil_iff.mpr hpast, List.append_nil]

end JumpTable

/-- **Padding an immediate is decoding padded code.** With any number of zeros behind it, code has
the same instructions with the same padded immediates and pushed values, and the same destinations;
what comes after them is nothing but `STOP`s. From as many zeros on as the widest immediate has
bytes, no instruction is cut short any more, and the immediates are the padded ones themselves. -/
theorem paddedImmediate_decode_append_zeros (code : Bytes) (k : Nat) :
    let padded := code ++ List.replicate k 0
    (decode code).length ≤ (decode padded).length ∧
    (∀ (i : Nat) inst inst', (decode code)[i]? = some inst → (decode padded)[i]? = some inst' →
      inst'.offset = inst.offset ∧ inst'.code = inst.code ∧ inst'.opcode = inst.opcode ∧
        inst'.paddedImmediate = inst.paddedImmediate ∧ inst'.pushValue = inst.pushValue) ∧
    (∀ inst ∈ (decode padded).drop (decode code).length,
      inst.opcode = some .stop ∧ inst.immediate = none) ∧
    (32 ≤ k →
      (∀ inst ∈ decode padded, inst.isTruncated = false) ∧
      ∀ (i : Nat) inst inst', (decode code)[i]? = some inst →
        (decode padded)[i]? = some inst' → inst'.immediate = inst.paddedImmediate) ∧
    (JumpTable.analyze padded).toList = (JumpTable.analyze code).toList := by
  intro padded
  obtain ⟨stops, hdecode, hstops⟩ := decode_append_zeros code k
  refine ⟨?_, ?_, ?_, ?_, ?_⟩
  · -- filling up changes no number of instructions
    rw [hdecode, List.length_append, List.length_map]
    omega
  · intro i inst inst' hinst hinst'
    obtain ⟨offset, first, following, rfl, rfl⟩ :=
      exists_read_of_getElem?_decode_append_zeros hinst hinst'
    -- the two are read at one place, with and without zeros behind
    have hsame := paddedImmediate_read_append_zeros offset first following k
    exact ⟨rfl, rfl, rfl, hsame, pushValue_eq_of_paddedImmediate_eq hsame⟩
  · intro inst hmem
    rw [hdecode, List.drop_left' (List.length_map _)] at hmem
    exact hstops inst hmem
  · intro hk
    have hwhole : ∀ inst ∈ decode padded, inst.isTruncated = false := fun inst hmem =>
      isTruncated_of_mem_decode_append_zeros hk hmem
    refine ⟨hwhole, ?_⟩
    intro i inst inst' hinst hinst'
    -- an immediate that is not cut short is its own padding
    have hcomplete := hwhole inst' (List.mem_of_getElem? hinst')
    obtain ⟨offset, first, following, rfl, rfl⟩ :=
      exists_read_of_getElem?_decode_append_zeros hinst hinst'
    rw [isTruncated_read, decide_eq_false_iff_not, Nat.not_lt] at hcomplete
    rw [← paddedImmediate_read_of_width_le offset hcomplete, paddedImmediate_read_append_zeros]
  · exact JumpTable.toList_analyze_append_zeros code k

/-- A `JUMPDEST` and a `PUSH2` of which no immediate byte is there, with one zero fewer than it
lacks and with as many as the widest immediate can lack. -/
theorem paddedImmediate_decode_append_zeros_push :
    let code : Bytes := [0x5b, 0x61]
    let push : Instruction := ⟨1, 0x61, some (.push 1), some []⟩
    let completed : Instruction := ⟨1, 0x61, some (.push 1), some [0x00, 0x00]⟩
    ((decode code)[1]? = some push ∧
      (decode (code ++ List.replicate 1 0))[1]? =
        some { push with immediate := some [0x00] } ∧
      ({ push with immediate := some [0x00] } : Instruction).paddedImmediate =
        push.paddedImmediate) ∧
    ((decode (code ++ List.replicate 32 0))[1]? = some completed ∧
      32 ≤ 32 ∧ completed.immediate = push.paddedImmediate) := by
  intro code push completed
  have hpush : (decode code)[1]? = some push := by decide +kernel
  have hpart : (decode (code ++ List.replicate 1 0))[1]? =
      some { push with immediate := some [0x00] } := by decide +kernel
  have hwhole : (decode (code ++ List.replicate 32 0))[1]? = some completed := by
    decide +kernel
  have hsame := (paddedImmediate_decode_append_zeros code 1).2.1 1 _ _ hpush hpart
  have hzeros := (paddedImmediate_decode_append_zeros code 32).2.2.2.1 (Nat.le_refl 32)
  exact ⟨⟨hpush, hpart, hsame.2.2.2.1⟩, hwhole, Nat.le_refl 32, hzeros.2 1 _ _ hpush hwhole⟩

end EvmDisasm
