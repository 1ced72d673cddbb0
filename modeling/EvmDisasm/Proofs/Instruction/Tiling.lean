import EvmDisasm.Proofs.Instruction.Sweep

/-!
# Decoding loses, duplicates and reorders no byte

The instructions of a piece of code lie in it like tiles: laid one after the other they take up
every byte of it once, and each tile shows what stands in the code where it lies.

## The architecture

* **`StandsIn`** — what one instruction has to do with the code around it: its first byte, what that
  byte stands for, and its immediate as a slice of the code.
* **`Tile`** — what a whole list of instructions has to do with the code: the bytes, the offsets and
  which of them may be cut short.
* **`chainedFrom_append`** — where the instructions of a chain start and end is a sum of encoded
  lengths; the offsets of a tiling are read off from it.
* **`tile_decode`** — the instructions of a piece of code tile it. Each field is one of the
  invariants of a sweep.
-/

namespace EvmDisasm

namespace Instruction

/-- The instruction shows what stands in the code at its offset. -/
structure StandsIn (code : Bytes) (inst : Instruction) : Prop where
  code_eq : code[inst.offset]? = some inst.code
  opcode_eq : inst.opcode = Opcode.ofByte? inst.code
  isSome_immediate : inst.immediate.isSome = inst.opcode.any Opcode.isPush
  immediate_eq : ∀ bytes, inst.immediate = some bytes →
    bytes = code.extract (inst.offset + 1)
      (min (inst.offset + 1 + inst.nominalLength) code.length)

/-- The instructions take up the code from end to end. -/
structure Tile (code : Bytes) (insts : List Instruction) : Prop where
  encodeAll_eq : encodeAll insts = code
  offset_head : ∀ first, insts.head? = some first → first.offset = 0
  offset_succ : ∀ i inst next, insts[i]? = some inst → insts[i + 1]? = some next →
    next.offset = inst.nextOffset
  nextOffset_last : ∀ last, insts.getLast? = some last → last.nextOffset = code.length
  eq_nil_iff : insts = [] ↔ code = []
  standsIn : ∀ inst ∈ insts, StandsIn code inst
  isTruncated_last : ∀ i inst, insts[i]? = some inst → inst.isTruncated = true →
    i + 1 = insts.length

/-! ## Offsets along a chain

In a chain an offset is a sum of lengths, so whatever is asked about offsets is settled by cutting
the chain at an instruction. -/

/-- An instruction is encoded in as many bytes as it takes up. -/
@[simp] theorem length_encode (inst : Instruction) :
    inst.encode.length = inst.encodedLength := by
  simp [encode, encodedLength, presentLength_eq]
  omega

/-- A chain can be cut anywhere: its second part starts as many bytes further on as its first part
takes up. -/
theorem chainedFrom_append {offset : Nat} {front rest : List Instruction} :
    ChainedFrom offset (front ++ rest) ↔
      ChainedFrom offset front ∧ ChainedFrom (offset + (encodeAll front).length) rest := by
  induction front generalizing offset with
  | nil => simp [ChainedFrom, encodeAll]
  | cons inst front ih =>
    simp only [List.cons_append, ChainedFrom, ih, and_assoc]
    constructor
    · rintro ⟨rfl, hfront, hrest⟩
      refine ⟨rfl, hfront, ?_⟩
      simpa [encodeAll, nextOffset, Nat.add_assoc] using hrest
    · rintro ⟨rfl, hfront, hrest⟩
      refine ⟨rfl, hfront, ?_⟩
      simpa [encodeAll, nextOffset, Nat.add_assoc] using hrest

theorem ChainedFrom.offset_head {offset : Nat} {insts : List Instruction} {first : Instruction}
    (h : ChainedFrom offset insts) (hfirst : insts.head? = some first) :
    first.offset = offset := by
  obtain ⟨rest, rfl⟩ := List.head?_eq_some_iff.mp hfirst
  exact h.1

/-- Its instructions follow each other without gaps. -/
theorem ChainedFrom.offset_succ {offset i : Nat} {insts : List Instruction}
    {inst next : Instruction} (h : ChainedFrom offset insts) (hinst : insts[i]? = some inst)
    (hnext : insts[i + 1]? = some next) : next.offset = inst.nextOffset := by
  induction insts generalizing offset i with
  | nil => simp at hinst
  | cons first rest ih =>
    -- at the head the chain says it, and further on its rest does
    cases i with
    | zero =>
      cases rest with
      | nil => simp at hnext
      | cons second rest =>
        simp only [List.getElem?_cons_zero, List.getElem?_cons_succ, Option.some.injEq]
          at hinst hnext
        subst hinst
        subst hnext
        exact h.2.1
    | succ i =>
      rw [List.getElem?_cons_succ] at hinst hnext
      exact ih h.2 hinst hnext

theorem ChainedFrom.nextOffset_last {offset : Nat} {insts : List Instruction}
    {last : Instruction} (h : ChainedFrom offset insts) (hlast : insts.getLast? = some last) :
    last.nextOffset = offset + (encodeAll insts).length := by
  obtain ⟨front, rfl⟩ := List.getLast?_eq_some_iff.mp hlast
  have hoffset : last.offset = offset + (encodeAll front).length :=
    (chainedFrom_append.mp h).2.1
  rw [nextOffset, hoffset]
  simp [encodeAll, Nat.add_assoc]

theorem ChainedFrom.le_offset {offset : Nat} {insts : List Instruction} {inst : Instruction}
    (h : ChainedFrom offset insts) (hmem : inst ∈ insts) : offset ≤ inst.offset := by
  obtain ⟨front, rest, rfl⟩ := List.append_of_mem hmem
  have hoffset : inst.offset = offset + (encodeAll front).length :=
    (chainedFrom_append.mp h).2.1
  omega

/-- No instruction of a chain starts inside another one. -/
theorem ChainedFrom.nextOffset_le {offset : Nat} {insts : List Instruction}
    {inst other : Instruction} (h : ChainedFrom offset insts) (hinst : inst ∈ insts)
    (hother : other ∈ insts) (hlt : inst.offset < other.offset) :
    inst.nextOffset ≤ other.offset := by
  obtain ⟨front, rest, rfl⟩ := List.append_of_mem hinst
  obtain ⟨hfront, hoffset, hrest⟩ := chainedFrom_append.mp h
  rcases List.mem_append.mp hother with hbefore | hafter
  · -- what comes before an instruction also starts before it
    obtain ⟨front', rest', rfl⟩ := List.append_of_mem hbefore
    have hoffset' : other.offset = offset + (encodeAll front').length :=
      (chainedFrom_append.mp hfront).2.1
    simp only [encodeAll, List.flatMap_append, List.length_append] at hoffset hoffset'
    omega
  · rcases List.mem_cons.mp hafter with rfl | hmem
    · omega
    · exact hrest.le_offset hmem

end Instruction

/-! ## The tiling

Whatever is said of the whole list comes from the chain of offsets, and whatever is said of one
instruction from its being read in its place. -/

open Instruction

/-- A slice that is cut off at the end of the code. -/
theorem extract_min_eq_take (code : Bytes) (start n : Nat) :
    code.extract start (min (start + n) code.length) = (code.drop start).take n := by
  rw [List.extract_eq_take_drop, List.take_eq_take_iff, List.length_drop]
  omega

theorem standsIn_of_mem_decode {code : Bytes} {inst : Instruction} (hmem : inst ∈ decode code) :
    StandsIn code inst := by
  have hshaped := shaped_of_mem_decode hmem
  obtain ⟨following, hdrop, hread⟩ := exists_following_of_mem_decode hmem
  have hfollowing : code.drop (inst.offset + 1) = following := by
    rw [← List.drop_drop, hdrop]
    rfl
  refine ⟨?_, hshaped.opcode_eq, hshaped.isSome_immediate, ?_⟩
  · rw [← List.head?_drop, hdrop]
    rfl
  · intro bytes hbytes
    have htake : bytes = following.take inst.nominalLength := by
      have hgetD : inst.immediate.getD [] = following.take (width inst.code) := by
        rw [← getD_immediate_read inst.offset, ← hread]
      rwa [hbytes, Option.getD_some, hshaped.width_eq] at hgetD
    rw [htake, extract_min_eq_take, hfollowing]

/-- No instruction reaches past the end of the code. -/
theorem nextOffset_le_of_mem_decode {code : Bytes} {inst : Instruction}
    (hmem : inst ∈ decode code) : inst.nextOffset ≤ code.length := by
  obtain ⟨following, hdrop, hread⟩ := exists_following_of_mem_decode hmem
  have hlength : code.length - inst.offset = following.length + 1 := by
    rw [← List.length_drop, hdrop, List.length_cons]
  rw [hread, nextOffset_read]
  omega

theorem offset_lt_of_mem_decode {code : Bytes} {inst : Instruction} (hmem : inst ∈ decode code) :
    inst.offset < code.length := by
  have hend := nextOffset_le_of_mem_decode hmem
  rw [nextOffset, encodedLength] at hend
  omega

/-- **Decoding tiles the code.** Laid one after the other, the decoded instructions are exactly the
code; they start at zero, follow each other without gap or overlap and end where the code does; each
shows what stands at its offset, and only the last can be cut short. -/
theorem tile_decode (code : Bytes) : Tile code (decode code) where
  encodeAll_eq := encodeAll_decode code
  offset_head := fun _ => (chainedFrom_decode code).offset_head
  offset_succ := fun _ _ _ => (chainedFrom_decode code).offset_succ
  nextOffset_last := by
    intro last hlast
    have hend := (chainedFrom_decode code).nextOffset_last hlast
    rwa [encodeAll_decode, Nat.zero_add] at hend
  eq_nil_iff := Cursor.remaining_eq_nil_iff
  standsIn := fun _ hmem => standsIn_of_mem_decode hmem
  isTruncated_last := by
    intro i inst hinst htruncated
    have hlt : i < (decode code).length := (List.getElem?_eq_some_iff.mp hinst).1
    rcases Nat.lt_or_ge (i + 1) (decode code).length with hbefore | hlast
    · -- an instruction before the last one has all its immediate bytes
      have hfront : (decode code).dropLast[i]? = some inst := by
        rw [List.getElem?_dropLast, if_pos (by omega), hinst]
      have hfull := presentLength_of_mem_dropLast_decode (List.mem_of_getElem? hfront)
      have hshaped := shaped_of_mem_decode (List.mem_of_getElem? hinst)
      rw [hshaped.isTruncated_eq, decide_eq_true_eq] at htruncated
      omega
    · omega

end EvmDisasm
