import EvmDisasm.Proofs.Instruction.Append
import EvmDisasm.Proofs.JumpTable.Destinations

/-!
# Decoding and jump analysis are compositional in the code

What `decode_append` says of instructions, carried over to jump destinations. Filling an instruction
changes neither where it starts nor what it is, so the destinations inside the first part are those
of the first part alone; all others lie behind it.

`decode_analyze_append` puts the three facts together: the boundary between two instructions, the
boundary inside an immediate, and the destinations in front of it.
-/

namespace EvmDisasm

open Instruction

namespace Instruction

theorem destinations_append (front rest : List Instruction) :
    destinations (front ++ rest) = destinations front ++ destinations rest := by
  simp [destinations]

/-- Filling up changes no destination: it changes neither offset nor opcode. -/
theorem destinations_map_fill (more : Bytes) (insts : List Instruction) :
    destinations (insts.map (fill more)) = destinations insts := by
  induction insts with
  | nil => rfl
  | cons inst rest ih =>
    simp only [destinations] at ih
    by_cases hop : inst.opcode = some .jumpDest
    · simp [destinations, hop, ih]
    · simp [destinations, hop, ih]

theorem destinations_map_shift (distance : Nat) (insts : List Instruction) :
    destinations (insts.map (shift distance)) = (destinations insts).map (· + distance) := by
  induction insts with
  | nil => rfl
  | cons inst rest ih =>
    simp only [destinations] at ih
    by_cases hop : inst.opcode = some .jumpDest
    · simp [destinations, shift, hop, ih]
    · simp [destinations, shift, hop, ih]

end Instruction

/-- **The destinations of code in two parts** are those of the first and, further on, those of the
second behind what the first takes of it. -/
theorem destinations_decode_append (front back : Bytes) :
    destinations (decode (front ++ back)) =
      destinations (decode front) ++
        (destinations (decode (back.drop (overrun (decode front))))).map
          (· + (front.length + overrun (decode front))) := by
  rw [decode_append, destinations_append, destinations_map_fill, destinations_map_shift]

/-- **More code behind leaves the destinations in front as they are.** -/
theorem JumpTable.isJumpDest_append_left {front : Bytes} {offset : Nat}
    (h : offset < front.length) (back : Bytes) :
    (analyze (front ++ back)).isJumpDest offset = (analyze front).isJumpDest offset := by
  rw [Bool.eq_iff_iff, isJumpDest_analyze_iff_mem, isJumpDest_analyze_iff_mem,
    destinations_decode_append, List.mem_append]
  constructor
  · rintro (hfront | hback)
    · exact hfront
    · -- what the second part adds lies behind the first part
      obtain ⟨behind, -, hoffset⟩ := List.mem_map.mp hback
      omega
  · exact fun hfront => .inl hfront

/-- **Decoding composes.** Behind code whose last instruction is whole, more code is decoded by
itself and moved up. Behind a push that is cut short, it first gives the push the bytes that it
lacks, as far as it reaches, and the rest is decoded by itself. Either way the destinations in the
first part stay what they are. -/
theorem decode_analyze_append (front back : Bytes) :
    ((∀ last, (decode front).getLast? = some last → last.isTruncated = false) →
      decode (front ++ back) = decode front ++ (decode back).map (shift front.length)) ∧
    (∀ init last, decode front = init ++ [last] → last.isTruncated = true →
      let k := min (last.nominalLength - last.presentLength) back.length
      decode (front ++ back) =
        init ++
          { last with immediate := last.immediate.map (· ++ back.take k) } ::
            (decode (back.drop k)).map (shift (front.length + k))) ∧
    (∀ offset < front.length,
      (JumpTable.analyze front).isJumpDest offset =
        (JumpTable.analyze (front ++ back)).isJumpDest offset) := by
  refine ⟨?_, ?_, ?_⟩
  · intro hwhole
    exact decode_append_of_whole hwhole back
  · intro init last hfront _
    exact decode_append_of_cut hfront back
  · intro offset hlt
    exact (JumpTable.isJumpDest_append_left hlt back).symm

/-- A `PUSH1` that is whole, and a `PUSH2` that takes the first of two further bytes `0x5b` into its
immediate and leaves the second one to be a `JUMPDEST`. -/
theorem decode_analyze_append_push :
    let whole : Bytes := [0x60, 0x01]
    let cut : Bytes := [0x5b, 0x61, 0xaa]
    let back : Bytes := [0x5b, 0x5b]
    let dest : Instruction := ⟨0, 0x5b, some .jumpDest, none⟩
    let push : Instruction := ⟨1, 0x61, some (.push 1), some [0xaa]⟩
    ((∀ last, (decode whole).getLast? = some last → last.isTruncated = false) ∧
      decode (whole ++ back) = decode whole ++ (decode back).map (shift 2)) ∧
    (decode cut = [dest] ++ [push] ∧ push.isTruncated = true ∧
      decode (cut ++ back) =
        [dest] ++ { push with immediate := some [0xaa, 0x5b] } ::
          (decode [0x5b]).map (shift 4)) ∧
    (0 < cut.length ∧
      (JumpTable.analyze cut).isJumpDest 0 = (JumpTable.analyze (cut ++ back)).isJumpDest 0) := by
  intro whole cut back dest push
  have hwhole : ∀ last, (decode whole).getLast? = some last → last.isTruncated = false := by
    have hdecode : decode whole = [⟨0, 0x60, some (.push 0), some [0x01]⟩] := by decide +kernel
    intro last hlast
    rw [hdecode] at hlast
    cases hlast
    rfl
  -- the push lacks one byte, which is the first of those behind it
  have hcut : decode cut = [dest] ++ [push] := by decide +kernel
  have htruncated : push.isTruncated = true := by decide
  have hlt : 0 < cut.length := by decide
  exact ⟨⟨hwhole, (decode_analyze_append whole back).1 hwhole⟩,
    ⟨hcut, htruncated, (decode_analyze_append cut back).2.1 _ _ hcut htruncated⟩,
    ⟨hlt, (decode_analyze_append cut back).2.2 0 hlt⟩⟩

end EvmDisasm
