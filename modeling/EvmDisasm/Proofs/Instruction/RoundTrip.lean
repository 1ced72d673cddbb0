import EvmDisasm.Proofs.Instruction.Sweep

/-!
# Decoding undoes encoding

`decode` is one side of a round trip whose other side is `encodeAll`. Going from bytes to
instructions and back is settled by the tiling: nothing is lost. Here is the way from instructions
to bytes and back, and with it the exact image of `decode`: the well-formed lists, and no other.

* **`WellFormed.shaped`** — what well-formedness asks of an instruction by itself, without its
  neighbours.
* **`remaining_encodeAll`** — the induction along the list, at any offset.
* **`wellFormed_decode`** — conversely every decoding is well formed.
-/

namespace EvmDisasm

namespace Instruction

/-- Each instruction of a well-formed list could have been read by itself. -/
theorem WellFormed.shaped {insts : List Instruction} (h : WellFormed insts) :
    ∀ inst ∈ insts, Shaped inst :=
  fun inst hmem =>
    ⟨h.opcode_eq inst hmem, h.isSome_immediate inst hmem, h.presentLength_le inst hmem⟩

theorem encodeAll_nil : encodeAll [] = [] := rfl

theorem encodeAll_cons (inst : Instruction) (rest : List Instruction) :
    encodeAll (inst :: rest) = inst.code :: (inst.immediate.getD [] ++ encodeAll rest) := rfl

/-- **A list is read back from its bytes** if it is chained, its instructions could have been read
and only the last is cut short. -/
theorem remaining_encodeAll {offset : Nat} {insts : List Instruction}
    (hchain : ChainedFrom offset insts) (hshaped : ∀ inst ∈ insts, Shaped inst)
    (hcomplete : ∀ inst ∈ insts.dropLast, inst.presentLength = inst.nominalLength) :
    (Cursor.mk offset (encodeAll insts)).remaining = insts := by
  -- along the list, with the cursor moved behind each instruction
  induction insts generalizing offset with
  | nil => simp [encodeAll]
  | cons inst rest ih =>
    obtain ⟨rfl, hrest⟩ := hchain
    have hinst : Shaped inst := hshaped inst List.mem_cons_self
    rw [encodeAll_cons, Cursor.remaining_cons]
    -- a neighbour behind the instruction is what forces it to be complete
    cases rest with
    | nil =>
      have hdrop : (inst.immediate.getD [] ++ encodeAll []).drop (width inst.code) = [] := by
        apply List.drop_eq_nil_of_le
        rw [encodeAll_nil, List.append_nil, hinst.width_eq, ← presentLength_eq]
        exact hinst.presentLength_le
      rw [hdrop, Cursor.remaining_nil, hinst.read_eq (.inr encodeAll_nil)]
    | cons second rest =>
      have hfull : inst.presentLength = inst.nominalLength := hcomplete inst (by simp)
      have hwidth : width inst.code = (inst.immediate.getD []).length := by
        rw [hinst.width_eq, ← hfull, presentLength_eq]
      have hnext : inst.offset + 1 + width inst.code = inst.nextOffset := by
        rw [hinst.width_eq, ← hfull, nextOffset, encodedLength, Nat.add_assoc]
      have hdrop : (inst.immediate.getD [] ++ encodeAll (second :: rest)).drop (width inst.code) =
          encodeAll (second :: rest) := by
        rw [hwidth, List.drop_left]
      rw [hinst.read_eq (.inl hfull), hnext, hdrop]
      congr 1
      apply ih hrest
      · exact fun other hmem => hshaped other (List.mem_cons_of_mem _ hmem)
      · intro other hmem
        apply hcomplete other
        rw [List.dropLast_cons_of_ne_nil (by simp)]
        exact List.mem_cons_of_mem _ hmem

/-- A decoding is well formed. -/
theorem wellFormed_decode (code : Bytes) : WellFormed (decode code) := by
  have hshaped : ∀ inst ∈ decode code, Shaped inst := fun _ hmem => shaped_of_mem_decode hmem
  exact
    { chained := chainedFrom_decode code
      opcode_eq := fun inst hmem => (hshaped inst hmem).opcode_eq
      isSome_immediate := fun inst hmem => (hshaped inst hmem).isSome_immediate
      presentLength_le := fun inst hmem => (hshaped inst hmem).presentLength_le
      complete := fun _ hmem => presentLength_of_mem_dropLast_decode hmem }

/-- **The format is uniquely parsable.** A well-formed list of instructions is read back from its
bytes as it was, and the well-formed lists are exactly the decodings. -/
theorem wellFormed_round_trip (insts : List Instruction) :
    (WellFormed insts → decode (encodeAll insts) = insts) ∧
      (WellFormed insts ↔ ∃ code, decode code = insts) := by
  have hback : WellFormed insts → decode (encodeAll insts) = insts := fun h =>
    remaining_encodeAll h.chained h.shaped h.complete
  refine ⟨hback, fun h => ⟨encodeAll insts, hback h⟩, ?_⟩
  rintro ⟨code, rfl⟩
  exact wellFormed_decode code

/-- The round trip at a push whose immediate looks like code, a byte without an opcode and a push
that is cut short. -/
theorem wellFormed_round_trip_cut_short :
    let insts : List Instruction :=
      [⟨0, 0x61, some (.push 1), some [0x5b, 0x60]⟩, ⟨3, 0xfe, none, none⟩,
        ⟨4, 0x62, some (.push 2), some [0x01]⟩]
    WellFormed insts ∧ decode (encodeAll insts) = insts := by
  intro insts
  have hwell : WellFormed insts :=
    ⟨⟨rfl, rfl, rfl, trivial⟩, by decide, by decide, by decide, by decide⟩
  exact ⟨hwell, (wellFormed_round_trip insts).1 hwell⟩

end Instruction

end EvmDisasm
