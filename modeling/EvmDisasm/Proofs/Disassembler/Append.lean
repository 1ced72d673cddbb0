import EvmDisasm.Proofs.Disassembler.History
import EvmDisasm.Proofs.Instruction.Append

/-!
# Strict mode on code that is put together

What strict mode says of two pieces of code, one behind the other. The first piece has the first
word: if it is refused then so is the whole, whatever follows. If it is accepted and ends with a
whole instruction, the second piece decides, with its offsets moved up. Where the first piece ends
inside an immediate that does not hold, because the push may take in the very byte for which the
second piece is refused.

* **`refused?_decode_append`**, **`kept_decode_append`** — an instruction that is refused stays, and
  so do those in front of it, because the ones that gain bytes come last.
* **`refused?_decode_append_of_whole`**, **`kept_decode_append_of_whole`** — the same at a boundary
  between two instructions.
* **`strict_append`** — both, for the calls.
-/

namespace EvmDisasm.Disassembler

open Instruction

/-! ## What the mode does not notice

Strict mode looks at the byte of an instruction and at its offset. Filling up an immediate changes
neither, and moving an instruction changes the offset alone. -/

/-- More bytes of an immediate do not make an instruction known or unknown. -/
theorem accepts_fill (strict : Bool) (more : Bytes) (inst : Instruction) :
    accepts strict (inst.fill more) = accepts strict inst := rfl

theorem refusal_fill (more : Bytes) (inst : Instruction) :
    refusal (inst.fill more) = id (refusal inst) := rfl

theorem refused?_map_fill (strict : Bool) (more : Bytes) (insts : List Instruction) :
    refused? strict (insts.map (fill more)) = refused? strict insts := by
  rw [refused?_map (accepts_fill strict more) (refusal_fill more), Option.map_id, id_eq]

theorem accepts_shift (strict : Bool) (distance : Nat) (inst : Instruction) :
    accepts strict (inst.shift distance) = accepts strict inst := rfl

def UnknownOpcode.shift (distance : Nat) (e : UnknownOpcode) : UnknownOpcode :=
  ⟨e.code, distance + e.offset⟩

theorem refusal_shift (distance : Nat) (inst : Instruction) :
    refusal (inst.shift distance) = (refusal inst).shift distance := by
  rw [refusal, refusal, UnknownOpcode.shift, Nat.add_comm]
  rfl

/-! ## Behind code that is refused

The refused instruction is unknown, so it has no immediate, and those in front of it are whole. What
is appended can only reach the last instruction, which is the refused one or stands behind it. -/

variable {strict : Bool} {front : Bytes} {e : UnknownOpcode}

theorem refused?_decode_append (h : refused? strict (decode front) = some e) (back : Bytes) :
    refused? strict (decode (front ++ back)) = some e := by
  rw [decode_append, refused?_append, refused?_map_fill, h]
  rfl

theorem kept_decode_append (h : refused? strict (decode front) = some e) (back : Bytes) :
    (decode (front ++ back)).takeWhile (accepts strict) =
      (decode front).takeWhile (accepts strict) := by
  have hfill := (refused?_map_fill strict back (decode front)).trans h
  obtain ⟨kept, inst, rest, hsplit, -, -, -, hkept⟩ := exists_split_of_refused? h
  -- what is kept stands in front of the refused instruction, so filling up changes none of it
  rw [decode_append, takeWhile_accepts_append_of_refused hfill,
    takeWhile_accepts_map (accepts_fill strict back), hkept,
    map_fill_eq_self (lacking_eq_zero_of_mem_front hsplit)]

/-! ## Behind code that is accepted and ends with a whole instruction

Here the sweep over the whole code is that over the front and, moved up, that over the rest, so the
rest is judged by itself. -/

/-- What is refused in the rest is refused in the whole, further on. -/
theorem refused?_decode_append_of_whole
    (hlast : ∀ last, (decode front).getLast? = some last → last.isTruncated = false)
    (h : refused? strict (decode front) = none) (back : Bytes) :
    refused? strict (decode (front ++ back)) =
      (refused? strict (decode back)).map (.shift front.length) := by
  rw [decode_append_of_whole hlast, refused?_append, h, Option.none_or]
  exact refused?_map (accepts_shift strict front.length) (refusal_shift front.length) (decode back)

theorem kept_decode_append_of_whole
    (hlast : ∀ last, (decode front).getLast? = some last → last.isTruncated = false)
    (h : refused? strict (decode front) = none) (back : Bytes) :
    (decode (front ++ back)).takeWhile (accepts strict) =
      decode front ++ ((decode back).takeWhile (accepts strict)).map (shift front.length) := by
  rw [decode_append_of_whole hlast, takeWhile_accepts_append_of_accepted h,
    takeWhile_accepts_map (accepts_shift strict front.length)]

/-! ## The calls

The two cases for the calls themselves. A call starts from what the code holds, so the instructions
found before are not in the way. -/

/-- **Strict mode is stable under extension and composes at the boundaries of instructions.** Code
that is refused stays refused with more code behind it, for the same byte at the same offset and
with the same instructions kept. Behind code that is accepted and does not end inside an immediate,
more code is judged by itself: the whole is accepted if that is, and else refused for the same byte,
moved up; what is kept of it is moved up as well and stands behind all of the first code. What a
disassembler held before does not matter to either. -/
theorem strict_append (front back : Bytes) (found found' found'' : List Instruction) :
    let first := (Disassembler.mk front true found).disassemble
    let second := (Disassembler.mk back true found').disassemble
    let whole := (Disassembler.mk (front ++ back) true found'').disassemble
    (∀ e, first.1.value = .error e →
      whole.1.value = .error e ∧ whole.2.instructions = first.2.instructions) ∧
    ((∀ last, (decode front).getLast? = some last → last.isTruncated = false) →
      first.1.value = .ok () →
        (whole.1.value = .ok () ↔ second.1.value = .ok ()) ∧
        ∀ e, second.1.value = .error e →
          whole.1.value = .error ⟨e.code, front.length + e.offset⟩ ∧
          whole.2.instructions =
            decode front ++ second.2.instructions.map (shift front.length)) := by
  intro first second whole
  have hkeptFirst := instructions_disassemble ⟨front, true, found⟩
  have hkeptSecond := instructions_disassemble ⟨back, true, found'⟩
  have hkeptWhole := instructions_disassemble ⟨front ++ back, true, found''⟩
  dsimp only at hkeptFirst hkeptSecond hkeptWhole
  rw [hkeptFirst, hkeptSecond, hkeptWhole]
  refine ⟨?_, ?_⟩
  · intro e herror
    have hrefused := value_disassemble_eq_error_iff.mp herror
    rw [value_disassemble_eq_error_iff]
    exact ⟨refused?_decode_append hrefused back, kept_decode_append hrefused back⟩
  · intro hlast hok
    -- the verdict and what is kept both come from what is refused in the rest
    have haccepted := value_disassemble_eq_ok_iff.mp hok
    have hrefused := refused?_decode_append_of_whole hlast haccepted back
    refine ⟨?_, ?_⟩
    · rw [value_disassemble_eq_ok_iff, value_disassemble_eq_ok_iff]
      show refused? true (decode (front ++ back)) = none ↔ refused? true (decode back) = none
      rw [hrefused, Option.map_eq_none_iff]
    · intro e herror
      rw [value_disassemble_eq_error_iff] at herror ⊢
      refine ⟨?_, kept_decode_append_of_whole hlast haccepted back⟩
      show refused? true (decode (front ++ back)) = _
      rw [hrefused, show refused? true (decode back) = some e from herror]
      rfl

/-- Behind a `STOP` and the byte `0xfe` a `JUMPDEST` changes nothing. Behind a `PUSH1` that is whole
the byte `0xfe` is refused two bytes further on, and the `JUMPDEST` in front of it is kept there. -/
theorem strict_append_push :
    let refused : Bytes := [0x00, 0xfe]
    let push : Bytes := [0x60, 0x01]
    let back : Bytes := [0x5b, 0xfe]
    ((ofCode refused true).disassemble.1.value = .error ⟨0xfe, 1⟩ ∧
      (ofCode (refused ++ [0x5b]) true).disassemble.1.value = .error ⟨0xfe, 1⟩) ∧
    ((∀ last, (decode push).getLast? = some last → last.isTruncated = false) ∧
      (ofCode push true).disassemble.1.value = .ok () ∧
      (ofCode back true).disassemble.1.value = .error ⟨0xfe, 1⟩ ∧
      (ofCode (push ++ back) true).disassemble.1.value = .error ⟨0xfe, 3⟩ ∧
      (ofCode (push ++ back) true).disassemble.2.instructions =
        [⟨0, 0x60, some (.push 0), some [0x01]⟩, ⟨2, 0x5b, some .jumpDest, none⟩]) := by
  intro refused push back
  have hrefused : (ofCode refused true).disassemble.1.value = .error ⟨0xfe, 1⟩ :=
    value_disassemble_eq_error_iff.mpr (by decide +kernel)
  -- the first half of the theorem, and behind the push the second
  have hstable := (strict_append refused [0x5b] [] [] []).1 ⟨0xfe, 1⟩ hrefused
  have hlast : ∀ last, (decode push).getLast? = some last → last.isTruncated = false := by
    have hdecode : decode push = [⟨0, 0x60, some (.push 0), some [0x01]⟩] := by decide +kernel
    intro last hlast
    rw [hdecode] at hlast
    cases hlast
    rfl
  have hpush : (ofCode push true).disassemble.1.value = .ok () :=
    value_disassemble_eq_ok_iff.mpr (by decide +kernel)
  have hback : (ofCode back true).disassemble.1.value = .error ⟨0xfe, 1⟩ :=
    value_disassemble_eq_error_iff.mpr (by decide +kernel)
  obtain ⟨hvalue, hkept⟩ := ((strict_append push back [] [] []).2 hlast hpush).2 ⟨0xfe, 1⟩ hback
  refine ⟨⟨hrefused, hstable.1⟩, hlast, hpush, hback, hvalue, ?_⟩
  rw [ofCode, hkept]
  decide +kernel

/-- A `PUSH1` at the end of the first code takes in the byte for which the second is refused. -/
example :
    refused? true (decode [0x60]) = none ∧ refused? true (decode [0xfe]) = some ⟨0xfe, 0⟩ ∧
      refused? true (decode ([0x60] ++ [0xfe])) = none := by
  decide +kernel

end EvmDisasm.Disassembler
