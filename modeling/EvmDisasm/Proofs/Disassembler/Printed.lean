import EvmDisasm.Listing.Reassembly
import EvmDisasm.Proofs.Disassembler.Sweep
import EvmDisasm.Proofs.Instruction.Mnemonic
import EvmDisasm.Proofs.Instruction.Tiling

/-!
# The printed listing is lossless

Reading a printed listing back gives the code that was disassembled. The grammar of the text is in
three layers, each with its own separator, and on each layer what was joined is split again at the
same places because no item holds the separator.

## The architecture

* **`linesOnto_flatMap`**, **`piecesOnto_piece`** — splitting at line feeds and at pairs of blanks
  undoes joining with them.
* **`IsWord`** — neither a blank nor a line feed stands in an offset, in a mnemonic or in an
  immediate, however long they are.
* **`instruction?_text`** — one line read back.
* **`codeFrom?_texts`** — all lines read back, by induction along the chain of offsets, which is
  what makes the check of the offsets succeed.
* **`any_isHashLine_getLast?`** — the line with the digest cannot be mistaken for an instruction,
  nor the other way round, so the text also tells whether it was asked for.
-/

namespace EvmDisasm

open Instruction

namespace Printed

/-! ## Splitting what was joined

Both readers carry what they have read of the current item in reverse. An item without the separator
is therefore only moved over, and the separator behind it hands it out. -/

theorem linesOnto_append {line : List Char} (h : '\n' ∉ line) (current rest : List Char) :
    linesOnto current (line ++ rest) = linesOnto (line.reverse ++ current) rest := by
  induction line generalizing current with
  | nil => rfl
  | cons c line ih =>
    have hc : c ≠ '\n' := fun heq => h (heq ▸ List.mem_cons_self)
    have hline : '\n' ∉ line := fun hmem => h (List.mem_cons_of_mem _ hmem)
    rw [List.cons_append, linesOnto, if_neg hc, ih hline, List.reverse_cons, List.append_assoc]
    rfl

/-- **Splitting at line feeds undoes ending every line with one.** -/
theorem linesOnto_flatMap {lines : List (List Char)} (h : ∀ line ∈ lines, '\n' ∉ line) :
    linesOnto [] (lines.flatMap (· ++ ['\n'])) = lines := by
  induction lines with
  | nil => rfl
  | cons line rest ih =>
    have hline : '\n' ∉ line := h line List.mem_cons_self
    have hrest := ih fun other hmem => h other (List.mem_cons_of_mem _ hmem)
    rw [List.flatMap_cons, List.append_assoc, linesOnto_append hline, List.append_nil,
      List.singleton_append, linesOnto, if_pos rfl, hrest, List.reverse_reverse]

theorem piecesOnto_append {piece : List Char} (h : ' ' ∉ piece) (current rest : List Char) :
    piecesOnto current (piece ++ rest) = piecesOnto (piece.reverse ++ current) rest := by
  induction piece generalizing current with
  | nil => rfl
  | cons c piece ih =>
    have hc : c ≠ ' ' := fun heq => h (heq ▸ List.mem_cons_self)
    have hpiece : ' ' ∉ piece := fun hmem => h (List.mem_cons_of_mem _ hmem)
    have hstep : piecesOnto current (c :: (piece ++ rest)) =
        piecesOnto (c :: current) (piece ++ rest) := by
      -- a pair of blanks would be the other case of the reader
      rw [piecesOnto]
      intro _ hblank
      exact absurd hblank hc
    rw [List.cons_append, hstep, ih hpiece, List.reverse_cons, List.append_assoc]
    rfl

/-- A pair of blanks ends a piece. -/
theorem piecesOnto_piece {piece : List Char} (h : ' ' ∉ piece) (rest : List Char) :
    piecesOnto [] (piece ++ ' ' :: ' ' :: rest) = piece :: piecesOnto [] rest := by
  rw [piecesOnto_append h, List.append_nil, piecesOnto, List.reverse_reverse]

theorem piecesOnto_last {piece : List Char} (h : ' ' ∉ piece) : piecesOnto [] piece = [piece] := by
  have hend := piecesOnto_append h [] []
  rwa [List.append_nil, List.append_nil, piecesOnto, List.reverse_reverse] at hend

/-! ## Words

What the printer writes between two separators holds none of them. Offsets and immediates are made
of digits and a mark, known mnemonics of letters and digits, and the mnemonic of an unknown byte has
its number in parentheses. -/

/-- No separator of the printed listing stands in the text. -/
def IsWord (text : List Char) : Prop :=
  ' ' ∉ text ∧ '\n' ∉ text

/-- Digits and the letter of the mark are no separators. -/
theorem isWord_of_digits {text : List Char}
    (h : ∀ c ∈ text, c = 'x' ∨ Hex.isDigitChar c = true) : IsWord text := by
  constructor
  · intro hmem
    exact absurd (h ' ' hmem) (by decide)
  · intro hmem
    exact absurd (h '\n' hmem) (by decide)

theorem isWord_number (width n : Nat) : IsWord (Hex.number width n).toList :=
  isWord_of_digits fun _ hmem => Hex.mem_number hmem

theorem isWord_marked (bytes : Bytes) : IsWord (Hex.marked bytes).toList :=
  isWord_of_digits fun _ hmem => Hex.mem_marked hmem

theorem isWord_letters (op : Opcode) : IsWord op.letters := by
  constructor
  · intro hmem
    exact absurd (Opcode.isAlphanum_of_mem_letters hmem) (by decide)
  · intro hmem
    exact absurd (Opcode.isAlphanum_of_mem_letters hmem) (by decide)

/-- Two words in a row make one word. -/
theorem IsWord.append {front back : List Char} (hfront : IsWord front) (hback : IsWord back) :
    IsWord (front ++ back) := by
  constructor
  · rw [List.mem_append]
    rintro (hmem | hmem)
    · exact hfront.1 hmem
    · exact hback.1 hmem
  · rw [List.mem_append]
    rintro (hmem | hmem)
    · exact hfront.2 hmem
    · exact hback.2 hmem

/-- The mnemonic of an instruction is a word, also if its byte is unknown. -/
theorem isWord_mnemonic (inst : Instruction) : IsWord inst.mnemonic.toList := by
  cases hop : inst.opcode with
  | none =>
    have hopen : IsWord "UNKNOWN(".toList := ⟨by decide, by decide⟩
    have hclose : IsWord [')'] := ⟨by decide, by decide⟩
    rw [toList_mnemonic_of_unknown hop]
    exact (hopen.append (isWord_number 2 _)).append hclose
  | some op =>
    rw [mnemonic, hop]
    show IsWord op.mnemonic.toList
    rw [Opcode.toList_mnemonic]
    exact isWord_letters op

/-! ## One line

A line has the offset, the mnemonic and, for a push, the immediate, with a pair of blanks between
them. Reading it takes the number of pieces for the difference. -/

/-- The part of a line behind the mnemonic. -/
def immediatePart : Option Bytes → List Char
  | some bytes => ' ' :: ' ' :: (Hex.marked bytes).toList
  | none => []

theorem toList_text (inst : Instruction) :
    inst.text.toList = (Hex.number 4 inst.offset).toList ++
      ' ' :: ' ' :: (inst.mnemonic.toList ++ immediatePart inst.immediate) := by
  rw [text, immediateText]
  cases inst.immediate with
  | none => simp [immediatePart]
  | some bytes => simp [immediatePart]

theorem newline_not_mem_text (inst : Instruction) : '\n' ∉ inst.text.toList := by
  have himmediate : '\n' ∉ immediatePart inst.immediate := by
    cases inst.immediate with
    | none => exact List.not_mem_nil
    | some bytes =>
      simp only [immediatePart, List.mem_cons, not_or]
      exact ⟨by decide, by decide, (isWord_marked bytes).2⟩
  rw [toList_text]
  simp only [List.mem_append, List.mem_cons, not_or]
  exact ⟨(isWord_number 4 _).2, by decide, by decide, (isWord_mnemonic inst).2, himmediate⟩

/-- **One line is read back**: the offset, and the bytes of the instruction. Only a shaped
instruction is, since the mnemonic of a known byte has to stand for that byte. -/
theorem instruction?_text {inst : Instruction} (h : Shaped inst) :
    instruction? inst.text.toList = some (inst.offset, inst.encode) := by
  have hoffset : Hex.toNumber? (Hex.number 4 inst.offset).toList = some inst.offset :=
    Hex.toNumber?_number 4 inst.offset
  have hcode : codeOfMnemonic? (String.ofList inst.mnemonic.toList) = some inst.code := by
    rw [String.ofList_toList, codeOfMnemonic?_mnemonic h]
  rw [toList_text, encode]
  -- with an immediate there are three pieces, without one two
  cases himmediate : inst.immediate with
  | none =>
    have hpieces : piecesOnto [] ((Hex.number 4 inst.offset).toList ++
        ' ' :: ' ' :: (inst.mnemonic.toList ++ immediatePart none)) =
        [(Hex.number 4 inst.offset).toList, inst.mnemonic.toList] := by
      rw [piecesOnto_piece (isWord_number 4 _).1, immediatePart, List.append_nil,
        piecesOnto_last (isWord_mnemonic inst).1]
    rw [instruction?, hpieces]
    simp only [hoffset, hcode]
    rfl
  | some bytes =>
    have hpieces : piecesOnto [] ((Hex.number 4 inst.offset).toList ++
        ' ' :: ' ' :: (inst.mnemonic.toList ++ immediatePart (some bytes))) =
        [(Hex.number 4 inst.offset).toList, inst.mnemonic.toList,
          (Hex.marked bytes).toList] := by
      rw [piecesOnto_piece (isWord_number 4 _).1, immediatePart,
        piecesOnto_piece (isWord_mnemonic inst).1, piecesOnto_last (isWord_marked bytes).1]
    rw [instruction?, hpieces]
    simp only [hoffset, hcode, Hex.ofMarked?_marked]
    rfl

/-! ## All lines

The reader checks each offset against the number of bytes read so far, and the chain of offsets is
just that. -/

/-- **All lines are read back.** The offsets of the lines have to follow one another from the offset
at which the reader starts. -/
theorem codeFrom?_texts {offset : Nat} {insts : List Instruction}
    (hchain : ChainedFrom offset insts) (hshaped : ∀ inst ∈ insts, Shaped inst) :
    codeFrom? offset (insts.map (·.text.toList)) = some (encodeAll insts) := by
  -- along the chain: behind the first line the reader expects the next offset
  induction insts generalizing offset with
  | nil => rfl
  | cons inst rest ih =>
    obtain ⟨rfl, hrest⟩ := hchain
    have hnext : inst.offset + inst.encode.length = inst.nextOffset := by
      rw [length_encode, nextOffset]
    have hothers := ih hrest fun other hmem => hshaped other (List.mem_cons_of_mem _ hmem)
    rw [List.map_cons, codeFrom?, instruction?_text (hshaped inst List.mem_cons_self)]
    simp only [Option.bind_eq_bind, Option.bind_some, if_pos, hnext, hothers]
    rfl

/-! ## The line with the digest

The digest comes last, and its line has no mark in front. The reader drops the line by that. -/

/-- The line of an instruction starts with the mark of its offset, so it is not taken for the line
with the digest. -/
theorem isHashLine_text (inst : Instruction) : isHashLine inst.text.toList = false := by
  rw [toList_text, Hex.toList_number]
  rfl

theorem isHashLine_hashLine (digest : Digest) :
    isHashLine ("code hash: " ++ digest.text).toList = true := by
  rw [String.toList_append]
  exact List.isPrefixOf_iff_prefix.mpr (List.prefix_append _ _)

theorem newline_not_mem_hashLine (digest : Digest) :
    '\n' ∉ ("code hash: " ++ digest.text).toList := by
  rw [String.toList_append, List.mem_append, not_or]
  exact ⟨by decide, (isWord_marked digest.bytes).2⟩

end Printed

namespace Disassembler

open Printed

variable (d : Disassembler) (showHash : Bool)

/-- No line that is printed holds a line feed of its own. -/
theorem newline_not_mem_lines : ∀ line ∈ (d.lines showHash).map String.toList, '\n' ∉ line := by
  intro line hmem
  obtain ⟨text, htext, rfl⟩ := List.mem_map.mp hmem
  rw [lines, List.mem_append, List.mem_map] at htext
  rcases htext with ⟨inst, -, rfl⟩ | hhash
  · exact newline_not_mem_text inst
  · cases showHash with
    | false => exact absurd hhash List.not_mem_nil
    | true =>
      rw [List.mem_singleton.mp hhash]
      exact newline_not_mem_hashLine d.codeHash

/-- The printed text has just the lines that were printed. -/
theorem linesOnto_print :
    linesOnto [] (d.print showHash).toList = (d.lines showHash).map String.toList := by
  have hjoin : (d.print showHash).toList =
      ((d.lines showHash).map String.toList).flatMap (· ++ ['\n']) := by
    rw [print, String.toList_join]
    simp [List.flatMap_map]
  rw [hjoin, linesOnto_flatMap (newline_not_mem_lines d showHash)]

/-- The last line tells whether the digest is shown. -/
theorem any_isHashLine_getLast? :
    ((d.lines showHash).map String.toList).getLast?.any isHashLine = showHash := by
  cases showHash with
  | true =>
    simp only [lines, if_true, List.map_append, List.map_cons, List.map_nil,
      List.getLast?_concat, Option.any_some]
    exact isHashLine_hashLine d.codeHash
  | false =>
    rw [Option.any_eq_false]
    intro line hlast
    obtain ⟨text, htext, rfl⟩ := List.mem_map.mp (List.mem_of_getLast? hlast)
    simp only [lines, List.append_nil, List.mem_map, Bool.false_eq_true, if_false] at htext
    obtain ⟨inst, -, rfl⟩ := htext
    rw [isHashLine_text]

theorem dropHashLine_lines :
    dropHashLine ((d.lines showHash).map String.toList) =
      d.instructions.map (·.text.toList) := by
  rw [dropHashLine, any_isHashLine_getLast?]
  cases showHash with
  | true => simp [lines]
  | false => simp [lines]

theorem dropHashLine_linesOnto_print :
    dropHashLine (linesOnto [] (d.print showHash).toList) =
      d.instructions.map (·.text.toList) := by
  rw [linesOnto_print, dropHashLine_lines]

end Disassembler

/-! ## Reading the listing

A lenient disassembly finds all instructions of the code, so printing it and reading the text goes
once around. -/

/-- What is printed of the code after a lenient disassembly. -/
def Disassembler.printed (code : Bytes) (showHash : Bool) : String :=
  (ofCode code false).disassemble.2.print showHash

namespace Printed

open Disassembler

/-- The lines that the reader is left with are those of the decoded code. -/
theorem dropHashLine_printed (code : Bytes) (showHash : Bool) :
    dropHashLine (linesOnto [] (printed code showHash).toList) =
      (decode code).map (·.text.toList) := by
  have hall : (ofCode code false).disassemble.2.instructions = decode code := by
    rw [instructions_disassemble]
    exact takeWhile_accepts_false (decode code)
  rw [printed, dropHashLine_linesOnto_print, hall]

theorem code?_print (code : Bytes) (showHash : Bool) :
    code? (printed code showHash) = some code := by
  have hshaped : ∀ inst ∈ decode code, Shaped inst := fun _ hmem => shaped_of_mem_decode hmem
  rw [code?, dropHashLine_printed, codeFrom?_texts (chainedFrom_decode code) hshaped,
    encodeAll_decode]

/-- **The printed listing is lossless.** Reading it line by line gives the code back, and each line
starts at as many bytes as the lines in front of it have. So no two listings are the same unless the
code is and the digest is shown in both or in neither. -/
theorem printed_lossless (code : Bytes) (showHash : Bool) :
    code? (printed code showHash) = some code ∧
    (∀ front line rest,
      dropHashLine (linesOnto [] (printed code showHash).toList) = front ++ line :: rest →
      ∃ before bytes, codeFrom? 0 front = some before ∧
        instruction? line = some (before.length, bytes)) ∧
    (∀ other showHash', printed code showHash = printed other showHash' →
      code = other ∧ showHash = showHash') := by
  refine ⟨code?_print code showHash, ?_, ?_⟩
  · intro front line rest hlines
    rw [dropHashLine_printed, List.map_eq_append_iff] at hlines
    obtain ⟨insts, others, hsplit, rfl, hothers⟩ := hlines
    obtain ⟨inst, others, rfl, rfl, -⟩ := List.map_eq_cons_iff.mp hothers
    have hshaped : ∀ inst ∈ decode code, Shaped inst := fun _ hmem => shaped_of_mem_decode hmem
    rw [hsplit] at hshaped
    have hchain := chainedFrom_decode code
    rw [hsplit] at hchain
    -- the lines in front end where this one starts
    obtain ⟨hfront, hoffset, -⟩ := chainedFrom_append.mp hchain
    refine ⟨encodeAll insts, inst.encode, ?_, ?_⟩
    · exact codeFrom?_texts hfront fun _ hmem => hshaped _ (List.mem_append_left _ hmem)
    · rw [Nat.zero_add] at hoffset
      rw [← hoffset]
      exact instruction?_text (hshaped inst (List.mem_append_right _ List.mem_cons_self))
  · intro other showHash' hsame
    -- the text has been made from both, and reading it gives but one answer
    have hcode : some code = some other := by
      rw [← code?_print code showHash, hsame, code?_print]
    have hflag : showHash = showHash' := by
      rw [← any_isHashLine_getLast? (ofCode code false).disassemble.2 showHash, ← linesOnto_print,
        ← any_isHashLine_getLast? (ofCode other false).disassemble.2 showHash', ← linesOnto_print]
      exact congrArg (fun text : String => (linesOnto [] text.toList).getLast?.any isHashLine) hsame
    exact ⟨Option.some.inj hcode, hflag⟩

/-- The lines of a `PUSH1`, a byte without an opcode and a `PUSH2` without any immediate byte. The
second starts behind the two bytes of the first, and showing the digest makes another text. -/
theorem printed_lossless_push :
    let code : Bytes := [0x60, 0x01, 0xfe, 0x61]
    let push : List Char := "0x0000  PUSH1  0x01".toList
    let unknown : List Char := "0x0002  UNKNOWN(0xfe)".toList
    let cut : List Char := "0x0003  PUSH2  0x".toList
    dropHashLine (linesOnto [] (printed code false).toList) = [push] ++ unknown :: [cut] ∧
      (∃ before bytes, codeFrom? 0 [push] = some before ∧
        instruction? unknown = some (before.length, bytes)) ∧
      printed code false ≠ printed code true := by
  intro code push unknown cut
  have hlines : dropHashLine (linesOnto [] (printed code false).toList) =
      [push] ++ unknown :: [cut] := by
    rw [dropHashLine_printed]
    decide +kernel
  refine ⟨hlines, (printed_lossless code false).2.1 _ _ _ hlines, ?_⟩
  intro hsame
  have hflag := ((printed_lossless code false).2.2 code true hsame).2
  exact Bool.false_ne_true hflag

end Printed

end EvmDisasm
