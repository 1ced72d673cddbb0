import EvmDisasm.Proofs.Code.HexText
import EvmDisasm.Proofs.Run.Stages

/-!
# Contents taken for digits

Whoever loads a file asks first whether its contents look like digits and reads them only then.
Reading can still fail in one way, contents are then the code as they stand, and so loading a file
that can be read never fails.

* **`length_lt_of_parse`** — code is shorter than the text that it is read from.
* **`ofContents_of_parse`** — what is made of contents that are a text of code.
* **`HoldsPairs`** — the contents that are taken for digits, and **`value_ofContents_of_not`** on
  all the others.
* **`load_contents`** — the code in a file, whatever its contents are.
-/

namespace EvmDisasm.Code

variable {text : String} {code : Bytes}

/-! ## The length of code

Two digits make a byte, so code is always shorter than its text. Characters are counted first in the
text and then in its bytes, of which every character has at least one. -/

theorem length_le_utf8 (chars : List Char) : chars.length ≤ (Text.utf8 chars).length := by
  induction chars with
  | nil => exact Nat.le_refl 0
  | cons c rest ih =>
    have hpos := List.length_pos_iff.mpr (String.utf8EncodeChar_ne_nil (c := c))
    have hcons : Text.utf8 (c :: rest) = String.utf8EncodeChar c ++ Text.utf8 rest := rfl
    rw [hcons, List.length_append, List.length_cons]
    omega

theorem length_digits_le (text : String) : (digits text).length ≤ text.toList.length := by
  obtain ⟨before, mark, after, -, -, -, htext⟩ := Hex.framed_body text
  calc (digits text).length ≤ (Hex.body text).length := List.length_filter_le _ _
    _ ≤ text.toList.length := by
      rw [htext, List.length_append, List.length_append, List.length_append]
      omega

/-- Every byte of the code takes two characters of the text. -/
theorem length_lt_of_parse (hparse : parse text = .ok code) (hcode : code ≠ []) :
    code.length < (Text.utf8 text.toList).length := by
  have hdigits := Hex.length_of_map_toLower (parse_eq_ok_iff.mp hparse)
  have hpos := List.length_pos_iff.mpr hcode
  calc code.length < (digits text).length := by omega
    _ ≤ text.toList.length := length_digits_le text
    _ ≤ (Text.utf8 text.toList).length := length_le_utf8 text.toList

/-! ## Loaded files

What becomes of the contents of a file hangs on one question, whether they hold pairs of digits.
`HoldsPairs` is the answer yes, and all other contents are taken as they stand. -/

/-- The contents are the text, and the text holds pairs of digits and otherwise only blank
characters. -/
structure HoldsPairs (contents : Bytes) (text : String) : Prop where
  ofUtf8?_eq : Text.ofUtf8? contents = some text
  looksLikeHex : looksLikeHex text = true
  even : (digits text).length % 2 = 0

/-- Contents that are a text of code give that code. Empty code is the exception: then there was no
digit in the text that could have made it look like hexadecimal. -/
theorem ofContents_of_parse {text : String} {code : Bytes} (path : String)
    (h : parse text = .ok code) :
    ∃ records, ofContents path (Text.utf8 text.toList) =
      ⟨if code = [] then Text.utf8 text.toList else code, records⟩ := by
  unfold ofContents
  rw [Text.ofUtf8?_utf8]
  dsimp only
  by_cases hcode : code = []
  · -- the recogniser does not take a text for digits that has none
    have hlooks : ¬ looksLikeHex text = true := fun hlooks =>
      (looksLikeHex_of_parse h).mp hlooks hcode
    rw [if_neg hlooks, if_pos hcode]
    exact ⟨_, rfl⟩
  · rw [if_pos ((looksLikeHex_of_parse h).mpr hcode), if_neg hcode, h]
    exact ⟨_, rfl⟩

section

variable {contents : Bytes}

/-- Contents that hold pairs of digits are read, and there is code in them. -/
theorem HoldsPairs.parse_value (h : HoldsPairs contents text) (path : String) :
    parse text = .ok (ofContents path contents).value ∧ (ofContents path contents).value ≠ [] := by
  obtain ⟨hutf8, hlooks, heven⟩ := h
  have hcontents := Text.eq_utf8_of_ofUtf8? hutf8
  rcases parse_of_all (looksLikeHex_eq_true_iff.mp hlooks).2 with ⟨-, code, hparse⟩ | ⟨hodd, -⟩
  · have hcode := (looksLikeHex_of_parse hparse).mp hlooks
    obtain ⟨records, hof⟩ := ofContents_of_parse path hparse
    rw [hcontents, hof, if_neg hcode]
    exact ⟨hparse, hcode⟩
  · omega

/-- All other contents are the code themselves: they are no text, do not look like digits, or look
like digits and do not pair up. -/
theorem value_ofContents_of_not (h : ¬ ∃ text, HoldsPairs contents text) (path : String) :
    (ofContents path contents).value = contents := by
  unfold ofContents
  cases hutf8 : Text.ofUtf8? contents with
  | none => rfl
  | some text =>
    dsimp only
    by_cases hlooks : looksLikeHex text = true
    · rw [if_pos hlooks]
      -- reading what looks like digits can only fail for their number, and then it falls back
      rcases parse_of_all (looksLikeHex_eq_true_iff.mp hlooks).2 with ⟨heven, -⟩ | ⟨-, hparse⟩
      · exact absurd ⟨text, hutf8, hlooks, heven⟩ h
      · rw [hparse]
    · rw [if_neg hlooks]

end

/-- **Contents are never refused.** A text looks like digits if reading it gives code that is not
empty, or if nothing but the number of its digits is wrong. A file that can be read gives code: what
its text stands for if it holds pairs of digits, which is shorter than the file, and in all other
cases the bytes as they stand. Where reading fails on what looks like digits, they are odd in
number. -/
theorem load_contents :
    (∀ text, looksLikeHex text = true ↔
      (∃ code, parse text = .ok code ∧ code ≠ []) ∨
      (∃ count, parse text = .error (.oddDigits count)) ∧
        ∀ c ∈ Hex.body text, Hex.isDigitChar c = true ∨ Text.isBlank c = true) ∧
    ∀ (tree : FileTree) (path : String) (contents : Bytes), tree.read path = .ok contents →
      ∃ code records, (load FileTree.files path).run tree = (.ok ⟨code, records⟩, tree) ∧
        (∀ text, HoldsPairs contents text →
          parse text = .ok code ∧ code.length < contents.length) ∧
        ((¬ ∃ text, HoldsPairs contents text) → code = contents) ∧
        (∀ text e, Text.ofUtf8? contents = some text → looksLikeHex text = true →
          parse text = .error e → e = .oddDigits (digits text).length) := by
  refine ⟨fun text => looksLikeHex_iff, fun tree path contents hread => ?_⟩
  refine ⟨(ofContents path contents).value, (ofContents path contents).records, ?_, ?_, ?_, ?_⟩
  · rw [run_load, hread]
  · intro text hpairs
    obtain ⟨hparse, hcode⟩ := hpairs.parse_value path
    refine ⟨hparse, ?_⟩
    have hlength := length_lt_of_parse hparse hcode
    rwa [← Text.eq_utf8_of_ofUtf8? hpairs.ofUtf8?_eq] at hlength
  · -- without pairs of digits there is nothing to read, and the contents stay as they are
    exact fun hnone => value_ofContents_of_not hnone path
  · -- what looks like digits has only its number against it
    intro text e hutf8 hlooks herror
    rcases parse_of_all (looksLikeHex_eq_true_iff.mp hlooks).2 with ⟨-, code, hparse⟩ | ⟨-, hparse⟩
    · rw [hparse] at herror
      cases herror
    · rw [hparse] at herror
      cases herror
      rfl

/-- Pairs of digits behind a mark, three digits, and bytes that are no text. -/
theorem load_contents_three :
    let tree := (((FileTree.empty []).addFile ["pairs"] (Text.utf8 "0X6001\n".toList)).addFile
      ["odd"] (Text.utf8 "abc".toList)).addFile ["raw"] [0x60, 0x01, 0xfe]
    (HoldsPairs (Text.utf8 "0X6001\n".toList) "0X6001\n" ∧
      tree.read "pairs" = .ok (Text.utf8 "0X6001\n".toList) ∧
      ∃ records, (load FileTree.files "pairs").run tree = (.ok ⟨[0x60, 0x01], records⟩, tree)) ∧
    (Text.ofUtf8? (Text.utf8 "abc".toList) = some "abc" ∧ looksLikeHex "abc" = true ∧
      parse "abc" = .error (.oddDigits 3) ∧ tree.read "odd" = .ok (Text.utf8 "abc".toList) ∧
      ∃ records, (load FileTree.files "odd").run tree =
        (.ok ⟨Text.utf8 "abc".toList, records⟩, tree)) ∧
    ((¬ ∃ text, HoldsPairs [0x60, 0x01, 0xfe] text) ∧
      tree.read "raw" = .ok [0x60, 0x01, 0xfe] ∧
      ∃ records, (load FileTree.files "raw").run tree =
        (.ok ⟨[0x60, 0x01, 0xfe], records⟩, tree)) := by
  intro tree
  have hpairs : HoldsPairs (Text.utf8 "0X6001\n".toList) "0X6001\n" :=
    ⟨Text.ofUtf8?_utf8 _, by with_unfolding_all rfl, by with_unfolding_all rfl⟩
  -- bytes are a text in one way, so it is enough to look at that one
  have hodd : ¬ ∃ text, HoldsPairs (Text.utf8 "abc".toList) text := by
    rintro ⟨text, hutf8, -, heven⟩
    rw [Text.ofUtf8?_utf8] at hutf8
    cases hutf8
    exact absurd heven (by with_unfolding_all decide)
  have hraw : ¬ ∃ text, HoldsPairs [0x60, 0x01, 0xfe] text := by
    rintro ⟨text, hutf8, -, -⟩
    have hnone : Text.ofUtf8? [0x60, 0x01, 0xfe] = none := by decide +kernel
    rw [hnone] at hutf8
    cases hutf8
  have hreadPairs : tree.read "pairs" = .ok (Text.utf8 "0X6001\n".toList) := by
    with_unfolding_all rfl
  have hreadOdd : tree.read "odd" = .ok (Text.utf8 "abc".toList) := by with_unfolding_all rfl
  have hreadRaw : tree.read "raw" = .ok [0x60, 0x01, 0xfe] := by with_unfolding_all rfl
  refine ⟨⟨hpairs, hreadPairs, ?_⟩, ⟨Text.ofUtf8?_utf8 _, by with_unfolding_all rfl,
    by with_unfolding_all rfl, hreadOdd, ?_⟩, hraw, hreadRaw, ?_⟩
  · obtain ⟨code, records, hload, hvalue, -⟩ := load_contents.2 tree "pairs" _ hreadPairs
    have hparse : parse "0X6001\n" = .ok [0x60, 0x01] := by with_unfolding_all rfl
    have hcode := (hvalue _ hpairs).1
    rw [hparse] at hcode
    cases hcode
    exact ⟨records, hload⟩
  · obtain ⟨code, records, hload, -, hsame, -⟩ := load_contents.2 tree "odd" _ hreadOdd
    rw [hsame hodd] at hload
    exact ⟨records, hload⟩
  · obtain ⟨code, records, hload, -, hsame, -⟩ := load_contents.2 tree "raw" _ hreadRaw
    rw [hsame hraw] at hload
    exact ⟨records, hload⟩

end EvmDisasm.Code
