import EvmDisasm.Proofs.Code.Spelling

/-!
# Hexadecimal texts as code

Two functions look at a text of digits: `parse` reads it and `looksLikeHex` only recognises it. They
cut off the same ends and pass over the same blank characters, so they can disagree in two places
only: a text without a digit is read but not recognised, and digits that do not pair up are
recognised but not read.

* **`looksLikeHex_of_parse`** — of the texts that are read, those are recognised whose code is not
  empty.
* **`parse_of_all`** — what comes of reading nothing but digits and blank characters.
* **`looksLikeHex_iff`** — what is recognised, in terms of what reading gives.
-/

namespace EvmDisasm.Code

variable {text : String} {code : Bytes}

/-! ## What is read

What is between the digits does not matter to the reader, so its side is stated on the body of the
text: whether there is one, and what its characters are. -/

/-- Dropping blank characters never empties a body, because the last character of it is not
blank. -/
theorem digits_eq_nil_iff : digits text = [] ↔ Hex.body text = [] := by
  constructor
  · intro h
    apply Decidable.of_not_not
    intro hbody
    -- the last character of the body is one that the digits keep
    have hlast := List.filter_eq_nil_iff.mp h _ (List.getLast_mem hbody)
    rw [Hex.getLast_body text hbody] at hlast
    exact hlast rfl
  · intro h
    rw [digits, h, List.filter_nil]

/-- The code is empty just when there is nothing after the mark. -/
theorem eq_nil_iff_of_parse (h : parse text = .ok code) : code = [] ↔ Hex.body text = [] := by
  have hlength := Hex.length_of_map_toLower (parse_eq_ok_iff.mp h)
  rw [← digits_eq_nil_iff, ← List.length_eq_zero_iff, ← List.length_eq_zero_iff, hlength]
  omega

/-- A text that is read holds nothing but digits and blank characters behind its mark. -/
theorem isDigitChar_or_isBlank_of_parse (h : parse text = .ok code) :
    ∀ c ∈ Hex.body text, Hex.isDigitChar c = true ∨ Text.isBlank c = true := by
  have hall := Hex.all_isDigitChar_of_map_toLower (parse_eq_ok_iff.mp h)
  intro c hc
  -- a character that is not blank is among those that are read
  cases hblank : Text.isBlank c with
  | true => exact .inr rfl
  | false =>
    have hmem : c ∈ digits text := List.mem_filter.mpr ⟨hc, by rw [hblank]; rfl⟩
    exact .inl (List.all_eq_true.mp hall c hmem)

/-! ## What is recognised

The recogniser asks for the same characters in the same body, and in addition for there to be
one. -/

/-- The recogniser as a proposition on the body. -/
theorem looksLikeHex_eq_true_iff :
    looksLikeHex text = true ↔ Hex.body text ≠ [] ∧
      ∀ c ∈ Hex.body text, Hex.isDigitChar c = true ∨ Text.isBlank c = true := by
  unfold looksLikeHex
  simp only [Bool.and_eq_true, Bool.not_eq_true', List.isEmpty_eq_false_iff, List.all_eq_true,
    Bool.or_eq_true]

/-- **Where reading succeeds, recognising is about emptiness alone.** The two look at the same
characters of the body, so nothing else can tell them apart. -/
theorem looksLikeHex_of_parse (h : parse text = .ok code) :
    looksLikeHex text = true ↔ code ≠ [] := by
  rw [looksLikeHex_eq_true_iff, Ne, Ne, eq_nil_iff_of_parse h]
  exact and_iff_left (isDigitChar_or_isBlank_of_parse h)

/-- What is left of digits and blank characters without the blank ones are the digits. -/
theorem all_isDigitChar_digits
    (h : ∀ c ∈ Hex.body text, Hex.isDigitChar c = true ∨ Text.isBlank c = true) :
    (digits text).all Hex.isDigitChar = true := by
  rw [List.all_eq_true]
  intro c hc
  obtain ⟨hmem, hblank⟩ := List.mem_filter.mp hc
  rcases h c hmem with hdigit | hblank'
  · exact hdigit
  · rw [hblank'] at hblank
    cases hblank

/-- Reading digits and blank characters fails only if the digits do not pair up. -/
theorem parse_of_all (h : ∀ c ∈ Hex.body text, Hex.isDigitChar c = true ∨ Text.isBlank c = true) :
    (digits text).length % 2 = 0 ∧ (∃ code, parse text = .ok code) ∨
    (digits text).length % 2 = 1 ∧ parse text = .error (.oddDigits (digits text).length) := by
  have hall := all_isDigitChar_digits h
  have hlength := Hex.length_utf8_of_all hall
  by_cases hodd : (digits text).length % 2 = 1
  · exact .inr ⟨hodd, parse_eq_error_iff.mpr (.inl ⟨by rw [hlength, hodd], by rw [hlength]⟩)⟩
  · refine .inl ⟨by omega, ?_⟩
    cases hparse : parse text with
    | ok code => exact ⟨code, rfl⟩
    | error e =>
      rcases parse_eq_error_iff.mp hparse with ⟨hodd', -⟩ | ⟨-, byte, index, hfirst, -⟩
      · omega
      · exact absurd ((Hex.all_isDigit_utf8 _).trans hall) hfirst.not_all

/-- **What is recognised, in terms of what is read**: either the text is read as code that is not
empty, or nothing but the number of its digits is wrong. -/
theorem looksLikeHex_iff :
    looksLikeHex text = true ↔
      (∃ code, parse text = .ok code ∧ code ≠ []) ∨
      (∃ count, parse text = .error (.oddDigits count)) ∧
        ∀ c ∈ Hex.body text, Hex.isDigitChar c = true ∨ Text.isBlank c = true := by
  constructor
  · intro hlooks
    have hall := (looksLikeHex_eq_true_iff.mp hlooks).2
    rcases parse_of_all hall with ⟨-, code, hparse⟩ | ⟨-, hparse⟩
    · exact .inl ⟨code, hparse, (looksLikeHex_of_parse hparse).mp hlooks⟩
    · exact .inr ⟨⟨_, hparse⟩, hall⟩
  · rintro (⟨code, hparse, hcode⟩ | ⟨⟨count, hparse⟩, hall⟩)
    · exact (looksLikeHex_of_parse hparse).mpr hcode
    · refine looksLikeHex_eq_true_iff.mpr ⟨fun hbody => ?_, hall⟩
      -- an odd number of digits is not zero
      have hdigits := digits_eq_nil_iff.mpr hbody
      rcases parse_eq_error_iff.mp hparse with ⟨hodd, -⟩ | ⟨-, byte, index, -, he⟩
      · rw [hdigits] at hodd
        cases hodd
      · cases he

end EvmDisasm.Code
