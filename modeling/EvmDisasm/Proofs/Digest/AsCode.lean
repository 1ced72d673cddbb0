import EvmDisasm.Proofs.Code.Spelling
import EvmDisasm.Proofs.Digest.Spelling

/-!
# Digests and code from the same text

Two readers take the body of a text for hexadecimal digits, the one of digests and the one of code.
The second passes over blank characters between the digits and takes any number of them, and that is
all that they differ in, once there is a body.

* **`digits_eq_body`** — without blank characters both work on the same digits.
* **`parse_eq_ok_iff_code`** — reading a digest is reading its 32 bytes as code, from a body without
  blank characters.
* **`parse_agrees`** — what that means for the texts that one of the readers refuses.
-/

namespace EvmDisasm.Digest

variable {text : String} {digest : Digest}

/-- Without blank characters in it, the body is what the reader of code works on. -/
theorem digits_eq_body (h : ∀ c ∈ Hex.body text, Text.isBlank c = false) :
    Code.digits text = Hex.body text := by
  rw [Code.digits, List.filter_eq_self]
  intro c hc
  rw [h c hc]
  rfl

/-- **Reading a digest is reading its bytes as code**, from a body in which there are no blank
characters. The one difference is the empty body, which is code of no bytes but a digest of
zeros. -/
theorem parse_eq_ok_iff_code (hbody : Hex.body text ≠ []) :
    parse text = .ok digest ↔
      Code.parse text = .ok digest.bytes ∧ ∀ c ∈ Hex.body text, Text.isBlank c = false := by
  rw [parse_eq_ok_iff, Code.parse_eq_ok_iff]
  constructor
  · rintro (⟨hnil, -⟩ | hlower)
    · exact absurd hnil hbody
    · -- digits are not blank, so a body of digits is the same to both readers
      have hblank := Hex.isBlank_of_mem_of_all (Hex.all_isDigitChar_of_map_toLower hlower)
      exact ⟨by rw [digits_eq_body hblank, hlower], hblank⟩
  · rintro ⟨hlower, hblank⟩
    rw [digits_eq_body hblank] at hlower
    exact .inr hlower

/-- **Where there is a body, the readers of digests and of code agree.** A text is read as a digest
just when it is read as the bytes of the digest and there is no blank character in its body. So a
body with blank characters is refused as a digest even if it is read as 32 bytes, and a body without
them that is refused as a digest is either refused as code or read as another number of bytes. -/
theorem parse_agrees (text : String) (hbody : Hex.body text ≠ []) :
    (∀ digest, parse text = .ok digest ↔
      Code.parse text = .ok digest.bytes ∧ ∀ c ∈ Hex.body text, Text.isBlank c = false) ∧
    ((∃ c ∈ Hex.body text, Text.isBlank c = true) → ∃ e, parse text = .error e) ∧
    (∀ e, parse text = .error e → (∀ c ∈ Hex.body text, Text.isBlank c = false) →
      (∃ e', Code.parse text = .error e') ∨
      ∃ code, Code.parse text = .ok code ∧ code.length ≠ 32) := by
  refine ⟨fun digest => parse_eq_ok_iff_code hbody, ?_, ?_⟩
  · rintro ⟨c, hc, hblank⟩
    cases hparse : parse text with
    | error e => exact ⟨e, rfl⟩
    | ok digest =>
      have hnone := ((parse_eq_ok_iff_code hbody).mp hparse).2 c hc
      rw [hblank] at hnone
      cases hnone
  · intro e herror hblank
    cases hcode : Code.parse text with
    | error e' => exact .inl ⟨e', rfl⟩
    | ok code =>
      refine .inr ⟨code, rfl, fun hlength => ?_⟩
      -- 32 bytes without a blank character would be a digest
      have hdigest : parse text = .ok ⟨code, hlength⟩ :=
        (parse_eq_ok_iff_code hbody).mpr ⟨hcode, hblank⟩
      rw [herror] at hdigest
      cases hdigest

/-- Digits in mixed case behind a mark, the same with a blank character among them, and one byte
too few. -/
theorem parse_agrees_mixed :
    let digest : Digest := ⟨List.replicate 32 0xab, rfl⟩
    let digits := (List.replicate 31 ['A', 'b']).flatten
    let whole := String.ofList (['0', 'X'] ++ digits ++ ['a', 'B'])
    let spaced := String.ofList (['0', 'X'] ++ digits ++ ['a', ' ', 'B'])
    let short := String.ofList (['0', 'X'] ++ digits)
    (Hex.body whole ≠ [] ∧ parse whole = .ok digest) ∧
    (Hex.body spaced ≠ [] ∧ Code.parse spaced = .ok digest.bytes ∧
      ' ' ∈ Hex.body spaced ∧ ∃ e, parse spaced = .error e) ∧
    (Hex.body short ≠ [] ∧ parse short = .error (.wrongLength 62) ∧
      (∀ c ∈ Hex.body short, Text.isBlank c = false) ∧
      ((∃ e', Code.parse short = .error e') ∨
        ∃ code, Code.parse short = .ok code ∧ code.length ≠ 32)) := by
  intro digest digits whole spaced short
  have hbody : ∀ chars, Hex.body (String.ofList chars) = Hex.dropMark (Text.trim chars) :=
    fun chars => by rw [Hex.body, String.toList_ofList]
  -- the bodies are taken out once, because everything else is said of them
  have hbodyWhole : Hex.body whole = digits ++ ['a', 'B'] := by
    rw [hbody]
    decide +kernel
  have hbodySpaced : Hex.body spaced = digits ++ ['a', ' ', 'B'] := by
    rw [hbody]
    decide +kernel
  have hbodyShort : Hex.body short = digits := by
    rw [hbody]
    decide +kernel
  have hwhole : Hex.body whole ≠ [] := by rw [hbodyWhole]; decide +kernel
  have hspaced : Hex.body spaced ≠ [] := by rw [hbodySpaced]; decide +kernel
  have hshort : Hex.body short ≠ [] := by rw [hbodyShort]; decide +kernel
  have hcodeWhole : Code.parse whole = .ok digest.bytes := by
    rw [Code.parse_eq_ok_iff, Code.digits, hbodyWhole]
    decide +kernel
  have hcodeSpaced : Code.parse spaced = .ok digest.bytes := by
    rw [Code.parse_eq_ok_iff, Code.digits, hbodySpaced]
    decide +kernel
  have hblankWhole : ∀ c ∈ Hex.body whole, Text.isBlank c = false := by
    rw [hbodyWhole]
    exact Hex.isBlank_of_mem_of_all (by decide +kernel)
  have hblankShort : ∀ c ∈ Hex.body short, Text.isBlank c = false := by
    rw [hbodyShort]
    exact Hex.isBlank_of_mem_of_all (by decide +kernel)
  have hmem : ' ' ∈ Hex.body spaced := by
    rw [hbodySpaced]
    decide +kernel
  -- 31 bytes make two digits too few
  have hrefused : parse short = .error (.wrongLength 62) := by
    have hlength : (Text.utf8 (Hex.body short)).length = 62 := by
      rw [hbodyShort]
      decide +kernel
    rw [parse_of_length_ne hshort (by omega), hlength]
  exact ⟨⟨hwhole, ((parse_agrees whole hwhole).1 digest).mpr ⟨hcodeWhole, hblankWhole⟩⟩,
    ⟨hspaced, hcodeSpaced, hmem, (parse_agrees spaced hspaced).2.1 ⟨' ', hmem, rfl⟩⟩,
    hshort, hrefused, hblankShort, (parse_agrees short hshort).2.2 _ hrefused hblankShort⟩

end EvmDisasm.Digest
