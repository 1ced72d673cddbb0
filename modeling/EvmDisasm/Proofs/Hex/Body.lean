import EvmDisasm.Hex
import EvmDisasm.Proofs.Text.Trim

/-!
# The body of a text and the digits in it

Readers of hexadecimal texts cut off what stands around the digits and then work on bytes, where
other functions look at characters. The two facts that tie these together are here.

* **`getLast_body`** — whatever is cut off, the last character of a body is not blank. So a body
  with something in it has more in it than blank characters.
* **`all_isDigit_utf8`** — a row of characters has only digits in it just when its bytes are digits:
  the bytes of a character beyond ASCII are none.
* **`decode_eq_ok_iff`** — what the reader of digits accepts and gives.
-/

namespace EvmDisasm

/-! ## The body of a text

The blank characters are cut off first and the mark after them. The mark stands in front, so the end
of the body is where the trimmed text ends. -/

namespace Text

theorem utf8_eq_nil_iff {chars : List Char} : utf8 chars = [] ↔ chars = [] := by
  cases chars with
  | nil => exact iff_of_true rfl rfl
  | cons c rest =>
    refine iff_of_false (fun h => ?_) (List.cons_ne_nil c rest)
    exact String.utf8EncodeChar_ne_nil (List.flatMap_eq_nil_iff.mp h c List.mem_cons_self)

end Text

namespace Hex

theorem dropMark_suffix (text : List Char) : dropMark text <:+ text := by
  unfold dropMark
  split
  · exact ⟨['0', 'x'], rfl⟩
  · exact ⟨['0', 'X'], rfl⟩
  · exact List.suffix_refl text

/-- **The last character of a body is not blank.** The first one can be, behind a mark. -/
theorem getLast_body (text : String) (h : body text ≠ []) :
    Text.isBlank ((body text).getLast h) = false := by
  have hsuffix : body text <:+ Text.trim text.toList := dropMark_suffix _
  rw [hsuffix.getLast h]
  exact (Text.trimmed_trim text.toList).getLast? _ (List.getLast?_eq_some_getLast _)

/-! ## Digits as characters and as bytes

A digit is an ASCII character, of which the byte is the number. A character beyond ASCII has a first
byte beyond all digits, so it is told from a digit by that one. -/

/-- Among the ASCII characters the two notions agree. -/
theorem isDigit_ofNat (n : Nat) (h : n < 128) :
    isDigit (UInt8.ofNat n) = isDigitChar (Char.ofNat n) := by
  have key : ∀ n : Fin 128, isDigit (UInt8.ofNat n) = isDigitChar (Char.ofNat n) := by
    decide +kernel
  exact key ⟨n, h⟩

/-- Behind the last letter there are no digits among the bytes. -/
theorem isDigit_of_le {b : UInt8} (h : 103 ≤ b.toNat) : isDigit b = false := by
  unfold isDigit digitValue?
  rw [if_neg (by omega), if_neg (by omega), if_neg (by omega)]
  rfl

theorem isDigitChar_of_le {c : Char} (h : 103 ≤ c.toNat) : isDigitChar c = false := by
  unfold isDigitChar
  simp only [Bool.or_eq_false_iff, Bool.and_eq_false_iff, decide_eq_false_iff_not]
  omega

theorem utf8EncodeChar_of_lt {c : Char} (h : c.toNat < 128) :
    String.utf8EncodeChar c = [UInt8.ofNat c.toNat] := by
  have hval : c.val.toNat ≤ 127 := Nat.le_of_lt_succ h
  unfold String.utf8EncodeChar
  dsimp only
  rw [if_pos hval]
  rfl

/-- The first byte of a character beyond ASCII is none of an ASCII character. -/
theorem exists_utf8EncodeChar_eq_cons {c : Char} (h : 128 ≤ c.toNat) :
    ∃ b rest, String.utf8EncodeChar c = b :: rest ∧ 192 ≤ b.toNat := by
  have hval : ¬ c.val.toNat ≤ 127 := Nat.not_le_of_lt h
  unfold String.utf8EncodeChar
  dsimp only
  rw [if_neg hval]
  -- with two, three and four bytes the first has its two upper bits set
  split
  · refine ⟨_, _, rfl, ?_⟩
    rw [UInt8.toNat_ofNat']
    omega
  · split
    · refine ⟨_, _, rfl, ?_⟩
      rw [UInt8.toNat_ofNat']
      omega
    · refine ⟨_, _, rfl, ?_⟩
      rw [UInt8.toNat_ofNat']
      omega

/-- The bytes of a character are digits just when it is one. -/
theorem all_isDigit_utf8EncodeChar (c : Char) :
    (String.utf8EncodeChar c).all isDigit = isDigitChar c := by
  -- a character beyond ASCII is no digit, and neither is the first of its bytes
  by_cases hascii : c.toNat < 128
  · rw [utf8EncodeChar_of_lt hascii, List.all_cons, List.all_nil, Bool.and_true, isDigit_ofNat _ hascii,
      Char.ofNat_toNat]
  · obtain ⟨b, rest, hbytes, hb⟩ := exists_utf8EncodeChar_eq_cons (Nat.le_of_not_lt hascii)
    rw [hbytes, List.all_cons, isDigit_of_le (by omega), isDigitChar_of_le (by omega),
      Bool.false_and]

/-- **The bytes of a row of characters are digits just when the characters are.** -/
theorem all_isDigit_utf8 (chars : List Char) :
    (Text.utf8 chars).all isDigit = chars.all isDigitChar := by
  rw [Text.utf8, List.all_flatMap]
  simp only [all_isDigit_utf8EncodeChar]

/-! ## The reader of digits

The reader asks two questions, in this order: whether the digits pair up, and whether there is a
byte that is none. -/

/-- **What the reader accepts** are pairs of digits, and it gives what they stand for. -/
theorem decode_eq_ok_iff {digits code : Bytes} :
    decode digits = .ok code ↔
      digits.length % 2 = 0 ∧ digits.all isDigit = true ∧ packOnto [] digits = code := by
  unfold decode
  by_cases hodd : digits.length % 2 = 1
  · rw [if_pos hodd]
    exact iff_of_false (fun h => by cases h) (fun h => by omega)
  · rw [if_neg hodd]
    -- whether a byte is found that is no digit is whether not all are digits
    cases hfind : digits.find? (!isDigit ·) with
    | some byte =>
      have hbyte := List.find?_some hfind
      have hmem := List.mem_of_find?_eq_some hfind
      refine iff_of_false (fun h => by cases h) (fun h => ?_)
      rw [List.all_eq_true.mp h.2.1 byte hmem] at hbyte
      cases hbyte
    | none =>
      have hall : digits.all isDigit = true := by
        rw [List.all_eq_true]
        intro byte hmem
        simpa using List.find?_eq_none.mp hfind byte hmem
      rw [Except.ok.injEq]
      exact ⟨fun h => ⟨by omega, hall, h⟩, fun h => h.2.2⟩

end Hex

end EvmDisasm
