import EvmDisasm.Code.HexText
import EvmDisasm.Proofs.Hex.Spelling

/-!
# Spellings of code

Code as text is digits in either case, with blank characters wherever one likes and one mark in
front at most. This is a grammar, and the reader accepts it and nothing else.

* **`parse_eq_ok_iff`** — what is read, in terms of the digits in the text.
* **`parse_eq_error_iff`** — what is refused, and why: an odd number of bytes comes before a byte
  that is no digit.
* **`parse_eq_ok_iff_framed`** — every spelling of some code is read as that code, and nothing else
  is.
* **`parse_spelling`** — all of it together.
-/

namespace EvmDisasm.Code

variable {text : String} {code : Bytes}

/-- What is read as some code: in lower case, the digits are those that the code is written with.
Everything else that the reader asks for follows from that, the even number among it. -/
theorem parse_eq_ok_iff :
    parse text = .ok code ↔ (digits text).map Char.toLower = Hex.encode code := by
  unfold parse
  dsimp only
  by_cases hodd : (Text.utf8 (digits text)).length % 2 ≠ 0
  · rw [if_pos hodd]
    refine iff_of_false (fun h => by cases h) fun hlower => hodd ?_
    rw [Hex.length_utf8_of_all (Hex.all_isDigitChar_of_map_toLower hlower),
      Hex.length_of_map_toLower hlower]
    omega
  · rw [if_neg hodd, ← Hex.decode_utf8_eq_ok_iff]
    cases Hex.decode (Text.utf8 (digits text)) with
    | error cause => exact iff_of_false (fun h => by cases h) (fun h => by cases h)
    | ok read =>
      dsimp only
      rw [Except.ok.injEq, Except.ok.injEq]

/-- What is refused, and why. The number of bytes is looked at before any of them, so an odd number
hides a byte that is no digit. -/
theorem parse_eq_error_iff {e : TextError} :
    parse text = .error e ↔
      (Text.utf8 (digits text)).length % 2 = 1 ∧
        e = .oddDigits (Text.utf8 (digits text)).length ∨
      (Text.utf8 (digits text)).length % 2 = 0 ∧
        ∃ byte index, Hex.FirstInvalid (Text.utf8 (digits text)) byte index ∧
          e = .invalid (.invalidDigit byte index) := by
  unfold parse
  dsimp only
  by_cases hodd : (Text.utf8 (digits text)).length % 2 ≠ 0
  · rw [if_pos hodd, Except.error.injEq]
    constructor
    · rintro rfl
      exact .inl ⟨by omega, rfl⟩
    · rintro (⟨-, rfl⟩ | ⟨heven, -⟩)
      · rfl
      · exact absurd heven hodd
  · -- the bytes pair up, so only the digits themselves can be wrong
    have heven : (Text.utf8 (digits text)).length % 2 = 0 := Decidable.of_not_not hodd
    rw [if_neg hodd]
    constructor
    · intro h
      split at h
      · cases h
      · rename_i cause hdecode
        obtain ⟨byte, index, hfirst, rfl⟩ := (Hex.decode_eq_error_iff heven).mp hdecode
        cases h
        exact .inr ⟨heven, byte, index, hfirst, rfl⟩
    · rintro (⟨hlength, -⟩ | ⟨-, byte, index, hfirst, rfl⟩)
      · omega
      · rw [(Hex.decode_eq_error_iff heven).mpr ⟨byte, index, hfirst, rfl⟩]

/-- What stands in a frame with blank characters between the digits is left with the digits
alone. -/
theorem map_toLower_digits_of_framed {written : List Char}
    (hframed : Hex.Framed written text.toList) (hspaced : Hex.Spaced (Hex.encode code) written) :
    (digits text).map Char.toLower = Hex.encode code := by
  have hcode := Hex.all_isDigitChar_encode code
  have hdigits : written.filter (!Text.isBlank ·) = digits text :=
    hframed.filter_eq (hspaced.isDigitChar_or_isBlank hcode)
  rw [← hdigits, hspaced.map_toLower_filter hcode]

/-- The texts that are read as a piece of code are the spellings of it. -/
theorem parse_eq_ok_iff_framed :
    parse text = .ok code ↔
      ∃ written, Hex.Framed written text.toList ∧ Hex.Spaced (Hex.encode code) written := by
  rw [parse_eq_ok_iff]
  constructor
  · intro hlower
    have hspaced := Hex.spaced_filter (Hex.body text)
    refine ⟨Hex.body text, Hex.framed_body text, ?_⟩
    rw [← hlower]
    exact hspaced
  · rintro ⟨written, hframed, hspaced⟩
    exact map_toLower_digits_of_framed hframed hspaced

/-- **The reader accepts the spellings of code and nothing else.** A text is read as some code just
when the digits in it are those of the code in either case, which is when the text is a frame around
spaced digits of the code. Otherwise the bytes of what is not blank decide: if their number is odd
they are counted, and else the first one that is no digit is named. -/
theorem parse_spelling (text : String) :
    let bytes := Text.utf8 (digits text)
    (∀ code, parse text = .ok code ↔
      (digits text).all Hex.isDigitChar = true ∧ (digits text).length % 2 = 0 ∧
        (digits text).map Char.toLower = Hex.encode code) ∧
    (∀ e, parse text = .error e ↔
      bytes.length % 2 = 1 ∧ e = .oddDigits bytes.length ∧
        e.message = "hex code has an odd number of digits (" ++ toString bytes.length ++ ")" ∨
      bytes.length % 2 = 0 ∧ ∃ byte index, Hex.FirstInvalid bytes byte index ∧
        e = .invalid (.invalidDigit byte index)) ∧
    parse text ≠ .error (.invalid .oddLength) ∧
    (∀ code, parse text = .ok code ↔
      ∃ written, Hex.Framed written text.toList ∧ Hex.Spaced (Hex.encode code) written) := by
  intro bytes
  refine ⟨fun code => ?_, fun e => ?_, fun h => ?_, fun code => parse_eq_ok_iff_framed⟩
  · rw [parse_eq_ok_iff]
    constructor
    · intro hlower
      have hlength := Hex.length_of_map_toLower hlower
      exact ⟨Hex.all_isDigitChar_of_map_toLower hlower, by omega, hlower⟩
    · exact fun h => h.2.2
  · -- the wording follows from the error, so it is only carried along
    rw [parse_eq_error_iff]
    constructor
    · rintro (⟨hodd, rfl⟩ | hinvalid)
      · exact .inl ⟨hodd, rfl, rfl⟩
      · exact .inr hinvalid
    · rintro (⟨hodd, rfl, -⟩ | hinvalid)
      · exact .inl ⟨hodd, rfl⟩
      · exact .inr hinvalid
  · rcases parse_eq_error_iff.mp h with ⟨-, h⟩ | ⟨-, byte, index, -, h⟩
    · cases h
    · cases h

/-- Digits of both cases behind a mark, with blank characters around and between them; a second
mark, which is complained about at its second byte; and a letter of two bytes, which makes their
number odd. -/
theorem parse_spelling_mixed :
    parse "\t0X6 0fE\n" = .ok [0x60, 0xfe] ∧
    parse "0x0x" = .error (.invalid (.invalidDigit 0x78 1)) ∧
    parse "é6" = .error (.oddDigits 3) := by
  refine ⟨?_, ?_, ?_⟩
  · refine ((parse_spelling "\t0X6 0fE\n").2.2.2 [0x60, 0xfe]).mpr ⟨['6', ' ', '0', 'f', 'E'], ?_, ?_⟩
    · exact ⟨['\t'], ['0', 'X'], ['\n'], List.forall_mem_singleton.mpr rfl, .upper,
        List.forall_mem_singleton.mpr rfl, by with_unfolding_all rfl⟩
    · exact .digit '6' (.blank rfl (.digit '0' (.digit 'f' (.digit 'E' .nil))))
  · refine ((parse_spelling "0x0x").2.1 _).mpr
      (.inr ⟨by with_unfolding_all rfl, 0x78, 1, ⟨?_, rfl, ?_⟩, rfl⟩)
    · with_unfolding_all rfl
    · intro i hi b hb
      obtain rfl : i = 0 := by omega
      with_unfolding_all cases hb
      rfl
  · -- two bytes and one
    refine ((parse_spelling "é6").2.1 _).mpr (.inl ⟨by with_unfolding_all rfl, ?_, ?_⟩)
    · with_unfolding_all rfl
    · with_unfolding_all rfl

end EvmDisasm.Code
