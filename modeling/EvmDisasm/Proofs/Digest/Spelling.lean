import EvmDisasm.Datum.Reading
import EvmDisasm.Proofs.Hex.Spelling

/-!
# Spellings of digests

A digest is printed as 64 digits, bare, marked or as a datum. Its reader takes what is printed in
any case and with blank characters around it, the empty text for the digest of zeros, and nothing
else.

* **`parse_eq_ok_iff`** and **`parse_eq_error_iff`** — what is read and what is refused, in terms of
  the body of the text. Its length is counted in bytes and looked at before its digits.
* **`parse_eq_ok_iff_framed`** — the same as a grammar.
* **`parse_printed`** — all of it together, and that no two digests are printed alike.
-/

namespace EvmDisasm.Digest

variable {text : String} {digest : Digest}

/-! ## Reading

The reader goes by the body of the text. It looks at the length in bytes first: none at all stands
for zeros, any length but 64 is refused, and only then are the digits read. The three cases come
first, as lemmas on `parse`. -/

theorem toList_hex (digest : Digest) : digest.hex.toList = Hex.encode digest.bytes :=
  String.toList_ofList

/-- Whatever has the digits of a digest in some case has 64 characters and as many bytes. -/
theorem length_of_map_toLower {chars : List Char}
    (h : chars.map Char.toLower = Hex.encode digest.bytes) :
    chars.length = 64 ∧ (Text.utf8 chars).length = 64 := by
  have hlength := Hex.length_of_map_toLower h
  rw [digest.length_bytes] at hlength
  rw [Hex.length_utf8_of_all (Hex.all_isDigitChar_of_map_toLower h)]
  exact ⟨hlength, hlength⟩

/-- Nothing stands for the digest of zeros. -/
theorem parse_of_nil (h : Hex.body text = []) : parse text = .ok zero := by
  unfold parse
  rw [h]
  rfl

/-- A body of the wrong length is refused with its length, whatever is in it. -/
theorem parse_of_length_ne (hne : Hex.body text ≠ []) (h : (Text.utf8 (Hex.body text)).length ≠ 64) :
    parse text = .error (.wrongLength (Text.utf8 (Hex.body text)).length) := by
  have hempty : ¬ (Text.utf8 (Hex.body text)).isEmpty = true := fun hempty =>
    hne (Text.utf8_eq_nil_iff.mp (List.isEmpty_iff.mp hempty))
  unfold parse
  dsimp only
  rw [if_neg hempty, if_pos h]

/-- A body of the right length is as good as its digits. -/
theorem parse_of_length_eq (h : (Text.utf8 (Hex.body text)).length = 64) :
    (∃ bytes, Hex.decode (Text.utf8 (Hex.body text)) = .ok bytes ∧
      parse text = .ok (ofSlice bytes)) ∨
    ∃ cause, Hex.decode (Text.utf8 (Hex.body text)) = .error cause ∧
      parse text = .error (.invalidDigits (Hex.body text) cause) := by
  have hempty : ¬ (Text.utf8 (Hex.body text)).isEmpty = true := fun hempty => by
    rw [List.isEmpty_iff.mp hempty] at h
    cases h
  have hsize : (Text.utf8 (Hex.body text)).length = 2 * 32 := h
  unfold parse
  dsimp only
  rw [if_neg hempty, if_neg (fun hne => hne h), Hex.decodeExactly_of_length hsize]
  cases Hex.decode (Text.utf8 (Hex.body text)) with
  | ok bytes => exact .inl ⟨bytes, rfl, rfl⟩
  | error cause => exact .inr ⟨cause, rfl, rfl⟩

/-- What is read as some digest: nothing if the digest is zero, or the digits of it in any case. -/
theorem parse_eq_ok_iff :
    parse text = .ok digest ↔
      Hex.body text = [] ∧ digest = zero ∨
      (Hex.body text).map Char.toLower = Hex.encode digest.bytes := by
  by_cases hnil : Hex.body text = []
  · rw [parse_of_nil hnil, hnil]
    constructor
    · intro h
      cases h
      exact .inl ⟨rfl, rfl⟩
    · rintro (⟨-, rfl⟩ | h)
      · rfl
      · cases (length_of_map_toLower h).1
  by_cases hlength : (Text.utf8 (Hex.body text)).length = 64
  · rw [← Hex.decode_utf8_eq_ok_iff]
    rcases parse_of_length_eq hlength with ⟨bytes, hdecode, hparse⟩ | ⟨cause, hdecode, hparse⟩
    · have hlower := Hex.decode_utf8_eq_ok_iff.mp hdecode
      have hbytes : bytes.length = 32 := by
        have hbody := Hex.length_of_map_toLower hlower
        rw [Hex.length_utf8_of_all (Hex.all_isDigitChar_of_map_toLower hlower)] at hlength
        omega
      -- all 32 bytes are taken over
      have hslice : ofSlice bytes = ⟨bytes, hbytes⟩ := ofSlice_bytes ⟨bytes, hbytes⟩
      rw [hparse, hdecode, hslice, Except.ok.injEq, Except.ok.injEq]
      constructor
      · rintro rfl
        exact .inr rfl
      · rintro (⟨h, -⟩ | rfl)
        · exact absurd h hnil
        · rfl
    · rw [hparse, hdecode]
      refine iff_of_false (fun h => by cases h) ?_
      rintro (⟨h, -⟩ | h)
      · exact hnil h
      · cases h
  · rw [parse_of_length_ne hnil hlength]
    refine iff_of_false (fun h => by cases h) ?_
    rintro (⟨h, -⟩ | h)
    · exact hnil h
    · exact hlength (length_of_map_toLower h).2

/-- What is refused, and why. The length comes before the digits, and of these the first that is
none is named. -/
theorem parse_eq_error_iff {e : Error} :
    parse text = .error e ↔
      (Text.utf8 (Hex.body text)).length ≠ 0 ∧ (Text.utf8 (Hex.body text)).length ≠ 64 ∧
        e = .wrongLength (Text.utf8 (Hex.body text)).length ∨
      (Text.utf8 (Hex.body text)).length = 64 ∧
        ∃ byte index, Hex.FirstInvalid (Text.utf8 (Hex.body text)) byte index ∧
          e = .invalidDigits (Hex.body text) (.invalidDigit byte index) := by
  by_cases hnil : Hex.body text = []
  · rw [parse_of_nil hnil, hnil]
    refine iff_of_false (fun h => by cases h) ?_
    rintro (⟨h, -⟩ | ⟨h, -⟩)
    · exact h rfl
    · cases h
  by_cases hlength : (Text.utf8 (Hex.body text)).length = 64
  · have heven : (Text.utf8 (Hex.body text)).length % 2 = 0 := by omega
    rcases parse_of_length_eq hlength with ⟨bytes, hdecode, hparse⟩ | ⟨cause, hdecode, hparse⟩
    · rw [hparse]
      refine iff_of_false (fun h => by cases h) ?_
      rintro (⟨-, h, -⟩ | ⟨-, byte, index, hfirst, -⟩)
      · exact h hlength
      · have herror := (Hex.decode_eq_error_iff heven).mpr ⟨byte, index, hfirst, rfl⟩
        rw [hdecode] at herror
        cases herror
    · obtain ⟨byte, index, hfirst, rfl⟩ := (Hex.decode_eq_error_iff heven).mp hdecode
      rw [hparse, Except.error.injEq]
      constructor
      · rintro rfl
        exact .inr ⟨hlength, byte, index, hfirst, rfl⟩
      · rintro (⟨-, h, -⟩ | ⟨-, byte', index', hfirst', rfl⟩)
        · exact absurd hlength h
        · obtain ⟨rfl, rfl⟩ := hfirst.unique hfirst'
          rfl
  · -- the length is wrong, and nothing else is looked at
    rw [parse_of_length_ne hnil hlength, Except.error.injEq]
    constructor
    · rintro rfl
      refine .inl ⟨fun h => hnil ?_, hlength, rfl⟩
      exact Text.utf8_eq_nil_iff.mp (List.length_eq_zero_iff.mp h)
    · rintro (⟨-, -, rfl⟩ | ⟨h, -⟩)
      · rfl
      · exact absurd h hlength

/-! ## The grammar

The same said of the whole text, by the frame that its body stands in. -/

/-- A text is read as a digest if it is a frame around the digits of the digest, or around nothing
where the digest is zero. -/
theorem parse_eq_ok_iff_framed :
    parse text = .ok digest ↔
      ∃ written, Hex.Framed written text.toList ∧
        (written = [] ∧ digest = zero ∨ written.map Char.toLower = digest.hex.toList) := by
  rw [parse_eq_ok_iff, toList_hex]
  constructor
  · exact fun h => ⟨Hex.body text, Hex.framed_body text, h⟩
  · rintro ⟨written, hframed, hwritten⟩
    -- the body of a frame is what it is put around, if that is made of digits
    have hall : written.all Hex.isDigitChar = true := by
      rcases hwritten with ⟨rfl, -⟩ | hlower
      · rfl
      · exact Hex.all_isDigitChar_of_map_toLower hlower
    rw [← hframed.eq_body hall]
    exact hwritten

/-! ## Printed forms

A digest is printed with and without a mark, as a text and as a datum. All of these forms are read
as that digest, so none of them is shared by two digests. -/

/-- The ways to print a digest. -/
inductive Prints (digest : Digest) : List Char → Prop where
  | hex : Prints digest digest.hex.toList
  | text : Prints digest digest.text.toList
  | datum {value : String} (h : Datum.ofDigest digest = .text value) : Prints digest value.toList

/-- Printed forms differ in their marks only. -/
theorem Prints.exists_mark {form : List Char} (h : Prints digest form) :
    (form = Hex.encode digest.bytes) ∨ form = ['0', 'x'] ++ Hex.encode digest.bytes := by
  cases h with
  | hex => exact .inl (toList_hex digest)
  | text => exact .inr (Hex.toList_marked digest.bytes)
  | datum h =>
    cases h
    exact .inr (Hex.toList_marked digest.bytes)

/-- A printed form in any case is a mark and digits of any case. -/
theorem Prints.exists_split {form written : List Char} (h : Prints digest form)
    (hlower : written.map Char.toLower = form) :
    ∃ mark digits, Hex.Mark mark ∧ written = mark ++ digits ∧
      digits.map Char.toLower = Hex.encode digest.bytes := by
  rcases h.exists_mark with hform | hform
  · exact ⟨[], written, .none, rfl, hlower.trans hform⟩
  · obtain ⟨mark, digits, rfl, hmark, hdigits⟩ := List.map_eq_append_iff.mp (hlower.trans hform)
    exact ⟨mark, digits, Hex.mark_of_map_toLower hmark, rfl, hdigits⟩

/-- **What is printed is read**, in any case and with blank characters on both sides. -/
theorem Prints.parse_eq {form before written after : List Char} (h : Prints digest form)
    (hlower : written.map Char.toLower = form) (hbefore : ∀ c ∈ before, Text.isBlank c = true)
    (hafter : ∀ c ∈ after, Text.isBlank c = true) :
    parse (String.ofList (before ++ written ++ after)) = .ok digest := by
  obtain ⟨mark, digits, hmark, rfl, hdigits⟩ := h.exists_split hlower
  rw [parse_eq_ok_iff_framed, toList_hex]
  refine ⟨digits, ⟨before, mark, after, hbefore, hmark, hafter, ?_⟩, .inr hdigits⟩
  rw [String.toList_ofList, ← List.append_assoc before]

/-- Digits are printed in lower case. -/
theorem Prints.map_toLower_eq {form : List Char} (h : Prints digest form) :
    form.map Char.toLower = form := by
  rcases h.exists_mark with rfl | rfl
  · exact Hex.map_toLower_encode digest.bytes
  · rw [List.map_append, Hex.map_toLower_encode]
    rfl

/-- What is printed names the digest, because it is read as that digest. -/
theorem Prints.unique {a b : Digest} {form : List Char} (ha : Prints a form) (hb : Prints b form) :
    a = b := by
  have hblank : ∀ c ∈ ([] : List Char), Text.isBlank c = true := fun c hc => nomatch hc
  have hreadA := ha.parse_eq ha.map_toLower_eq hblank hblank
  have hreadB := hb.parse_eq hb.map_toLower_eq hblank hblank
  rw [hreadA] at hreadB
  cases hreadB
  rfl

/-- A datum that holds a text is read as a digest like the text itself. -/
theorem toDigest_text_of_parse (h : parse text = .ok digest) :
    (Datum.text text).toDigest = .ok digest := by
  unfold Datum.toDigest Datum.toText
  dsimp only [bind, Except.bind]
  rw [h]

/-- **The reader of digests undoes printing and accepts nothing else.** A text is read as a digest
if its body is empty, for the digest of zeros, or the 64 digits of the digest in either case.
Otherwise the length of the body in bytes is wrong, or it is right and the first byte that is no
digit is named. What is printed of a digest is read as the digest, as a text and as a datum, in any
case and with any blank characters around it, and no two digests are printed alike. -/
theorem parse_printed :
    (∀ text : String,
      let body := Hex.body text
      let bytes := Text.utf8 body
      (∀ digest, parse text = .ok digest ↔
        body = [] ∧ digest = zero ∨
        body.length = 64 ∧ body.all Hex.isDigitChar = true ∧
          body.map Char.toLower = digest.hex.toList) ∧
      (∀ e, parse text = .error e ↔
        bytes.length ≠ 0 ∧ bytes.length ≠ 64 ∧ e = .wrongLength bytes.length ∧
          e.message = "digest must be 64 hex digits, got " ++ toString bytes.length ∨
        bytes.length = 64 ∧ ∃ byte index, Hex.FirstInvalid bytes byte index ∧
          e = .invalidDigits body (.invalidDigit byte index) ∧
            e.message = "invalid digest " ++ Text.quoted body) ∧
      (∀ cause, parse text = .error (.invalidDigits body cause) →
        cause ≠ .oddLength ∧ cause ≠ .wrongSize) ∧
      (∀ digest, parse text = .ok digest ↔
        ∃ written, Hex.Framed written text.toList ∧
          (written = [] ∧ digest = zero ∨ written.map Char.toLower = digest.hex.toList))) ∧
    (∀ (digest : Digest) (form before written after : List Char), Prints digest form →
      written.map Char.toLower = form → (∀ c ∈ before, Text.isBlank c = true) →
      (∀ c ∈ after, Text.isBlank c = true) →
      parse (String.ofList (before ++ written ++ after)) = .ok digest ∧
      (Datum.text (String.ofList (before ++ written ++ after))).toDigest = .ok digest) ∧
    (∀ (a b : Digest) (form : List Char), Prints a form → Prints b form → a = b) := by
  refine ⟨fun text => ⟨fun digest => ?_, fun e => ?_, fun cause h => ?_,
    fun digest => parse_eq_ok_iff_framed⟩, ?_, fun a b form ha hb => ha.unique hb⟩
  · -- what is accepted: the length and the digits are what the digest's own digits in some case have
    rw [parse_eq_ok_iff, toList_hex]
    constructor
    · rintro (hzero | hlower)
      · exact .inl hzero
      · exact .inr ⟨(length_of_map_toLower hlower).1, Hex.all_isDigitChar_of_map_toLower hlower,
          hlower⟩
    · rintro (hzero | ⟨-, -, hlower⟩)
      · exact .inl hzero
      · exact .inr hlower
  · rw [parse_eq_error_iff]
    constructor
    · rintro (⟨hne, hlength, rfl⟩ | ⟨hlength, byte, index, hfirst, rfl⟩)
      · exact .inl ⟨hne, hlength, rfl, rfl⟩
      · exact .inr ⟨hlength, byte, index, hfirst, rfl, rfl⟩
    · rintro (⟨hne, hlength, rfl, -⟩ | ⟨hlength, byte, index, hfirst, rfl, -⟩)
      · exact .inl ⟨hne, hlength, rfl⟩
      · exact .inr ⟨hlength, byte, index, hfirst, rfl⟩
  · -- a cause is only ever given for a byte that is no digit
    rcases parse_eq_error_iff.mp h with ⟨-, -, h⟩ | ⟨-, byte, index, -, h⟩
    · cases h
    · cases h
      exact ⟨Hex.Error.noConfusion, Hex.Error.noConfusion⟩
  · intro digest form before written after hprints hlower hbefore hafter
    have hparse := hprints.parse_eq hlower hbefore hafter
    exact ⟨hparse, toDigest_text_of_parse hparse⟩

/-- A marked digest in mixed case between blank characters; 64 bytes that are no digits but 32
letters; and a digest that is cut off too long a row of bytes. -/
theorem parse_printed_mixed :
    let digest : Digest := ⟨List.replicate 32 0xab, rfl⟩
    let cut := ofSlice (List.replicate 40 0xab)
    let written := ['0', 'X'] ++ (List.replicate 32 ['A', 'b']).flatten
    let accents := List.replicate 32 'é'
    (Prints digest digest.text.toList ∧ written.map Char.toLower = digest.text.toList ∧
      parse (String.ofList (['\n'] ++ written ++ [' '])) = .ok digest ∧
      (Datum.text (String.ofList (['\n'] ++ written ++ [' ']))).toDigest = .ok digest) ∧
    (parse (String.ofList accents) = .error (.invalidDigits accents (.invalidDigit 0xc3 0)) ∧
      Hex.Error.invalidDigit 0xc3 0 ≠ .oddLength ∧ Hex.Error.invalidDigit 0xc3 0 ≠ .wrongSize) ∧
    (Prints digest digest.hex.toList ∧ Prints cut digest.hex.toList ∧ digest = cut) := by
  intro digest cut written accents
  obtain ⟨htext, hform, hunique⟩ := parse_printed
  have hlower : written.map Char.toLower = digest.text.toList := by
    rw [text, Hex.toList_marked]
    decide +kernel
  have hread := hform digest _ ['\n'] written [' '] .text hlower (List.forall_mem_singleton.mpr rfl)
    (List.forall_mem_singleton.mpr rfl)
  -- each letter has two bytes, so 32 of them have the right length, and the first byte is no digit
  obtain ⟨-, herror, hcause, -⟩ := htext (String.ofList accents)
  have hbody : Hex.body (String.ofList accents) = accents := by
    rw [Hex.body, String.toList_ofList]
    decide +kernel
  have hrefused : parse (String.ofList accents) =
      .error (.invalidDigits accents (.invalidDigit 0xc3 0)) := by
    rw [herror, hbody]
    refine .inr ⟨by decide +kernel, 0xc3, 0, ⟨by decide +kernel, rfl, ?_⟩, rfl, rfl⟩
    exact fun i hi => absurd hi (Nat.not_lt_zero i)
  -- the bytes behind the first 32 are cut off, so the two digests are printed alike
  have hcut : Prints cut digest.hex.toList := by
    have hsame : cut.bytes = digest.bytes := by decide +kernel
    have hhex : digest.hex = cut.hex := by rw [hex, hex, hsame]
    rw [hhex]
    exact .hex
  refine ⟨⟨.text, hlower, hread⟩, ⟨hrefused, hcause _ ?_⟩, .hex, hcut, hunique _ _ _ .hex hcut⟩
  rw [hbody]
  exact hrefused

end EvmDisasm.Digest
