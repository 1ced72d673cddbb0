import EvmDisasm.Hex.Spelling
import EvmDisasm.Proofs.Hex.Body
import EvmDisasm.Proofs.Hex.Texts

/-!
# Spellings and their readers

Readers of hexadecimal texts first take a body out of the text and then read the bytes of the body
as digits. Both steps are said here in terms of spellings, in which no reader occurs.

* **`decode_utf8_eq_ok_iff`** — a row of characters is read as some bytes just when it is, but for
  the case of its letters, what the writer makes of them.
* **`decode_eq_error_iff`** — which rows of pairs are refused, and with what.
* **`framed_body`** and **`Framed.exists_body`** — a text is a frame around its body, and what a
  text is a frame around is its body but for blank characters.
* **`spaced_filter`** and **`Spaced.map_toLower_filter`** — spaced digits are what is left of a row
  of characters without the blank ones.
-/

namespace EvmDisasm.Hex

variable {chars : List Char} {bytes : Bytes}

/-! ## Characters

Changing the case of a character and asking whether it is a digit or blank only ever concerns ASCII
characters. What is said of them is found by going through all 128. -/

/-- A property of the ASCII characters, by their numbers. -/
theorem forall_ascii (P : Char → Prop) (h : ∀ n : Fin 128, P (Char.ofNat n)) {c : Char}
    (hc : c.toNat < 128) : P c := by
  have hn := h ⟨c.toNat, hc⟩
  rwa [Char.ofNat_toNat] at hn

/-- A character beyond ASCII has no lower case here. -/
theorem toLower_of_le {c : Char} (h : 128 ≤ c.toNat) : c.toLower = c := by
  unfold Char.toLower
  rw [dif_neg]
  rintro ⟨-, hle⟩
  have hle : c.toNat ≤ 90 := hle
  omega

theorem toNat_lt_of_toLower {c d : Char} (h : c.toLower = d) (hd : d.toNat < 128) :
    c.toNat < 128 := by
  apply Nat.lt_of_not_le
  intro hle
  rw [toLower_of_le hle] at h
  rw [h] at hle
  omega

theorem toNat_lt_of_isDigitChar {c : Char} (h : isDigitChar c = true) : c.toNat < 128 := by
  apply Nat.lt_of_not_le
  intro hle
  rw [isDigitChar_of_le (by omega)] at h
  cases h

theorem isDigitChar_toLower (c : Char) : isDigitChar c.toLower = isDigitChar c := by
  by_cases hascii : c.toNat < 128
  · exact forall_ascii (fun c => isDigitChar c.toLower = isDigitChar c) (by decide +kernel) hascii
  · rw [toLower_of_le (Nat.le_of_not_lt hascii)]

theorem all_isDigitChar_map_toLower (chars : List Char) :
    (chars.map Char.toLower).all isDigitChar = chars.all isDigitChar := by
  rw [List.all_map]
  exact congrArg (chars.all ·) (funext isDigitChar_toLower)

theorem isBlank_of_isDigitChar {c : Char} (h : isDigitChar c = true) : Text.isBlank c = false := by
  have hascii := toNat_lt_of_isDigitChar h
  revert h
  exact forall_ascii (fun c => isDigitChar c = true → Text.isBlank c = false) (by decide +kernel)
    hascii

theorem isBlank_of_mem_of_all (h : chars.all isDigitChar = true) :
    ∀ c ∈ chars, Text.isBlank c = false := fun c hc =>
  isBlank_of_isDigitChar (List.all_eq_true.mp h c hc)

/-- The second character of a mark is neither a digit nor blank. -/
theorem ne_of_isDigitChar_or_isBlank {c : Char} (h : isDigitChar c = true ∨ Text.isBlank c = true) :
    c ≠ 'x' ∧ c ≠ 'X' := by
  constructor
  · rintro rfl
    exact absurd h (by decide)
  · rintro rfl
    exact absurd h (by decide)

/-! ## Digits in either case

The bytes that a row of digits stands for are written with the same digits in lower case. That makes
reading a question of what the writer makes of the result, in which the packing of digits no longer
occurs. -/

theorem all_isDigitChar_encode (bytes : Bytes) : (encode bytes).all isDigitChar = true :=
  List.all_eq_true.mpr fun _ hc => isDigitChar_of_mem_encode hc

theorem encode_injective {a b : Bytes} (h : encode a = encode b) : a = b := by
  have hdecode : decode (Text.utf8 (encode a)) = .ok b := by rw [h, decode_encode]
  rw [decode_encode] at hdecode
  cases hdecode
  rfl

/-- A digit has a value, and the digit that is written for it is the same one in lower case. -/
theorem exists_digitValue? {c : Char} (h : isDigitChar c = true) :
    ∃ n < 16, digitValue? (UInt8.ofNat c.toNat) = some n ∧ Nat.digitChar n = c.toLower := by
  have hascii := toNat_lt_of_isDigitChar h
  revert h
  exact forall_ascii (fun c => isDigitChar c = true → ∃ n < 16,
    digitValue? (UInt8.ofNat c.toNat) = some n ∧ Nat.digitChar n = c.toLower) (by decide +kernel)
    hascii

theorem utf8_cons_of_isDigitChar {c : Char} (h : isDigitChar c = true) (rest : List Char) :
    Text.utf8 (c :: rest) = UInt8.ofNat c.toNat :: Text.utf8 rest := by
  rw [Text.utf8, List.flatMap_cons, utf8EncodeChar_of_lt (toNat_lt_of_isDigitChar h)]
  rfl

theorem length_utf8_of_all (h : chars.all isDigitChar = true) :
    (Text.utf8 chars).length = chars.length := by
  induction chars with
  | nil => rfl
  | cons c rest ih =>
    rw [List.all_cons, Bool.and_eq_true] at h
    rw [utf8_cons_of_isDigitChar h.1, List.length_cons, ih h.2, List.length_cons]

/-- The byte that is packed from two values is written with their digits. -/
theorem byteDigits_pack {high low : Nat} (hhigh : high < 16) (hlow : low < 16) :
    byteDigits (UInt8.ofNat (16 * high + low)) = [Nat.digitChar high, Nat.digitChar low] := by
  have hbyte : (UInt8.ofNat (16 * high + low)).toNat = 16 * high + low := by
    rw [UInt8.toNat_ofNat']
    omega
  rw [byteDigits, hbyte, show (16 * high + low) / 16 = high by omega,
    show (16 * high + low) % 16 = low by omega]

/-- Writing what was read from pairs of digits gives the digits back in lower case. -/
theorem encode_packOnto (acc : Bytes) : ∀ chars : List Char, chars.length % 2 = 0 →
    chars.all isDigitChar = true →
    encode (packOnto acc (Text.utf8 chars)) = encode acc.reverse ++ chars.map Char.toLower
  | [], _, _ => (List.append_nil _).symm
  | [_], heven, _ => by cases heven
  | high :: low :: rest, heven, hall => by
    rw [List.all_cons, List.all_cons, Bool.and_eq_true, Bool.and_eq_true] at hall
    obtain ⟨hhigh, hlow, hrest⟩ := hall
    -- two digits at a time, as the reader goes
    obtain ⟨h, hh, hvalueHigh, hlowerHigh⟩ := exists_digitValue? hhigh
    obtain ⟨l, hl, hvalueLow, hlowerLow⟩ := exists_digitValue? hlow
    have hevenRest : rest.length % 2 = 0 := by
      rw [List.length_cons, List.length_cons] at heven
      omega
    rw [utf8_cons_of_isDigitChar hhigh, utf8_cons_of_isDigitChar hlow, packOnto, hvalueHigh,
      hvalueLow, encode_packOnto _ rest hevenRest hrest]
    -- the byte at hand is the last one of what is already read
    rw [List.reverse_cons, encode, List.flatMap_append, List.append_assoc, List.flatMap_singleton,
      Option.getD_some, Option.getD_some, byteDigits_pack hh hl, hlowerHigh, hlowerLow]
    rfl

/-- What is written in lower case as the writer would is a row of digits. -/
theorem all_isDigitChar_of_map_toLower (h : chars.map Char.toLower = encode bytes) :
    chars.all isDigitChar = true := by
  rw [← all_isDigitChar_map_toLower, h, all_isDigitChar_encode]

theorem length_of_map_toLower (h : chars.map Char.toLower = encode bytes) :
    chars.length = 2 * bytes.length := by
  rw [← List.length_map Char.toLower, h, length_encode]

/-- The reader that asks for a size is the other one, where the size is right. -/
theorem decodeExactly_of_length {size : Nat} (h : bytes.length = 2 * size) :
    decodeExactly size bytes = decode bytes := by
  unfold decodeExactly
  rw [if_neg (by omega), if_neg (by omega)]

/-- **What is read as some bytes** is what the writer makes of them, in either case. -/
theorem decode_utf8_eq_ok_iff :
    decode (Text.utf8 chars) = .ok bytes ↔ chars.map Char.toLower = encode bytes := by
  rw [decode_eq_ok_iff, all_isDigit_utf8]
  constructor
  · rintro ⟨heven, hall, rfl⟩
    rw [length_utf8_of_all hall] at heven
    rw [encode_packOnto [] chars heven hall]
    rfl
  · intro hlower
    have hall := all_isDigitChar_of_map_toLower hlower
    have heven : chars.length % 2 = 0 := by
      rw [length_of_map_toLower hlower]
      omega
    have hpack := encode_packOnto [] chars heven hall
    refine ⟨by rw [length_utf8_of_all hall, heven], hall, encode_injective ?_⟩
    rw [hpack, hlower]
    rfl

theorem map_toLower_encode (bytes : Bytes) : (encode bytes).map Char.toLower = encode bytes :=
  decode_utf8_eq_ok_iff.mp (decode_encode bytes)

/-! ## Rows that are no digits

The byte that is complained about is found from the left. `FirstInvalid` says which it is, and there
is only one. -/

/-- The byte that the reader finds is the first that is no digit. -/
theorem exists_firstInvalid {byte : UInt8} (h : bytes.find? (!isDigit ·) = some byte) :
    FirstInvalid bytes byte (bytes.findIdx (!isDigit ·)) := by
  obtain ⟨hbyte, i, hi, hget, hbefore⟩ := List.find?_eq_some_iff_getElem.mp h
  have hindex : bytes.findIdx (!isDigit ·) = i := by
    rw [List.findIdx_eq hi, hget]
    exact ⟨hbyte, fun j hj => by simpa using hbefore j hj⟩
  rw [hindex]
  refine ⟨by rw [List.getElem?_eq_getElem hi, hget], by simpa using hbyte, fun j hj b hb => ?_⟩
  obtain ⟨hlt, rfl⟩ := List.getElem?_eq_some_iff.mp hb
  simpa using hbefore j hj

theorem FirstInvalid.not_all {byte : UInt8} {index : Nat} (h : FirstInvalid bytes byte index) :
    ¬ bytes.all isDigit = true := by
  intro hall
  have hdigit := List.all_eq_true.mp hall byte (List.mem_of_getElem? h.getElem?_eq)
  rw [h.not_digit] at hdigit
  cases hdigit

/-- There is only one first one. -/
theorem FirstInvalid.unique {byte byte' : UInt8} {index index' : Nat}
    (h : FirstInvalid bytes byte index) (h' : FirstInvalid bytes byte' index') :
    byte = byte' ∧ index = index' := by
  -- neither can stand in front of the other, because all bytes there are digits
  have hle : ¬ index < index' := fun hlt => by
    have hdigit := h'.digit_before index hlt byte h.getElem?_eq
    rw [h.not_digit] at hdigit
    cases hdigit
  have hge : ¬ index' < index := fun hlt => by
    have hdigit := h.digit_before index' hlt byte' h'.getElem?_eq
    rw [h'.not_digit] at hdigit
    cases hdigit
  obtain rfl : index = index' := by omega
  exact ⟨Option.some.inj (h.getElem?_eq.symm.trans h'.getElem?_eq), rfl⟩

/-- Where the digits pair up, what is refused is the first byte that is no digit. -/
theorem decode_eq_error_iff {cause : Error} (heven : bytes.length % 2 = 0) :
    decode bytes = .error cause ↔
      ∃ byte index, FirstInvalid bytes byte index ∧ cause = .invalidDigit byte index := by
  unfold decode
  rw [if_neg (by omega)]
  cases hfind : bytes.find? (!isDigit ·) with
  | none =>
    refine iff_of_false (fun h => by cases h) ?_
    rintro ⟨byte, index, hfirst, -⟩
    refine hfirst.not_all (List.all_eq_true.mpr fun b hb => ?_)
    simpa using List.find?_eq_none.mp hfind b hb
  | some byte =>
    -- the byte that is found is the first, and the first is only one
    have hfirst := exists_firstInvalid hfind
    dsimp only
    rw [Except.error.injEq]
    constructor
    · rintro rfl
      exact ⟨byte, _, hfirst, rfl⟩
    · rintro ⟨byte', index', hfirst', rfl⟩
      obtain ⟨rfl, rfl⟩ := hfirst.unique hfirst'
      rfl

/-! ## Frames

A text can be a frame around several rows, because blank characters at its ends may be counted to
the frame or to the row, and a mark may too. A row of digits and blank characters is the body all
the same, but for blank characters at its ends. -/

section

variable {mark rest written : List Char} {text : String}

theorem exists_mark (text : List Char) : ∃ mark, Mark mark ∧ text = mark ++ dropMark text := by
  unfold dropMark
  split
  · exact ⟨['0', 'x'], .lower, rfl⟩
  · exact ⟨['0', 'X'], .upper, rfl⟩
  · exact ⟨[], .none, rfl⟩

/-- In front of digits and blank characters, a mark is dropped and nothing else is. -/
theorem dropMark_append (hmark : Mark mark)
    (hrest : ∀ c ∈ rest, isDigitChar c = true ∨ Text.isBlank c = true) :
    dropMark (mark ++ rest) = rest := by
  cases hmark with
  | lower => rfl
  | upper => rfl
  | none =>
    -- another mark would have a character in it that is neither a digit nor blank
    rw [List.nil_append]
    unfold dropMark
    split
    · exact absurd rfl (ne_of_isDigitChar_or_isBlank
        (hrest 'x' (List.mem_cons_of_mem _ List.mem_cons_self))).1
    · exact absurd rfl (ne_of_isDigitChar_or_isBlank
        (hrest 'X' (List.mem_cons_of_mem _ List.mem_cons_self))).2
    · rfl

/-- The mark that is written is one in either case. -/
theorem mark_of_map_toLower (h : mark.map Char.toLower = ['0', 'x']) :
    Mark mark := by
  obtain ⟨zero, tail, rfl, hzero, htail⟩ := List.map_eq_cons_iff.mp h
  obtain ⟨letter, tail, rfl, hletter, htail⟩ := List.map_eq_cons_iff.mp htail
  obtain rfl := List.map_eq_nil_iff.mp htail
  have hzeroAscii := toNat_lt_of_toLower hzero (by decide)
  have hletterAscii := toNat_lt_of_toLower hletter (by decide)
  obtain rfl : zero = '0' := by
    revert hzero
    exact forall_ascii (fun c => c.toLower = '0' → c = '0') (by decide +kernel) hzeroAscii
  obtain rfl | rfl : letter = 'x' ∨ letter = 'X' := by
    revert hletter
    exact forall_ascii (fun c => c.toLower = 'x' → c = 'x' ∨ c = 'X') (by decide +kernel)
      hletterAscii
  · exact .lower
  · exact .upper

/-- **A text is a frame around its body.** -/
theorem framed_body (text : String) : Framed (body text) text.toList := by
  obtain ⟨before, after, hbefore, hafter, htext⟩ := Text.exists_trim text.toList
  obtain ⟨mark, hmark, htrim⟩ := exists_mark (Text.trim text.toList)
  refine ⟨before, mark, after, hbefore, hmark, hafter, ?_⟩
  rw [List.append_assoc before, body, ← htrim]
  exact htext

/-- A mark in front of a text that does not end with a blank character leaves nothing to trim. -/
theorem trimmed_append (hmark : Mark mark) (hne : mark ≠ [])
    (hrest : ∀ c ∈ rest.getLast?, Text.isBlank c = false) : Text.Trimmed (mark ++ rest) := by
  have hends : Text.Trimmed mark := by
    cases hmark with
    | none => exact absurd rfl hne
    | lower => exact ⟨fun c hc => by cases hc; rfl, fun c hc => by cases hc; rfl⟩
    | upper => exact ⟨fun c hc => by cases hc; rfl, fun c hc => by cases hc; rfl⟩
  constructor
  · intro c hc
    rw [List.head?_append, Option.mem_def, Option.or_eq_some_iff] at hc
    rcases hc with hc | ⟨hnil, -⟩
    · exact hends.head? c hc
    · exact absurd (List.head?_eq_none_iff.mp hnil) hne
  · intro c hc
    rw [List.getLast?_append, Option.mem_def, Option.or_eq_some_iff] at hc
    rcases hc with hc | ⟨-, hc⟩
    · exact hrest c hc
    · exact hends.getLast? c hc

/-- What trimming leaves of a mark and what follows it. Without a mark it cuts at both ends, and
behind a mark only at the end. -/
theorem exists_trimmed_append (hmark : Mark mark) (written : List Char) :
    ∃ before rest after, (∀ c ∈ before, Text.isBlank c = true) ∧
      (∀ c ∈ after, Text.isBlank c = true) ∧ Text.Trimmed (mark ++ rest) ∧
      written = before ++ rest ++ after ∧ mark ++ written = before ++ (mark ++ rest) ++ after := by
  by_cases hnone : mark = []
  · subst hnone
    obtain ⟨before, after, hbefore, hafter, hwritten⟩ := Text.exists_trim written
    exact ⟨before, Text.trim written, after, hbefore, hafter, Text.trimmed_trim written, hwritten,
      hwritten⟩
  · obtain ⟨after, hafter, hwritten⟩ := Text.exists_trimEnd written
    refine ⟨[], Text.trimEnd written, after, fun c hc => (List.not_mem_nil hc).elim, hafter,
      trimmed_append hmark hnone fun c hc => Text.isBlank_getLast?_trimEnd hc, hwritten, ?_⟩
    rw [List.nil_append, List.append_assoc, ← hwritten]

/-- **What a text is a frame around is its body**, but for blank characters at the ends. -/
theorem Framed.exists_body (h : Framed written text.toList)
    (hwritten : ∀ c ∈ written, isDigitChar c = true ∨ Text.isBlank c = true) :
    ∃ before after, (∀ c ∈ before, Text.isBlank c = true) ∧
      (∀ c ∈ after, Text.isBlank c = true) ∧ written = before ++ body text ++ after := by
  obtain ⟨before, mark, after, hbefore, hmark, hafter, htext⟩ := h
  obtain ⟨lead, rest, tail, hlead, htail, htrimmed, hrest, hmiddle⟩ :=
    exists_trimmed_append hmark written
  -- the frame and the blank ends of what is in it are trimmed together
  have htrim : Text.trim text.toList = mark ++ rest := by
    have hparts : text.toList = (before ++ lead) ++ (mark ++ rest) ++ (tail ++ after) := by
      rw [htext, List.append_assoc before, hmiddle]
      simp only [List.append_assoc]
    rw [hparts]
    exact Text.trim_append (fun c hc => (List.mem_append.mp hc).elim (hbefore c) (hlead c)) htrimmed
      (fun c hc => (List.mem_append.mp hc).elim (htail c) (hafter c))
  have hbody : body text = rest := by
    rw [body, htrim]
    refine dropMark_append hmark fun c hc => hwritten c ?_
    rw [hrest]
    exact List.mem_append_left _ (List.mem_append_right _ hc)
  exact ⟨lead, tail, hlead, htail, by rw [hbody, hrest]⟩

/-- The blank characters at the ends of a body are dropped with those inside. -/
theorem Framed.filter_eq (h : Framed written text.toList)
    (hwritten : ∀ c ∈ written, isDigitChar c = true ∨ Text.isBlank c = true) :
    written.filter (!Text.isBlank ·) = (body text).filter (!Text.isBlank ·) := by
  obtain ⟨before, after, hbefore, hafter, heq⟩ := h.exists_body hwritten
  rw [heq, List.filter_append, List.filter_append, Text.filter_eq_nil_of_isBlank hbefore,
    Text.filter_eq_nil_of_isBlank hafter, List.append_nil, List.nil_append]

/-- Digits without blank characters between them are the body itself. -/
theorem Framed.eq_body (h : Framed written text.toList)
    (hwritten : written.all isDigitChar = true) : written = body text := by
  have hdigit := List.all_eq_true.mp hwritten
  obtain ⟨before, after, -, -, heq⟩ := h.exists_body fun c hc => .inl (hdigit c hc)
  have hkeep : ∀ c ∈ written, (!Text.isBlank c) = true := fun c hc => by
    rw [isBlank_of_mem_of_all hwritten c hc]
    rfl
  calc written = written.filter (!Text.isBlank ·) := (List.filter_eq_self.mpr hkeep).symm
    _ = (body text).filter (!Text.isBlank ·) := h.filter_eq fun c hc => .inl (hdigit c hc)
    _ = body text := List.filter_eq_self.mpr fun c hc => hkeep c (by
        rw [heq]
        exact List.mem_append_left _ (List.mem_append_right _ hc))

end

/-! ## Digits with blank characters between them

In code, blank characters may stand between the digits. Dropping them undoes putting them in. -/

/-- A row of characters comes from what is left of it without the blank ones, by putting those
in. -/
theorem spaced_filter (written : List Char) :
    Spaced ((written.filter (!Text.isBlank ·)).map Char.toLower) written := by
  -- each character is either put in or one of the row, in whichever case
  induction written with
  | nil => exact .nil
  | cons c rest ih =>
    cases hblank : Text.isBlank c with
    | true =>
      rw [List.filter_cons_of_neg (by rw [hblank]; exact Bool.false_ne_true)]
      exact .blank hblank ih
    | false =>
      rw [List.filter_cons_of_pos (by rw [hblank]; rfl)]
      exact .digit c ih

section

variable {digits written : List Char}

/-- Digits with blank characters put in are nothing but digits and blank characters. -/
theorem Spaced.isDigitChar_or_isBlank (h : Spaced digits written)
    (hdigits : digits.all isDigitChar = true) :
    ∀ c ∈ written, isDigitChar c = true ∨ Text.isBlank c = true := by
  induction h with
  | nil => exact fun c hc => (List.not_mem_nil hc).elim
  | blank hblank rest ih =>
    intro c hc
    rcases List.mem_cons.mp hc with rfl | hc
    · exact .inr hblank
    · exact ih hdigits c hc
  | digit d rest ih =>
    rw [List.all_cons, Bool.and_eq_true, isDigitChar_toLower] at hdigits
    intro c hc
    rcases List.mem_cons.mp hc with rfl | hc
    · exact .inl hdigits.1
    · exact ih hdigits.2 c hc

/-- **Dropping blank characters gives the digits back**, in lower case. -/
theorem Spaced.map_toLower_filter (h : Spaced digits written)
    (hdigits : digits.all isDigitChar = true) :
    (written.filter (!Text.isBlank ·)).map Char.toLower = digits := by
  induction h with
  | nil => rfl
  | blank hblank rest ih =>
    rw [List.filter_cons_of_neg (by rw [hblank]; exact Bool.false_ne_true)]
    exact ih hdigits
  | digit d rest ih =>
    rw [List.all_cons, Bool.and_eq_true, isDigitChar_toLower] at hdigits
    rw [List.filter_cons_of_pos (by rw [isBlank_of_isDigitChar hdigits.1]; rfl), List.map_cons,
      ih hdigits.2]

end

end EvmDisasm.Hex
