import EvmDisasm.Proofs.Bytes.Order
import EvmDisasm.Proofs.Digest.Spelling

/-!
# The order of digests

Digests are ordered byte by byte. Whoever sees only their texts orders them in the same way, because
the digits stand for their values in the order of the characters, although `9` and `a` are no
neighbours; and so does whoever takes them for numbers.

* **`compare_utf8_encode`** — byte strings of any lengths are in the order of their digits.
* **`parse_of_respelled`** — a text that is read as a digest is read as that digest in every other
  spelling.
* **`compare_texts`** — the order of digests, of their texts and of their numbers are one.
-/

namespace EvmDisasm

namespace Hex

/-- Digits are in the order of their values. The digits of the decimal system and the letters do not
stand next to each other among the characters, but they are in the right order. -/
theorem compare_digitByte {m n : Nat} (hm : m < 16) (hn : n < 16) :
    compare (digitByte m) (digitByte n) = compare m n := by
  have key : ∀ m n : Fin 16, compare (digitByte m) (digitByte n) = compare m.val n.val := by decide
  exact key ⟨m, hm⟩ ⟨n, hn⟩

/-- The first byte is written as the first two digits. -/
theorem utf8_encode_cons (b : UInt8) (rest : Bytes) :
    Text.utf8 (encode (b :: rest)) =
      [digitByte (b.toNat / 16), digitByte (b.toNat % 16)] ++ Text.utf8 (encode rest) := by
  rw [utf8_encode, utf8_encode, List.flatMap_cons]

/-- Two bytes are in the order of their pairs of digits. -/
theorem compare_digitBytes (a b : UInt8) :
    compare [digitByte (a.toNat / 16), digitByte (a.toNat % 16)]
      [digitByte (b.toNat / 16), digitByte (b.toNat % 16)] = compare a b := by
  have ha := a.toNat_lt
  have hb := b.toNat_lt
  have hvalue := compare_mul_add (a.toNat / 16) (b.toNat / 16)
    (Nat.mod_lt a.toNat (show 0 < 16 by decide)) (Nat.mod_lt b.toNat (show 0 < 16 by decide))
  rw [Nat.div_add_mod', Nat.div_add_mod'] at hvalue
  rw [List.compare_cons_cons, List.compare_cons_cons, List.compare_nil_nil, Ordering.then_eq,
    compare_digitByte (by omega) (by omega), compare_digitByte (by omega) (by omega), ← hvalue,
    compare_eq_compare_toNat]

/-- **Writing byte strings as digits keeps their order**, whatever their lengths: a shorter one that
the other goes on from comes first in both. -/
theorem compare_utf8_encode (a b : Bytes) :
    compare (Text.utf8 (encode a)) (Text.utf8 (encode b)) = compare a b := by
  induction a generalizing b with
  | nil =>
    cases b with
    | nil => rfl
    | cons y b =>
      rw [utf8_encode_cons]
      rfl
  | cons x a ih =>
    cases b with
    | nil =>
      rw [utf8_encode_cons]
      rfl
    | cons y b =>
      -- one byte has two digits, so they decide before those of the other bytes
      have hpair : compare (Text.utf8 (encode (x :: a))) (Text.utf8 (encode (y :: b))) =
          (compare x y).then (compare (Text.utf8 (encode a)) (Text.utf8 (encode b))) := by
        have hlength : [digitByte (x.toNat / 16), digitByte (x.toNat % 16)].length =
          [digitByte (y.toNat / 16), digitByte (y.toNat % 16)].length := rfl
        rw [utf8_encode_cons, utf8_encode_cons, compare_append hlength, compare_digitBytes]
      rw [hpair, ih, List.compare_cons_cons]

end Hex

namespace Digest

/-! ## Texts

All texts of digests have the same mark and the same length, so the digits are what is left to
compare. -/

theorem compare_hex (a b : Digest) :
    compare (Text.utf8 a.hex.toList) (Text.utf8 b.hex.toList) = compare a b := by
  rw [toList_hex, toList_hex, Hex.compare_utf8_encode]
  rfl

theorem utf8_text (digest : Digest) :
    Text.utf8 digest.text.toList = Text.utf8 ['0', 'x'] ++ Text.utf8 digest.hex.toList := by
  rw [toList_hex, text, Hex.toList_marked, ← Text.utf8_append]
  rfl

/-- The mark is the same in front of all digests, so it does not decide. -/
theorem compare_text (a b : Digest) :
    compare (Text.utf8 a.text.toList) (Text.utf8 b.text.toList) = compare a b := by
  rw [utf8_text, utf8_text, compare_append rfl, Std.compare_self, ← compare_hex]
  rfl

/-! ## Spellings

A spelling differs from another in the case of the digits, the mark and the blank characters around.
None of them is left once the text is read. -/

/-- A text that is read as a digest is read as that digest in every other spelling. -/
theorem parse_of_respelled {text other : String} {digest : Digest} (h : parse text = .ok digest)
    (hother : Hex.Respelled text other) : parse other = .ok digest := by
  obtain ⟨digits, digits', hall, hlower, htext, hframed⟩ := hother
  rw [parse_eq_ok_iff, ← htext.eq_body hall] at h
  rw [parse_eq_ok_iff_framed]
  refine ⟨digits', hframed, ?_⟩
  rcases h with ⟨rfl, hzero⟩ | hdigits
  · -- no digits at all are read as the digest of zeros, and stay none in any spelling
    exact .inl ⟨List.map_eq_nil_iff.mp hlower, hzero⟩
  · exact .inr (by rw [hlower, hdigits, toList_hex])

/-- What is printed of a digest is read as it stands. -/
theorem Prints.parse_self {digest : Digest} {text : String} (h : Prints digest text.toList) :
    parse text = .ok digest := by
  have hblank : ∀ c ∈ ([] : List Char), Text.isBlank c = true := fun c hc => nomatch hc
  have hread := h.parse_eq h.map_toLower_eq hblank hblank
  rwa [List.append_nil, List.nil_append, String.ofList_toList] at hread

/-- **Digests have one order.** Compared byte by byte, as texts of digits, as marked texts and as
numbers they are in the same order. So of two texts that are read as digests neither the case of the
digits nor a mark nor blank characters around them have a say in how the digests compare. -/
theorem compare_texts :
    (∀ a b : Digest,
      compare a b = compare (Text.utf8 a.hex.toList) (Text.utf8 b.hex.toList) ∧
      compare a b = compare (Text.utf8 a.text.toList) (Text.utf8 b.text.toList) ∧
      compare a b = compare (bigEndian a.bytes) (bigEndian b.bytes)) ∧
    (∀ (s s' u u' : String) (a b : Digest), parse s = .ok a → parse u = .ok b →
      Hex.Respelled s s' → Hex.Respelled u u' →
      ∃ a' b', parse s' = .ok a' ∧ parse u' = .ok b' ∧ compare a' b' = compare a b) := by
  refine ⟨fun a b => ⟨(compare_hex a b).symm, (compare_text a b).symm, ?_⟩, ?_⟩
  · rw [compare_bigEndian (a.length_bytes.trans b.length_bytes.symm)]
    rfl
  · intro s s' u u' a b hs hu hs' hu'
    exact ⟨a, b, parse_of_respelled hs hs', parse_of_respelled hu hu', rfl⟩

/-- The last digest whose bytes have a digit `9` in front and the first one with an `a` there, in
spellings of their own: marked and bare, in either case, with blank characters around them. -/
theorem compare_texts_mixed :
    let a : Digest := ⟨List.replicate 32 0x9f, rfl⟩
    let b : Digest := ⟨List.replicate 32 0xa0, rfl⟩
    let other := String.ofList (['\n', '0', 'X'] ++ (List.replicate 32 ['9', 'F']).flatten)
    let other' := String.ofList ((List.replicate 32 ['A', '0']).flatten ++ [' '])
    compare a b = .lt ∧ parse a.text = .ok a ∧ parse b.hex = .ok b ∧
      Hex.Respelled a.text other ∧ Hex.Respelled b.hex other' ∧
      ∃ a' b', parse other = .ok a' ∧ parse other' = .ok b' ∧ compare a' b' = compare a b := by
  intro a b other other'
  have ha : parse a.text = .ok a := Prints.parse_self .text
  have hb : parse b.hex = .ok b := Prints.parse_self .hex
  -- the same digits in capitals, in another frame
  have hother : Hex.Respelled a.text other := by
    refine ⟨Hex.encode a.bytes, (List.replicate 32 ['9', 'F']).flatten,
      Hex.all_isDigitChar_encode _, by decide +kernel, ⟨[], ['0', 'x'], [], ?_⟩,
      ⟨['\n'], ['0', 'X'], [], ?_⟩⟩
    · refine ⟨fun c hc => (nomatch hc), .lower, fun c hc => (nomatch hc), ?_⟩
      rw [List.append_nil]
      exact Hex.toList_marked a.bytes
    · refine ⟨List.forall_mem_singleton.mpr rfl, .upper, fun c hc => (nomatch hc), ?_⟩
      rw [List.append_nil]
      exact String.toList_ofList
  have hother' : Hex.Respelled b.hex other' := by
    refine ⟨Hex.encode b.bytes, (List.replicate 32 ['A', '0']).flatten,
      Hex.all_isDigitChar_encode _, by decide +kernel, ⟨[], [], [], ?_⟩, ⟨[], [], [' '], ?_⟩⟩
    · refine ⟨fun c hc => (nomatch hc), .none, fun c hc => (nomatch hc), ?_⟩
      rw [List.append_nil]
      exact toList_hex b
    · refine ⟨fun c hc => (nomatch hc), .none, List.forall_mem_singleton.mpr rfl, ?_⟩
      exact String.toList_ofList
  exact ⟨by decide +kernel, ha, hb, hother, hother',
    compare_texts.2 _ _ _ _ _ _ ha hb hother hother'⟩

end Digest

end EvmDisasm
