import EvmDisasm.Hex

/-!
# Hexadecimal texts read back

Numbers and strings of bytes are written with the mark of hexadecimal and digits after it. Here are
the readers at the other end: `toNumber?` gives back what `number` was given, however many digits it
was told to write, and `ofMarked?` what `marked` was given. `number_eq_marked` is where the two ways
of writing meet: a byte has the same text as a number and as a string of one byte.

The texts consist of digits and the mark only (`mem_number`, `mem_marked`), so they may stand
between blanks and line feeds.
-/

namespace EvmDisasm.Hex

/-! ## Digits

The digits of numbers and those of bytes come from different writers. What is said of both is that
they are digits, and how many and what they are worth is said of each. -/

theorem isDigitChar_digitChar {n : Nat} (h : n < 16) : isDigitChar (Nat.digitChar n) = true := by
  have key : ∀ n : Fin 16, isDigitChar (Nat.digitChar n) = true := by decide
  exact key ⟨n, h⟩

theorem isDigitChar_of_mem_toDigits {n : Nat} {c : Char} (h : c ∈ Nat.toDigits 16 n) :
    isDigitChar c = true := by
  -- on the number: its last digit stands behind those of its sixteenth part
  induction n using Nat.strongRecOn with
  | _ n ih =>
    rw [Nat.toDigits_eq_if (by decide)] at h
    split at h
    · rename_i hlt
      rw [List.mem_singleton] at h
      rw [h]
      exact isDigitChar_digitChar hlt
    · rcases List.mem_append.mp h with hhigh | hlow
      · exact ih (n / 16) (by omega) hhigh
      · rw [List.mem_singleton] at hlow
        rw [hlow]
        exact isDigitChar_digitChar (Nat.mod_lt n (by decide))

theorem isDigitChar_of_mem_encode {bytes : Bytes} {c : Char} (h : c ∈ encode bytes) :
    isDigitChar c = true := by
  obtain ⟨b, -, hc⟩ := List.mem_flatMap.mp h
  have hb := b.toNat_lt
  simp only [byteDigits, List.mem_cons, List.not_mem_nil, or_false] at hc
  rcases hc with rfl | rfl
  · exact isDigitChar_digitChar (by omega)
  · exact isDigitChar_digitChar (by omega)

theorem length_encode (bytes : Bytes) : (encode bytes).length = 2 * bytes.length := by
  induction bytes with
  | nil => rfl
  | cons b rest ih =>
    have hcons : encode (b :: rest) = byteDigits b ++ encode rest := rfl
    rw [hcons, List.length_append, ih, List.length_cons]
    show 2 + 2 * rest.length = 2 * (rest.length + 1)
    omega

/-- One more digit makes a number 16 times as large and adds its own value. -/
theorem value_append_singleton (digits : List Char) {n : Nat} (h : n < 16) :
    value (digits ++ [Nat.digitChar n]) = 16 * value digits + n := by
  have hdigit : digitValue? (UInt8.ofNat (Nat.digitChar n).toNat) = some n :=
    digitValue?_digitByte h
  rw [value, List.foldl_append, List.foldl_cons, List.foldl_nil, hdigit]
  rfl

theorem value_toDigits (n : Nat) : value (Nat.toDigits 16 n) = n := by
  induction n using Nat.strongRecOn with
  | _ n ih =>
    rw [Nat.toDigits_eq_if (by decide)]
    split
    · rename_i hlt
      have hone := value_append_singleton [] hlt
      rwa [List.nil_append, show value [] = 0 from rfl, Nat.mul_zero, Nat.zero_add] at hone
    · rw [value_append_singleton _ (Nat.mod_lt n (by decide)), ih (n / 16) (by omega)]
      omega

/-- Zeros in front of a number do not count. -/
theorem value_replicate_zero_append (k : Nat) (digits : List Char) :
    value (List.replicate k '0' ++ digits) = value digits := by
  induction k with
  | zero => rfl
  | succ k ih =>
    rw [← ih]
    rfl

/-! ## Reading back

A number may be padded with zeros on the left, which the reader does not notice. -/

theorem toList_number (width n : Nat) :
    (number width n).toList = '0' :: 'x' :: (Nat.toDigits 16 n).leftpad width '0' := by
  simp only [number, String.toList_append, String.toList_ofList]
  rfl

theorem toList_marked (bytes : Bytes) : (marked bytes).toList = '0' :: 'x' :: encode bytes := by
  simp only [marked, String.toList_append, String.toList_ofList]
  rfl

theorem isDigitChar_of_mem_leftpad {width n : Nat} {c : Char}
    (h : c ∈ (Nat.toDigits 16 n).leftpad width '0') : isDigitChar c = true := by
  rw [List.leftpad, List.mem_append] at h
  rcases h with hzero | hdigit
  · rw [List.eq_of_mem_replicate hzero]
    rfl
  · exact isDigitChar_of_mem_toDigits hdigit

/-- **A number is read back**, whatever it was padded to. -/
theorem toNumber?_number (width n : Nat) : toNumber? (number width n).toList = some n := by
  have hne : ((Nat.toDigits 16 n).leftpad width '0').isEmpty = false := by
    simp
  have hdigits : ((Nat.toDigits 16 n).leftpad width '0').all isDigitChar = true :=
    List.all_eq_true.mpr fun c hc => isDigitChar_of_mem_leftpad hc
  have hvalue : value ((Nat.toDigits 16 n).leftpad width '0') = n := by
    rw [List.leftpad, value_replicate_zero_append, value_toDigits]
  rw [toList_number, toNumber?, hne, hdigits, hvalue]
  rfl

/-- **A string of bytes is read back.** -/
theorem ofMarked?_marked (bytes : Bytes) : ofMarked? (marked bytes).toList = some bytes := by
  rw [toList_marked, ofMarked?, decode_encode]
  rfl

/-- A byte has the same text in both ways of writing. -/
theorem number_eq_marked (b : UInt8) : number 2 b.toNat = marked [b] := by
  -- only a byte below 16 is padded, so all of them are gone through
  have key : ∀ n : Fin 256, (Nat.toDigits 16 n).leftpad 2 '0' =
      [Nat.digitChar (n / 16), Nat.digitChar (n % 16)] := by
    decide +kernel
  have hb := key ⟨b.toNat, b.toNat_lt⟩
  rw [number, marked, hb]
  rfl

/-! ## The characters of the texts

The mark is not made of digits alone: its letter is the one other character. -/

/-- A number is made of digits and the letter of the mark. -/
theorem mem_number {width n : Nat} {c : Char} (h : c ∈ (number width n).toList) :
    c = 'x' ∨ isDigitChar c = true := by
  rw [toList_number, List.mem_cons, List.mem_cons] at h
  rcases h with rfl | rfl | hdigit
  · exact .inr rfl
  · exact .inl rfl
  · exact .inr (isDigitChar_of_mem_leftpad hdigit)

theorem mem_marked {bytes : Bytes} {c : Char} (h : c ∈ (marked bytes).toList) :
    c = 'x' ∨ isDigitChar c = true := by
  rw [toList_marked, List.mem_cons, List.mem_cons] at h
  rcases h with rfl | rfl | hdigit
  · exact .inr rfl
  · exact .inl rfl
  · exact .inr (isDigitChar_of_mem_encode hdigit)

end EvmDisasm.Hex
