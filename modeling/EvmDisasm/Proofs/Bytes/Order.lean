import EvmDisasm.Proofs.Bytes.BigEndian

/-!
# The order of byte strings

Byte strings are ordered like words in a dictionary: the first place where they differ decides. So a
front of one length decides before what follows it (`compare_append`), and numbers behave alike,
whose higher digits decide before the lower ones (`compare_mul_add`). Byte strings of one length are
therefore in the order of the numbers that they stand for (`compare_bigEndian`).
-/

namespace EvmDisasm

/-- Bytes are in the order of their values. -/
theorem compare_eq_compare_toNat (a b : UInt8) : compare a b = compare a.toNat b.toNat := by
  show compareOfLessAndEq a b = compareOfLessAndEq a.toNat b.toNat
  unfold compareOfLessAndEq
  simp only [UInt8.lt_iff_toNat_lt, UInt8.toNat_inj]

/-- **Fronts of one length decide first.** Only if they are the same does what follows them have a
say. -/
theorem compare_append {α : Type} [Ord α] {front front' : List α}
    (h : front.length = front'.length) (rest rest' : List α) :
    compare (front ++ rest) (front' ++ rest') = (compare front front').then (compare rest rest') := by
  -- the two fronts are taken apart together, so the second one varies
  induction front generalizing front' with
  | nil =>
    rw [List.length_nil] at h
    rw [List.length_eq_zero_iff.mp h.symm]
    rfl
  | cons x front ih =>
    obtain ⟨y, front', rfl⟩ := List.exists_cons_of_length_eq_add_one h.symm
    have hlength : front.length = front'.length := Nat.succ.inj h
    rw [List.cons_append, List.cons_append, List.compare_cons_cons, List.compare_cons_cons,
      ih hlength, Ordering.then_assoc]

/-- High parts of numbers decide first, to a base that both low parts stay below. -/
theorem compare_mul_add {base low low' : Nat} (high high' : Nat) (h : low < base)
    (h' : low' < base) :
    compare (high * base + low) (high' * base + low') =
      (compare high high').then (compare low low') := by
  -- a low part is less than one step of the high part, so it cannot make up for one
  rcases Nat.lt_trichotomy high high' with hlt | rfl | hgt
  · have hle : (high + 1) * base ≤ high' * base := Nat.mul_le_mul_right base hlt
    rw [Nat.add_mul, Nat.one_mul] at hle
    rw [Nat.compare_eq_lt.mpr hlt, Nat.compare_eq_lt.mpr (by omega)]
    rfl
  · have hsame : compare high high = .eq := Nat.compare_eq_eq.mpr rfl
    rw [hsame]
    show _ = compare low low'
    rw [Nat.compare_eq_ite_lt, Nat.compare_eq_ite_lt]
    simp only [Nat.add_lt_add_iff_left]
  · have hle : (high' + 1) * base ≤ high * base := Nat.mul_le_mul_right base hgt
    rw [Nat.add_mul, Nat.one_mul] at hle
    rw [Nat.compare_eq_gt.mpr hgt, Nat.compare_eq_gt.mpr (by omega)]
    rfl

/-- **Byte strings of one length are in the order of their numbers.** Of different lengths they need
not be, because zeros in front count for one and not for the other. -/
theorem compare_bigEndian {a b : Bytes} (h : a.length = b.length) :
    compare (bigEndian a) (bigEndian b) = compare a b := by
  induction a generalizing b with
  | nil =>
    rw [List.length_nil] at h
    rw [List.length_eq_zero_iff.mp h.symm]
    rfl
  | cons x a ih =>
    obtain ⟨y, b, rfl⟩ := List.exists_cons_of_length_eq_add_one h.symm
    have hlength : a.length = b.length := Nat.succ.inj h
    have hb := bigEndian_lt b
    rw [← hlength] at hb
    -- the first byte is the highest digit
    rw [bigEndian_cons, bigEndian_cons, ← hlength, compare_mul_add _ _ (bigEndian_lt a) hb,
      ih hlength, ← compare_eq_compare_toNat, List.compare_cons_cons]

end EvmDisasm
