import EvmDisasm.Basic
import Mathlib.Algebra.Group.Nat.Defs

/-!
# Byte strings as numbers

`bigEndian` reads a byte string as the digits of a number to the base 256. Bytes that are put behind
others move those up (`bigEndian_append`). Zeros in front therefore change nothing
(`bigEndian_replicate_append`), and every zero behind multiplies by 256
(`bigEndian_append_replicate`).
-/

namespace EvmDisasm

/-- The fold of `bigEndian` with any number in front of the bytes. -/
theorem foldl_eq_add_bigEndian (n : Nat) (bytes : Bytes) :
    bytes.foldl (fun n b => 256 * n + b.toNat) n = n * 256 ^ bytes.length + bigEndian bytes := by
  unfold bigEndian
  induction bytes generalizing n with
  | nil => simp
  | cons b rest ih =>
    have hdigit : (256 * n + b.toNat) * 256 ^ rest.length =
        n * 256 ^ (rest.length + 1) + b.toNat * 256 ^ rest.length := by
      rw [Nat.add_mul, Nat.pow_succ, Nat.mul_comm 256 n, Nat.mul_assoc, Nat.mul_comm 256]
    rw [List.foldl_cons, List.foldl_cons, ih, ih (256 * 0 + b.toNat), hdigit, List.length_cons,
      Nat.mul_zero, Nat.zero_add, Nat.add_assoc]

/-- **Bytes behind others move those up.** Each byte that follows makes the number in front of it
256 times as large. -/
theorem bigEndian_append (front rest : Bytes) :
    bigEndian (front ++ rest) = bigEndian front * 256 ^ rest.length + bigEndian rest := by
  show (front ++ rest).foldl _ 0 = _
  rw [List.foldl_append, foldl_eq_add_bigEndian]
  rfl

@[simp] theorem bigEndian_replicate_zero (n : Nat) : bigEndian (List.replicate n 0) = 0 := by
  induction n with
  | zero => rfl
  | succ n ih =>
    show bigEndian ([0] ++ List.replicate n 0) = 0
    rw [bigEndian_append, ih]
    simp [bigEndian]

/-- Zeros in front of a number do not change it, which is why a shorter immediate can be padded on
the left. -/
theorem bigEndian_replicate_append (n : Nat) (bytes : Bytes) :
    bigEndian (List.replicate n 0 ++ bytes) = bigEndian bytes := by
  rw [bigEndian_append, bigEndian_replicate_zero, Nat.zero_mul, Nat.zero_add]

/-- Zeros behind a number move it up, as they do where code ends inside an immediate. -/
theorem bigEndian_append_replicate (bytes : Bytes) (n : Nat) :
    bigEndian (bytes ++ List.replicate n 0) = bigEndian bytes * 256 ^ n := by
  rw [bigEndian_append, bigEndian_replicate_zero, List.length_replicate, Nat.add_zero]

/-- The first byte is the highest digit. This is `bigEndian_append` for one byte in front. -/
theorem bigEndian_cons (b : UInt8) (rest : Bytes) :
    bigEndian (b :: rest) = b.toNat * 256 ^ rest.length + bigEndian rest := by
  show bigEndian ([b] ++ rest) = _
  rw [bigEndian_append]
  simp [bigEndian]

/-- A number of `n` digits to the base 256 is below `256 ^ n`. -/
theorem bigEndian_lt (bytes : Bytes) : bigEndian bytes < 256 ^ bytes.length := by
  induction bytes with
  | nil => decide
  | cons b rest ih =>
    have hb : b.toNat < 256 := b.toNat_lt
    -- the digits behind the first one never make up for one step of it
    calc bigEndian (b :: rest)
        = b.toNat * 256 ^ rest.length + bigEndian rest := bigEndian_cons b rest
      _ < (b.toNat + 1) * 256 ^ rest.length := by
          rw [Nat.add_mul, Nat.one_mul]
          omega
      _ ≤ 256 * 256 ^ rest.length := Nat.mul_le_mul_right _ (by omega)
      _ = 256 ^ (b :: rest).length := by
          rw [List.length_cons, Nat.pow_succ, Nat.mul_comm]

end EvmDisasm
