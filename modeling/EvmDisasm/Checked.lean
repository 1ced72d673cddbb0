import EvmDisasm.Basic
import Mathlib.Algebra.Group.Nat.Defs

/-!
# Operations that can fail

Offsets and lengths are words of 64 bits, and what is taken out of a byte string or put into it lies
inside of it. The operations here answer with a failure where that is not so, and not with a number
that has wrapped around or stopped at zero, or with fewer bytes than were asked for.
-/

namespace EvmDisasm.Checked

/-- Why an operation on offsets or bytes cannot be carried out. -/
inductive Failure where
  /-- A sum is too large for an offset. -/
  | overflow
  /-- A difference is less than zero. -/
  | underflow
  /-- A place lies outside of what it is a place in. -/
  | outOfBounds
  /-- There are more or fewer bytes to put somewhere than there is room for. -/
  | lengthMismatch
deriving DecidableEq, Repr

/-- The number of values that an offset can have. -/
def offsetCount : Nat := 2 ^ 64

def add (a b : Nat) : Except Failure Nat :=
  if a + b < offsetCount then .ok (a + b) else .error .overflow

def sub (a b : Nat) : Except Failure Nat :=
  if b ≤ a then .ok (a - b) else .error .underflow

def slice (bytes : Bytes) (start stop : Nat) : Except Failure Bytes :=
  if start ≤ stop ∧ stop ≤ bytes.length then .ok (bytes.extract start stop)
  else .error .outOfBounds

/-- The bytes with all from `start` on replaced by `source`, which has to be as long. -/
def overwrite (bytes : Bytes) (start : Nat) (source : Bytes) : Except Failure Bytes :=
  if bytes.length < start then .error .outOfBounds
  else if (bytes.drop start).length = source.length then .ok (bytes.take start ++ source)
  else .error .lengthMismatch

/-- Behind an operation that goes right, its result is at hand. -/
@[simp] theorem ok_bind {α β : Type} (a : α) (rest : α → Except Failure β) :
    (Except.ok a >>= rest) = rest a := rfl

theorem add_of_lt {a b : Nat} (h : a + b < 2 ^ 64) : add a b = .ok (a + b) :=
  if_pos h

theorem sub_of_le {a b : Nat} (h : b ≤ a) : sub a b = .ok (a - b) :=
  if_pos h

theorem slice_of_le {bytes : Bytes} {start stop : Nat} (hstart : start ≤ stop)
    (hstop : stop ≤ bytes.length) : slice bytes start stop = .ok (bytes.extract start stop) :=
  if_pos ⟨hstart, hstop⟩

theorem overwrite_of_length {bytes source : Bytes} {start : Nat} (hstart : start ≤ bytes.length)
    (hlength : bytes.length - start = source.length) :
    overwrite bytes start source = .ok (bytes.take start ++ source) := by
  unfold overwrite
  rw [if_neg (by omega), if_pos (by rw [List.length_drop, hlength])]

end EvmDisasm.Checked
