import Mathlib

/-!
# Indices in a Ring of Slots

A ring buffer of `size` slots keeps a read index and a write index below `size` and steps
each by `(i + 1) % size`. The items lie in the slots `(head + k) % size` for `k` below the
distance from the read index forward to the write index, `ringDist`, the two-branch
formula such buffers compute as their length.

The lemmas say how that distance moves when either index steps, that the slots of distinct
offsets below `size` are distinct, and that stepping the read index shifts every offset
by one.
-/

namespace Beskar.Lib

variable {size head tail k j : Nat}

/-- The distance from `head` forward to `tail` in a ring of `size` slots. -/
def ringDist (head tail size : Nat) : Nat :=
  if head ≤ tail then tail - head else size - head + tail

theorem ringDist_lt (hh : head < size) (ht : tail < size) : ringDist head tail size < size := by
  unfold ringDist
  split <;> omega

/-- Going the distance forward from `head` reaches `tail`. -/
theorem add_ringDist_mod (hh : head < size) (ht : tail < size) :
    (head + ringDist head tail size) % size = tail := by
  unfold ringDist
  split
  · rw [Nat.add_sub_cancel' ‹_›]
    exact Nat.mod_eq_of_lt ht
  · rw [show head + (size - head + tail) = tail + size by omega, Nat.add_mod_right]
    exact Nat.mod_eq_of_lt ht

theorem ringDist_eq_zero_iff (hh : head < size) :
    ringDist head tail size = 0 ↔ head = tail := by
  unfold ringDist
  split <;> omega

/-- One step on, wrapping at `size`. -/
theorem succ_mod_eq {a : Nat} (ha : a < size) : (a + 1) % size = if a + 1 < size then a + 1 else 0 := by
  split
  · exact Nat.mod_eq_of_lt ‹_›
  · rw [show a + 1 = size by omega, Nat.mod_self]

/-- Stepping the write index lengthens the distance by one, short of a full turn. -/
theorem ringDist_succ_tail (hh : head < size) (ht : tail < size)
    (hlt : ringDist head tail size + 1 < size) :
    ringDist head ((tail + 1) % size) size = ringDist head tail size + 1 := by
  rw [succ_mod_eq ht]
  unfold ringDist at hlt ⊢
  split_ifs at hlt ⊢ <;> omega

/-- The write index is one step behind the read index exactly when the distance is one
short of a full turn: the slot a full ring keeps free. -/
theorem succ_mod_eq_iff (hh : head < size) (ht : tail < size) :
    (tail + 1) % size = head ↔ ringDist head tail size + 1 = size := by
  rw [succ_mod_eq ht]
  unfold ringDist
  split_ifs <;> omega

/-- Stepping the read index shortens a non-zero distance by one. -/
theorem ringDist_succ_head (hh : head < size) (ht : tail < size) (hne : head ≠ tail) :
    ringDist ((head + 1) % size) tail size = ringDist head tail size - 1 := by
  rw [succ_mod_eq hh]
  unfold ringDist
  split_ifs <;> omega

/-- Distinct offsets within one turn are distinct slots. -/
theorem add_mod_ne (hk : k < j) (hj : j < size) : (head + k) % size ≠ (head + j) % size := by
  intro h
  have hdvd : (head + j - (head + k)) % size = 0 := Nat.sub_mod_eq_zero_of_mod_eq h.symm
  rw [show head + j - (head + k) = j - k by omega, Nat.mod_eq_of_lt (by omega)] at hdvd
  omega

/-- Stepping the read index shifts every offset by one. -/
theorem succ_mod_add_mod : ((head + 1) % size + k) % size = (head + (k + 1)) % size := by
  rw [Nat.mod_add_mod, Nat.add_assoc, Nat.add_comm 1 k]

end Beskar.Lib
