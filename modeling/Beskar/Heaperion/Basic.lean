import Mathlib

/-!
# Heaperion: Errors, Layouts and Size Arithmetic

The shared vocabulary of the `heaperion` allocators (`heaperion/src/error.rs`,
`heaperion/src/utils.rs`, and `core::alloc::Layout`).  Addresses and sizes are `usize`
values; the model takes them as natural numbers, as no address of a valid heap region
overflows.

`next_power_of_two` is `2 ^ Nat.clog 2 n`, and `size_to_order` its exponent; the lemmas
say that the order of a size is a block that holds it, and that halving the power of two
above a size gives a block inside it.
-/

namespace Beskar.Heaperion

/-- `HeapError`. -/
inductive HeapError where
  | outOfMemory
  | invalidAlignment
  | invalidSize
  | invalidLayout
  | invalidPointer
  | doubleFree
deriving DecidableEq, Repr

/-- A mapped computation succeeds exactly when the computation does. -/
theorem map_eq_ok {ε α β : Type} {f : α → β} {x : Except ε α} {b : β} :
    x.map f = .ok b ↔ ∃ a, x = .ok a ∧ f a = b := by
  cases x <;> simp [Except.map]

/-- A sequenced computation succeeds exactly when both parts do. -/
theorem bind_eq_ok {ε α β : Type} {x : Except ε α} {f : α → Except ε β} {b : β} :
    (x >>= f) = .ok b ↔ ∃ a, x = .ok a ∧ f a = .ok b := by
  cases x <;> simp [bind, Except.bind]

/-- `core::alloc::Layout`: a size and a power-of-two alignment. -/
structure Layout where
  size : Nat
  align : Nat
  align_pow : ∃ k, align = 2 ^ k
deriving DecidableEq

/-- The lawful `BEq` of allocation records, which their membership tests use. -/
instance : LawfulBEq (Nat × Layout) := inferInstance

/-- `usize::next_power_of_two`: the least power of two at least `n`. -/
def nextPowerOfTwo (n : Nat) : Nat := 2 ^ Nat.clog 2 n

/-- `align_up`: for a power-of-two `align`, `& !(align - 1)` clears the low bits, that is
the remainder by `align`. -/
def alignUp (addr align : Nat) : Nat :=
  (addr + align - 1) - (addr + align - 1) % align

/-- `size_to_order`: `usize::BITS - next_power.leading_zeros() - 1`, the position of the
highest bit of `next_power_of_two(size)`. -/
def sizeToOrder (size : Nat) : Nat :=
  if size ≤ 1 then 0 else Nat.log2 (nextPowerOfTwo size)

/-- `order_to_size`: `1 << order`. -/
def orderToSize (order : Nat) : Nat := 2 ^ order

theorem le_nextPowerOfTwo (n : Nat) : n ≤ nextPowerOfTwo n :=
  Nat.le_pow_clog (by decide) n

theorem sizeToOrder_eq (size : Nat) : sizeToOrder size = Nat.clog 2 size := by
  unfold sizeToOrder nextPowerOfTwo
  split
  · rename_i h
    exact (Nat.clog_of_right_le_one h 2).symm
  · rw [Nat.log2_two_pow]

/-- The block of a size's order holds it. -/
theorem le_orderToSize_sizeToOrder (size : Nat) : size ≤ orderToSize (sizeToOrder size) := by
  rw [orderToSize, sizeToOrder_eq]
  exact Nat.le_pow_clog (by decide) size

/-- The order of a power of two is its exponent. -/
theorem sizeToOrder_two_pow (k : Nat) : sizeToOrder (2 ^ k) = k := by
  rw [sizeToOrder_eq, Nat.clog_pow 2 k (by decide)]

/-- Halving the power of two above a size lowers its order by one. -/
theorem sizeToOrder_half (n : Nat) : sizeToOrder (nextPowerOfTwo n / 2) = Nat.clog 2 n - 1 := by
  unfold nextPowerOfTwo
  cases Nat.clog 2 n with
  | zero => simp [sizeToOrder]
  | succ k =>
    rw [Nat.pow_succ, Nat.mul_div_cancel _ (by decide), sizeToOrder_two_pow, Nat.add_sub_cancel]

/-- Half the power of two above a size is a block inside it. -/
theorem orderToSize_half_le {size : Nat} (hpos : 0 < size) :
    orderToSize (sizeToOrder (nextPowerOfTwo size / 2)) ≤ size := by
  rw [sizeToOrder_half, orderToSize]
  rcases Nat.lt_or_ge 1 size with hsize | hsize
  · -- `2 ^ (clog - 1)` is the power of two below `size`
    have hlt := Nat.pow_pred_clog_lt_self (b := 2) (by decide) hsize
    exact Nat.le_of_lt hlt
  · rw [Nat.clog_of_right_le_one hsize]
    exact hpos

/-- `align_up` rounds up to a multiple of `align`, by less than `align`. -/
theorem alignUp_spec (addr : Nat) {align : Nat} (h : 0 < align) :
    addr ≤ alignUp addr align ∧ alignUp addr align < addr + align ∧ align ∣ alignUp addr align := by
  unfold alignUp
  have hmod := Nat.mod_lt (addr + align - 1) h
  refine ⟨?_, ?_, Nat.dvd_sub_mod _⟩
  · -- the remainder is below `align`, so at most `align - 1` is taken off
    omega
  · have := Nat.mod_le (addr + align - 1) align
    omega

end Beskar.Heaperion
