import Mathlib

/-!
# Masks, Shifts and Ors as Arithmetic

Packed fields are written in the code with masks, shifts and ors. The lemmas here turn
each of these into addition, division or remainder by a power of two, where `omega`
closes what follows.

- `or_shiftLeft_eq_add`: joining a low part and a shifted high part is a sum.
- `or_two_pow_mul_eq_add`: the same with the high part already shifted.
- `shiftLeft_or_eq_add`, `shiftLeft_or_shiftLeft`: a packed word, fields written high to
  low, as a sum.
- `and_two_pow_mul`: a mask of whole bits above bit `k` keeps the bits of `x / 2 ^ k`.
- `toNat_toUInt8`: a cast to a byte keeps the low eight bits.

The low masks, `x &&& 2 ^ n - 1 = x % 2 ^ n` and `x >>> n = x / 2 ^ n`, are core's
`Nat.and_two_pow_sub_one_eq_mod` and `Nat.shiftRight_eq_div_pow`.
-/

namespace Beskar.Lib

/-- Or-ing in a value shifted above all bits of `a` is addition. -/
theorem or_shiftLeft_eq_add {a n : Nat} (ha : a < 2 ^ n) (b : Nat) :
    a ||| b <<< n = a + 2 ^ n * b := by
  rw [Nat.or_comm, Nat.shiftLeft_eq, Nat.mul_comm, ← Nat.two_pow_add_eq_or_of_lt ha,
    Nat.add_comm]

/-- Or-ing a value below bit `n` into a multiple of `2 ^ n` is addition. -/
theorem or_two_pow_mul_eq_add {b n : Nat} (a : Nat) (hb : b < 2 ^ n) :
    2 ^ n * a ||| b = 2 ^ n * a + b :=
  (Nat.two_pow_add_eq_or_of_lt hb a).symm

/-- Or-ing a value below bit `n` into a value shifted by `n` is addition. -/
theorem shiftLeft_or_eq_add {a b n : Nat} (hb : b < 2 ^ n) : a <<< n ||| b = 2 ^ n * a + b := by
  rw [Nat.shiftLeft_eq, Nat.mul_comm]
  exact or_two_pow_mul_eq_add a hb

/-- Two fields shifted into place, the lower one narrower than the gap between them, are
one value shifted into place. -/
theorem shiftLeft_or_shiftLeft {a b m n : Nat} (hnm : n ≤ m) (hb : b < 2 ^ (m - n)) :
    a <<< m ||| b <<< n = (2 ^ (m - n) * a + b) <<< n := by
  rw [← shiftLeft_or_eq_add hb, Nat.shiftLeft_or_distrib, ← Nat.shiftLeft_add,
    Nat.sub_add_cancel hnm]

/-- A mask of whole bits from bit `k` on keeps the bits of `x / 2 ^ k` the mask has. -/
theorem and_two_pow_mul (x k m : Nat) : x &&& 2 ^ k * m = 2 ^ k * (x / 2 ^ k &&& m) := by
  apply Nat.eq_of_testBit_eq
  intro j
  simp only [Nat.testBit_and, Nat.testBit_two_pow_mul, Nat.testBit_div_two_pow]
  -- below bit `k` both sides are clear; from bit `k` on they read the same bit of `x`
  by_cases hj : k ≤ j
  · simp [hj, Nat.sub_add_cancel hj]
  · simp [hj]

/-- A number cut to a byte, as `as u8` does. -/
theorem toNat_toUInt8 (n : Nat) : n.toUInt8.toNat = n % 256 :=
  UInt8.toNat_ofNat'

end Beskar.Lib
