import Mathlib

/-!
# Fixed-Width Unsigned Arithmetic

Unsigned machine integers of width `w` are modelled as natural numbers below `2 ^ w`.
Rust gives an unsigned operation one of four behaviours on overflow:

- the plain operators `+`, `-`, `*` panic in a build with overflow checks;
- `checked_*` return `None`;
- `saturating_*` clamp to the range;
- `wrapping_*` reduce modulo `2 ^ w`.

The first two are the same partial function here (`none` on overflow); the model
that uses them says which of the two it stands for.  The simp lemmas below turn each
operation into linear arithmetic, so `omega` closes the goals they leave.
-/

namespace Beskar.Lib

/-! ## §1 Partial Operations -/

/-- Addition at width `w`: the sum, or `none` when it does not fit. -/
def addChecked (w a b : Nat) : Option Nat :=
  if a + b < 2 ^ w then some (a + b) else none

/-- Subtraction: the difference, or `none` when it would go below zero. -/
def subChecked (a b : Nat) : Option Nat :=
  if b ≤ a then some (a - b) else none

/-- Multiplication at width `w`: the product, or `none` when it does not fit. -/
def mulChecked (w a b : Nat) : Option Nat :=
  if a * b < 2 ^ w then some (a * b) else none

@[simp] theorem addChecked_eq_some {w a b c : Nat} :
    addChecked w a b = some c ↔ a + b < 2 ^ w ∧ a + b = c := by
  unfold addChecked; split <;> simp_all

@[simp] theorem addChecked_eq_none {w a b : Nat} :
    addChecked w a b = none ↔ 2 ^ w ≤ a + b := by
  unfold addChecked; split <;> simp_all

@[simp] theorem subChecked_eq_some {a b c : Nat} :
    subChecked a b = some c ↔ b ≤ a ∧ a - b = c := by
  unfold subChecked; split <;> simp_all

@[simp] theorem subChecked_eq_none {a b : Nat} : subChecked a b = none ↔ a < b := by
  unfold subChecked; split <;> simp_all

@[simp] theorem mulChecked_eq_some {w a b c : Nat} :
    mulChecked w a b = some c ↔ a * b < 2 ^ w ∧ a * b = c := by
  unfold mulChecked; split <;> simp_all

theorem addChecked_of_lt {w a b : Nat} (h : a + b < 2 ^ w) : addChecked w a b = some (a + b) :=
  if_pos h

theorem subChecked_of_le {a b : Nat} (h : b ≤ a) : subChecked a b = some (a - b) :=
  if_pos h

theorem mulChecked_of_lt {w a b : Nat} (h : a * b < 2 ^ w) : mulChecked w a b = some (a * b) :=
  if_pos h

/-- Division, which panics on a zero divisor: the quotient, or `none`. -/
def divChecked (a b : Nat) : Option Nat :=
  if 0 < b then some (a / b) else none

/-- `div_ceil`, which panics on a zero divisor: the quotient rounded up, or `none`. -/
def divCeilChecked (a b : Nat) : Option Nat :=
  if 0 < b then some ((a + b - 1) / b) else none

@[simp] theorem divChecked_eq_some {a b c : Nat} :
    divChecked a b = some c ↔ 0 < b ∧ a / b = c := by
  unfold divChecked; split <;> simp_all

@[simp] theorem divCeilChecked_eq_some {a b c : Nat} :
    divCeilChecked a b = some c ↔ 0 < b ∧ (a + b - 1) / b = c := by
  unfold divCeilChecked; split <;> simp_all

theorem divChecked_of_pos {a b : Nat} (h : 0 < b) : divChecked a b = some (a / b) :=
  if_pos h

theorem divCeilChecked_of_pos {a b : Nat} (h : 0 < b) :
    divCeilChecked a b = some ((a + b - 1) / b) :=
  if_pos h

/-- `uW::try_from(a)` of a wider value, as `unwrap` uses it: the value, or `none` when it
does not fit in `w` bits. -/
def narrowChecked (w a : Nat) : Option Nat :=
  if a < 2 ^ w then some a else none

@[simp] theorem narrowChecked_eq_some {w a c : Nat} :
    narrowChecked w a = some c ↔ a < 2 ^ w ∧ a = c := by
  unfold narrowChecked; split <;> simp_all

theorem narrowChecked_of_lt {w a : Nat} (h : a < 2 ^ w) : narrowChecked w a = some a :=
  if_pos h

@[simp] theorem narrowChecked_eq_none {w a : Nat} : narrowChecked w a = none ↔ 2 ^ w ≤ a := by
  unfold narrowChecked; split <;> simp_all

/-- `uW::try_from(a).unwrap_or(uW::MAX)` saturates. -/
theorem narrowChecked_getD_max (w a : Nat) :
    (narrowChecked w a).getD (2 ^ w - 1) = min a (2 ^ w - 1) := by
  unfold narrowChecked
  split <;> simp <;> omega

/-- Addition on a `w`-bit value that fails on overflow, the width kept in the type. -/
def addFin {w : Nat} (a : Fin (2 ^ w)) (b : Nat) : Option (Fin (2 ^ w)) :=
  if h : a.val + b < 2 ^ w then some ⟨a.val + b, h⟩ else none

@[simp] theorem addFin_eq_some {w : Nat} {a c : Fin (2 ^ w)} {b : Nat} :
    addFin a b = some c ↔ a.val + b < 2 ^ w ∧ c.val = a.val + b := by
  unfold addFin
  split
  · constructor
    · rintro ⟨⟩; exact ⟨by assumption, rfl⟩
    · rintro ⟨-, hc⟩; exact congrArg some (Fin.ext hc.symm)
  · simp_all

@[simp] theorem addFin_eq_none {w : Nat} {a : Fin (2 ^ w)} {b : Nat} :
    addFin a b = none ↔ 2 ^ w ≤ a.val + b := by
  unfold addFin; split <;> simp_all

/-! ## §2 Total Operations -/

/-- Addition clamped to the largest value of width `w`. -/
def addSaturating (w a b : Nat) : Nat :=
  min (a + b) (2 ^ w - 1)

/-- Multiplication clamped to the largest value of width `w`. -/
def mulSaturating (w a b : Nat) : Nat :=
  min (a * b) (2 ^ w - 1)

/-- Addition modulo `2 ^ w`. -/
def addWrapping (w a b : Nat) : Nat :=
  (a + b) % 2 ^ w

end Beskar.Lib
