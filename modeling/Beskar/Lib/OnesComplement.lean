import Beskar.Lib.Layout

/-!
# One's Complement Sums

The Internet checksum (RFC 1071) adds the 16-bit words of a buffer in one's complement
arithmetic.  A machine keeps the sum in a wider register and folds the carries back into
the low bits, the end-around carry: `s` becomes `s % 2^16 + s / 2^16`.  Since
`2^16 ≡ 1` modulo `2^16 - 1`, a fold keeps the residue of the sum modulo `2^16 - 1`;
it takes a sum of at least `2^16` to a smaller one, and a non-zero sum to a non-zero one.
The lemmas are stated for any base `m + 1` and modulus `m`.

`wordTotal` is the plain sum of the words, a byte string read in big-endian pairs with an
odd last byte padded with zero.  It adds up over concatenations whose first part has an
even length.
-/

namespace Beskar.Lib

/-! ## §1 The End-Around Carry -/

section Carry

variable (m : Nat) {s : Nat}

/-- **A fold keeps the residue**: `m + 1 ≡ 1` modulo `m`. -/
theorem mod_add_div_mod (s : Nat) : (s % (m + 1) + s / (m + 1)) % m = s % m := by
  -- `s` is its low digit plus `(m + 1)` times the carry, i.e. the fold plus `m` times the carry
  have hs : s = s % (m + 1) + s / (m + 1) + m * (s / (m + 1)) := by
    conv_lhs => rw [← Nat.mod_add_div s (m + 1)]
    rw [Nat.add_one_mul, Nat.add_comm (m * _), Nat.add_assoc, Nat.mul_comm]
  conv_rhs => rw [hs]
  rw [Nat.add_mul_mod_self_left]

/-- A sum with a carry folds to a smaller one, for a base of at least two. -/
theorem mod_add_div_lt (hm : 0 < m) (hs : m + 1 ≤ s) : s % (m + 1) + s / (m + 1) < s := by
  have hq : 0 < s / (m + 1) := Nat.div_pos hs (by omega)
  have hmq : s / (m + 1) < (m + 1) * (s / (m + 1)) := by
    rw [Nat.add_one_mul]
    exact Nat.lt_add_of_pos_left (Nat.mul_pos hm hq)
  have h := Nat.mod_add_div s (m + 1)
  omega

/-- A non-zero sum folds to a non-zero one. -/
theorem mod_add_div_pos (hs : 0 < s) : 0 < s % (m + 1) + s / (m + 1) := by
  have h := Nat.mod_add_div s (m + 1)
  rcases Nat.eq_zero_or_pos (s / (m + 1)) with hq | hq
  · rw [hq, Nat.mul_zero, Nat.add_zero] at h
    omega
  · omega

end Carry

/-! ## §2 Sums of Words -/

/-- The sum of the 16-bit big-endian words of a byte string, an odd last byte padded with
zero. -/
def wordTotal : List UInt8 → Nat
  | a :: b :: rest => a.toNat * 256 + b.toNat + wordTotal rest
  | [a] => a.toNat * 256
  | [] => 0

theorem wordTotal_cons_cons (a b : UInt8) (rest : List UInt8) :
    wordTotal (a :: b :: rest) = a.toNat * 256 + b.toNat + wordTotal rest := rfl

/-- **Word sums add up** over a first part of even length, which ends on a word boundary. -/
theorem wordTotal_append {l₁ : List UInt8} (h : l₁.length % 2 = 0) (l₂ : List UInt8) :
    wordTotal (l₁ ++ l₂) = wordTotal l₁ + wordTotal l₂ := by
  induction l₁ using wordTotal.induct with
  | case1 a b rest ih =>
    have hrest : rest.length % 2 = 0 := by
      rw [List.length_cons, List.length_cons] at h
      omega
    rw [List.cons_append, List.cons_append, wordTotal_cons_cons, wordTotal_cons_cons, ih hrest]
    omega
  | case2 a => simp at h
  | case3 => rw [List.nil_append, wordTotal, Nat.zero_add]

/-- Each word is at most `2^16 - 1`. -/
theorem wordTotal_le (l : List UInt8) : wordTotal l ≤ 65535 * ((l.length + 1) / 2) := by
  induction l using wordTotal.induct with
  | case1 a b rest ih =>
    have ha := a.toNat_lt
    have hb := b.toNat_lt
    rw [wordTotal_cons_cons, List.length_cons, List.length_cons]
    omega
  | case2 a =>
    have ha := a.toNat_lt
    rw [wordTotal, List.length_singleton]
    omega
  | case3 => exact Nat.zero_le _

/-- The one word of a two-byte number. -/
theorem wordTotal_toBeBytes_two (v : Nat) : wordTotal (toBeBytes 2 v) = v % 2 ^ 16 := by
  have h := fromBeBytes_toBeBytes 2 v
  -- both sides read the two bytes as `hi * 256 + lo`
  rw [show toBeBytes 2 v = [(v / 256).toUInt8, v.toUInt8] from rfl] at h ⊢
  rw [wordTotal_cons_cons, wordTotal, Nat.add_zero, show (2 : Nat) ^ 16 = 256 ^ 2 from rfl,
    ← h]
  simp [fromBeBytes]

/-! ## §3 One's Complement Addition

The sum the checksum is specified by: digits below `m + 1` added one at a time, an
overflow past `m` wrapped around with its carry added back.  It is pinned down by three
facts, its bound, its residue modulo `m` and when it is zero, which a fold of carries
also satisfies (`eq_onesSum_of`). -/

section Ones

variable (m : Nat)

/-- One's complement addition: `a + b`, less `m + 1` and plus the carry on an overflow. -/
def onesAdd (a b : Nat) : Nat := if a + b ≤ m then a + b else a + b - m

/-- The one's complement sum of a list of digits, from zero. -/
def onesSum (ws : List Nat) : Nat := ws.foldl (onesAdd m) 0

variable {m} {a b s : Nat}

theorem onesAdd_le (ha : a ≤ m) (hb : b ≤ m) : onesAdd m a b ≤ m := by
  unfold onesAdd
  split <;> omega

theorem onesAdd_mod (a b : Nat) : onesAdd m a b % m = (a + b) % m := by
  unfold onesAdd
  split
  · rfl
  · -- the overflow takes `m` away, which leaves the residue
    rename_i h
    conv_rhs => rw [← Nat.sub_add_cancel (Nat.le_of_lt (Nat.lt_of_not_le h))]
    rw [Nat.add_mod_right]

theorem onesAdd_pos_iff (a b : Nat) : 0 < onesAdd m a b ↔ 0 < a + b := by
  unfold onesAdd
  split <;> omega

/-- The fold from any start `s`: bounded, with the residue of the plain sum. -/
theorem foldl_onesAdd_le {ws : List Nat} (hs : s ≤ m) (hws : ∀ w ∈ ws, w ≤ m) :
    ws.foldl (onesAdd m) s ≤ m := by
  induction ws generalizing s with
  | nil => exact hs
  | cons w ws ih =>
    rw [List.foldl_cons]
    exact ih (onesAdd_le hs (hws w List.mem_cons_self)) fun v hv => hws v (List.mem_cons_of_mem w hv)

theorem foldl_onesAdd_mod (ws : List Nat) (s : Nat) :
    ws.foldl (onesAdd m) s % m = (s + ws.sum) % m := by
  induction ws generalizing s with
  | nil => rw [List.foldl_nil, List.sum_nil, Nat.add_zero]
  | cons w ws ih =>
    rw [List.foldl_cons, ih, Nat.add_mod, onesAdd_mod, ← Nat.add_mod, List.sum_cons,
      Nat.add_assoc]

theorem foldl_onesAdd_pos_iff (ws : List Nat) (s : Nat) :
    0 < ws.foldl (onesAdd m) s ↔ 0 < s + ws.sum := by
  induction ws generalizing s with
  | nil => rw [List.foldl_nil, List.sum_nil, Nat.add_zero]
  | cons w ws ih =>
    rw [List.foldl_cons, ih, List.sum_cons]
    -- the new start is zero exactly when the old start and the digit are
    have h := onesAdd_pos_iff (m := m) s w
    omega

/-- Two digits of at most `m` with one residue modulo `m` are equal, unless one is zero and
the other `m`. -/
theorem eq_of_mod_eq_of_pos_iff {x y : Nat} (hx : x ≤ m) (hy : y ≤ m) (hmod : x % m = y % m)
    (hpos : 0 < x ↔ 0 < y) : x = y := by
  rcases Nat.lt_or_eq_of_le hx with hx' | rfl <;> rcases Nat.lt_or_eq_of_le hy with hy' | hy'
  · rwa [Nat.mod_eq_of_lt hx', Nat.mod_eq_of_lt hy'] at hmod
  · rw [hy', Nat.mod_eq_of_lt hx', Nat.mod_self] at hmod
    omega
  · rw [Nat.mod_self, Nat.mod_eq_of_lt hy'] at hmod
    omega
  · exact hy'.symm

/-- **What pins down the one's complement sum**: a number of at most `m`, with the residue
of the plain sum modulo `m`, and zero exactly when the plain sum is. -/
theorem eq_onesSum_of {ws : List Nat} (hws : ∀ w ∈ ws, w ≤ m) {r : Nat} (hr : r ≤ m)
    (hmod : r % m = ws.sum % m) (hpos : 0 < r ↔ 0 < ws.sum) : r = onesSum m ws := by
  apply eq_of_mod_eq_of_pos_iff hr (foldl_onesAdd_le (Nat.zero_le m) hws)
  · rw [hmod, foldl_onesAdd_mod, Nat.zero_add]
  · rw [hpos, foldl_onesAdd_pos_iff, Nat.zero_add]

end Ones

/-- The 16-bit big-endian words of a byte string, an odd last byte padded with zero. -/
def words : List UInt8 → List Nat
  | a :: b :: rest => (a.toNat * 256 + b.toNat) :: words rest
  | [a] => [a.toNat * 256]
  | [] => []

theorem wordTotal_eq_sum_words (l : List UInt8) : wordTotal l = (words l).sum := by
  induction l using wordTotal.induct with
  | case1 a b rest ih => rw [wordTotal_cons_cons, words, List.sum_cons, ih]
  | case2 a => rw [wordTotal, words, List.sum_singleton]
  | case3 => rfl

theorem le_of_mem_words {l : List UInt8} {w : Nat} (hw : w ∈ words l) : w ≤ 65535 := by
  induction l using wordTotal.induct with
  | case1 a b rest ih =>
    have ha := a.toNat_lt
    have hb := b.toNat_lt
    rw [words, List.mem_cons] at hw
    rcases hw with rfl | hw
    · omega
    · exact ih hw
  | case2 a =>
    have ha := a.toNat_lt
    rw [words, List.mem_singleton] at hw
    omega
  | case3 => simp [words] at hw

end Beskar.Lib
