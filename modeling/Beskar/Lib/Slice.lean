import Mathlib

/-!
# Bounds-Checked Slices

Rust's slice operations on a buffer modelled as a list.  Each one either returns what
the safe operation returns or panics (`none`) where the operation panics:

- `sliceRange data a b` is `&data[a..b]`, which panics unless `a ≤ b ≤ data.len()`;
- `sliceFrom data a` is `&data[a..]`, which panics unless `a ≤ data.len()`;
- `splitAt data mid` is `data.split_at(mid)`, which panics unless `mid ≤ data.len()`;
- `readBe data a b` is `T::from_be_bytes(data[a..b].try_into().unwrap())`, a big-endian
  integer read from the `b - a` bytes of a range (the `try_into` to an array of that
  length cannot fail once the range is in bounds);
- `leField data a n` is the little-endian number in the `n` bytes from `a`, as an
  unaligned read of a `repr(C)` record of `u64` words decodes it on a little-endian target.

A single index `data[i]` is `data[i]?`, and a store `data[i] = a` is `List.set`.
`swapRemove l i` is `Vec::swap_remove`, the way an array with a length deletes entry `i`:
the last entry takes its place.  `Memory` is memory byte by byte, with the raw-pointer
writes `writeBytes` and `zeroBytes`.  The lemmas say exactly when each operation
panics and what it returns otherwise, so that a parser built from them can be
characterised without unfolding them.
-/

namespace Beskar.Lib

universe u

variable {α : Type u}

/-! ## §1 Operations -/

/-- `&data[a..b]`. -/
def sliceRange (data : List α) (a b : Nat) : Option (List α) :=
  if a ≤ b ∧ b ≤ data.length then some ((data.drop a).take (b - a)) else none

/-- `&data[a..]`. -/
def sliceFrom (data : List α) (a : Nat) : Option (List α) :=
  if a ≤ data.length then some (data.drop a) else none

/-- `data.split_at(mid)`. -/
def splitAt (data : List α) (mid : Nat) : Option (List α × List α) :=
  if mid ≤ data.length then some (data.take mid, data.drop mid) else none

/-- `from_be_bytes`: the bytes read as a big-endian number. -/
def fromBeBytes (bytes : List UInt8) : Nat :=
  bytes.foldl (fun acc b => acc * 256 + b.toNat) 0

/-- `T::from_be_bytes(data[a..b].try_into().unwrap())`. -/
def readBe (data : List UInt8) (a b : Nat) : Option Nat :=
  (sliceRange data a b).map fromBeBytes

/-- The big-endian number in the bytes `a..b` of `data`, whether or not they are in
bounds: the value `readBe` returns when it does not panic. -/
def beField (data : List UInt8) (a b : Nat) : Nat :=
  fromBeBytes ((data.drop a).take (b - a))

/-- `from_le_bytes`: the bytes read as a little-endian number. -/
def fromLeBytes (bytes : List UInt8) : Nat :=
  bytes.foldr (fun b acc => b.toNat + 256 * acc) 0

/-- The little-endian number in the `n` bytes of `data` from `a`. -/
def leField (data : List UInt8) (a n : Nat) : Nat :=
  fromLeBytes ((data.drop a).take n)

/-- `data[a..][..src.len()].copy_from_slice(src)`: `src` written over `data` from `a`; it
panics unless the range is in bounds. -/
def copyIntoSlice (data : List α) (a : Nat) (src : List α) : Option (List α) :=
  if a + src.length ≤ data.length then some (data.take a ++ src ++ data.drop (a + src.length))
  else none

/-- `data[a..b].copy_from_slice(src)`: `src` written over the range; it panics unless the
range is in bounds and as long as `src`. -/
def copyFromSlice (data : List α) (a b : Nat) (src : List α) : Option (List α) :=
  if a ≤ b ∧ b ≤ data.length ∧ src.length = b - a then some (data.take a ++ src ++ data.drop b)
  else none

/-- `data[i] = v`: it panics unless `i < data.len()`. -/
def store (data : List α) (i : Nat) (v : α) : Option (List α) :=
  if i < data.length then some (data.set i v) else none

/-! ## §2 When They Panic -/

@[simp] theorem sliceRange_eq_none_iff {data : List α} {a b : Nat} :
    sliceRange data a b = none ↔ ¬ (a ≤ b ∧ b ≤ data.length) := by
  unfold sliceRange
  split <;> simp_all

theorem sliceRange_of_le {data : List α} {a b : Nat} (hab : a ≤ b) (hb : b ≤ data.length) :
    sliceRange data a b = some ((data.drop a).take (b - a)) :=
  if_pos ⟨hab, hb⟩

/-- The range a slice that did not panic returns, and the bounds it checked. -/
theorem sliceRange_eq_some_iff {data s : List α} {a b : Nat} :
    sliceRange data a b = some s ↔ (a ≤ b ∧ b ≤ data.length) ∧ (data.drop a).take (b - a) = s := by
  unfold sliceRange
  split
  · rename_i hin
    simp [hin]
  · rename_i hin
    simp only [reduceCtorEq, false_iff, not_and]
    exact fun h => absurd h hin

/-- An in-bounds range has exactly `b - a` elements. -/
theorem length_of_sliceRange_eq_some {data s : List α} {a b : Nat}
    (h : sliceRange data a b = some s) : s.length = b - a := by
  unfold sliceRange at h
  split at h
  · rename_i hin
    cases h
    simp only [List.length_take, List.length_drop]
    omega
  · cases h

@[simp] theorem sliceFrom_eq_none_iff {data : List α} {a : Nat} :
    sliceFrom data a = none ↔ data.length < a := by
  unfold sliceFrom
  split <;> simp_all

theorem sliceFrom_of_le {data : List α} {a : Nat} (h : a ≤ data.length) :
    sliceFrom data a = some (data.drop a) :=
  if_pos h

theorem sliceFrom_eq_some_iff {data s : List α} {a : Nat} :
    sliceFrom data a = some s ↔ a ≤ data.length ∧ data.drop a = s := by
  unfold sliceFrom
  split
  · rename_i hin
    simp [hin]
  · rename_i hin
    simp [hin]

@[simp] theorem splitAt_eq_none_iff {data : List α} {mid : Nat} :
    splitAt data mid = none ↔ data.length < mid := by
  unfold splitAt
  split <;> simp_all

theorem splitAt_of_le {data : List α} {mid : Nat} (h : mid ≤ data.length) :
    splitAt data mid = some (data.take mid, data.drop mid) :=
  if_pos h

@[simp] theorem readBe_eq_none_iff {data : List UInt8} {a b : Nat} :
    readBe data a b = none ↔ ¬ (a ≤ b ∧ b ≤ data.length) := by
  simp [readBe]

/-- An in-bounds index `data[i]` reads the element `getD` names. -/
theorem getElem?_of_lt {data : List α} {i : Nat} (d : α) (h : i < data.length) :
    data[i]? = some (data.getD i d) := by
  rw [List.getD_eq_getElem?_getD, List.getElem?_eq_getElem h, Option.getD_some]

theorem readBe_of_le {data : List UInt8} {a b : Nat} (hab : a ≤ b) (hb : b ≤ data.length) :
    readBe data a b = some (beField data a b) := by
  rw [readBe, sliceRange_of_le hab hb, Option.map_some, beField]

/-- A read that did not panic returns the field. -/
theorem eq_beField_of_readBe_eq_some {data : List UInt8} {a b v : Nat}
    (h : readBe data a b = some v) : v = beField data a b := by
  obtain ⟨s, hs, rfl⟩ := Option.map_eq_some_iff.mp h
  obtain ⟨-, rfl⟩ := sliceRange_eq_some_iff.mp hs
  rfl

/-- A store is a one-element copy. -/
theorem store_eq_copyFromSlice (data : List α) (i : Nat) (v : α) :
    store data i v = copyFromSlice data i (i + 1) [v] := by
  unfold store copyFromSlice
  by_cases hi : i < data.length
  · rw [if_pos hi, if_pos ⟨by omega, hi, by simp⟩, List.set_eq_take_append_cons_drop, if_pos hi]
    simp
  · rw [if_neg hi, if_neg (by omega)]

/-- The buffer a write that did not panic returns, and the bounds it checked. -/
theorem copyFromSlice_eq_some_iff {data src d : List α} {a b : Nat} :
    copyFromSlice data a b src = some d ↔
      (a ≤ b ∧ b ≤ data.length ∧ src.length = b - a) ∧ data.take a ++ src ++ data.drop b = d := by
  unfold copyFromSlice
  split
  · rename_i hin
    simp [hin]
  · rename_i hin
    simp only [reduceCtorEq, false_iff, not_and]
    exact fun h => absurd h hin

/-- A write that did not panic keeps the length. -/
theorem length_of_copyFromSlice_eq_some {data src d : List α} {a b : Nat}
    (h : copyFromSlice data a b src = some d) : d.length = data.length := by
  obtain ⟨⟨hab, hb, hs⟩, rfl⟩ := copyFromSlice_eq_some_iff.mp h
  simp only [List.length_append, List.length_take, List.length_drop, hs]
  omega

/-- A write over a prefix of known length and a middle part as long as the source: the
middle part is replaced. -/
theorem copyFromSlice_append_of {pre mid post src : List α} {a b : Nat} (ha : pre.length = a)
    (hb : a + mid.length = b) (hs : src.length = mid.length) :
    copyFromSlice (pre ++ (mid ++ post)) a b src = some (pre ++ (src ++ post)) := by
  subst ha hb
  rw [copyFromSlice, if_pos ⟨by omega, by simp, by omega⟩]
  simp

/-- A read of the middle part of a buffer after a prefix of known length. -/
theorem sliceRange_append_of {pre mid post : List α} {a b : Nat} (ha : pre.length = a)
    (hb : a + mid.length = b) : sliceRange (pre ++ (mid ++ post)) a b = some mid := by
  subst ha hb
  rw [sliceRange, if_pos ⟨by omega, by simp⟩]
  simp

/-- The first element of a non-empty middle part, read after a prefix of known length. -/
theorem getElem?_append_of {pre mid post : List α} {a : Nat} (ha : pre.length = a)
    (hm : 0 < mid.length) : (pre ++ (mid ++ post))[a]? = mid[0]? := by
  subst ha
  rw [List.getElem?_append_right (Nat.le_refl _), Nat.sub_self, List.getElem?_append_left hm]

/-! ## §3 Stores and Counts -/

/-- `data[i] = a` as `List.set`: a read at `j` sees the store when it is at `j` and in
bounds. -/
theorem getD_set (data : List α) (i j : Nat) (a d : α) :
    (data.set i a).getD j d = if i = j ∧ i < data.length then a else data.getD j d := by
  simp only [List.getD_eq_getElem?_getD, List.getElem?_set]
  by_cases hij : i = j
  · subst hij
    by_cases hi : i < data.length
    · simp [hi]
    · simp [hi]
  · simp [hij]

/-- A store elsewhere leaves a read alone. -/
theorem getD_set_ne {data : List α} {i j : Nat} (a d : α) (h : i ≠ j) :
    (data.set i a).getD j d = data.getD j d := by
  rw [getD_set, if_neg fun hij => h hij.1]

/-- A store in bounds is read back. -/
theorem getD_set_self {data : List α} {i : Nat} (a d : α) (h : i < data.length) :
    (data.set i a).getD i d = a := by
  rw [getD_set, if_pos ⟨rfl, h⟩]

/-- Two tests that agree away from one element `c` of a duplicate-free list count alike,
up to what each says at `c`. -/
theorem countP_add_of_eq_off {p q : α → Bool} {l : List α} {c : α} (hnd : l.Nodup)
    (hc : c ∈ l) (h : ∀ x ∈ l, x ≠ c → p x = q x) :
    l.countP p + (if q c then 1 else 0) = l.countP q + (if p c then 1 else 0) := by
  induction l with
  | nil => cases hc
  | cons x xs ih =>
    obtain ⟨hx, hnd⟩ := List.nodup_cons.mp hnd
    rw [List.countP_cons, List.countP_cons]
    by_cases hxc : x = c
    · -- `c` is the head, so the tests agree on all of the tail
      subst hxc
      have htail : xs.countP p = xs.countP q := by
        apply List.countP_congr
        intro y hy
        have hyx : y ≠ x := fun hyx => hx (hyx ▸ hy)
        rw [h y (List.mem_cons_of_mem x hy) hyx]
      omega
    · have hcs : c ∈ xs := (List.mem_cons.mp hc).resolve_left (Ne.symm hxc)
      have hpq : p x = q x := h x List.mem_cons_self hxc
      have := ih hnd hcs fun y hy => h y (List.mem_cons_of_mem x hy)
      rw [hpq]
      omega

/-! ## §4 Swap-Remove -/

/-- Delete entry `i` by moving the last entry into its place; no change when `i` is out of
bounds. -/
def swapRemove (l : List α) (i : Nat) : List α :=
  match l.getLast? with
  | some y => if i < l.length then (l.set i y).dropLast else l
  | none => l

/-- Swap-remove on a list split off its last entry `y`. -/
theorem swapRemove_concat (xs : List α) (y : α) {i : Nat} (hi : i < xs.length + 1) :
    swapRemove (xs ++ [y]) i = if i < xs.length then xs.set i y else xs := by
  have hlen : i < (xs ++ [y]).length := by simpa using hi
  simp only [swapRemove, List.getLast?_concat, if_pos hlen]
  split
  · rename_i h
    rw [List.set_append_left i y h, List.dropLast_concat]
  · -- `i` is the last index: the last entry is stored onto itself and dropped
    rename_i h
    have hi' : i = xs.length := by omega
    subst hi'
    rw [List.set_append_right _ _ (Nat.le_refl _), Nat.sub_self, List.set_cons_zero,
      List.dropLast_concat]

/-- Every list with an entry `i` ends in a last entry. -/
theorem exists_concat_of_lt {l : List α} {i : Nat} (hi : i < l.length) :
    ∃ xs y, l = xs ++ [y] ∧ i < xs.length + 1 := by
  rcases List.eq_nil_or_concat l with rfl | ⟨xs, y, rfl⟩
  · cases hi
  · exact ⟨xs, y, List.concat_eq_append, by simpa using hi⟩

/-- Swap-remove deletes entry `i`, up to the order of the others. -/
theorem swapRemove_perm {l : List α} {i : Nat} (hi : i < l.length) :
    (swapRemove l i).Perm (l.eraseIdx i) := by
  obtain ⟨xs, y, rfl, hi'⟩ := exists_concat_of_lt hi
  rw [swapRemove_concat xs y hi']
  split
  · rename_i h
    -- `y` moves from the end to index `i`
    rw [List.eraseIdx_append_of_lt_length h, List.set_eq_take_cons_drop y h,
      List.eraseIdx_eq_take_drop_succ]
    exact List.perm_middle.trans (List.perm_append_singleton y _).symm
  · have hi'' : i = xs.length := by omega
    subst hi''
    rw [List.eraseIdx_append_of_length_le (Nat.le_refl _), Nat.sub_self, List.eraseIdx_cons_zero,
      List.append_nil]

/-- Swap-remove leaves the entries before `i` in place. -/
theorem take_swapRemove {l : List α} {i : Nat} (hi : i < l.length) :
    (swapRemove l i).take i = l.take i := by
  obtain ⟨xs, y, rfl, hi'⟩ := exists_concat_of_lt hi
  rw [swapRemove_concat xs y hi']
  split
  · rename_i h
    rw [List.take_set_of_le (Nat.le_refl i), List.take_append_of_le_length (Nat.le_of_lt h)]
  · have hi'' : i = xs.length := by omega
    subst hi''
    rw [List.take_length, List.take_append_of_le_length (Nat.le_refl _), List.take_length]

theorem length_swapRemove {l : List α} {i : Nat} (hi : i < l.length) :
    (swapRemove l i).length = l.length - 1 := by
  rw [(swapRemove_perm hi).length_eq, List.length_eraseIdx_of_lt hi]

theorem mem_of_mem_swapRemove {l : List α} {i : Nat} {a : α} (hi : i < l.length)
    (h : a ∈ swapRemove l i) : a ∈ l :=
  (List.eraseIdx_sublist l i).subset ((swapRemove_perm hi).subset h)

theorem swapRemove_of_le {l : List α} {i : Nat} (hi : l.length ≤ i) : swapRemove l i = l := by
  unfold swapRemove
  split <;> simp [Nat.not_lt.mpr hi]

theorem length_swapRemove_le (l : List α) (i : Nat) : (swapRemove l i).length ≤ l.length := by
  by_cases hi : i < l.length
  · rw [length_swapRemove hi]
    exact Nat.sub_le _ _
  · exact Nat.le_of_eq (congrArg List.length (swapRemove_of_le (Nat.not_lt.mp hi)))

/-- A symmetric relation between every two entries still holds after a swap-remove. -/
theorem pairwise_swapRemove {R : α → α → Prop} (hsymm : ∀ {x y : α}, R x y → R y x)
    {l : List α} (h : l.Pairwise R) {i : Nat} (hi : i < l.length) :
    (Beskar.Lib.swapRemove l i).Pairwise R :=
  ((h.sublist (List.eraseIdx_sublist l i)).perm (swapRemove_perm hi).symm hsymm)

/-! ## §5 Relations Between Entries -/

section Pairwise

variable {R : α → α → Prop} {l : List α} {i : Nat}

/-- A list around its entry `i`. -/
theorem eq_take_cons_drop (hi : i < l.length) : l = l.take i ++ l[i] :: l.drop (i + 1) := by
  rw [← List.drop_eq_getElem_cons hi, List.take_append_drop]

/-- An entry before `i` is related to entry `i`. -/
theorem rel_of_mem_take (h : l.Pairwise R) (hi : i < l.length) {a : α}
    (ha : a ∈ l.take i) : R a l[i] := by
  rw [eq_take_cons_drop hi, List.pairwise_append] at h
  exact h.2.2 a ha _ List.mem_cons_self

/-- Entry `i` is related to an entry after it. -/
theorem rel_of_mem_drop (h : l.Pairwise R) (hi : i < l.length) {a : α}
    (ha : a ∈ l.drop (i + 1)) : R l[i] a := by
  rw [eq_take_cons_drop hi, List.pairwise_append, List.pairwise_cons] at h
  exact h.2.1.1 a ha

/-- An entry of `l.set i b` is `b`, or an entry before or after `i`. -/
theorem mem_set_cases (hi : i < l.length) {a b : α} (ha : a ∈ l.set i b) :
    a = b ∨ a ∈ l.take i ∨ a ∈ l.drop (i + 1) := by
  rw [List.set_eq_take_cons_drop b hi, List.mem_append, List.mem_cons] at ha
  rcases ha with ha | ha | ha
  · exact .inr (.inl ha)
  · exact .inl ha
  · exact .inr (.inr ha)

/-- Replacing entry `i` by an entry related to all the others keeps the relation between
every two entries. -/
theorem pairwise_set (h : l.Pairwise R) (hi : i < l.length) {b : α}
    (hleft : ∀ a ∈ l.take i, R a b) (hright : ∀ a ∈ l.drop (i + 1), R b a) :
    (l.set i b).Pairwise R := by
  rw [eq_take_cons_drop hi, List.pairwise_append, List.pairwise_cons] at h
  obtain ⟨htake, ⟨-, hdrop⟩, hcross⟩ := h
  rw [List.set_eq_take_cons_drop b hi, List.pairwise_append, List.pairwise_cons]
  refine ⟨htake, ⟨hright, hdrop⟩, fun a ha c hc => ?_⟩
  -- across `i`, the new entry is `b` and the others keep their relations
  rcases List.mem_cons.mp hc with rfl | hc
  · exact hleft a ha
  · exact hcross a ha c (List.mem_cons_of_mem _ hc)

end Pairwise

/-! ## §6 Byte Memory

Memory seen byte by byte, as a function of the address, and the raw-pointer writes of the
code on it: `copy_nonoverlapping` of a buffer and `write_bytes` of zeros. A write reads
back inside its interval and leaves every byte outside it. -/

/-- Memory: a byte at every address. -/
abbrev Memory := Nat → UInt8

namespace Memory

/-- `copy_nonoverlapping(src, dest, src.len())`: the bytes of `src` from `dest` on. -/
def writeBytes (m : Memory) (dest : Nat) (src : List UInt8) : Memory :=
  fun a => if dest ≤ a ∧ a < dest + src.length then src.getD (a - dest) 0 else m a

/-- `write_bytes(dest, 0, size)`. -/
def zeroBytes (m : Memory) (dest size : Nat) : Memory :=
  fun a => if dest ≤ a ∧ a < dest + size then 0 else m a

variable {m : Memory} {dest size a : Nat} {src : List UInt8}

theorem writeBytes_inside (h₁ : dest ≤ a) (h₂ : a < dest + src.length) :
    m.writeBytes dest src a = src.getD (a - dest) 0 :=
  if_pos ⟨h₁, h₂⟩

theorem writeBytes_outside (h : a < dest ∨ dest + src.length ≤ a) :
    m.writeBytes dest src a = m a :=
  if_neg (by omega)

theorem zeroBytes_inside (h₁ : dest ≤ a) (h₂ : a < dest + size) :
    m.zeroBytes dest size a = 0 :=
  if_pos ⟨h₁, h₂⟩

theorem zeroBytes_outside (h : a < dest ∨ dest + size ≤ a) : m.zeroBytes dest size a = m a :=
  if_neg (by omega)

end Memory

/-- `value.to_ne_bytes()` of a `u64` on a little-endian target: the eight bytes of the
word, low byte first. -/
def leBytes (value : Nat) : List UInt8 := (List.range 8).map fun i => (value / 256 ^ i).toUInt8

@[simp] theorem length_leBytes (value : Nat) : (leBytes value).length = 8 := by
  simp [leBytes]

@[simp] theorem fromLeBytes_cons (b : UInt8) (bytes : List UInt8) :
    fromLeBytes (b :: bytes) = b.toNat + 256 * fromLeBytes bytes := rfl

/-- The bytes of `value` from byte `k` on, `n` of them, read back: the digits of `value`
in base `256` from the `k`-th on. -/
theorem fromLeBytes_map_range' (value k n : Nat) :
    fromLeBytes ((List.range' k n).map fun i => (value / 256 ^ i).toUInt8) =
      value / 256 ^ k % 256 ^ n := by
  induction n generalizing k with
  | zero => simp [fromLeBytes, Nat.mod_one]
  | succ n ih =>
    have hdigit : (value / 256 ^ k).toUInt8.toNat = value / 256 ^ k % 256 := UInt8.toNat_ofNat'
    have hnext : value / 256 ^ (k + 1) = value / 256 ^ k / 256 := by
      rw [Nat.pow_succ, Nat.div_div_eq_div_mul]
    rw [List.range'_succ, List.map_cons, fromLeBytes_cons, ih, hdigit, hnext, Nat.pow_succ',
      Nat.mod_mul]

/-- `u64::from_le_bytes(value.to_le_bytes()) == value`. -/
theorem fromLeBytes_leBytes {value : Nat} (h : value < 2 ^ 64) :
    fromLeBytes (leBytes value) = value := by
  have h' : value < 256 ^ 8 := by simpa using h
  rw [leBytes, List.range_eq_range', fromLeBytes_map_range', Nat.pow_zero, Nat.div_one,
    Nat.mod_eq_of_lt h']

end Beskar.Lib
