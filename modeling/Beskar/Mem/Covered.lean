import Mathlib
import Beskar.Mem.Ranges

/-!
# Memory Ranges: the Addresses They Cover

What the calls of `MemoryRanges<N>` (`beskar-core/src/mem/ranges.rs`) do to the set of
addresses that its entries cover, both ends of every entry included.

With room for one more entry, `insert` and the two allocators are exact: `insert` adds
the range's addresses, and `allocate` and `allocate_req` take away the block they return,
which is aligned and lies in one entry (and, for `allocate_req`, in one request entry).
The other entries are apart from the one cut, so they lose nothing.

`allocate` finds a block whenever some entry holds one, since the aligned start it tries
in each entry is the least one there.  `allocate_req` and `MemoryRange::overlaps` do not
count an overlap whose start is its end ("0-sized overlaps are useless", though the ends
are inclusive): `allocate_req` then misses a one-address block that fills the overlap,
and `intersection` covers the common addresses of the pairs of entries `overlaps`
accepts, which may be fewer than the common addresses of the two sets.

## Main results

- `insert_covers_union`: `insert` adds exactly the range's addresses, with at most one
  entry more.
- `allocate_takes_aligned_block`: `allocate` returns a block exactly when an entry holds an
  aligned one, and removes exactly that block.
- `allocateReq_spec`: `allocate_req` returns a block exactly when an entry and a request
  entry overlap in more than one address and hold an aligned block there, and removes
  exactly that block.
- `covered_intersection`: the addresses `intersection` covers.
-/

namespace Beskar.Mem

open Beskar.Lib MemoryRanges

variable {n : Nat}

/-! ## §1 Covered Addresses -/

/-- The addresses of a range, both ends included. -/
def MemoryRange.addrs (a : MemoryRange) : Set Nat := Set.Icc a.start a.endAddr

/-- The addresses some entry covers. -/
def covered (l : List MemoryRange) : Set Nat := {x | ∃ a ∈ l, x ∈ a.addrs}

theorem mem_addrs {a : MemoryRange} {x : Nat} : x ∈ a.addrs ↔ a.start ≤ x ∧ x ≤ a.endAddr :=
  Set.mem_Icc

@[simp] theorem covered_nil : covered [] = ∅ := by
  ext x
  simp [covered]

@[simp] theorem covered_cons (a : MemoryRange) (l : List MemoryRange) :
    covered (a :: l) = a.addrs ∪ covered l := by
  ext x
  simp [covered]

@[simp] theorem covered_append (l l' : List MemoryRange) :
    covered (l ++ l') = covered l ∪ covered l' := by
  ext x
  simp [covered, or_and_right, exists_or]

theorem covered_perm {l l' : List MemoryRange} (h : l.Perm l') : covered l = covered l' := by
  ext x
  simp only [covered, Set.mem_ofPred_eq, h.mem_iff]

/-- The addresses of entry `i`, and those of the others. -/
theorem covered_eq_getElem_union {l : List MemoryRange} {i : Nat} (hi : i < l.length) :
    covered l = l[i].addrs ∪ covered (l.eraseIdx i) := by
  conv_lhs => rw [eq_take_cons_drop hi]
  rw [List.eraseIdx_eq_take_drop_succ, covered_append, covered_cons, covered_append,
    Set.union_left_comm]

theorem covered_set {l : List MemoryRange} {i : Nat} (hi : i < l.length) (b : MemoryRange) :
    covered (l.set i b) = b.addrs ∪ covered (l.eraseIdx i) := by
  have hi' : i < (l.set i b).length := by rwa [List.length_set]
  rw [covered_eq_getElem_union hi', List.getElem_set_self, List.eraseIdx_set_eq]

/-- Apart entries share no address. -/
theorem Apart.disjoint_addrs {a b : MemoryRange} (h : Apart a b) : Disjoint a.addrs b.addrs := by
  rw [Set.disjoint_left]
  intro x hxa hxb
  rw [mem_addrs] at hxa hxb
  unfold Apart at h
  omega

/-- In valid entries, entry `i` shares no address with the others. -/
theorem Valid.disjoint_eraseIdx {l : List MemoryRange} (h : Valid l) {i : Nat}
    (hi : i < l.length) :
    Disjoint l[i].addrs (covered (l.eraseIdx i)) := by
  rw [Set.disjoint_right]
  rintro x ⟨a, ha, hxa⟩ hxi
  rw [List.eraseIdx_eq_take_drop_succ, List.mem_append] at ha
  rcases ha with ha | ha
  · exact Set.disjoint_left.mp (rel_of_mem_take h.apart hi ha).disjoint_addrs hxa hxi
  · exact Set.disjoint_left.mp (rel_of_mem_drop h.apart hi ha).disjoint_addrs hxi hxa

/-! ## §2 The Array Operations -/

theorem covered_delete {r : MemoryRanges n} {i : Nat} (hi : i < r.entries.length) :
    covered r.entries = r.entries[i].addrs ∪ covered (r.delete i).entries := by
  show _ = _ ∪ covered (swapRemove r.entries i)
  rw [covered_perm (swapRemove_perm hi)]
  exact covered_eq_getElem_union hi

theorem create_of_lt {r : MemoryRanges n} (h : r.entries.length < n) (range : MemoryRange) :
    (r.create range).entries = r.entries ++ [range] := by
  unfold MemoryRanges.create
  rw [dif_pos h]

/-- With room, `create` adds the range's addresses. -/
theorem covered_create {r : MemoryRanges n} (h : r.entries.length < n) (range : MemoryRange) :
    covered (r.create range).entries = covered r.entries ∪ range.addrs := by
  rw [create_of_lt h, covered_append, covered_cons, covered_nil, Set.union_empty]

theorem length_create_le (r : MemoryRanges n) (range : MemoryRange) :
    (r.create range).entries.length ≤ r.entries.length + 1 := by
  unfold MemoryRanges.create
  split
  · rw [List.length_append, List.length_singleton]
  · exact Nat.le_succ _

theorem covered_setEntry {r : MemoryRanges n} {i : Nat} (hi : i < r.entries.length)
    (b : MemoryRange) :
    covered (r.setEntry i b).entries = b.addrs ∪ covered (r.entries.eraseIdx i) :=
  covered_set hi b

theorem length_setEntry (r : MemoryRanges n) (i : Nat) (b : MemoryRange) :
    (r.setEntry i b).entries.length = r.entries.length :=
  List.length_set

/-! ## §3 Insert -/

/-- Two ranges that overlap or touch make up their merge. -/
theorem addrs_merge {a b : MemoryRange} (hab : ¬ Apart a b) :
    (MemoryRanges.merge a b).addrs = a.addrs ∪ b.addrs := by
  ext x
  simp only [Set.mem_union, mem_addrs, MemoryRanges.merge]
  unfold Apart at hab
  omega

/-- **Loop invariant of `insert`**: the entries and the growing range cover what they
covered before, and each merge deletes an entry. -/
theorem covered_insertLoop {range : MemoryRange} {r : MemoryRanges n} {i : Nat}
    (h : Valid r.entries) (hp : Proper range) (hroom : r.entries.length < n) :
    covered (insertLoop range r i).entries = covered r.entries ∪ range.addrs ∧
      (insertLoop range r i).entries.length ≤ r.entries.length + 1 := by
  induction range, r, i using MemoryRanges.insertLoop.induct with
  | case1 range r i hlt htouch ih =>
    -- the entry touches: its addresses move into the merged range
    rw [MemoryRanges.insertLoop, dif_pos hlt, if_pos htouch]
    have hcur : Proper r.entries[i] := h.proper _ (List.getElem_mem hlt)
    have hna : ¬ Apart range r.entries[i] := (touches_iff hp hcur).mp htouch
    have hlen : (r.delete i).entries.length = r.entries.length - 1 := length_swapRemove hlt
    obtain ⟨hcov, hle⟩ := ih (h.delete i) (Proper.merge hp hcur) (by omega)
    refine ⟨?_, by omega⟩
    rw [hcov, addrs_merge hna, covered_delete hlt, Set.union_comm range.addrs,
      ← Set.union_assoc, Set.union_comm _ r.entries[i].addrs]
  | case2 range r i hlt htouch ih =>
    rw [MemoryRanges.insertLoop, dif_pos hlt, if_neg htouch]
    exact ih h hp hroom
  | case3 range r i hge =>
    -- past the last entry: the range is created, in the room there is
    rw [MemoryRanges.insertLoop, dif_neg hge]
    exact ⟨covered_create hroom range, length_create_le r range⟩

/-- For every `MemoryRanges<N>` satisfying the invariant with `len() < N`, and every range
of `u64` ends with `start <= end`, `insert` makes the entries cover the addresses they
covered and those of the range, and adds at most one entry. -/
theorem insert_covers_union {r : MemoryRanges n} (h : Valid r.entries)
    (hroom : r.entries.length < n) {range : MemoryRange} (hle : range.start ≤ range.endAddr)
    (hend : range.endAddr < 2 ^ 64) :
    covered (r.insert range).entries = covered r.entries ∪ range.addrs ∧
      (r.insert range).entries.length ≤ r.entries.length + 1 := by
  unfold MemoryRanges.insert
  rw [if_neg (Nat.not_lt.mpr hle)]
  exact covered_insertLoop h ⟨hle, hend⟩ hroom

/-- The second insert of the source's `test_memory_ranges_insert_merge`: `[5, 15]` into the
entry `[0, 10]` of a `MemoryRanges<10>`. -/
theorem insert_covers_union_merge :
    Valid [⟨0, 10⟩] ∧ [(⟨0, 10⟩ : MemoryRange)].length < 10 ∧ 5 ≤ 15 ∧ 15 < 2 ^ 64 ∧
      covered ((⟨[⟨0, 10⟩], by decide⟩ : MemoryRanges 10).insert ⟨5, 15⟩).entries =
          covered [⟨0, 10⟩] ∪ (⟨5, 15⟩ : MemoryRange).addrs ∧
        ((⟨[⟨0, 10⟩], by decide⟩ : MemoryRanges 10).insert ⟨5, 15⟩).entries.length ≤ 1 + 1 :=
  ⟨by decide, by decide, by decide, by decide,
    insert_covers_union (r := ⟨[⟨0, 10⟩], by decide⟩) (by decide) (by decide) (by decide)
      (by decide)⟩

/-! ## §4 Cutting a Block Out of an Entry -/

/-- **`trim_remove` is exact**: with room for the tail of a split, cutting a nonempty
block out of entry `i` takes away its addresses and no others. -/
theorem covered_trimRemove {r : MemoryRanges n} (h : Valid r.entries)
    (hroom : r.entries.length < n) {i : Nat} (hi : i < r.entries.length) {trim : MemoryRange}
    (htrim : Within trim r.entries[i]) (hle : trim.start ≤ trim.endAddr) :
    covered (r.trimRemove i trim).entries = covered r.entries \ trim.addrs := by
  have hget : r.entries.getD i ⟨0, 0⟩ = r.entries[i] := by
    rw [List.getD_eq_getElem?_getD, List.getElem?_eq_getElem hi, Option.getD_some]
  -- the other entries lie apart from entry `i`, so the block takes nothing from them
  have hsub : trim.addrs ⊆ r.entries[i].addrs := Set.Icc_subset_Icc htrim.1 htrim.2
  have hrest : covered r.entries \ trim.addrs =
      (r.entries[i].addrs \ trim.addrs) ∪ covered (r.entries.eraseIdx i) := by
    rw [covered_eq_getElem_union hi, Set.union_sdiff_distrib,
      ((h.disjoint_eraseIdx hi).mono_left hsub).symm.sdiff_eq_left]
  unfold Within at htrim
  unfold MemoryRanges.trimRemove
  simp only [hget]
  rw [hrest]
  split_ifs with h₁ h₂ h₃
  · -- the whole entry goes
    have hempty : r.entries[i].addrs \ trim.addrs = ∅ := by
      ext x
      simp only [Set.mem_sdiff, mem_addrs, Set.mem_empty_iff_false, iff_false]
      omega
    show covered (swapRemove r.entries i) = _
    rw [covered_perm (swapRemove_perm hi), hempty, Set.empty_union]
  · -- the head goes, the entry starts after the block
    rw [covered_setEntry hi]
    congr 1
    ext x
    simp only [Set.mem_sdiff, mem_addrs]
    omega
  · -- the tail goes, the entry ends before the block
    rw [covered_setEntry hi]
    congr 1
    ext x
    simp only [Set.mem_sdiff, mem_addrs]
    omega
  · -- the middle goes: the head stays in place and the tail is created
    have hroom' : (r.setEntry i { r.entries[i] with endAddr := trim.start - 1 }).entries.length < n := by
      rw [length_setEntry]
      exact hroom
    rw [covered_create hroom', covered_setEntry hi, Set.union_right_comm]
    congr 1
    ext x
    simp only [Set.mem_sdiff, Set.mem_union, mem_addrs, MemoryRange.new]
    omega

/-! ## §5 The Least Aligned Start -/

/-- The masks of `allocate` on `u64` values: the distance from `x` up to the next address
aligned to `alignment`. -/
theorem alignmentOffset_eq (alignment : Arch.Alignment) (x : Nat) :
    (alignment.asU64 - (x &&& alignment.mask)) &&& alignment.mask =
      (alignment.asU64 - x % alignment.asU64) % alignment.asU64 := by
  unfold Arch.Alignment.mask Arch.Alignment.asU64
  rw [Nat.and_two_pow_sub_one_eq_mod, Nat.and_two_pow_sub_one_eq_mod]

/-- The address `allocate` tries in a range starting at `x`. -/
def alignedFrom (alignment : Arch.Alignment) (x : Nat) : Nat :=
  x + (alignment.asU64 - x % alignment.asU64) % alignment.asU64

theorem asU64_pos (alignment : Arch.Alignment) : 0 < alignment.asU64 := Nat.two_pow_pos _

theorem le_alignedFrom (alignment : Arch.Alignment) (x : Nat) : x ≤ alignedFrom alignment x :=
  Nat.le_add_right _ _

/-- The address tried is aligned. -/
theorem alignedFrom_mod (alignment : Arch.Alignment) (x : Nat) :
    alignedFrom alignment x % alignment.asU64 = 0 := by
  have hd := asU64_pos alignment
  unfold alignedFrom
  rcases Nat.eq_zero_or_pos (x % alignment.asU64) with h0 | hpos
  · rw [h0, Nat.sub_zero, Nat.mod_self, Nat.add_zero, h0]
  · have hlt := Nat.mod_lt x hd
    rw [Nat.mod_eq_of_lt (Nat.sub_lt hd hpos), Nat.add_mod, Nat.mod_eq_of_lt (Nat.sub_lt hd hpos),
      Nat.add_sub_cancel' (Nat.le_of_lt hlt), Nat.mod_self]

/-- **The address tried is the least aligned one** at or above `x`. -/
theorem alignedFrom_le {alignment : Arch.Alignment} {x a : Nat} (ha : a % alignment.asU64 = 0)
    (hxa : x ≤ a) : alignedFrom alignment x ≤ a := by
  have hd := asU64_pos alignment
  unfold alignedFrom
  rcases Nat.eq_zero_or_pos (x % alignment.asU64) with h0 | hpos
  · rw [h0, Nat.sub_zero, Nat.mod_self, Nat.add_zero]
    exact hxa
  · rw [Nat.mod_eq_of_lt (Nat.sub_lt hd hpos)]
    -- `x` lies strictly inside a block of the alignment below the multiple `a`
    have hx := Nat.mod_add_div x alignment.asU64
    have ha' := Nat.mod_add_div a alignment.asU64
    rw [ha, Nat.zero_add] at ha'
    have hq : x / alignment.asU64 < a / alignment.asU64 := by
      by_contra hge
      have := Nat.mul_le_mul_left alignment.asU64 (Nat.le_of_not_lt hge)
      omega
    have := Nat.mul_le_mul_left alignment.asU64 hq
    rw [Nat.mul_add_one] at this
    omega

/-- Some aligned block of `size` bytes lies in `[lo, hi]` exactly when the one at the least
aligned address does. -/
theorem exists_aligned_iff (alignment : Arch.Alignment) (size lo hi : Nat) :
    (∃ a, a % alignment.asU64 = 0 ∧ lo ≤ a ∧ a + (size - 1) ≤ hi) ↔
      alignedFrom alignment lo + (size - 1) ≤ hi := by
  constructor
  · rintro ⟨a, ha, hlo, hhi⟩
    have := alignedFrom_le ha hlo
    omega
  · intro h
    exact ⟨_, alignedFrom_mod alignment lo, le_alignedFrom alignment lo, h⟩

/-- **Spec of `fit`**: on a range with a `u64` end, the candidate is the block at the least
aligned address of the range, when it ends inside the range. -/
theorem fit_eq (size : Nat) (alignment : Arch.Alignment) {range : MemoryRange}
    (hend : range.endAddr < 2 ^ 64) :
    fit size alignment range =
      if alignedFrom alignment range.start + (size - 1) ≤ range.endAddr then
        some (alignedFrom alignment range.start, alignedFrom alignment range.start + (size - 1),
          (alignment.asU64 - range.start % alignment.asU64) % alignment.asU64 +
            (range.endAddr - (alignedFrom alignment range.start + (size - 1))))
      else none := by
  simp only [fit, alignmentOffset_eq, Option.bind_eq_bind]
  unfold alignedFrom
  split_ifs with hfit
  · rw [addChecked, if_pos (by omega), Option.bind_some, addChecked, if_pos (by omega),
      Option.bind_some, if_neg (by omega)]
  · -- a sum that fits in `u64` ends past the range
    simp only [Option.bind_eq_none_iff, addChecked_eq_some]
    rintro _ ⟨-, rfl⟩ _ ⟨-, rfl⟩
    exact if_pos (by omega)

/-- **Spec of `fitReq`**: the candidate is the block at the least aligned address of the
overlap, when the overlap has more than one address and the block ends inside it. -/
theorem fitReq_eq (size : Nat) (alignment : Arch.Alignment) {range : MemoryRange}
    (req : MemoryRange) (hend : range.endAddr < 2 ^ 64) :
    fitReq size alignment range req =
      if max range.start req.start ≥ min range.endAddr req.endAddr then none
      else if alignedFrom alignment (max range.start req.start) + (size - 1) ≤
          min range.endAddr req.endAddr then
        some (alignedFrom alignment (max range.start req.start),
          alignedFrom alignment (max range.start req.start) + (size - 1),
          (alignment.asU64 - max range.start req.start % alignment.asU64) % alignment.asU64 +
            (range.endAddr - (alignedFrom alignment (max range.start req.start) + (size - 1))))
      else none := by
  simp only [fitReq, alignmentOffset_eq, Option.bind_eq_bind]
  unfold alignedFrom
  have hmin : min range.endAddr req.endAddr < 2 ^ 64 :=
    Nat.lt_of_le_of_lt (Nat.min_le_left _ _) hend
  split_ifs with hempty hfit
  · rfl
  · rw [addChecked, if_pos (by omega), Option.filter_some, if_pos (by simp; omega),
      Option.bind_some, addChecked, if_pos (by omega), Option.filter_some,
      if_pos (by simp; omega), Option.bind_some]
  · -- the block ends past the overlap, so the second filter drops it
    simp only [Option.bind_eq_none_iff, Option.filter_eq_some_iff, addChecked_eq_some]
    rintro _ ⟨⟨-, rfl⟩, -⟩ _ ⟨⟨-, rfl⟩, hle⟩
    simp only [decide_eq_true_eq] at hle
    omega

/-! ## §6 What the Best-Fit Loops Return -/

/-- Every best fit the loop can hold satisfies `P` of its index, start and end. -/
def FitAll (P : Nat → Nat → Nat → Prop) (best : Fit) : Prop :=
  ∀ index start endAddr waste, best = some (index, start, endAddr, waste) → P index start endAddr

theorem FitAll.none (P : Nat → Nat → Nat → Prop) : FitAll P none := by
  intro _ _ _ _ h
  cases h

/-- **Step lemma** of the best-fit loops: the best fit is the old one or the candidate. -/
theorem FitAll.pickCandidate {P : Nat → Nat → Nat → Prop} {best : Fit} (h : FitAll P best)
    {index : Nat} {c : Option (Nat × Nat × Nat)}
    (hc : ∀ start endAddr waste, c = some (start, endAddr, waste) → P index start endAddr) :
    FitAll P (MemoryRanges.pickCandidate best index c) := by
  cases c with
  | none => exact h
  | some c =>
    obtain ⟨start, endAddr, waste⟩ := c
    have hnew : FitAll P (some (index, start, endAddr, waste)) := by
      intro i s e w heq
      simp only [Option.some.injEq, Prod.mk.injEq] at heq
      obtain ⟨rfl, rfl, rfl, rfl⟩ := heq
      exact hc start endAddr waste rfl
    simp only [MemoryRanges.pickCandidate, MemoryRanges.pick]
    split
    · split
      · exact hnew
      · exact h
    · exact hnew

/-- A candidate always leaves a best fit. -/
theorem pickCandidate_isSome (best : Fit) (index : Nat) (c : Option (Nat × Nat × Nat)) :
    (MemoryRanges.pickCandidate best index c).isSome = (best.isSome || c.isSome) := by
  cases c with
  | none => simp [MemoryRanges.pickCandidate]
  | some c =>
    obtain ⟨start, endAddr, waste⟩ := c
    cases best with
    | none => rfl
    | some b =>
      simp only [MemoryRanges.pickCandidate, MemoryRanges.pick]
      split <;> rfl

section Loops

variable {size : Nat} {alignment : Arch.Alignment}

theorem allocateLoop_isSome (size : Nat) (alignment : Arch.Alignment) :
    ∀ (rest : List MemoryRange) (index : Nat) (best : Fit),
      (allocateLoop size alignment index best rest).isSome =
        (best.isSome || rest.any fun range => (fit size alignment range).isSome)
  | [], _, best => by simp [allocateLoop]
  | range :: rest, index, best => by
    rw [allocateLoop, allocateLoop_isSome size alignment rest, pickCandidate_isSome,
      List.any_cons, Bool.or_assoc]

/-- **Run lemma** of `allocate`'s loop, from entry `index` on. -/
theorem FitAll.allocateLoop {P : Nat → Nat → Nat → Prop} {l : List MemoryRange}
    (hc : ∀ i (hi : i < l.length) s e w, fit size alignment l[i] = some (s, e, w) → P i s e) :
    ∀ (rest : List MemoryRange) (index : Nat) (best : Fit), l.drop index = rest →
      FitAll P best → FitAll P (MemoryRanges.allocateLoop size alignment index best rest)
  | [], _, _, _, h => h
  | range :: rest, index, best, hrest, h => by
    have hi : index < l.length := by
      by_contra hge
      rw [List.drop_of_length_le (Nat.le_of_not_lt hge)] at hrest
      cases hrest
    rw [List.drop_eq_getElem_cons hi, List.cons.injEq] at hrest
    apply FitAll.allocateLoop hc rest (index + 1) _ hrest.2
    apply h.pickCandidate
    intro s e w hfit
    exact hc index hi s e w (hrest.1 ▸ hfit)

theorem allocateReqInner_isSome (size : Nat) (alignment : Arch.Alignment) (index : Nat)
    (range : MemoryRange) :
    ∀ (reqs : List MemoryRange) (best : Fit),
      (allocateReqInner size alignment index range best reqs).isSome =
        (best.isSome || reqs.any fun req => (fitReq size alignment range req).isSome)
  | [], best => by simp [allocateReqInner]
  | req :: rest, best => by
    rw [allocateReqInner, allocateReqInner_isSome size alignment index range rest,
      pickCandidate_isSome, List.any_cons, Bool.or_assoc]

theorem allocateReqLoop_isSome (size : Nat) (alignment : Arch.Alignment)
    (reqs : List MemoryRange) :
    ∀ (rest : List MemoryRange) (index : Nat) (best : Fit),
      (allocateReqLoop size alignment reqs index best rest).isSome =
        (best.isSome || rest.any fun range =>
          reqs.any fun req => (fitReq size alignment range req).isSome)
  | [], _, best => by simp [allocateReqLoop]
  | range :: rest, index, best => by
    rw [allocateReqLoop, allocateReqLoop_isSome size alignment reqs rest,
      allocateReqInner_isSome, List.any_cons, Bool.or_assoc]

/-- **Run lemma** of `allocate_req`'s inner loop, for entry `index`. -/
theorem FitAll.allocateReqInner {P : Nat → Nat → Nat → Prop} {index : Nat} {range : MemoryRange}
    {reqs : List MemoryRange}
    (hc : ∀ req ∈ reqs, ∀ s e w, fitReq size alignment range req = some (s, e, w) → P index s e) :
    ∀ (rest : List MemoryRange) (best : Fit), rest ⊆ reqs → FitAll P best →
      FitAll P (MemoryRanges.allocateReqInner size alignment index range best rest)
  | [], _, _, h => h
  | req :: rest, best, hsub, h => by
    apply FitAll.allocateReqInner hc rest _ (fun q hq => hsub (List.mem_cons_of_mem _ hq))
    exact h.pickCandidate (hc req (hsub List.mem_cons_self))

/-- **Run lemma** of `allocate_req`'s outer loop, from entry `index` on. -/
theorem FitAll.allocateReqLoop {P : Nat → Nat → Nat → Prop} {l reqs : List MemoryRange}
    (hc : ∀ i (hi : i < l.length), ∀ req ∈ reqs, ∀ s e w,
      fitReq size alignment l[i] req = some (s, e, w) → P i s e) :
    ∀ (rest : List MemoryRange) (index : Nat) (best : Fit), l.drop index = rest →
      FitAll P best → FitAll P (MemoryRanges.allocateReqLoop size alignment reqs index best rest)
  | [], _, _, _, h => h
  | range :: rest, index, best, hrest, h => by
    have hi : index < l.length := by
      by_contra hge
      rw [List.drop_of_length_le (Nat.le_of_not_lt hge)] at hrest
      cases hrest
    rw [List.drop_eq_getElem_cons hi, List.cons.injEq] at hrest
    apply FitAll.allocateReqLoop hc rest (index + 1) _ hrest.2
    rw [← hrest.1]
    exact FitAll.allocateReqInner (hc index hi) reqs best (List.Subset.refl _) h

end Loops

/-! ## §7 Allocate -/

section Allocate

variable {size : Nat} {alignment : Arch.Alignment}

/-- A range with a `u64` end holds an aligned block of `size` bytes exactly when `fit`
finds one. -/
theorem fit_isSome_iff {range : MemoryRange} (hend : range.endAddr < 2 ^ 64) :
    (fit size alignment range).isSome ↔
      ∃ a, a % alignment.asU64 = 0 ∧ range.start ≤ a ∧ a + (size - 1) ≤ range.endAddr := by
  rw [fit_eq size alignment hend, exists_aligned_iff]
  split_ifs with hfit
  · simp only [Option.isSome_some, hfit]
  · simp only [Option.isSome_none, Bool.false_eq_true, hfit]

/-- For every `MemoryRanges<N>` satisfying the invariant with `len() < N`, every
`size > 0` and every `Alignment`: `allocate(size, alignment)` returns `Some(a)` exactly
when some entry holds an aligned block of `size` bytes; the `a` it returns is aligned,
`[a, a + size - 1]` lies in an entry, and the entries afterwards cover what they covered
before except `[a, a + size - 1]`; when it returns `None` nothing changes. -/
theorem allocate_takes_aligned_block {r : MemoryRanges n} (h : Valid r.entries)
    (hroom : r.entries.length < n) (hsize : 0 < size) (alignment : Arch.Alignment) :
    ((r.allocate size alignment).1.isSome ↔
      ∃ e ∈ r.entries, ∃ a, a % alignment.asU64 = 0 ∧ e.start ≤ a ∧ a + (size - 1) ≤ e.endAddr) ∧
    (∀ a, (r.allocate size alignment).1 = some a →
      a % alignment.asU64 = 0 ∧ (∃ e ∈ r.entries, e.start ≤ a ∧ a + (size - 1) ≤ e.endAddr) ∧
      covered (r.allocate size alignment).2.entries =
        covered r.entries \ Set.Icc a (a + (size - 1))) ∧
    ((r.allocate size alignment).1 = none → (r.allocate size alignment).2 = r) := by
  -- the loop finds a fit exactly when some entry holds an aligned block
  have hsome : (allocateLoop size alignment 0 none r.entries).isSome = true ↔
      ∃ e ∈ r.entries, ∃ a, a % alignment.asU64 = 0 ∧ e.start ≤ a ∧ a + (size - 1) ≤ e.endAddr := by
    rw [allocateLoop_isSome, Option.isSome_none, Bool.false_or, List.any_eq_true]
    exact exists_congr fun e => and_congr_right fun he => fit_isSome_iff (h.proper e he).2
  -- and the fit it finds is the candidate of its entry
  have hall : FitAll (fun i s e => ∃ hi : i < r.entries.length, ∃ w,
      fit size alignment r.entries[i] = some (s, e, w)) (allocateLoop size alignment 0 none r.entries) :=
    FitAll.allocateLoop (fun i hi s e w hfit => ⟨hi, w, hfit⟩) r.entries 0 none rfl (FitAll.none _)
  unfold MemoryRanges.allocate
  rw [if_neg (Nat.pos_iff_ne_zero.mp hsize)]
  rcases hbest : allocateLoop size alignment 0 none r.entries with _ | ⟨i, s, e, w⟩
  · -- no fit: `None`, and nothing changes
    rw [hbest, Option.isSome_none, Bool.false_eq_true] at hsome
    simp only [takeBest, Option.isSome_none, Bool.false_eq_true, reduceCtorEq, false_imp_iff,
      implies_true, and_true]
    exact hsome
  · obtain ⟨hi, w', hfit⟩ := hall i s e w hbest
    have hend := (h.proper _ (List.getElem_mem hi)).2
    rw [fit_eq size alignment hend] at hfit
    split_ifs at hfit with hle
    simp only [Option.some.injEq, Prod.mk.injEq] at hfit
    obtain ⟨rfl, rfl, -⟩ := hfit
    have hwithin : Within (MemoryRange.new (alignedFrom alignment r.entries[i].start)
        (alignedFrom alignment r.entries[i].start + (size - 1))) r.entries[i] :=
      ⟨le_alignedFrom _ _, hle⟩
    refine ⟨?_, fun a ha => ?_, fun hnone => by cases hnone⟩
    · simp only [takeBest, Option.isSome_some, true_iff]
      exact ⟨_, List.getElem_mem hi, _, alignedFrom_mod _ _, le_alignedFrom _ _, hle⟩
    · simp only [takeBest, Option.some.injEq] at ha
      subst ha
      exact ⟨alignedFrom_mod _ _, ⟨_, List.getElem_mem hi, le_alignedFrom _ _, hle⟩,
        covered_trimRemove h hroom hi hwithin (Nat.le_add_right _ _)⟩

/-- The first call of the source's `test_memory_ranges_allocate`: ten bytes aligned to 8
from the entries `[0, 100]` and `[200, 300]` of a `MemoryRanges<10>`. -/
theorem allocate_takes_aligned_block_test :
    Valid [⟨0, 100⟩, ⟨200, 300⟩] ∧ [(⟨0, 100⟩ : MemoryRange), ⟨200, 300⟩].length < 10 ∧ 0 < 10 ∧
      (((⟨[⟨0, 100⟩, ⟨200, 300⟩], by decide⟩ : MemoryRanges 10).allocate 10 ⟨3, by norm_num⟩).1.isSome ↔
        ∃ e ∈ [(⟨0, 100⟩ : MemoryRange), ⟨200, 300⟩], ∃ a,
          a % (⟨3, by norm_num⟩ : Arch.Alignment).asU64 = 0 ∧ e.start ≤ a ∧ a + (10 - 1) ≤ e.endAddr) :=
  ⟨by decide, by decide, by decide,
    (allocate_takes_aligned_block (r := ⟨[⟨0, 100⟩, ⟨200, 300⟩], by decide⟩) (by decide) (by decide)
      (by decide) ⟨3, by norm_num⟩).1⟩


/-- An entry with a `u64` end and a request entry: `fitReq` finds a block exactly when
their overlap has more than one address and holds an aligned block of `size` bytes. -/
theorem fitReq_isSome_iff {range req : MemoryRange} (hend : range.endAddr < 2 ^ 64) :
    (fitReq size alignment range req).isSome ↔
      max range.start req.start < min range.endAddr req.endAddr ∧
        ∃ a, a % alignment.asU64 = 0 ∧ max range.start req.start ≤ a ∧
          a + (size - 1) ≤ min range.endAddr req.endAddr := by
  rw [fitReq_eq size alignment req hend, exists_aligned_iff]
  split_ifs with hempty hfit
  · simp only [Option.isSome_none, Bool.false_eq_true, false_iff, not_and]
    exact fun hlt => absurd hempty (Nat.not_le.mpr hlt)
  · simp only [Option.isSome_some, true_iff]
    exact ⟨Nat.lt_of_not_le hempty, hfit⟩
  · simp only [Option.isSome_none, Bool.false_eq_true, false_iff, not_and]
    exact fun _ => hfit

/-- **`allocate_req`**: on a `MemoryRanges<N>` satisfying the invariant with `len() < N`,
for `size > 0`, it returns `Some(a)` exactly when some entry and some request entry
overlap in more than one address and hold an aligned block of `size` bytes there; the
`a` it returns is aligned, `[a, a + size - 1]` lies in an entry and in a request entry, and
exactly its addresses are taken away; when it returns `None` nothing changes. -/
theorem allocateReq_spec {m : Nat} {r : MemoryRanges n} (h : Valid r.entries)
    (hroom : r.entries.length < n) (hsize : 0 < size) (alignment : Arch.Alignment)
    (req : MemoryRanges m) :
    ((r.allocateReq size alignment req).1.isSome ↔
      ∃ e ∈ r.entries, ∃ q ∈ req.entries, max e.start q.start < min e.endAddr q.endAddr ∧
        ∃ a, a % alignment.asU64 = 0 ∧ max e.start q.start ≤ a ∧
          a + (size - 1) ≤ min e.endAddr q.endAddr) ∧
    (∀ a, (r.allocateReq size alignment req).1 = some a →
      a % alignment.asU64 = 0 ∧
      (∃ e ∈ r.entries, ∃ q ∈ req.entries, max e.start q.start ≤ a ∧
        a + (size - 1) ≤ min e.endAddr q.endAddr) ∧
      covered (r.allocateReq size alignment req).2.entries =
        covered r.entries \ Set.Icc a (a + (size - 1))) ∧
    ((r.allocateReq size alignment req).1 = none →
      (r.allocateReq size alignment req).2 = r) := by
  have hsome : (allocateReqLoop size alignment req.entries 0 none r.entries).isSome = true ↔
      ∃ e ∈ r.entries, ∃ q ∈ req.entries, max e.start q.start < min e.endAddr q.endAddr ∧
        ∃ a, a % alignment.asU64 = 0 ∧ max e.start q.start ≤ a ∧
          a + (size - 1) ≤ min e.endAddr q.endAddr := by
    rw [allocateReqLoop_isSome, Option.isSome_none, Bool.false_or, List.any_eq_true]
    refine exists_congr fun e => and_congr_right fun he => ?_
    rw [List.any_eq_true]
    exact exists_congr fun q => and_congr_right fun _ => fitReq_isSome_iff (h.proper e he).2
  have hall : FitAll (fun i s e => ∃ hi : i < r.entries.length, ∃ q ∈ req.entries, ∃ w,
      fitReq size alignment r.entries[i] q = some (s, e, w))
      (allocateReqLoop size alignment req.entries 0 none r.entries) :=
    FitAll.allocateReqLoop (fun i hi q hq s e w hfit => ⟨hi, q, hq, w, hfit⟩) r.entries 0 none
      rfl (FitAll.none _)
  unfold MemoryRanges.allocateReq
  rw [if_neg (Nat.pos_iff_ne_zero.mp hsize)]
  rcases hbest : allocateReqLoop size alignment req.entries 0 none r.entries with
    _ | ⟨i, s, e, w⟩
  · rw [hbest, Option.isSome_none, Bool.false_eq_true] at hsome
    simp only [takeBest, Option.isSome_none, Bool.false_eq_true, reduceCtorEq, false_imp_iff,
      implies_true, and_true]
    exact hsome
  · obtain ⟨hi, q, hq, w', hfit⟩ := hall i s e w hbest
    have hend := (h.proper _ (List.getElem_mem hi)).2
    rw [fitReq_eq size alignment q hend] at hfit
    split_ifs at hfit with hempty hle
    simp only [Option.some.injEq, Prod.mk.injEq] at hfit
    obtain ⟨rfl, rfl, -⟩ := hfit
    -- the block lies in the overlap, so in the entry
    have hlo := le_alignedFrom alignment (max r.entries[i].start q.start)
    have hwithin : Within (MemoryRange.new (alignedFrom alignment (max r.entries[i].start q.start))
        (alignedFrom alignment (max r.entries[i].start q.start) + (size - 1))) r.entries[i] := by
      unfold Within MemoryRange.new
      dsimp only
      omega
    refine ⟨?_, fun a ha => ?_, fun hnone => by cases hnone⟩
    · simp only [takeBest, Option.isSome_some, true_iff]
      exact ⟨_, List.getElem_mem hi, q, hq, Nat.lt_of_not_le hempty, _, alignedFrom_mod _ _, hlo,
        hle⟩
    · simp only [takeBest, Option.some.injEq] at ha
      subst ha
      exact ⟨alignedFrom_mod _ _, ⟨_, List.getElem_mem hi, q, hq, hlo, hle⟩,
        covered_trimRemove h hroom hi hwithin (Nat.le_add_right _ _)⟩


/-- The entry `[0, 10]` and the request entry `[10, 20]` share the address `10`, an
`Align1` block of one byte; `allocate_req(1, Align1, req)` on `[0, 10]` returns `None`. -/
theorem allocate_req_skips_one_address_overlap :
    Valid [⟨0, 10⟩] ∧ [(⟨0, 10⟩ : MemoryRange)].length < 2 ∧
    (∃ e ∈ [(⟨0, 10⟩ : MemoryRange)], ∃ q ∈ [(⟨10, 20⟩ : MemoryRange)], ∃ a,
      a % Arch.Alignment.align1.asU64 = 0 ∧ e.start ≤ a ∧ q.start ≤ a ∧
        a + (1 - 1) ≤ e.endAddr ∧ a + (1 - 1) ≤ q.endAddr) ∧
    ((⟨[⟨0, 10⟩], by decide⟩ : MemoryRanges 2).allocateReq 1 Arch.Alignment.align1
      (⟨[⟨10, 20⟩], by decide⟩ : MemoryRanges 1)).1 = none := by
  refine ⟨⟨?_, List.pairwise_singleton _ _⟩, by decide, ⟨_, List.mem_singleton_self _, _,
    List.mem_singleton_self _, 10, by decide⟩, by decide⟩
  intro a ha
  rw [List.mem_singleton.mp ha]
  exact ⟨by decide, by decide⟩

end Allocate

/-! ## §8 Intersection -/

/-- The pairs of ranges `overlaps` accepts: each starts before the other ends. -/
def Overlapping (a b : MemoryRange) : Prop := a.start < b.endAddr ∧ b.start < a.endAddr

instance : DecidableRel Overlapping := fun _ _ => inferInstanceAs (Decidable (_ ∧ _))

/-- `overlaps` with its two inner `if`s read as `max` and `min`. -/
theorem overlaps_eq (a b : MemoryRange) :
    a.overlaps b =
      if Overlapping a b then some ⟨max a.start b.start, min a.endAddr b.endAddr⟩ else none := by
  unfold MemoryRange.overlaps
  by_cases h : Overlapping a b
  · have h' := h
    unfold Overlapping at h'
    rw [if_neg (by omega), if_pos h]
    simp only [Option.some.injEq, MemoryRange.mk.injEq]
    constructor <;> split_ifs <;> omega
  · have h' := h
    unfold Overlapping at h'
    rw [if_pos (by omega), if_neg h]

/-- **Spec of `overlaps`** on entries: it refuses the pairs that are not `Overlapping`, and
otherwise returns an entry of their common addresses. -/
theorem overlaps_spec {a b : MemoryRange} (ha : Proper a) (hb : Proper b) :
    (a.overlaps b = none ↔ ¬ Overlapping a b) ∧
      ∀ c, a.overlaps b = some c → Overlapping a b ∧ Proper c ∧ c.addrs = a.addrs ∩ b.addrs := by
  rw [overlaps_eq]
  unfold Proper at ha hb
  split_ifs with hov
  · refine ⟨⟨fun h => (by cases h), fun h => absurd hov h⟩, fun c hc => ?_⟩
    cases hc
    unfold Overlapping at hov
    refine ⟨hov, ⟨by dsimp only; omega, by dsimp only; omega⟩, ?_⟩
    ext x
    simp only [Set.mem_inter_iff, mem_addrs]
    omega
  · exact ⟨⟨fun _ => hov, fun _ => rfl⟩, fun c hc => by cases hc⟩

/-- The common addresses of `range` and `other` that `intersection` keeps. -/
def keptAddrs (range other : MemoryRange) : Set Nat :=
  {x | Overlapping range other ∧ x ∈ range.addrs ∧ x ∈ other.addrs}

/-- **Step lemma** of `intersection`: one overlap is inserted, with room for it. -/
theorem insertOverlap_spec {range other : MemoryRange} (hp : Proper range) (ho : Proper other)
    {result : MemoryRanges n} (h : Valid result.entries) (hroom : result.entries.length < n) :
    Valid (insertOverlap range result other).entries ∧
      covered (insertOverlap range result other).entries =
        covered result.entries ∪ keptAddrs range other ∧
      (insertOverlap range result other).entries.length ≤ result.entries.length + 1 := by
  obtain ⟨hnone, hsome⟩ := overlaps_spec hp ho
  unfold insertOverlap
  rcases hov : range.overlaps other with _ | c
  · -- refused: nothing is inserted, and nothing was to be kept
    have hkept : keptAddrs range other = ∅ := by
      ext x
      simp only [keptAddrs, Set.mem_ofPred_eq, Set.mem_empty_iff_false, iff_false, not_and]
      exact fun hov' => absurd hov' (hnone.mp hov)
    rw [hkept, Set.union_empty]
    exact ⟨h, rfl, Nat.le_succ _⟩
  · obtain ⟨hover, hc, haddrs⟩ := hsome c hov
    have hkept : keptAddrs range other = c.addrs := by
      rw [haddrs]
      ext x
      simp only [keptAddrs, Set.mem_ofPred_eq, Set.mem_inter_iff, hover, true_and]
    rw [hkept]
    refine ⟨h.insert hc.2, ?_⟩
    dsimp only
    unfold MemoryRanges.insert
    rw [if_neg (Nat.not_lt.mpr hc.1)]
    exact covered_insertLoop h hc hroom

/-- **Run lemma** of `intersection`'s inner loop over the entries of `other`. -/
theorem foldl_insertOverlap {range : MemoryRange} (hp : Proper range) :
    ∀ (others : List MemoryRange), (∀ o ∈ others, Proper o) →
      ∀ (result : MemoryRanges n), Valid result.entries →
        result.entries.length + others.length ≤ n →
        Valid (others.foldl (insertOverlap range) result).entries ∧
          covered (others.foldl (insertOverlap range) result).entries =
            covered result.entries ∪ {x | ∃ o ∈ others, x ∈ keptAddrs range o} ∧
          (others.foldl (insertOverlap range) result).entries.length ≤
            result.entries.length + others.length
  | [], _, result, h, _ => by
    refine ⟨h, ?_, Nat.le_refl _⟩
    simp
  | o :: rest, hothers, result, h, hroom => by
    rw [List.length_cons] at hroom
    obtain ⟨h₁, hcov₁, hlen₁⟩ :=
      insertOverlap_spec hp (hothers o List.mem_cons_self) h (by omega)
    obtain ⟨h₂, hcov₂, hlen₂⟩ := foldl_insertOverlap hp rest
      (fun o' ho' => hothers o' (List.mem_cons_of_mem _ ho')) _ h₁ (by omega)
    rw [List.foldl_cons]
    refine ⟨h₂, ?_, by rw [List.length_cons]; omega⟩
    rw [hcov₂, hcov₁, Set.union_assoc]
    congr 1
    ext x
    simp only [Set.mem_union, Set.mem_ofPred_eq, List.mem_cons, exists_eq_or_imp]

/-- **Run lemma** of `intersection`'s outer loop over the entries of `self`. -/
theorem foldl_intersection (others : List MemoryRange) (hothers : ∀ o ∈ others, Proper o) :
    ∀ (ranges : List MemoryRange), (∀ a ∈ ranges, Proper a) →
      ∀ (result : MemoryRanges n), Valid result.entries →
        result.entries.length + ranges.length * others.length ≤ n →
        covered (ranges.foldl (fun result range => others.foldl (insertOverlap range) result)
            result).entries =
          covered result.entries ∪ {x | ∃ a ∈ ranges, ∃ o ∈ others, x ∈ keptAddrs a o}
  | [], _, result, _, _ => by simp
  | a :: rest, hranges, result, h, hroom => by
    rw [List.length_cons, Nat.succ_mul] at hroom
    obtain ⟨h₁, hcov₁, hlen₁⟩ :=
      foldl_insertOverlap (hranges a List.mem_cons_self) others hothers result h (by omega)
    rw [List.foldl_cons, foldl_intersection others hothers rest
      (fun a' ha' => hranges a' (List.mem_cons_of_mem _ ha')) _ h₁ (by omega), hcov₁,
      Set.union_assoc]
    congr 1
    ext x
    simp only [Set.mem_union, Set.mem_ofPred_eq, List.mem_cons, exists_eq_or_imp]

/-- **What `intersection` covers**: for two `MemoryRanges<N>` satisfying the invariant with
room for all their overlaps, the common addresses of the pairs of entries that
`overlaps` accepts. -/
theorem covered_intersection {a b : MemoryRanges n} (ha : Valid a.entries) (hb : Valid b.entries)
    (hroom : a.entries.length * b.entries.length ≤ n) :
    covered (a.intersection b).entries =
      {x | ∃ y ∈ a.entries, ∃ z ∈ b.entries, Overlapping y z ∧ x ∈ y.addrs ∧ x ∈ z.addrs} := by
  have hnew : Valid (MemoryRanges.new (n := n)).entries :=
    ⟨fun _ h => absurd h List.not_mem_nil, List.Pairwise.nil⟩
  unfold MemoryRanges.intersection
  rw [foldl_intersection b.entries hb.proper a.entries ha.proper _ hnew
    (by rw [show (MemoryRanges.new (n := n)).entries.length = 0 from rfl, Nat.zero_add]; exact hroom)]
  simp only [show (MemoryRanges.new (n := n)).entries = [] from rfl, covered_nil, Set.empty_union]
  rfl

/-- `MemoryRange::overlaps` refuses `[0, 5]` and `[5, 10]`, which share the address `5`, and
`intersection` of `[0, 5]` and `[5, 10]` in a `MemoryRanges<4>` is empty. -/
theorem intersection_drops_shared_end :
    5 ∈ covered [⟨0, 5⟩] ∧ 5 ∈ covered [⟨5, 10⟩] ∧
      MemoryRange.overlaps ⟨0, 5⟩ ⟨5, 10⟩ = none ∧
      ((⟨[⟨0, 5⟩], by decide⟩ : MemoryRanges 4).intersection ⟨[⟨5, 10⟩], by decide⟩).entries =
        [] := by
  refine ⟨⟨_, List.mem_singleton_self _, mem_addrs.mpr ⟨by decide, by decide⟩⟩,
    ⟨_, List.mem_singleton_self _, mem_addrs.mpr ⟨by decide, by decide⟩⟩, by decide, by decide⟩

end Beskar.Mem
