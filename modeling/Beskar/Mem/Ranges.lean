import Beskar.Arch.Addrs
import Beskar.Lib.Slice
import Beskar.Lib.Transition

/-!
# Memory Ranges

Model of `MemoryRange` and `MemoryRanges<N>` (`beskar-core/src/mem/ranges.rs`): free
memory kept as at most `N` inclusive ranges, with `insert`, which merges the new range
with every entry it overlaps or touches, the best-fit `allocate` and `allocate_req`,
which cut an aligned block out of one entry through `trim_remove`, and `intersection`,
which inserts the `overlaps` of every two entries into a new `MemoryRanges<N>`.

The array of `N` ranges and its `used` count are the list of the `used` entries, with
its length bounded by `N` in the type: the other slots of the array are never read
before `create` writes them.  `delete` moves the last entry into the deleted one's place,
as the source's swap does (`swapRemove`), and `create` drops the range when the array is
full, as a release build does past its `debug_assert!`.

Addresses are `u64` values as natural numbers: `saturating_add` is `addSaturating 64`
and `checked_add` is `addChecked 64`.  The plain `+` and `-` of `trim_remove` and of the
waste computations cannot overflow on the ranges these functions are given.

## Main results

- `Valid`: every entry is `Proper` (`start ≤ end < 2 ^ 64`), and every two entries are
  `Apart`, with at least one address between them.
- `Valid.insert`, `Valid.allocate`, `Valid.allocateReq`: each call keeps `Valid`.
- `memory_ranges_valid`: every `MemoryRanges<N>` reached from `new()` by any sequence of
  these calls is valid.
-/

namespace Beskar.Mem

open Beskar.Lib Beskar.Arch

/-- `MemoryRange`: a start and an inclusive end. -/
structure MemoryRange where
  start : Nat
  endAddr : Nat
deriving DecidableEq, Repr

/-- `MemoryRange::new`; its `debug_assert!(start <= end)` is not checked in a release
build. -/
def MemoryRange.new (start endAddr : Nat) : MemoryRange := ⟨start, endAddr⟩

/-- `MemoryRange::overlaps`: `None` when `self.start >= other.end || self.end <=
other.start` ("0-sized overlaps are useless"), and otherwise the range from the larger
start to the smaller end. -/
def MemoryRange.overlaps (self other : MemoryRange) : Option MemoryRange :=
  if self.start ≥ other.endAddr ∨ self.endAddr ≤ other.start then none
  else some ⟨if self.start > other.start then self.start else other.start,
    if self.endAddr < other.endAddr then self.endAddr else other.endAddr⟩

/-- `MemoryRanges<N>`: the `used` entries of the array, at most `N` of them. -/
structure MemoryRanges (n : Nat) where
  entries : List MemoryRange
  length_le : entries.length ≤ n

namespace MemoryRanges

variable {n : Nat}

/-! ## §1 The Array -/

/-- `MemoryRanges::new()`. -/
def new : MemoryRanges n := ⟨[], Nat.zero_le n⟩

/-- `delete`: `used -= 1` and `ranges.swap(index, used)`; nothing when `index` is out of
bounds. -/
def delete (r : MemoryRanges n) (index : Nat) : MemoryRanges n :=
  ⟨swapRemove r.entries index, (length_swapRemove_le _ _).trans r.length_le⟩

/-- `create`: the range is appended when there is room, and dropped otherwise. -/
def create (r : MemoryRanges n) (range : MemoryRange) : MemoryRanges n :=
  if h : r.entries.length < n then
    ⟨r.entries ++ [range], by rw [List.length_append, List.length_singleton]; exact h⟩
  else r

/-- A store through `&mut self.ranges[index]`. -/
def setEntry (r : MemoryRanges n) (index : Nat) (range : MemoryRange) : MemoryRanges n :=
  ⟨r.entries.set index range, by rw [List.length_set]; exact r.length_le⟩

/-! ## §2 Insert -/

/-- `range.start <= current.end.saturating_add(1) && current.start <=
range.end.saturating_add(1)`: the two ranges overlap or touch. -/
def touches (range current : MemoryRange) : Bool :=
  range.start ≤ addSaturating 64 current.endAddr 1 &&
    current.start ≤ addSaturating 64 range.endAddr 1

/-- `range.start.min(current.start)` and `range.end.max(current.end)`. -/
def merge (range current : MemoryRange) : MemoryRange :=
  ⟨min range.start current.start, max range.endAddr current.endAddr⟩

/-- The `while i < self.used` loop of `insert`: a merged entry is deleted and `i` stays,
to check the entry swapped into its place. -/
def insertLoop (range : MemoryRange) (r : MemoryRanges n) (i : Nat) : MemoryRanges n :=
  if h : i < r.entries.length then
    if touches range r.entries[i] then insertLoop (merge range r.entries[i]) (r.delete i) i
    else insertLoop range r (i + 1)
  else r.create range
termination_by r.entries.length - i
decreasing_by
  · show (swapRemove r.entries i).length - i < r.entries.length - i
    rw [length_swapRemove h]
    omega
  · omega

/-- `MemoryRanges::insert`: an empty range (`start > end`) is ignored. -/
def insert (r : MemoryRanges n) (range : MemoryRange) : MemoryRanges n :=
  if range.start > range.endAddr then r else insertLoop range r 0

/-! ## §3 Allocate -/

/-- `trim_remove`: cut `trim`, which lies inside entry `index`, out of that entry. -/
def trimRemove (r : MemoryRanges n) (index : Nat) (trim : MemoryRange) : MemoryRanges n :=
  let range := r.entries.getD index ⟨0, 0⟩
  if trim.start ≤ range.start ∧ trim.endAddr ≥ range.endAddr then r.delete index
  else if trim.start ≤ range.start then r.setEntry index { range with start := trim.endAddr + 1 }
  else if trim.endAddr ≥ range.endAddr then
    r.setEntry index { range with endAddr := trim.start - 1 }
  -- the middle of the entry: keep its head in place and create its tail
  else (r.setEntry index { range with endAddr := trim.start - 1 }).create
    (MemoryRange.new (trim.endAddr + 1) range.endAddr)

/-- A best fit so far: the entry's index, the block's start and end, and the waste. -/
abbrev Fit := Option (Nat × Nat × Nat × Nat)

/-- `if best_fit.is_none_or(|(_, _, _, best_waste)| waste < best_waste)`. -/
def pick (best : Fit) (index start endAddr waste : Nat) : Fit :=
  match best with
  | some (_, _, _, bestWaste) => if waste < bestWaste then some (index, start, endAddr, waste) else best
  | none => some (index, start, endAddr, waste)

/-- A candidate `(start, end, waste)` updates the best fit; `none` is a `continue`. -/
def pickCandidate (best : Fit) (index : Nat) : Option (Nat × Nat × Nat) → Fit
  | some (start, endAddr, waste) => pick best index start endAddr waste
  | none => best

/-- The body of `allocate`'s loop for one entry: the aligned block of `size` bytes at
the start of `range`, if it fits. -/
def fit (size : Nat) (alignment : Arch.Alignment) (range : MemoryRange) : Option (Nat × Nat × Nat) := do
  let offset := range.start &&& alignment.mask
  let alignmentOffset := (alignment.asU64 - offset) &&& alignment.mask
  let alignedStart ← addChecked 64 range.start alignmentOffset
  let endAddr ← addChecked 64 alignedStart (size - 1)
  if endAddr > range.endAddr then none
  else some (alignedStart, endAddr, alignmentOffset + (range.endAddr - endAddr))

/-- `for (index, range) in self.entries().iter().enumerate()` in `allocate`. -/
def allocateLoop (size : Nat) (alignment : Arch.Alignment) (index : Nat) (best : Fit) :
    List MemoryRange → Fit
  | [] => best
  | range :: rest =>
    allocateLoop size alignment (index + 1) (pickCandidate best index (fit size alignment range))
      rest

/-- The end of `allocate` and `allocate_req`: cut the best fit out of its entry. -/
def takeBest (r : MemoryRanges n) : Fit → Option Nat × MemoryRanges n
  | some (index, start, endAddr, _) =>
    (some start, r.trimRemove index (MemoryRange.new start endAddr))
  | none => (none, r)

/-- `MemoryRanges::allocate`. -/
def allocate (r : MemoryRanges n) (size : Nat) (alignment : Arch.Alignment) :
    Option Nat × MemoryRanges n :=
  if size = 0 then (none, r) else r.takeBest (allocateLoop size alignment 0 none r.entries)

/-- The body of `allocate_req`'s inner loop: the aligned block of `size` bytes at the
start of the overlap of `range` and `req`, if it fits in the overlap. -/
def fitReq (size : Nat) (alignment : Arch.Alignment) (range req : MemoryRange) :
    Option (Nat × Nat × Nat) :=
  let overlapStart := max range.start req.start
  let overlapEnd := min range.endAddr req.endAddr
  if overlapStart ≥ overlapEnd then none
  else do
    let offset := overlapStart &&& alignment.mask
    let alignmentOffset := (alignment.asU64 - offset) &&& alignment.mask
    -- `Some(a) if a <= overlap_end => a, _ => continue`
    let alignedStart ← (addChecked 64 overlapStart alignmentOffset).filter (· ≤ overlapEnd)
    let endAddr ← (addChecked 64 alignedStart (size - 1)).filter (· ≤ overlapEnd)
    some (alignedStart, endAddr, alignmentOffset + (range.endAddr - endAddr))

/-- `for req_range in &req_ranges.ranges[..req_ranges.used]`, for entry `index`. -/
def allocateReqInner (size : Nat) (alignment : Arch.Alignment) (index : Nat) (range : MemoryRange)
    (best : Fit) : List MemoryRange → Fit
  | [] => best
  | req :: rest =>
    allocateReqInner size alignment index range
      (pickCandidate best index (fitReq size alignment range req)) rest

/-- `for (index, range) in self.ranges[..self.used].iter().enumerate()` in
`allocate_req`. -/
def allocateReqLoop (size : Nat) (alignment : Arch.Alignment) (reqs : List MemoryRange)
    (index : Nat) (best : Fit) : List MemoryRange → Fit
  | [] => best
  | range :: rest =>
    allocateReqLoop size alignment reqs (index + 1)
      (allocateReqInner size alignment index range best reqs) rest

/-- `MemoryRanges::allocate_req`. -/
def allocateReq {m : Nat} (r : MemoryRanges n) (size : Nat) (alignment : Arch.Alignment)
    (req : MemoryRanges m) : Option Nat × MemoryRanges n :=
  if size = 0 then (none, r)
  else r.takeBest (allocateReqLoop size alignment req.entries 0 none r.entries)

/-! ## §3a Intersection -/

/-- The body of `intersection`'s inner loop: `if let Some(overlap) =
range.overlaps(other_range) { result.insert(overlap) }`. -/
def insertOverlap (range : MemoryRange) (result : MemoryRanges n) (otherRange : MemoryRange) :
    MemoryRanges n :=
  match range.overlaps otherRange with
  | some overlap => result.insert overlap
  | none => result

/-- `MemoryRanges::intersection`: every overlap of an entry of `self` with an entry of
`other`, inserted into `MemoryRanges::new()`. -/
def intersection (r other : MemoryRanges n) : MemoryRanges n :=
  r.entries.foldl (fun result range => other.entries.foldl (insertOverlap range) result) new

end MemoryRanges

/-! ## §4 Well-Formed Entries -/

/-- An entry: `start ≤ end`, both `u64` values. -/
def Proper (a : MemoryRange) : Prop := a.start ≤ a.endAddr ∧ a.endAddr < 2 ^ 64

/-- Two entries are apart: at least one address lies between them, in either order. -/
def Apart (a b : MemoryRange) : Prop := a.endAddr + 1 < b.start ∨ b.endAddr + 1 < a.start

/-- The invariant the source states for its entries, and that `insert` relies on. -/
structure Valid (l : List MemoryRange) : Prop where
  proper : ∀ a ∈ l, Proper a
  apart : l.Pairwise Apart

/-- `b` lies inside `a`. -/
def Within (b a : MemoryRange) : Prop := a.start ≤ b.start ∧ b.endAddr ≤ a.endAddr

instance : DecidablePred Proper := fun _ => inferInstanceAs (Decidable (_ ∧ _))

instance : DecidableRel Apart := fun _ _ => inferInstanceAs (Decidable (_ ∨ _))

instance (l : List MemoryRange) : Decidable (Valid l) :=
  decidable_of_iff ((∀ a ∈ l, Proper a) ∧ l.Pairwise Apart)
    ⟨fun h => ⟨h.1, h.2⟩, fun h => ⟨h.proper, h.apart⟩⟩

theorem Apart.symm {a b : MemoryRange} (h : Apart a b) : Apart b a := Or.symm h

/-- A range inside `b` is apart from whatever `b` is apart from. -/
theorem Apart.within {a b c : MemoryRange} (h : Apart a b) (hc : Within c b) : Apart a c := by
  unfold Apart at *
  unfold Within at hc
  omega

theorem Proper.within {a b : MemoryRange} (ha : Proper a) (hb : Within b a)
    (hle : b.start ≤ b.endAddr) : Proper b := by
  unfold Proper at *
  unfold Within at hb
  omega

variable {n : Nat}

open MemoryRanges

/-- On `u64` ends the saturating test of `insert` is exactly "not apart". -/
theorem touches_iff {a b : MemoryRange} (ha : Proper a) (hb : Proper b) :
    touches a b = true ↔ ¬ Apart a b := by
  unfold touches addSaturating Apart
  unfold Proper at ha hb
  simp only [Bool.and_eq_true, decide_eq_true_eq]
  omega

theorem Proper.merge {a b : MemoryRange} (ha : Proper a) (hb : Proper b) :
    Proper (MemoryRanges.merge a b) := by
  unfold Proper MemoryRanges.merge at *
  simp only
  omega

/-- **Why one pass suffices**: an entry apart from the range and from an entry that
touches it is apart from their merge. -/
theorem Apart.merge {x a b : MemoryRange} (hx : x.start ≤ x.endAddr) (hxa : Apart x a)
    (hxb : Apart x b) (hab : ¬ Apart a b) : Apart x (MemoryRanges.merge a b) := by
  unfold Apart MemoryRanges.merge at *
  simp only
  omega

/-! ## §5 Each Call Keeps the Entries Valid -/

theorem Valid.delete {r : MemoryRanges n} (h : Valid r.entries) (i : Nat) :
    Valid (r.delete i).entries := by
  by_cases hi : i < r.entries.length
  · exact ⟨fun a ha => h.proper a (mem_of_mem_swapRemove hi ha),
      pairwise_swapRemove Apart.symm h.apart hi⟩
  · show Valid (swapRemove r.entries i)
    rw [swapRemove_of_le (Nat.not_lt.mp hi)]
    exact h

/-- A range apart from every entry can be created. -/
theorem Valid.create {r : MemoryRanges n} (h : Valid r.entries) {range : MemoryRange}
    (hp : Proper range) (hapart : ∀ a ∈ r.entries, Apart a range) :
    Valid (r.create range).entries := by
  unfold MemoryRanges.create
  split
  · refine ⟨fun a ha => ?_, ?_⟩
    · rcases List.mem_append.mp ha with ha | ha
      · exact h.proper a ha
      · rw [List.mem_singleton.mp ha]
        exact hp
    · rw [List.pairwise_append]
      refine ⟨h.apart, List.pairwise_singleton _ _, fun a ha b hb => ?_⟩
      rw [List.mem_singleton.mp hb]
      exact hapart a ha
  · exact h

/-- **Loop invariant of `insert`**: the entries before `i` are apart from the growing
range. -/
theorem Valid.insertLoop {range : MemoryRange} {r : MemoryRanges n} {i : Nat}
    (h : Valid r.entries) (hp : Proper range) (hi : i ≤ r.entries.length)
    (hpre : ∀ a ∈ r.entries.take i, Apart a range) : Valid (insertLoop range r i).entries := by
  induction range, r, i using MemoryRanges.insertLoop.induct with
  | case1 range r i hlt htouch ih =>
    -- the entry touches: merge it, delete it, and look at index `i` again
    rw [MemoryRanges.insertLoop, dif_pos hlt, if_pos htouch]
    have hcur : Proper r.entries[i] := h.proper _ (List.getElem_mem hlt)
    have hna : ¬ Apart range r.entries[i] := (touches_iff hp hcur).mp htouch
    apply ih (h.delete i) (Proper.merge hp hcur)
    · show i ≤ (swapRemove r.entries i).length
      rw [length_swapRemove hlt]
      omega
    · intro a ha
      rw [show (r.delete i).entries = swapRemove r.entries i from rfl, take_swapRemove hlt] at ha
      have hmem : a ∈ r.entries := List.mem_of_mem_take ha
      exact Apart.merge (h.proper a hmem).1 (hpre a ha) (rel_of_mem_take h.apart hlt ha) hna
  | case2 range r i hlt htouch ih =>
    -- the entry is apart: it joins the checked prefix
    rw [MemoryRanges.insertLoop, dif_pos hlt, if_neg htouch]
    have hcur : Proper r.entries[i] := h.proper _ (List.getElem_mem hlt)
    have hapart : Apart r.entries[i] range :=
      (Classical.not_not.mp (mt (touches_iff hp hcur).mpr htouch)).symm
    apply ih h hp hlt
    intro a ha
    rw [List.take_add_one, List.getElem?_eq_getElem hlt, Option.toList_some] at ha
    rcases List.mem_append.mp ha with ha | ha
    · exact hpre a ha
    · rw [List.mem_singleton.mp ha]
      exact hapart
  | case3 range r i hge =>
    -- past the last entry: every entry is apart from the range
    rw [MemoryRanges.insertLoop, dif_neg hge]
    have hall : r.entries.take i = r.entries := List.take_of_length_le (by omega)
    exact h.create hp (fun a ha => hpre a (by rw [hall]; exact ha))

/-- `insert` keeps the entries valid. -/
theorem Valid.insert {r : MemoryRanges n} (h : Valid r.entries) {range : MemoryRange}
    (hend : range.endAddr < 2 ^ 64) : Valid (r.insert range).entries := by
  unfold MemoryRanges.insert
  split
  · exact h
  · rename_i hle
    exact h.insertLoop ⟨Nat.not_lt.mp hle, hend⟩ (Nat.zero_le _) (fun a ha => by simp at ha)

/-- Replacing entry `i` by a nonempty part of it keeps the entries valid. -/
theorem Valid.setEntry {r : MemoryRanges n} (h : Valid r.entries) {i : Nat}
    (hi : i < r.entries.length) {b : MemoryRange} (hb : Within b r.entries[i])
    (hle : b.start ≤ b.endAddr) : Valid (r.setEntry i b).entries := by
  have hp : Proper b := (h.proper _ (List.getElem_mem hi)).within hb hle
  refine ⟨fun a ha => ?_, ?_⟩
  · rcases mem_set_cases hi ha with rfl | ha | ha
    · exact hp
    · exact h.proper a (List.mem_of_mem_take ha)
    · exact h.proper a (List.mem_of_mem_drop ha)
  · exact pairwise_set h.apart hi (fun a ha => (rel_of_mem_take h.apart hi ha).within hb)
      (fun a ha => ((rel_of_mem_drop h.apart hi ha).symm.within hb).symm)

/-- `trim_remove` keeps the entries valid when the trimmed block lies inside its entry. -/
theorem Valid.trimRemove {r : MemoryRanges n} (h : Valid r.entries) {i : Nat}
    (hi : i < r.entries.length) {trim : MemoryRange} (htrim : Within trim r.entries[i])
    (hle : trim.start ≤ trim.endAddr) : Valid (r.trimRemove i trim).entries := by
  have hget : r.entries.getD i ⟨0, 0⟩ = r.entries[i] := by
    rw [List.getD_eq_getElem?_getD, List.getElem?_eq_getElem hi, Option.getD_some]
  have hp : Proper r.entries[i] := h.proper _ (List.getElem_mem hi)
  have hstart : r.entries[i].start ≤ r.entries[i].endAddr := hp.1
  unfold Within at htrim
  unfold MemoryRanges.trimRemove
  simp only [hget]
  split
  · -- the whole entry goes
    exact h.delete i
  · split
    · -- the head goes
      rename_i h₁ h₂
      exact h.setEntry hi ⟨by simp only; omega, by simp only; omega⟩ (by simp only; omega)
    · split
      · -- the tail goes
        rename_i h₁ h₂ h₃
        exact h.setEntry hi ⟨by simp only; omega, by simp only; omega⟩ (by simp only; omega)
      · -- the middle goes: the head stays in place and the tail is created
        rename_i h₁ h₂ h₃
        have hhead : Within { r.entries[i] with endAddr := trim.start - 1 } r.entries[i] :=
          ⟨by simp only; omega, by simp only; omega⟩
        have hv := h.setEntry hi hhead (by simp only; omega)
        have htail : Within (MemoryRange.new (trim.endAddr + 1) r.entries[i].endAddr)
            r.entries[i] :=
          ⟨by simp only [MemoryRange.new]; omega, by simp only [MemoryRange.new]; omega⟩
        apply hv.create (hp.within htail (by simp only [MemoryRange.new]; omega))
        intro a ha
        rcases mem_set_cases hi ha with rfl | ha | ha
        · -- the head ends before the trimmed block, the tail starts after it
          unfold Apart MemoryRange.new
          simp only
          omega
        · exact (rel_of_mem_take h.apart hi ha).within htail
        · exact (rel_of_mem_drop h.apart hi ha).symm.within htail

/-! ## §6 The Best Fit -/

/-- The best fit, if any, names an entry and a nonempty block inside it. -/
def FitsIn (l : List MemoryRange) (best : Fit) : Prop :=
  ∀ index start endAddr waste, best = some (index, start, endAddr, waste) →
    ∃ h : index < l.length, Within (MemoryRange.new start endAddr) l[index] ∧ start ≤ endAddr

/-- A candidate for entry `index`: a nonempty block inside that entry. -/
def CandidateIn (l : List MemoryRange) (index : Nat) (c : Option (Nat × Nat × Nat)) : Prop :=
  ∀ start endAddr waste, c = some (start, endAddr, waste) →
    ∃ h : index < l.length, Within (MemoryRange.new start endAddr) l[index] ∧ start ≤ endAddr

theorem FitsIn.none (l : List MemoryRange) : FitsIn l none := by
  intro _ _ _ _ h
  cases h

/-- **Step lemma** of both best-fit loops. -/
theorem FitsIn.pickCandidate {l : List MemoryRange} {best : Fit} (h : FitsIn l best)
    {index : Nat} {c : Option (Nat × Nat × Nat)} (hc : CandidateIn l index c) :
    FitsIn l (MemoryRanges.pickCandidate best index c) := by
  cases c with
  | none => exact h
  | some c =>
    obtain ⟨start, endAddr, waste⟩ := c
    have hnew : FitsIn l (some (index, start, endAddr, waste)) := by
      intro i s e w heq
      simp only [Option.some.injEq, Prod.mk.injEq] at heq
      obtain ⟨rfl, rfl, rfl, rfl⟩ := heq
      exact hc start endAddr waste rfl
    -- `pick` keeps the old best fit or takes the candidate
    simp only [MemoryRanges.pickCandidate, MemoryRanges.pick]
    split
    · split
      · exact hnew
      · exact h
    · exact hnew

/-- The block `fit` finds lies inside its entry. -/
theorem fit_within {size : Nat} {alignment : Arch.Alignment} {range : MemoryRange}
    {start endAddr waste : Nat} (h : fit size alignment range = some (start, endAddr, waste)) :
    Within (MemoryRange.new start endAddr) range ∧ start ≤ endAddr := by
  simp only [fit, Option.bind_eq_bind, Option.bind_eq_some_iff, addChecked_eq_some] at h
  obtain ⟨s, ⟨-, hs⟩, e, ⟨-, he⟩, hfit⟩ := h
  split at hfit
  · cases hfit
  · rename_i hle
    simp only [Option.some.injEq, Prod.mk.injEq] at hfit
    obtain ⟨rfl, rfl, -⟩ := hfit
    exact ⟨⟨by simp only [MemoryRange.new]; omega, by simp only [MemoryRange.new]; omega⟩,
      by omega⟩

/-- The block `fitReq` finds lies inside its entry. -/
theorem fitReq_within {size : Nat} {alignment : Arch.Alignment} {range req : MemoryRange}
    {start endAddr waste : Nat} (h : fitReq size alignment range req = some (start, endAddr, waste)) :
    Within (MemoryRange.new start endAddr) range ∧ start ≤ endAddr := by
  simp only [fitReq] at h
  split at h
  · cases h
  · simp only [Option.bind_eq_bind, Option.bind_eq_some_iff, Option.filter_eq_some_iff,
      addChecked_eq_some] at h
    obtain ⟨s, ⟨⟨-, hs⟩, hs'⟩, e, ⟨⟨-, he⟩, he'⟩, hfit⟩ := h
    simp only [Option.some.injEq, Prod.mk.injEq] at hfit
    obtain ⟨rfl, rfl, -⟩ := hfit
    simp only [decide_eq_true_eq] at hs' he'
    exact ⟨⟨by simp only [MemoryRange.new]; omega, by simp only [MemoryRange.new]; omega⟩,
      by omega⟩

/-- **Run lemma** of `allocate`'s loop, from entry `index` on. -/
theorem FitsIn.allocateLoop {l : List MemoryRange} {size : Nat} {alignment : Arch.Alignment} :
    ∀ (rest : List MemoryRange) (index : Nat) (best : Fit), l.drop index = rest →
      FitsIn l best → FitsIn l (MemoryRanges.allocateLoop size alignment index best rest)
  | [], _, _, _, h => h
  | range :: rest, index, best, hrest, h => by
    have hi : index < l.length := by
      by_contra hge
      rw [List.drop_of_length_le (Nat.le_of_not_lt hge)] at hrest
      cases hrest
    have hget : l[index] = range := by
      rw [List.drop_eq_getElem_cons hi] at hrest
      exact (List.cons.inj hrest).1
    have hrest' : l.drop (index + 1) = rest := by
      rw [List.drop_eq_getElem_cons hi] at hrest
      exact (List.cons.inj hrest).2
    apply FitsIn.allocateLoop rest (index + 1) _ hrest'
    apply h.pickCandidate
    intro start endAddr waste hc
    exact ⟨hi, hget ▸ fit_within hc⟩

/-- **Run lemma** of `allocate_req`'s inner loop, for entry `index`. -/
theorem FitsIn.allocateReqInner {l : List MemoryRange} {size : Nat} {alignment : Arch.Alignment}
    {index : Nat} (hi : index < l.length) :
    ∀ (reqs : List MemoryRange) (best : Fit), FitsIn l best →
      FitsIn l (MemoryRanges.allocateReqInner size alignment index l[index] best reqs)
  | [], _, h => h
  | req :: rest, best, h => by
    apply FitsIn.allocateReqInner hi rest
    apply h.pickCandidate
    intro start endAddr waste hc
    exact ⟨hi, fitReq_within hc⟩

/-- **Run lemma** of `allocate_req`'s outer loop, from entry `index` on. -/
theorem FitsIn.allocateReqLoop {l : List MemoryRange} {size : Nat} {alignment : Arch.Alignment}
    (reqs : List MemoryRange) :
    ∀ (rest : List MemoryRange) (index : Nat) (best : Fit), l.drop index = rest →
      FitsIn l best → FitsIn l (MemoryRanges.allocateReqLoop size alignment reqs index best rest)
  | [], _, _, _, h => h
  | range :: rest, index, best, hrest, h => by
    have hi : index < l.length := by
      by_contra hge
      rw [List.drop_of_length_le (Nat.le_of_not_lt hge)] at hrest
      cases hrest
    have hget : l[index] = range := by
      rw [List.drop_eq_getElem_cons hi] at hrest
      exact (List.cons.inj hrest).1
    have hrest' : l.drop (index + 1) = rest := by
      rw [List.drop_eq_getElem_cons hi] at hrest
      exact (List.cons.inj hrest).2
    apply FitsIn.allocateReqLoop reqs rest (index + 1) _ hrest'
    rw [← hget]
    exact h.allocateReqInner hi reqs

/-- Cutting out a best fit that lies inside its entry keeps the entries valid. -/
theorem Valid.takeBest {r : MemoryRanges n} (h : Valid r.entries) {best : Fit}
    (hfit : FitsIn r.entries best) : Valid (r.takeBest best).2.entries := by
  cases best with
  | none => exact h
  | some b =>
    obtain ⟨index, start, endAddr, waste⟩ := b
    obtain ⟨hi, hwithin, hle⟩ := hfit index start endAddr waste rfl
    exact h.trimRemove hi hwithin hle

theorem Valid.allocate {r : MemoryRanges n} (h : Valid r.entries) (size : Nat)
    (alignment : Arch.Alignment) : Valid (r.allocate size alignment).2.entries := by
  unfold MemoryRanges.allocate
  split
  · exact h
  · exact h.takeBest (FitsIn.allocateLoop r.entries 0 none rfl (FitsIn.none _))

theorem Valid.allocateReq {m : Nat} {r : MemoryRanges n} (h : Valid r.entries) (size : Nat)
    (alignment : Arch.Alignment) (req : MemoryRanges m) :
    Valid (r.allocateReq size alignment req).2.entries := by
  unfold MemoryRanges.allocateReq
  split
  · exact h
  · exact h.takeBest (FitsIn.allocateReqLoop req.entries r.entries 0 none rfl (FitsIn.none _))

/-! ## §7 Runs of Calls -/

/-- A call on a `MemoryRanges<N>`. -/
inductive RangesCall where
  | insert (range : MemoryRange)
  | allocate (size : Nat) (alignment : Arch.Alignment)
  | allocateReq (size : Nat) (alignment : Arch.Alignment) (m : Nat) (req : MemoryRanges m)

namespace RangesCall

variable {n : Nat}

/-- The state after the call; the addresses `allocate` returns are dropped. -/
def exec (r : MemoryRanges n) : RangesCall → MemoryRanges n
  | .insert range => r.insert range
  | .allocate size alignment => (r.allocate size alignment).2
  | .allocateReq size alignment _ req => (r.allocateReq size alignment req).2

/-- The range given to `insert` is a pair of `u64` values. -/
def Allowed : RangesCall → Prop
  | .insert range => range.start < 2 ^ 64 ∧ range.endAddr < 2 ^ 64
  | _ => True

/-- **Step lemma**: every call keeps the entries valid. -/
theorem exec_valid {r : MemoryRanges n} (h : Valid r.entries) {call : RangesCall}
    (hcall : call.Allowed) : Valid (call.exec r).entries := by
  cases call with
  | insert range => exact h.insert hcall.2
  | allocate size alignment => exact h.allocate size alignment
  | allocateReq size alignment m req => exact h.allocateReq size alignment req

end RangesCall

/-- One call. -/
def Step {n : Nat} (r : MemoryRanges n) (call : RangesCall) (r' : MemoryRanges n) : Prop :=
  call.Allowed ∧ r' = call.exec r

/-- For every `N`, every `MemoryRanges<N>` reached from `new()` by any sequence of
`insert`, `allocate` and `allocate_req` calls has entries with `start <= end`, every two
of them disjoint and not adjacent. -/
theorem memory_ranges_valid {n : Nat} {r : MemoryRanges n}
    (h : Reachable Step (· = MemoryRanges.new) r) :
    (∀ a ∈ r.entries, a.start ≤ a.endAddr) ∧
      r.entries.Pairwise (fun a b => a.endAddr + 1 < b.start ∨ b.endAddr + 1 < a.start) := by
  have hv : Valid r.entries :=
    Reachable.invariant (fun r => Valid r.entries)
      (fun _ h0 => by rw [h0]; exact ⟨fun a ha => absurd ha List.not_mem_nil, List.Pairwise.nil⟩)
      (fun _ _ _ hv hstep => hstep.2 ▸ RangesCall.exec_valid hv hstep.1) h
  exact ⟨fun a ha => (hv.proper a ha).1, hv.apart⟩

/-- Two inserts into a `MemoryRanges<10>`. -/
theorem memory_ranges_valid_two_inserts :
    (∀ a ∈ ((MemoryRanges.new (n := 10)).insert ⟨0, 10⟩ |>.insert ⟨30, 40⟩).entries,
        a.start ≤ a.endAddr) ∧
      ((MemoryRanges.new (n := 10)).insert ⟨0, 10⟩ |>.insert ⟨30, 40⟩).entries.Pairwise
        (fun a b => a.endAddr + 1 < b.start ∨ b.endAddr + 1 < a.start) := by
  have h₀ : Reachable Step (· = MemoryRanges.new) (MemoryRanges.new (n := 10)) :=
    Reachable.of_init rfl
  have h₁ := h₀.tail (a := RangesCall.insert ⟨0, 10⟩) ⟨⟨by decide, by decide⟩, rfl⟩
  have h₂ := h₁.tail (a := RangesCall.insert ⟨30, 40⟩) ⟨⟨by decide, by decide⟩, rfl⟩
  exact memory_ranges_valid h₂

end Beskar.Mem
