import Mathlib
import Beskar.Heaperion.Basic

/-!
# Heaperion: the Slab Allocator

Model of `heaperion/src/slab.rs`.  A `Slab` cuts its region into slots of one size and
keeps the free ones in an intrusive list (here a list of addresses, head first); a
`SlabAllocator` carves its memory into one slab per size class of `SLAB_SIZES` and serves
a layout from the first slab whose slots are large enough.

`free_count` is kept as the source keeps it, one down on each allocation and one up on each
deallocation; `Slab.Inv` says it is the length of the free list, so the `usize` arithmetic
on it never wraps.

## Main results

- `Slab.Inv`: the free list and the live allocations of a slab are distinct slots, as many
  as the slab has, `free_count` counts the free list, and every allocation fits its slot.
- `SlabsOk`: the slabs lie one after the other between two addresses, each keeping `Inv`
  for the allocations that fall into its region.
- `SlabAllocator.allocate_spec`, `SlabAllocator.deallocate_spec`: allocation keeps the
  invariant and returns a range disjoint from every live allocation; deallocating a live
  allocation succeeds and keeps the invariant; `SlabAllocator.new_spec` establishes it.
-/

namespace Beskar.Heaperion

/-- `SLAB_SIZES`. -/
def slabSizes : List Nat := [8, 16, 32, 64, 128, 256, 512]

/-- `MIN_HEAP_SIZE`. -/
def minHeapSize : Nat := 4096

/-- `MAX_SLABS`. -/
def maxSlabs : Nat := 8

/-- `Slab`: its slot size, its free list, its region `[start, end)`, its count of free slots
and its capacity. -/
structure Slab where
  slotSize : Nat
  freeList : List Nat
  start : Nat
  endPtr : Nat
  freeCount : Nat
  capacity : Nat
deriving DecidableEq, Repr

namespace Slab

/-- `Slab::new`: align the start to the slot size and link every slot that fits. -/
def new (slotSize startPtr size : Nat) : Except HeapError Slab :=
  let alignedAddr := alignUp startPtr slotSize
  let offset := alignedAddr - startPtr
  if offset ≥ size then .error .invalidSize
  else
    let adjustedSize := size - offset
    let numSlots := adjustedSize / slotSize
    .ok { slotSize
          freeList := (List.range numSlots).map fun k => alignedAddr + k * slotSize
          start := alignedAddr
          endPtr := alignedAddr + adjustedSize
          freeCount := numSlots
          capacity := numSlots }

/-- `Slab::allocate`: pop the head of the free list. -/
def allocate (s : Slab) : Except HeapError (Nat × Slab) :=
  match s.freeList with
  | [] => .error .outOfMemory
  | slot :: next => .ok (slot, { s with freeList := next, freeCount := s.freeCount - 1 })

/-- `Slab::deallocate`: a pointer in the region at a slot boundary goes back on the list. -/
def deallocate (s : Slab) (ptr : Nat) : Except HeapError Slab :=
  if ptr < s.start ∨ ptr ≥ s.endPtr then .error .invalidPointer
  else if (ptr - s.start) % s.slotSize ≠ 0 then .error .invalidPointer
  else .ok { s with freeList := ptr :: s.freeList, freeCount := s.freeCount + 1 }

/-- `Slab::contains`. -/
def contains (s : Slab) (ptr : Nat) : Bool :=
  decide (s.start ≤ ptr ∧ ptr < s.endPtr)

/-- `Slab::new` accepts a region of at least one slot. -/
theorem new_ok {slotSize startPtr size : Nat} (hpos : 0 < slotSize) (h : slotSize ≤ size) :
    ∃ s, Slab.new slotSize startPtr size = .ok s := by
  obtain ⟨hle, hlt, -⟩ := alignUp_spec startPtr hpos
  unfold Slab.new
  dsimp only
  rw [if_neg (by omega)]
  exact ⟨_, rfl⟩

end Slab

/-- `SlabAllocator`: the slabs of the size classes, `None` where a class got no slab. -/
structure SlabAllocator where
  slabs : List (Option Slab)

namespace SlabAllocator

/-- The loop of `SlabAllocator::new` from address `current` over the size classes left:
each class gets `base` bytes while they last, and the loop stops at the first class that
would get fewer than four slots. -/
def carve (ptr size base : Nat) : Nat → List Nat → Except HeapError (List (Option Slab))
  | _, [] => .ok []
  | current, slotSize :: rest =>
    let used := current - ptr
    let slabSize := min base (size - used)
    if slabSize < slotSize * 4 then .ok []
    else do
      let slab ← Slab.new slotSize current slabSize
      let slabs ← carve ptr size base (current + slabSize) rest
      .ok ((if slab.capacity > 0 then some slab else none) :: slabs)

/-- `SlabAllocator::new`. -/
def new (ptr size : Nat) : Except HeapError SlabAllocator :=
  if size < minHeapSize then .error .invalidSize
  else do
    let slabs ← carve ptr size (size / slabSizes.length) ptr slabSizes
    .ok ⟨slabs ++ List.replicate (maxSlabs - slabs.length) none⟩

/-- The search of `SlabAllocator::allocate`: the first slab with large enough slots. -/
def allocIn (size : Nat) : List (Option Slab) → Except HeapError (Nat × List (Option Slab))
  | [] => .error .outOfMemory
  | none :: rest => (allocIn size rest).map fun r => (r.1, none :: r.2)
  | some slab :: rest =>
    if slab.slotSize ≥ size then slab.allocate.map fun r => (r.1, some r.2 :: rest)
    else (allocIn size rest).map fun r => (r.1, some slab :: r.2)

/-- `SlabAllocator::allocate`. -/
def allocate (a : SlabAllocator) (layout : Layout) : Except HeapError (Nat × SlabAllocator) :=
  if layout.size = 0 then .error .invalidSize
  else (allocIn (max layout.size layout.align) a.slabs).map fun r => (r.1, ⟨r.2⟩)

/-- The search of `SlabAllocator::deallocate`: the first slab whose region holds `ptr`. -/
def deallocIn (ptr : Nat) : List (Option Slab) → Except HeapError (List (Option Slab))
  | [] => .error .invalidPointer
  | none :: rest => (deallocIn ptr rest).map (none :: ·)
  | some slab :: rest =>
    if slab.contains ptr then (slab.deallocate ptr).map (some · :: rest)
    else (deallocIn ptr rest).map (some slab :: ·)

/-- `SlabAllocator::deallocate`. -/
def deallocate (a : SlabAllocator) (ptr : Nat) : Except HeapError SlabAllocator :=
  (deallocIn ptr a.slabs).map (⟨·⟩)

/-- `SlabAllocator::max_size`: the last size class. -/
def maxSize : Nat := 512

end SlabAllocator

/-! ## §1 One Slab -/

namespace Slab

/-- A slot of the slab. -/
def IsSlot (s : Slab) (p : Nat) : Prop :=
  ∃ k < s.capacity, p = s.start + k * s.slotSize

/-- The slab's free list and the pointers of its live allocations (with their sizes) are
distinct slots, one for each slot of the slab; `free_count` counts the free list, and every
allocation fits its slot. -/
structure Inv (s : Slab) (live : List (Nat × Nat)) : Prop where
  slotSize_pos : 0 < s.slotSize
  fits : s.start + s.capacity * s.slotSize ≤ s.endPtr
  slots : ∀ p ∈ s.freeList ++ live.map Prod.fst, s.IsSlot p
  nodup : (s.freeList ++ live.map Prod.fst).Nodup
  complete : s.freeList.length + live.length = s.capacity
  count : s.freeCount = s.freeList.length
  size_le : ∀ x ∈ live, x.2 ≤ s.slotSize

variable {s s' : Slab} {live live' : List (Nat × Nat)} {p q n : Nat}

/-- What `allocate` can do: pop the head of the free list. -/
theorem allocate_eq (h : s.allocate = .ok (p, s')) :
    ∃ next, s.freeList = p :: next ∧
      s' = { s with freeList := next, freeCount := s.freeCount - 1 } := by
  unfold Slab.allocate at h
  split at h
  · cases h
  · rename_i slot next hfree
    cases h
    exact ⟨next, hfree, rfl⟩

/-- A slot lies in the region, with room for a whole slot. -/
theorem IsSlot.bounds (hp : s.IsSlot p) (hfit : s.start + s.capacity * s.slotSize ≤ s.endPtr) :
    s.start ≤ p ∧ p + s.slotSize ≤ s.endPtr := by
  obtain ⟨k, hk, rfl⟩ := hp
  have : (k + 1) * s.slotSize ≤ s.capacity * s.slotSize := Nat.mul_le_mul_right _ hk
  constructor
  · omega
  · rw [Nat.add_mul, Nat.one_mul] at this
    omega

/-- Two different slots do not overlap. -/
theorem IsSlot.disjoint (hp : s.IsSlot p) (hq : s.IsSlot q) (hne : p ≠ q) :
    p + s.slotSize ≤ q ∨ q + s.slotSize ≤ p := by
  obtain ⟨k, -, rfl⟩ := hp
  obtain ⟨j, -, rfl⟩ := hq
  rcases Nat.lt_or_gt_of_ne (show k ≠ j by rintro rfl; exact hne rfl) with hkj | hjk
  · have : (k + 1) * s.slotSize ≤ j * s.slotSize := Nat.mul_le_mul_right _ hkj
    rw [Nat.add_mul, Nat.one_mul] at this
    left
    omega
  · have : (j + 1) * s.slotSize ≤ k * s.slotSize := Nat.mul_le_mul_right _ hjk
    rw [Nat.add_mul, Nat.one_mul] at this
    right
    omega

theorem contains_iff : s.contains p = true ↔ s.start ≤ p ∧ p < s.endPtr := by
  simp [contains]

theorem Inv.start_le_endPtr (hi : s.Inv live) : s.start ≤ s.endPtr :=
  Nat.le_trans (Nat.le_add_right _ _) hi.fits

/-- A live allocation lies in the region. -/
theorem Inv.live_bounds (hi : s.Inv live) {x : Nat × Nat} (hx : x ∈ live) :
    s.start ≤ x.1 ∧ x.1 + x.2 ≤ s.endPtr := by
  have hslot := hi.slots x.1 (List.mem_append_right _ (List.mem_map_of_mem hx))
  have hb := hslot.bounds hi.fits
  have := hi.size_le x hx
  omega

/-- The invariant sees the live allocations only as a multiset. -/
theorem Inv.perm (hi : s.Inv live) (hp : live.Perm live') : s.Inv live' := by
  have hperm : (s.freeList ++ live.map Prod.fst).Perm (s.freeList ++ live'.map Prod.fst) :=
    (hp.map Prod.fst).append_left s.freeList
  exact ⟨hi.slotSize_pos, hi.fits, fun q hq => hi.slots q (hperm.mem_iff.mpr hq),
    hperm.nodup_iff.mp hi.nodup, hp.length_eq ▸ hi.complete, hi.count,
    fun x hx => hi.size_le x (hp.mem_iff.mpr hx)⟩

/-- `allocate` hands out a free slot, which then counts as live. -/
theorem Inv.allocate (hi : s.Inv live) (hres : s.allocate = .ok (p, s')) (hn : n ≤ s.slotSize) :
    s'.Inv ((p, n) :: live) ∧ s'.slotSize = s.slotSize ∧ s'.start = s.start ∧
      s'.endPtr = s.endPtr ∧ s.IsSlot p ∧ p ∉ live.map Prod.fst := by
  obtain ⟨next, hfree, rfl⟩ := allocate_eq hres
  -- the slot moves from the front of the free list to the front of the live pointers
  have hperm : (s.freeList ++ live.map Prod.fst).Perm
      (next ++ ((p, n) :: live).map Prod.fst) := by
    rw [hfree, List.map_cons, List.cons_append]
    exact List.perm_middle.symm
  have hslot : s.IsSlot p := hi.slots p (by rw [hfree]; exact List.mem_cons_self)
  have hnotin : p ∉ live.map Prod.fst := by
    have hnd := hi.nodup
    rw [hfree, List.cons_append, List.nodup_cons] at hnd
    exact fun h => hnd.1 (List.mem_append_right _ h)
  have hcomplete := hi.complete
  have hcount := hi.count
  rw [hfree, List.length_cons] at hcomplete hcount
  refine ⟨⟨hi.slotSize_pos, hi.fits, ?_, ?_, ?_, ?_, ?_⟩, rfl, rfl, rfl, hslot, hnotin⟩
  · intro q hq
    exact hi.slots q (hperm.mem_iff.mpr hq)
  · exact hperm.nodup_iff.mp hi.nodup
  · -- one slot fewer is free, one more is live
    dsimp only
    rw [List.length_cons]
    omega
  · dsimp only
    omega
  · intro x hx
    rcases List.mem_cons.mp hx with rfl | hx
    · exact hn
    · exact hi.size_le x hx

/-- A free slot is disjoint from every live allocation of its slab. -/
theorem Inv.disjoint_live (hi : s.Inv live) (hslot : s.IsSlot p) (hnotin : p ∉ live.map Prod.fst)
    (hn : n ≤ s.slotSize) {y : Nat × Nat} (hy : y ∈ live) : p + n ≤ y.1 ∨ y.1 + y.2 ≤ p := by
  have hyslot := hi.slots y.1 (List.mem_append_right _ (List.mem_map_of_mem hy))
  have hne : p ≠ y.1 := fun h => hnotin (h ▸ List.mem_map_of_mem hy)
  have := hi.size_le y hy
  rcases hslot.disjoint hyslot hne with h | h
  · left
    omega
  · right
    omega

/-- Deallocating a live allocation succeeds and puts its slot back on the free list. -/
theorem Inv.deallocate (hi : s.Inv live) (hperm : live.Perm ((p, n) :: live')) :
    ∃ s', s.deallocate p = .ok s' ∧ s'.Inv live' ∧ s'.slotSize = s.slotSize ∧
      s'.start = s.start ∧ s'.endPtr = s.endPtr := by
  have hx : (p, n) ∈ live := hperm.mem_iff.mpr List.mem_cons_self
  have hslot : s.IsSlot p := hi.slots p (List.mem_append_right _ (List.mem_map_of_mem hx))
  have hb := hslot.bounds hi.fits
  have hpos := hi.slotSize_pos
  have hmod : (p - s.start) % s.slotSize = 0 := by
    obtain ⟨k, -, rfl⟩ := hslot
    rw [Nat.add_sub_cancel_left, Nat.mul_mod_left]
  refine ⟨{ s with freeList := p :: s.freeList, freeCount := s.freeCount + 1 }, ?_, ?_, rfl, rfl,
    rfl⟩
  · unfold Slab.deallocate
    rw [if_neg (by omega), if_neg (by simpa using hmod)]
  · -- the pointer moves from the live pointers to the front of the free list
    have hmove : (s.freeList ++ live.map Prod.fst).Perm
        (p :: s.freeList ++ live'.map Prod.fst) := by
      have h := (hperm.map Prod.fst).append_left s.freeList
      rw [List.map_cons] at h
      exact h.trans List.perm_middle
    have hlen := hperm.length_eq
    rw [List.length_cons] at hlen
    refine ⟨hpos, hi.fits, fun q hq => hi.slots q (hmove.mem_iff.mpr hq),
      hmove.nodup_iff.mp hi.nodup, ?_, ?_, ?_⟩
    · dsimp only
      rw [List.length_cons, ← hi.complete, hlen]
      omega
    · dsimp only
      rw [List.length_cons, hi.count]
    · intro x hx'
      exact hi.size_le x (hperm.mem_iff.mpr (List.mem_cons_of_mem _ hx'))

/-- `Slab::new` links every slot. -/
theorem new_spec {slotSize startPtr size : Nat} (hres : Slab.new slotSize startPtr size = .ok s)
    (hpos : 0 < slotSize) :
    s.Inv [] ∧ startPtr ≤ s.start ∧ s.endPtr = startPtr + size ∧ s.slotSize = slotSize := by
  unfold Slab.new at hres
  dsimp only at hres
  split at hres
  · cases hres
  · rename_i hoff
    cases hres
    obtain ⟨hle, -, -⟩ := alignUp_spec startPtr hpos
    refine ⟨⟨hpos, ?_, ?_, ?_, by simp, by simp, fun _ h => absurd h List.not_mem_nil⟩, hle,
      by dsimp only; omega, rfl⟩
    · dsimp only
      have := Nat.div_mul_le_self (size - (alignUp startPtr slotSize - startPtr)) slotSize
      omega
    · intro q hq
      simp only [List.map_nil, List.append_nil, List.mem_map, List.mem_range] at hq
      obtain ⟨k, hk, rfl⟩ := hq
      exact ⟨k, hk, rfl⟩
    · simp only [List.map_nil, List.append_nil]
      refine List.Nodup.map (fun i j hij => ?_) List.nodup_range
      have : i * slotSize = j * slotSize := by omega
      exact Nat.eq_of_mul_eq_mul_right hpos this

end Slab

/-! ## §2 The Slabs of an Allocator -/

/-- The slabs of `l` laid out from `lo` to `hi`: each present slab lies after the previous
one and keeps `Inv` for the live allocations that fall into its region. -/
def SlabsOk (live : List (Nat × Nat)) : Nat → Nat → List (Option Slab) → Prop
  | _, _, [] => True
  | lo, hi, none :: rest => SlabsOk live lo hi rest
  | lo, hi, some s :: rest =>
    lo ≤ s.start ∧ s.endPtr ≤ hi ∧ s.Inv (live.filter fun x => s.contains x.1) ∧
      SlabsOk live s.endPtr hi rest

/-- Every live allocation lies in one of the slabs. -/
def Owned (live : List (Nat × Nat)) (l : List (Option Slab)) : Prop :=
  ∀ x ∈ live, ∃ s, some s ∈ l ∧ s.contains x.1 = true

/-- The regions of the present slabs. -/
def regions (l : List (Option Slab)) : List (Option (Nat × Nat)) :=
  l.map (Option.map fun s => (s.start, s.endPtr))

@[simp] theorem regions_cons (e : Option Slab) (l : List (Option Slab)) :
    regions (e :: l) = e.map (fun s => (s.start, s.endPtr)) :: regions l := rfl

namespace SlabsOk

variable {live live' : List (Nat × Nat)} {lo lo' hi p n : Nat} {l : List (Option Slab)}

/-- A present slab lies between the bounds. -/
theorem mem (h : SlabsOk live lo hi l) {s : Slab} (hs : some s ∈ l) :
    lo ≤ s.start ∧ s.endPtr ≤ hi ∧ s.Inv (live.filter fun x => s.contains x.1) := by
  induction l generalizing lo with
  | nil => cases hs
  | cons e rest ih =>
    rcases List.mem_cons.mp hs with rfl | hrest
    · exact ⟨h.1, h.2.1, h.2.2.1⟩
    · cases e with
      | none => exact ih h hrest
      | some t =>
        obtain ⟨h₁, -, h₃, h₄⟩ := h
        obtain ⟨h₅, h₆, h₇⟩ := ih h₄ hrest
        have := h₃.start_le_endPtr
        exact ⟨by omega, h₆, h₇⟩

/-- A live allocation inside a slab lies inside the bounds. -/
theorem live_bounds (h : SlabsOk live lo hi l) {s : Slab} (hs : some s ∈ l) {x : Nat × Nat}
    (hx : x ∈ live) (hc : s.contains x.1 = true) : lo ≤ x.1 ∧ x.1 + x.2 ≤ hi := by
  obtain ⟨h₁, h₂, h₃⟩ := h.mem hs
  have := h₃.live_bounds (List.mem_filter.mpr ⟨hx, hc⟩)
  omega

theorem mono (h : SlabsOk live lo' hi l) (hle : lo ≤ lo') : SlabsOk live lo hi l := by
  induction l generalizing lo lo' with
  | nil => trivial
  | cons e rest ih =>
    cases e with
    | none => exact ih h hle
    | some s => exact ⟨Nat.le_trans hle h.1, h.2⟩

theorem perm (h : SlabsOk live lo hi l) (hp : live.Perm live') : SlabsOk live' lo hi l := by
  induction l generalizing lo with
  | nil => trivial
  | cons e rest ih =>
    cases e with
    | none => exact ih h
    | some s =>
      obtain ⟨h₁, h₂, h₃, h₄⟩ := h
      exact ⟨h₁, h₂, h₃.perm (hp.filter _), ih h₄⟩

/-- An allocation below every slab changes none of them. -/
theorem cons_below (h : SlabsOk live lo hi l) (hp : p < lo) :
    SlabsOk ((p, n) :: live) lo hi l := by
  induction l generalizing lo with
  | nil => trivial
  | cons e rest ih =>
    cases e with
    | none => exact ih h hp
    | some s =>
      obtain ⟨h₁, h₂, h₃, h₄⟩ := h
      have hout : s.contains p = false := by simp [Slab.contains]; omega
      have := h₃.start_le_endPtr
      refine ⟨h₁, h₂, ?_, ih h₄ (by omega)⟩
      rw [List.filter_cons_of_neg (by simpa using hout)]
      exact h₃

/-- Dropping an allocation below every slab changes none of them. -/
theorem of_cons_below (h : SlabsOk ((p, n) :: live) lo hi l) (hp : p < lo) :
    SlabsOk live lo hi l := by
  induction l generalizing lo with
  | nil => trivial
  | cons e rest ih =>
    cases e with
    | none => exact ih h hp
    | some s =>
      obtain ⟨h₁, h₂, h₃, h₄⟩ := h
      have hout : s.contains p = false := by simp [Slab.contains]; omega
      have := h₃.start_le_endPtr
      refine ⟨h₁, h₂, ?_, ih h₄ (by omega)⟩
      rw [List.filter_cons_of_neg (by simpa using hout)] at h₃
      exact h₃

/-- Padding with absent slabs, as the fixed-size array of the source does. -/
theorem append_none (h : SlabsOk live lo hi l) (k : Nat) :
    SlabsOk live lo hi (l ++ List.replicate k none) := by
  induction l generalizing lo with
  | nil =>
    induction k with
    | zero => trivial
    | succ k ih => exact ih
  | cons e rest ih =>
    cases e with
    | none => exact ih h
    | some s => exact ⟨h.1, h.2.1, h.2.2.1, ih h.2.2.2⟩

end SlabsOk

/-- Ownership depends only on the regions of the slabs. -/
theorem Owned.of_regions {live : List (Nat × Nat)} {l l' : List (Option Slab)} (h : Owned live l)
    (hr : regions l' = regions l) : Owned live l' := by
  intro x hx
  obtain ⟨s, hs, hc⟩ := h x hx
  have hmem : some (s.start, s.endPtr) ∈ regions l' := by
    rw [hr]
    exact List.mem_map_of_mem hs
  obtain ⟨e, he, hef⟩ := List.mem_map.mp hmem
  cases e with
  | none => cases hef
  | some t =>
    simp only [Option.map_some, Option.some.injEq, Prod.mk.injEq] at hef
    refine ⟨t, he, ?_⟩
    rw [Slab.contains_iff] at hc ⊢
    omega

theorem Owned.sub {live live' : List (Nat × Nat)} {l : List (Option Slab)} (h : Owned live l)
    (hsub : ∀ x ∈ live', x ∈ live) : Owned live' l :=
  fun x hx => h x (hsub x hx)

/-! ## §3 The Searches over the Size Classes -/

namespace SlabAllocator

variable {live live' : List (Nat × Nat)} {lo hi size p n : Nat} {rest l l' : List (Option Slab)}

/-- What the search does at an absent class: go on. -/
theorem allocIn_none_cons (h : allocIn size (none :: rest) = .ok (p, l')) :
    ∃ r, allocIn size rest = .ok (p, r) ∧ l' = none :: r := by
  obtain ⟨⟨q, r⟩, hr, hrl⟩ := map_eq_ok.mp h
  simp only [Prod.mk.injEq] at hrl
  obtain ⟨rfl, rfl⟩ := hrl
  exact ⟨r, hr, rfl⟩

/-- What the search does at a present slab: serve the request from it if its slots are
large enough, else go on. -/
theorem allocIn_some_cons {s : Slab} (h : allocIn size (some s :: rest) = .ok (p, l')) :
    (size ≤ s.slotSize ∧ ∃ s', s.allocate = .ok (p, s') ∧ l' = some s' :: rest) ∨
      (s.slotSize < size ∧ ∃ r, allocIn size rest = .ok (p, r) ∧ l' = some s :: r) := by
  simp only [allocIn] at h
  split at h
  · rename_i hge
    obtain ⟨⟨q, s'⟩, hr, hrl⟩ := map_eq_ok.mp h
    simp only [Prod.mk.injEq] at hrl
    obtain ⟨rfl, rfl⟩ := hrl
    exact .inl ⟨hge, s', hr, rfl⟩
  · rename_i hlt
    obtain ⟨⟨q, r⟩, hr, hrl⟩ := map_eq_ok.mp h
    simp only [Prod.mk.injEq] at hrl
    obtain ⟨rfl, rfl⟩ := hrl
    exact .inr ⟨by omega, r, hr, rfl⟩

/-- Allocation only pops a free list: every slab keeps its region. -/
theorem allocIn_regions (hres : allocIn size l = .ok (p, l')) : regions l' = regions l := by
  induction l generalizing l' with
  | nil => simp [allocIn] at hres
  | cons e rest ih =>
    cases e with
    | none =>
      obtain ⟨r, hr, rfl⟩ := allocIn_none_cons hres
      simp [ih hr]
    | some s =>
      rcases allocIn_some_cons hres with ⟨-, s', hs', rfl⟩ | ⟨-, r, hr, rfl⟩
      · obtain ⟨next, -, rfl⟩ := Slab.allocate_eq hs'
        rfl
      · simp [ih hr]

/-- The search serves a request of `n ≤ size` bytes from a free slot of some slab, inside
the bounds and disjoint from every live allocation of the slabs, and keeps `SlabsOk`. -/
theorem allocIn_spec (h : SlabsOk live lo hi l) (hn : n ≤ size)
    (hres : allocIn size l = .ok (p, l')) :
    SlabsOk ((p, n) :: live) lo hi l' ∧ (∃ s, some s ∈ l' ∧ s.contains p = true) ∧
      lo ≤ p ∧ p + n ≤ hi ∧
      ∀ y ∈ live, (∃ t, some t ∈ l ∧ t.contains y.1 = true) → p + n ≤ y.1 ∨ y.1 + y.2 ≤ p := by
  induction l generalizing lo l' with
  | nil => simp [allocIn] at hres
  | cons e rest ih =>
    cases e with
    | none =>
      obtain ⟨r, hr, rfl⟩ := allocIn_none_cons hres
      obtain ⟨h₁, ⟨s, hs, hc⟩, h₃, h₄, h₅⟩ := ih h hr
      refine ⟨h₁, ⟨s, List.mem_cons_of_mem _ hs, hc⟩, h₃, h₄, ?_⟩
      rintro y hy ⟨t, ht, htc⟩
      rcases List.mem_cons.mp ht with ht | ht
      · cases ht
      · exact h₅ y hy ⟨t, ht, htc⟩
    | some s =>
      obtain ⟨h₁, h₂, h₃, h₄⟩ := h
      have hse := h₃.start_le_endPtr
      rcases allocIn_some_cons hres with ⟨hge, s', hs', rfl⟩ | ⟨hlt, r, hr, rfl⟩
      · -- the first slab whose slots are large enough serves the request
        have hnz := Nat.le_trans hn hge
        obtain ⟨hi', hz, hst, hend, hslot, hnotin⟩ := h₃.allocate hs' hnz
        have hb := hslot.bounds h₃.fits
        have hpos := h₃.slotSize_pos
        have hcont : ∀ x, s'.contains x = s.contains x := by
          intro x
          simp [Slab.contains, hst, hend]
        have hc : s'.contains p = true := by
          rw [hcont, Slab.contains_iff]
          omega
        refine ⟨⟨by omega, by omega, ?_, ?_⟩, ⟨s', List.mem_cons_self, hc⟩, by omega, by omega, ?_⟩
        · rw [List.filter_cons_of_pos (by simpa using hc)]
          simpa only [hcont] using hi'
        · rw [hend]
          exact h₄.cons_below (by omega)
        · rintro y hy ⟨t, ht, htc⟩
          by_cases hys : s.contains y.1 = true
          · -- an allocation of the same slab sits in another slot
            exact h₃.disjoint_live hslot hnotin hnz (List.mem_filter.mpr ⟨hy, hys⟩)
          · -- an allocation of a later slab sits past this slab's end
            rcases List.mem_cons.mp ht with ht | ht
            · cases ht
              exact absurd htc hys
            · have := (h₄.live_bounds ht hy htc).1
              left
              omega
      · -- a slab with too small slots is passed over unchanged
        obtain ⟨h₁', ⟨t, ht, htc⟩, h₃', h₄', h₅'⟩ := ih h₄ hr
        have hout : s.contains p = false := by
          simp [Slab.contains]
          omega
        refine ⟨⟨h₁, h₂, ?_, h₁'⟩, ⟨t, List.mem_cons_of_mem _ ht, htc⟩, by omega, h₄', ?_⟩
        · rw [List.filter_cons_of_neg (by simpa using hout)]
          exact h₃
        · rintro y hy ⟨u, hu, huc⟩
          rcases List.mem_cons.mp hu with hus | hu
          · -- an allocation of the skipped slab ends before the new one starts
            cases hus
            have := h₃.live_bounds (List.mem_filter.mpr ⟨hy, huc⟩)
            right
            omega
          · exact h₅' y hy ⟨u, hu, huc⟩

/-- Deallocating a live allocation of some slab succeeds, and keeps `SlabsOk` and the
regions. -/
theorem deallocIn_spec (h : SlabsOk live lo hi l) (hperm : live.Perm ((p, n) :: live'))
    (hown : ∃ s, some s ∈ l ∧ s.contains p = true) :
    ∃ l', deallocIn p l = .ok l' ∧ SlabsOk live' lo hi l' ∧ regions l' = regions l := by
  induction l generalizing lo with
  | nil =>
    obtain ⟨s, hs, -⟩ := hown
    cases hs
  | cons e rest ih =>
    cases e with
    | none =>
      obtain ⟨s, hs, hc⟩ := hown
      have hs' : some s ∈ rest := by
        rcases List.mem_cons.mp hs with h' | h'
        · cases h'
        · exact h'
      obtain ⟨l', hl', h₁, h₂⟩ := ih h ⟨s, hs', hc⟩
      exact ⟨none :: l', by simp [deallocIn, hl', Except.map], h₁, by simp [h₂]⟩
    | some s =>
      obtain ⟨h₁, h₂, h₃, h₄⟩ := h
      have hse := h₃.start_le_endPtr
      by_cases hc : s.contains p = true
      · -- the first slab whose region holds the pointer takes it back
        have hfilt : (live.filter fun x => s.contains x.1).Perm
            ((p, n) :: live'.filter fun x => s.contains x.1) := by
          have := hperm.filter (fun x => s.contains x.1)
          rwa [List.filter_cons_of_pos (by simpa using hc)] at this
        obtain ⟨s', hd, hi', hz, hst, hend⟩ := h₃.deallocate hfilt
        have hcont : ∀ x, s'.contains x = s.contains x := by
          intro x
          simp [Slab.contains, hst, hend]
        have hlt : p < s.endPtr := (Slab.contains_iff.mp hc).2
        refine ⟨some s' :: rest, ?_, ⟨by omega, by omega, ?_, ?_⟩, by simp [hst, hend]⟩
        · simp [deallocIn, hc, hd, Except.map]
        · simpa only [hcont] using hi'
        · rw [hend]
          exact (h₄.perm hperm).of_cons_below hlt
      · -- a slab that does not hold it is passed over unchanged
        have hown' : ∃ t, some t ∈ rest ∧ t.contains p = true := by
          obtain ⟨t, ht, htc⟩ := hown
          rcases List.mem_cons.mp ht with h' | h'
          · cases h'
            exact absurd htc hc
          · exact ⟨t, h', htc⟩
        obtain ⟨l', hl', h₁', h₂'⟩ := ih h₄ hown'
        have hfilt : (live.filter fun x => s.contains x.1).Perm
            (live'.filter fun x => s.contains x.1) := by
          have := hperm.filter (fun x => s.contains x.1)
          rwa [List.filter_cons_of_neg (by simpa using hc)] at this
        refine ⟨some s :: l', ?_, ⟨h₁, h₂, h₃.perm hfilt, h₁'⟩, by simp [h₂']⟩
        simp [deallocIn, hc, hl', Except.map]

/-- A pointer outside every slab is refused. -/
theorem deallocIn_of_not_contains (hno : ∀ s, some s ∈ l → s.contains p = false) :
    deallocIn p l = .error .invalidPointer := by
  induction l with
  | nil => rfl
  | cons e rest ih =>
    have ih' := ih (fun s hs => hno s (List.mem_cons_of_mem _ hs))
    cases e with
    | none => simp [deallocIn, ih', Except.map]
    | some s => simp [deallocIn, hno s List.mem_cons_self, ih', Except.map]

/-! ## §4 The Slab Allocator -/

/-- The invariant of a slab allocator over `[lo, hi)` with the live allocations `live`
(pointer and size). -/
structure Inv (a : SlabAllocator) (lo hi : Nat) (live : List (Nat × Nat)) : Prop where
  slabs : SlabsOk live lo hi a.slabs
  owned : Owned live a.slabs

variable {a a' : SlabAllocator}

theorem Inv.perm (ha : a.Inv lo hi live) (hp : live.Perm live') : a.Inv lo hi live' :=
  ⟨ha.slabs.perm hp, ha.owned.sub fun _ hx => hp.mem_iff.mpr hx⟩

/-- A live allocation lies inside the bounds. -/
theorem Inv.live_bounds (ha : a.Inv lo hi live) {x : Nat × Nat} (hx : x ∈ live) :
    lo ≤ x.1 ∧ x.1 + x.2 ≤ hi := by
  obtain ⟨s, hs, hc⟩ := ha.owned x hx
  exact ha.slabs.live_bounds hs hx hc

/-- `allocate` keeps the invariant and returns a range inside the bounds that is disjoint
from every live allocation. -/
theorem allocate_spec {layout : Layout} (ha : a.Inv lo hi live)
    (hres : a.allocate layout = .ok (p, a')) :
    a'.Inv lo hi ((p, layout.size) :: live) ∧ lo ≤ p ∧ p + layout.size ≤ hi ∧
      ∀ y ∈ live, p + layout.size ≤ y.1 ∨ y.1 + y.2 ≤ p := by
  unfold allocate at hres
  split at hres
  · cases hres
  · obtain ⟨⟨q, l'⟩, hr, hrl⟩ := map_eq_ok.mp hres
    simp only [Prod.mk.injEq] at hrl
    obtain ⟨rfl, rfl⟩ := hrl
    obtain ⟨h₁, ⟨s, hs, hc⟩, h₃, h₄, h₅⟩ := allocIn_spec ha.slabs (Nat.le_max_left _ _) hr
    refine ⟨⟨h₁, ?_⟩, h₃, h₄, fun y hy => h₅ y hy (ha.owned y hy)⟩
    intro x hx
    rcases List.mem_cons.mp hx with rfl | hx
    · exact ⟨s, hs, hc⟩
    · exact (ha.owned.of_regions (allocIn_regions hr)) x hx

/-- Deallocating a live allocation succeeds and keeps the invariant. -/
theorem deallocate_spec (ha : a.Inv lo hi live) (hperm : live.Perm ((p, n) :: live')) :
    ∃ a', a.deallocate p = .ok a' ∧ a'.Inv lo hi live' := by
  have hx : (p, n) ∈ live := hperm.mem_iff.mpr List.mem_cons_self
  obtain ⟨l', hl', h₁, h₂⟩ := deallocIn_spec ha.slabs hperm (ha.owned _ hx)
  refine ⟨⟨l'⟩, by simp [deallocate, hl', Except.map], h₁, ?_⟩
  exact (ha.owned.sub fun x hx' => hperm.mem_iff.mpr (List.mem_cons_of_mem _ hx')).of_regions h₂

/-- A pointer past the slab area is refused. -/
theorem deallocate_of_le (ha : a.Inv lo hi live) (hp : hi ≤ p) :
    a.deallocate p = .error .invalidPointer := by
  have hno : ∀ s, some s ∈ a.slabs → s.contains p = false := by
    intro s hs
    have := (ha.slabs.mem hs).2.1
    simp [Slab.contains]
    omega
  simp [deallocate, deallocIn_of_not_contains hno, Except.map]

/-- The loop of `new` lays its slabs out one after the other inside the memory. -/
theorem carve_spec {ptr size base : Nat} {zs : List Nat} (hz : ∀ z ∈ zs, 0 < z) :
    ∀ {current : Nat} {l : List (Option Slab)}, carve ptr size base current zs = .ok l →
      ptr ≤ current → SlabsOk [] current (ptr + size) l := by
  induction zs with
  | nil =>
    intro current l h _
    simp only [carve, Except.ok.injEq] at h
    subst h
    trivial
  | cons z rest ih =>
    intro current l h hle
    simp only [carve] at h
    split at h
    · simp only [Except.ok.injEq] at h
      subst h
      trivial
    · rename_i hbig
      obtain ⟨slab, hslab, h⟩ := bind_eq_ok.mp h
      obtain ⟨slabs, hslabs, h⟩ := bind_eq_ok.mp h
      cases h
      have hzpos := hz z List.mem_cons_self
      obtain ⟨hinv, hstart, hend, -⟩ := Slab.new_spec hslab hzpos
      -- the class gets at least four slots' worth, so it ends inside the memory
      have hfit : current + min base (size - (current - ptr)) ≤ ptr + size := by omega
      have hrest := ih (fun z' hz' => hz z' (List.mem_cons_of_mem _ hz')) hslabs (by omega)
      split
      · refine ⟨hstart, by omega, by simpa using hinv, ?_⟩
        rw [hend]
        exact hrest
      · exact hrest.mono (by omega)

/-- The loop of `new` never fails: a class gets at least four slots' worth of memory, or
the loop stops. -/
theorem carve_ok {ptr size base : Nat} {zs : List Nat} (hz : ∀ z ∈ zs, 0 < z) :
    ∀ current, ∃ l, carve ptr size base current zs = .ok l := by
  induction zs with
  | nil => exact fun _ => ⟨[], rfl⟩
  | cons z rest ih =>
    intro current
    have hzpos := hz z List.mem_cons_self
    simp only [carve]
    split
    · exact ⟨[], rfl⟩
    · rename_i hbig
      obtain ⟨slab, hslab⟩ : ∃ s, Slab.new z current (min base (size - (current - ptr))) = .ok s :=
        Slab.new_ok hzpos (by omega)
      obtain ⟨slabs, hslabs⟩ := ih (fun z' hz' => hz z' (List.mem_cons_of_mem _ hz'))
        (current + min base (size - (current - ptr)))
      rw [hslab, hslabs]
      exact ⟨_, rfl⟩

/-- `new` establishes the invariant with no live allocation. -/
theorem new_spec {ptr size : Nat} (hres : SlabAllocator.new ptr size = .ok a) :
    a.Inv ptr (ptr + size) [] := by
  unfold SlabAllocator.new at hres
  split at hres
  · cases hres
  · obtain ⟨slabs, hslabs, hres⟩ := bind_eq_ok.mp hres
    cases hres
    refine ⟨(carve_spec (by decide) hslabs (Nat.le_refl _)).append_none _, ?_⟩
    intro x hx
    cases hx

/-- `new` accepts every region of at least `MIN_HEAP_SIZE` bytes. -/
theorem new_ok {ptr size : Nat} (h : minHeapSize ≤ size) : ∃ a, SlabAllocator.new ptr size = .ok a := by
  obtain ⟨slabs, hslabs⟩ : ∃ l, carve ptr size (size / slabSizes.length) ptr slabSizes = .ok l :=
    carve_ok (by decide) ptr
  unfold SlabAllocator.new
  rw [if_neg (by omega), hslabs]
  exact ⟨_, rfl⟩

end SlabAllocator

end Beskar.Heaperion
