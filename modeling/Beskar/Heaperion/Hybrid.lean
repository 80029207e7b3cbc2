import Beskar.Heaperion.Slab
import Beskar.Heaperion.Buddy
import Beskar.Lib.Transition

/-!
# Heaperion: the Hybrid Allocator and its Clients

Model of `heaperion/src/hybrid.rs`.  `HybridAllocator::new` gives the first quarter of the
heap to a `SlabAllocator` and the rest to a `BuddyAllocator`; small layouts are served by
the slab allocator first and fall back to the buddy allocator, and `deallocate` routes a
pointer by the size of its layout and by whether a slab takes it back.

A client holds the allocator and the allocations it got back and has not freed yet; it
frees only such an allocation, with the layout it was allocated with, as the safety
contract of `deallocate` asks.  `Client.step` is one call.

## Main results

- `HybridAllocator.Inv`: each live allocation belongs to the allocator whose area holds
  its address, both allocators keep their invariants over their share, and the live
  ranges are pairwise disjoint.
- `Client.Reach.inv`: the invariant holds along every run from `new`.
- `hybrid_allocator_safe`: in every reachable state every live allocation can be freed,
  lies inside the heap and is disjoint from every other, and `allocate` never panics.
-/

namespace Beskar.Heaperion

open Beskar.Lib

/-- `SLAB_THRESHOLD`. -/
def slabThreshold : Nat := 512

/-- `HybridAllocator`. -/
structure HybridAllocator where
  slab : SlabAllocator
  buddy : BuddyAllocator

namespace HybridAllocator

/-- `HybridAllocator::new`: the slab allocator is built first, and its error returned
before the buddy allocator is built. -/
def new (heapStart heapSize : Nat) : Option (Except HeapError HybridAllocator) :=
  let slabSize := heapSize / 4
  let buddySize := heapSize - slabSize
  let buddyStart := heapStart + slabSize
  match SlabAllocator.new heapStart slabSize with
  | .error e => some (.error e)
  | .ok slab => (BuddyAllocator.new buddyStart buddySize).map fun r => r.map fun buddy => ⟨slab, buddy⟩

/-- `HybridAllocator::allocate`. -/
def allocate (heap : HybridAllocator) (layout : Layout) :
    Option (Except HeapError (Nat × HybridAllocator)) :=
  if layout.size = 0 then some (.error .invalidSize)
  else
    let viaBuddy := (heap.buddy.allocate layout).map fun r =>
      r.map fun r => (r.1, { heap with buddy := r.2 })
    if layout.size ≤ slabThreshold ∧ layout.size ≤ SlabAllocator.maxSize then
      match heap.slab.allocate layout with
      | .ok (ptr, slab) => some (.ok (ptr, { heap with slab }))
      -- a full slab falls back to the buddy allocator
      | .error _ => viaBuddy
    else viaBuddy

/-- `HybridAllocator::deallocate`. -/
def deallocate (heap : HybridAllocator) (ptr : Nat) (layout : Layout) :
    Except HeapError HybridAllocator :=
  let viaBuddy := (heap.buddy.deallocate ptr layout).map fun buddy => { heap with buddy }
  if layout.size ≤ slabThreshold ∧ layout.size ≤ SlabAllocator.maxSize then
    match heap.slab.deallocate ptr with
    | .ok slab => .ok { heap with slab }
    | .error _ => viaBuddy
  else viaBuddy

/-! ## §1 The Invariant -/

/-- The end of the slab area: the first quarter of the heap. -/
def slabEnd (heapStart heapSize : Nat) : Nat := heapStart + heapSize / 4

/-- The live allocations in the slab area, with their sizes. -/
def slabLive (heapStart heapSize : Nat) (live : List (Nat × Layout)) : List (Nat × Nat) :=
  (live.filter fun x => x.1 < slabEnd heapStart heapSize).map fun x => (x.1, x.2.size)

/-- The live allocations past it, as the buddy blocks of their layouts. -/
def buddyLive (heapStart heapSize : Nat) (live : List (Nat × Layout)) : List (Nat × Nat) :=
  (live.filter fun x => ¬ x.1 < slabEnd heapStart heapSize).map fun x => (x.1, blockOrder x.2)

/-- The ranges of two allocations do not overlap. -/
def RangeDisjoint (x y : Nat × Layout) : Prop :=
  x.1 + x.2.size ≤ y.1 ∨ y.1 + y.2.size ≤ x.1

/-- The allocator over `[heapStart, heapStart + heapSize)` with the live allocations
`live`: the slab allocator keeps its invariant over the first quarter and the allocations
there, all of them small; the buddy allocator keeps its invariant over the allocations
past it, and its heap is the rest of the memory; the live ranges are pairwise disjoint. -/
structure Inv (heap : HybridAllocator) (heapStart heapSize : Nat) (live : List (Nat × Layout)) :
    Prop where
  slab : heap.slab.Inv heapStart (slabEnd heapStart heapSize) (slabLive heapStart heapSize live)
  buddy : heap.buddy.Inv (buddyLive heapStart heapSize live)
  buddy_start : slabEnd heapStart heapSize ≤ heap.buddy.heapStart
  buddy_end : heap.buddy.heapStart + heap.buddy.heapSize = heapStart + heapSize
  slab_small : ∀ x ∈ live, x.1 < slabEnd heapStart heapSize → x.2.size ≤ slabThreshold
  disjoint : live.Pairwise RangeDisjoint

variable {heap : HybridAllocator} {hs hz p : Nat} {live : List (Nat × Layout)}
  {layout : Layout} {x : Nat × Layout}

/-- Freeing an allocation takes it out of its allocator's share. -/
theorem share_perm_erase {β : Type} {f : Nat × Layout → Bool} {g : Nat × Layout → β}
    (hx : x ∈ live) (hf : f x = true) :
    ((live.filter f).map g).Perm (g x :: ((live.erase x).filter f).map g) := by
  have h := ((List.perm_cons_erase hx).filter f).map g
  rwa [List.filter_cons_of_pos hf, List.map_cons] at h

/-- Freeing an allocation leaves the other allocator's share as it is. -/
theorem share_perm_erase_of_neg {β : Type} {f : Nat × Layout → Bool} {g : Nat × Layout → β}
    (hx : x ∈ live) (hf : f x = false) :
    ((live.filter f).map g).Perm (((live.erase x).filter f).map g) := by
  have h := ((List.perm_cons_erase hx).filter f).map g
  rwa [List.filter_cons_of_neg (by simpa using hf)] at h

theorem mem_slabLive (hx : x ∈ live) (hlt : x.1 < slabEnd hs hz) :
    (x.1, x.2.size) ∈ slabLive hs hz live :=
  List.mem_map_of_mem (List.mem_filter.mpr ⟨hx, by simpa using hlt⟩)

theorem mem_buddyLive (hx : x ∈ live) (hge : ¬ x.1 < slabEnd hs hz) :
    (x.1, blockOrder x.2) ∈ buddyLive hs hz live :=
  List.mem_map_of_mem (List.mem_filter.mpr ⟨hx, by simpa using hge⟩)

/-- A live allocation lies inside the heap. -/
theorem Inv.live_bounds (hi : heap.Inv hs hz live) (hx : x ∈ live) :
    hs ≤ x.1 ∧ x.1 + x.2.size ≤ hs + hz := by
  have hend : slabEnd hs hz ≤ hs + hz := by unfold slabEnd; omega
  by_cases hlt : x.1 < slabEnd hs hz
  · -- inside a slab
    have hb := hi.slab.live_bounds (mem_slabLive hx hlt)
    dsimp only at hb
    omega
  · -- inside a block of the buddy allocator, which holds the layout
    have hb := hi.buddy.live_bounds (mem_buddyLive hx hlt)
    have hsize := BuddyAllocator.size_le_blockOrder x.2
    have := hi.buddy_start
    have := hi.buddy_end
    unfold slabEnd at *
    dsimp only at hb
    omega

/-! ## §2 Allocation -/

/-- A slot handed out by a slab lies in the slab area. -/
theorem Inv.lt_slabEnd_of_slab {slab' : SlabAllocator} (hi : heap.Inv hs hz live)
    (hpos : layout.size ≠ 0) (hres : heap.slab.allocate layout = .ok (p, slab')) :
    p < slabEnd hs hz := by
  have := (SlabAllocator.allocate_spec hi.slab hres).2.2.1
  omega

/-- A block handed out by the buddy allocator lies past the slab area. -/
theorem Inv.not_lt_slabEnd_of_buddy {b' : BuddyAllocator} (hi : heap.Inv hs hz live)
    (hres : heap.buddy.allocate layout = some (.ok (p, b'))) : ¬ p < slabEnd hs hz := by
  obtain ⟨hinv, harena⟩ := BuddyAllocator.allocate_spec hi.buddy hres
  have hb := (hinv.live_bounds List.mem_cons_self).1
  have hstart := hi.buddy_start
  rw [← harena.heapStart] at hstart
  dsimp only at hb
  omega

/-- An allocation served by a slab keeps the invariant. -/
theorem Inv.allocate_slab {slab' : SlabAllocator} (hi : heap.Inv hs hz live)
    (hsmall : layout.size ≤ slabThreshold) (hpos : layout.size ≠ 0)
    (hres : heap.slab.allocate layout = .ok (p, slab')) :
    { heap with slab := slab' }.Inv hs hz ((p, layout) :: live) := by
  obtain ⟨hinv, -, hhi, hdisj⟩ := SlabAllocator.allocate_spec hi.slab hres
  have hlt := hi.lt_slabEnd_of_slab hpos hres
  have hslab : slabLive hs hz ((p, layout) :: live) = (p, layout.size) :: slabLive hs hz live := by
    simp [slabLive, hlt]
  have hbuddy : buddyLive hs hz ((p, layout) :: live) = buddyLive hs hz live := by
    simp [buddyLive, hlt]
  refine ⟨by rw [hslab]; exact hinv, by rw [hbuddy]; exact hi.buddy, hi.buddy_start,
    hi.buddy_end, ?_, ?_⟩
  · intro y hy hylt
    rcases List.mem_cons.mp hy with rfl | hy
    · exact hsmall
    · exact hi.slab_small y hy hylt
  · refine List.Pairwise.cons (fun y hy => ?_) hi.disjoint
    by_cases hylt : y.1 < slabEnd hs hz
    · -- another slab allocation: the slab allocator keeps them apart
      exact hdisj _ (mem_slabLive hy hylt)
    · -- a buddy allocation lies past the slab area
      left
      exact Nat.le_trans hhi (Nat.le_of_not_lt hylt)

/-- An allocation served by the buddy allocator keeps the invariant. -/
theorem Inv.allocate_buddy {b' : BuddyAllocator} (hi : heap.Inv hs hz live)
    (hres : heap.buddy.allocate layout = some (.ok (p, b'))) :
    { heap with buddy := b' }.Inv hs hz ((p, layout) :: live) := by
  obtain ⟨hinv, harena⟩ := BuddyAllocator.allocate_spec hi.buddy hres
  have hstart := hi.buddy_start
  rw [← harena.heapStart] at hstart
  have hge := hi.not_lt_slabEnd_of_buddy hres
  have hslab : slabLive hs hz ((p, layout) :: live) = slabLive hs hz live := by
    simp [slabLive, hge]
  have hbuddy : buddyLive hs hz ((p, layout) :: live) =
      (p, blockOrder layout) :: buddyLive hs hz live := by
    simp [buddyLive, Nat.le_of_not_lt hge]
  refine ⟨by rw [hslab]; exact hi.slab, by rw [hbuddy]; exact hinv, hstart,
    by rw [harena.heapStart, harena.heapSize]; exact hi.buddy_end, ?_, ?_⟩
  · intro y hy hylt
    rcases List.mem_cons.mp hy with rfl | hy
    · exact absurd hylt hge
    · exact hi.slab_small y hy hylt
  · refine List.Pairwise.cons (fun y hy => ?_) hi.disjoint
    have hsize := BuddyAllocator.size_le_blockOrder layout
    by_cases hylt : y.1 < slabEnd hs hz
    · -- a slab allocation ends before the buddy heap starts
      have hy' := (hi.slab.live_bounds (mem_slabLive hy hylt)).2
      dsimp only at hy'
      right
      omega
    · -- another buddy block: the buddy allocator keeps them apart
      have hpair := List.rel_of_pairwise_cons hinv.live_pairwise
        (by simpa [hbuddy] using mem_buddyLive hy hylt)
      have hysize := BuddyAllocator.size_le_blockOrder y.2
      unfold BlockDisjoint at hpair
      unfold RangeDisjoint
      dsimp only at hpair ⊢
      omega

/-- The buddy path of `allocate`. -/
theorem viaBuddy_eq {heap' : HybridAllocator}
    (h : ((heap.buddy.allocate layout).map fun r =>
      r.map fun r => (r.1, { heap with buddy := r.2 })) = some (.ok (p, heap'))) :
    ∃ b', heap.buddy.allocate layout = some (.ok (p, b')) ∧ heap' = { heap with buddy := b' } := by
  obtain ⟨r, hr, hrr⟩ := Option.map_eq_some_iff.mp h
  obtain ⟨⟨q, b'⟩, rfl, hq⟩ := map_eq_ok.mp hrr
  simp only [Prod.mk.injEq] at hq
  obtain ⟨rfl, rfl⟩ := hq
  exact ⟨b', hr, rfl⟩

/-- What `allocate` can do: serve a small layout from a slab, or any layout from the buddy
allocator. -/
theorem allocate_cases {heap' : HybridAllocator}
    (hres : heap.allocate layout = some (.ok (p, heap'))) :
    (layout.size ≤ slabThreshold ∧ layout.size ≠ 0 ∧
      ∃ slab', heap.slab.allocate layout = .ok (p, slab') ∧ heap' = { heap with slab := slab' }) ∨
    ∃ b', heap.buddy.allocate layout = some (.ok (p, b')) ∧ heap' = { heap with buddy := b' } := by
  unfold HybridAllocator.allocate at hres
  split at hres
  · cases hres
  · rename_i hpos
    dsimp only at hres
    split at hres
    · rename_i hsmall
      split at hres
      · -- served by a slab
        rename_i ptr slab' hslab
        cases hres
        exact .inl ⟨hsmall.1, hpos, slab', hslab, rfl⟩
      · exact .inr (viaBuddy_eq hres)
    · exact .inr (viaBuddy_eq hres)

/-- `allocate` keeps the invariant, with the new allocation live. -/
theorem Inv.allocate {heap' : HybridAllocator} (hi : heap.Inv hs hz live)
    (hres : heap.allocate layout = some (.ok (p, heap'))) :
    heap'.Inv hs hz ((p, layout) :: live) := by
  rcases allocate_cases hres with ⟨hsmall, hpos, slab', hslab, rfl⟩ | ⟨b', hb, rfl⟩
  · exact hi.allocate_slab hsmall hpos hslab
  · exact hi.allocate_buddy hb

/-- `allocate` never panics. -/
theorem Inv.allocate_ne_none (hi : heap.Inv hs hz live) (layout : Layout) :
    heap.allocate layout ≠ none := by
  have hb := BuddyAllocator.allocate_ne_none hi.buddy layout
  unfold HybridAllocator.allocate
  split
  · simp
  · dsimp only
    split
    · split
      · simp
      · simpa using hb
    · simpa using hb

/-! ## §3 Deallocation -/

/-- Where `deallocate` sends a live allocation: back to its slab when it lies in the slab
area, else on to the buddy allocator. -/
theorem Inv.deallocate_eq (hi : heap.Inv hs hz live) (hx : x ∈ live) :
    heap.deallocate x.1 x.2 = if x.1 < slabEnd hs hz then
      (heap.slab.deallocate x.1).map fun slab => { heap with slab }
    else (heap.buddy.deallocate x.1 x.2).map fun buddy => { heap with buddy } := by
  unfold HybridAllocator.deallocate
  by_cases hlt : x.1 < slabEnd hs hz
  · -- a slab allocation: small, so its slab takes it back
    have hsmall := hi.slab_small x hx hlt
    obtain ⟨slab', hd, -⟩ := SlabAllocator.deallocate_spec hi.slab
      (share_perm_erase (g := fun x => (x.1, x.2.size)) hx (by simpa using hlt))
    rw [if_pos hlt, if_pos ⟨hsmall, hsmall⟩, hd]
    rfl
  · -- a buddy allocation: no slab holds it
    have hrefused := SlabAllocator.deallocate_of_le hi.slab (Nat.le_of_not_lt hlt)
    rw [if_neg hlt]
    dsimp only
    split
    · rw [hrefused]
    · rfl

/-- Freeing a live allocation with its layout succeeds and keeps the invariant. -/
theorem Inv.deallocate (hi : heap.Inv hs hz live) (hx : x ∈ live) :
    ∃ heap', heap.deallocate x.1 x.2 = .ok heap' ∧ heap'.Inv hs hz (live.erase x) := by
  have hsub : ∀ y ∈ live.erase x, y ∈ live := fun y hy => List.mem_of_mem_erase hy
  have hsmall' : ∀ y ∈ live.erase x, y.1 < slabEnd hs hz → y.2.size ≤ slabThreshold :=
    fun y hy => hi.slab_small y (hsub y hy)
  have hdisj := hi.disjoint.sublist (List.erase_sublist (l := live) (a := x))
  rw [hi.deallocate_eq hx]
  by_cases hlt : x.1 < slabEnd hs hz
  · -- its slab takes it back; the buddy allocator's share is unchanged
    obtain ⟨slab', hd, hinv⟩ := SlabAllocator.deallocate_spec hi.slab
      (share_perm_erase (g := fun x => (x.1, x.2.size)) hx (by simpa using hlt))
    refine ⟨{ heap with slab := slab' }, by rw [if_pos hlt, hd]; rfl,
      ⟨hinv, ?_, hi.buddy_start, hi.buddy_end, hsmall', hdisj⟩⟩
    exact hi.buddy.perm (share_perm_erase_of_neg hx (by simpa using hlt))
  · -- the buddy allocator takes it back; the slabs' share is unchanged
    obtain ⟨b', hd, hinv, harena⟩ := BuddyAllocator.deallocate_spec hi.buddy
      (share_perm_erase (g := fun x => (x.1, blockOrder x.2)) hx (by simpa using hlt))
    refine ⟨{ heap with buddy := b' }, by rw [if_neg hlt, hd]; rfl,
      ⟨hi.slab.perm (share_perm_erase_of_neg hx (by simpa using hlt)), hinv,
        by rw [harena.heapStart]; exact hi.buddy_start,
        by rw [harena.heapStart, harena.heapSize]; exact hi.buddy_end, hsmall', hdisj⟩⟩

/-! ## §4 Initialisation -/

/-- What `new` builds: the slab allocator over the first quarter and the buddy allocator
over the rest. -/
theorem new_eq (hres : HybridAllocator.new hs hz = some (.ok heap)) :
    SlabAllocator.new hs (hz / 4) = .ok heap.slab ∧
      BuddyAllocator.new (hs + hz / 4) (hz - hz / 4) = some (.ok heap.buddy) := by
  unfold HybridAllocator.new at hres
  dsimp only at hres
  split at hres
  · cases hres
  · rename_i slab hslab
    obtain ⟨r, hr, hrr⟩ := Option.map_eq_some_iff.mp hres
    obtain ⟨b, rfl, hb⟩ := map_eq_ok.mp hrr
    subst hb
    exact ⟨hslab, hr⟩

/-- `new` establishes the invariant with nothing allocated. -/
theorem Inv.of_new (hres : HybridAllocator.new hs hz = some (.ok heap)) : heap.Inv hs hz [] := by
  obtain ⟨hslab, hbuddy⟩ := new_eq hres
  obtain ⟨hbinv, hbstart, hbend⟩ := BuddyAllocator.new_spec hbuddy
  refine ⟨SlabAllocator.new_spec hslab, hbinv, hbstart, ?_, fun _ h => absurd h List.not_mem_nil,
    List.Pairwise.nil⟩
  omega

/-- `new` accepts every heap of at least 16 KiB whose buddy part is at most 256 MiB. -/
theorem new_ok (h₁ : 16384 ≤ hz) (h₂ : hz - hz / 4 ≤ 2 ^ 28) :
    ∃ heap, HybridAllocator.new hs hz = some (.ok heap) := by
  obtain ⟨slab, hslab⟩ : ∃ slab, SlabAllocator.new hs (hz / 4) = .ok slab :=
    SlabAllocator.new_ok (by unfold minHeapSize; omega)
  obtain ⟨b, hb⟩ : ∃ b, BuddyAllocator.new (hs + hz / 4) (hz - hz / 4) = some (.ok b) :=
    BuddyAllocator.new_ok (by unfold minBlockSize; omega) h₂
  refine ⟨⟨slab, b⟩, ?_⟩
  unfold HybridAllocator.new
  dsimp only
  rw [hslab]
  dsimp only
  rw [hb]
  rfl

/-- **A buddy block can miss its alignment**: over the heap `[0, 16448)` the buddy
allocator's arena starts at `4112 = 4 * 1024 + 16`, so the block it hands out for `1024`
bytes aligned to `1024`, which lies a multiple of `1024` past the arena's start, lies `16`
past a multiple of `1024`. -/
theorem allocate_misaligned :
    ∃ heap p heap', HybridAllocator.new 0 16448 = some (.ok heap) ∧
      heap.allocate ⟨1024, 1024, ⟨10, rfl⟩⟩ = some (.ok (p, heap')) ∧ p % 1024 = 16 := by
  obtain ⟨heap, hnew⟩ : ∃ heap, HybridAllocator.new 0 16448 = some (.ok heap) :=
    HybridAllocator.new_ok (by decide) (by decide)
  have hbuddy : BuddyAllocator.new 4112 12336 = some (.ok heap.buddy) := (new_eq hnew).2
  have hB : BuddyAllocator.new 4112 12336 =
      some (.ok ⟨4112, 12336, Function.update (fun _ => []) 13 [4112], 13⟩) := rfl
  rw [hB, Option.some.injEq, Except.ok.injEq] at hbuddy
  obtain ⟨b', hb'⟩ : ∃ b', heap.buddy.allocate ⟨1024, 1024, ⟨10, rfl⟩⟩ = some (.ok (11280, b')) := by
    rw [← hbuddy]
    exact ⟨_, rfl⟩
  refine ⟨heap, 11280, { heap with buddy := b' }, hnew, ?_, ?_⟩
  · -- `1024` bytes is past the slab threshold: the buddy allocator serves it
    unfold HybridAllocator.allocate
    rw [if_neg (by decide)]
    dsimp only
    rw [if_neg (by decide), hb']
    rfl
  · -- the block lies at the arena start's remainder by the alignment
    have hmod : 11280 % 1024 = heap.buddy.heapStart % 1024 :=
      BuddyAllocator.allocate_mod_align (Inv.of_new hnew).buddy hb'
    rw [hmod, ← hbuddy]
    rfl

end HybridAllocator

/-! ## §5 Clients -/

open HybridAllocator

/-- A client: the allocator, and the allocations it got back and has not freed. -/
structure Client where
  heap : HybridAllocator
  live : List (Nat × Layout)

/-- The calls a client makes. -/
inductive Call
  | allocate (layout : Layout)
  | deallocate (ptr : Nat) (layout : Layout)

namespace Client

/-- One call.  An allocation panic ends the run; a client frees only a live allocation,
with its layout. -/
def step (c : Client) : Call → Option Client
  | .allocate layout =>
    match c.heap.allocate layout with
    | none => none
    | some (.ok (ptr, heap)) => some ⟨heap, (ptr, layout) :: c.live⟩
    | some (.error _) => some c
  | .deallocate ptr layout =>
    if (ptr, layout) ∈ c.live then
      match c.heap.deallocate ptr layout with
      | .ok heap => some ⟨heap, c.live.erase (ptr, layout)⟩
      | .error _ => some c
    else none

/-- A fresh allocator from `new` over `[heapStart, heapStart + heapSize)`. -/
def IsInit (heapStart heapSize : Nat) (c : Client) : Prop :=
  HybridAllocator.new heapStart heapSize = some (.ok c.heap) ∧ c.live = []

/-- The states of a client of an allocator built over `[heapStart, heapStart + heapSize)`. -/
def Reach (heapStart heapSize : Nat) (c : Client) : Prop :=
  Reachable (Det step) (IsInit heapStart heapSize) c

variable {hs hz : Nat} {c c' : Client}

/-- What a call can do: nothing, hand out a new allocation, or free a live one. -/
theorem step_cases {call : Call} (h : c.step call = some c') :
    c' = c ∨
      (∃ layout p heap', c.heap.allocate layout = some (.ok (p, heap')) ∧
        c' = ⟨heap', (p, layout) :: c.live⟩) ∨
      ∃ x ∈ c.live, ∃ heap', c.heap.deallocate x.1 x.2 = .ok heap' ∧
        c' = ⟨heap', c.live.erase x⟩ := by
  cases call with
  | allocate layout =>
    simp only [step] at h
    split at h
    · cases h
    · rename_i p heap hres
      cases h
      exact .inr (.inl ⟨layout, p, heap, hres, rfl⟩)
    · cases h
      exact .inl rfl
  | deallocate ptr layout =>
    simp only [step] at h
    split at h
    · rename_i hx
      split at h
      · rename_i heap hres
        cases h
        exact .inr (.inr ⟨(ptr, layout), hx, heap, hres, rfl⟩)
      · cases h
        exact .inl rfl
    · cases h

/-- A call keeps the invariant. -/
theorem inv_step (hi : c.heap.Inv hs hz c.live) {call : Call} (h : c.step call = some c') :
    c'.heap.Inv hs hz c'.live := by
  rcases step_cases h with rfl | ⟨layout, p, heap', hres, rfl⟩ | ⟨x, hx, heap', hd, rfl⟩
  · exact hi
  · exact hi.allocate hres
  · obtain ⟨heap'', hd', hinv⟩ := hi.deallocate hx
    rw [hd, Except.ok.injEq] at hd'
    rw [hd']
    exact hinv

/-- **The invariant holds in every reachable state.** -/
theorem Reach.inv (h : Reach hs hz c) : c.heap.Inv hs hz c.live := by
  refine Reachable.invariant (fun c => c.heap.Inv hs hz c.live) ?_ (fun _ _ _ hi h => inv_step hi h) h
  rintro c ⟨hnew, hlive⟩
  rw [hlive]
  exact Inv.of_new hnew

/-- What a client can count on: every live allocation can be freed, lies inside the heap
and is disjoint from every other, and no allocation panics. -/
def Safe (heapStart heapSize : Nat) (c : Client) : Prop :=
  (∀ x ∈ c.live, ∃ heap', c.heap.deallocate x.1 x.2 = .ok heap') ∧
    (∀ x ∈ c.live, heapStart ≤ x.1 ∧ x.1 + x.2.size ≤ heapStart + heapSize) ∧
    c.live.Pairwise RangeDisjoint ∧
    ∀ layout, c.heap.allocate layout ≠ none

/-- **The hybrid allocator is safe for its clients** along every run from `new`. -/
theorem hybrid_allocator_safe (h : Reach hs hz c) : Safe hs hz c := by
  have hi := h.inv
  refine ⟨fun x hx => ?_, fun x hx => hi.live_bounds hx, hi.disjoint, hi.allocate_ne_none⟩
  obtain ⟨heap', hd, -⟩ := hi.deallocate hx
  exact ⟨heap', hd⟩

/-- A 16 KiB heap after two slab allocations, a buddy allocation and a free: the slab
block of 16 bytes and the buddy block of 1024 bytes are live. -/
theorem hybrid_allocator_safe_mixed :
    ∃ heap c, HybridAllocator.new 0 16384 = some (.ok heap) ∧
      exec step ⟨heap, []⟩ [.allocate ⟨8, 8, ⟨3, rfl⟩⟩, .allocate ⟨1024, 8, ⟨3, rfl⟩⟩,
        .allocate ⟨16, 16, ⟨4, rfl⟩⟩, .deallocate 0 ⟨8, 8, ⟨3, rfl⟩⟩] = some c ∧
      c.live = [(592, ⟨16, 16, ⟨4, rfl⟩⟩), (11264, ⟨1024, 8, ⟨3, rfl⟩⟩)] ∧ Safe 0 16384 c := by
  obtain ⟨heap, c, hnew, hrun, hlive⟩ : ∃ heap c, HybridAllocator.new 0 16384 = some (.ok heap) ∧
      exec step ⟨heap, []⟩ [.allocate ⟨8, 8, ⟨3, rfl⟩⟩, .allocate ⟨1024, 8, ⟨3, rfl⟩⟩,
        .allocate ⟨16, 16, ⟨4, rfl⟩⟩, .deallocate 0 ⟨8, 8, ⟨3, rfl⟩⟩] = some c ∧
      c.live = [(592, ⟨16, 16, ⟨4, rfl⟩⟩), (11264, ⟨1024, 8, ⟨3, rfl⟩⟩)] :=
    ⟨_, _, rfl, rfl, rfl⟩
  have hreach : Reach 0 16384 c := ⟨_, _, ⟨hnew, rfl⟩, exec_run hrun⟩
  exact ⟨heap, c, hnew, hrun, hlive, hybrid_allocator_safe hreach⟩

end Client

end Beskar.Heaperion
