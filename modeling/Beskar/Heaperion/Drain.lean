import Mathlib
import Beskar.Heaperion.Hybrid

/-!
# Heaperion: Freeing Everything Gives the Heap Back

Once every allocation has been freed, with the layout it was allocated with, the
allocators are back where `new` left them.  The buddy allocator holds its one initial
block again, because `free_block` merges a freed block with its buddy for as long as the
buddy is free: the free blocks then never hold two buddies, and with nothing live they
cover the arena, which leaves only the arena itself (`Tiles.eq_single_of_coalesced`).  Each
slab has every slot on its free list again and `free_count` equal to its capacity.

The safety invariants of `Beskar.Heaperion.Buddy` and `Beskar.Heaperion.Slab` say nothing
of this: they hold of an allocator that leaks.  `BuddyAllocator.Tiled` adds what freeing
everything needs, `Splitting` is its form in the middle of `find_block`, and
`Slab.Inv.complete` counts every slot as free or live.

## Main results

- `BuddyAllocator.Tiled.allocate`, `BuddyAllocator.Tiled.deallocate`: the buddy
  allocator's calls keep the tiling; `BuddyAllocator.Tiled.freeLists_eq`: with nothing
  live the free lists are the one initial block.
- `BuddyClient.Reach.good`, `Client.Reach.refills`: the invariants hold along every run
  from `new`, of the buddy allocator alone and of the hybrid allocator.
- `allocators_drain_to_initial`: drained, both allocators are in their initial state.
-/

namespace Beskar.Heaperion

open Beskar.Lib

namespace BuddyAllocator

variable {b b' : BuddyAllocator} {live live' : List (Nat × Nat)} {p o j : Nat}

/-! ## §1 The Tiling of the Arena -/

/-- `buddy_of` flips the bit of the order in the offset, as `buddy` does. -/
theorem buddyOf_eq (b : BuddyAllocator) (p o : Nat) :
    (b.buddyOf p o, o) = buddy b.heapStart (p, o) := rfl

theorem mem_freeBlocks (ho : o ≤ b.maxOrder) : (p, o) ∈ b.freeBlocks ↔ p ∈ b.freeLists o := by
  rw [freeBlocks, mem_tagged]
  exact ⟨fun h => h.2, fun h => ⟨Nat.lt_succ_of_le ho, h⟩⟩

theorem freeLists_addBlock_self (b : BuddyAllocator) (p o : Nat) :
    (b.addBlockToFreeList p o).freeLists o = p :: b.freeLists o := by
  simp [addBlockToFreeList]

/-- Changing a list at or below `max_order` keeps the lists past it empty. -/
theorem above_update {f : Nat → List Nat} {m : Nat} (h : ∀ o, m < o → f o = []) (ho : o ≤ m)
    (l : List Nat) : ∀ o', m < o' → Function.update f o l o' = [] := by
  intro o' ho'
  rw [Function.update_of_ne (by omega)]
  exact h o' ho'

theorem Inv.base_le (hi : b.Inv live) : ∀ y ∈ b.freeBlocks, b.heapStart ≤ y.1 :=
  fun y hy => (hi.blocks.inArena y (List.mem_append_left _ hy)).base_le

/-- What merging on every free keeps, beyond `Inv`: the free and the live blocks cover the
arena, no two free blocks are buddies, and the lists past `max_order` stay empty. -/
structure Tiled (b : BuddyAllocator) (live : List (Nat × Nat)) : Prop where
  inv : b.Inv live
  covers : Covers b.heapStart b.maxOrder (b.freeBlocks ++ live)
  coalesced : Coalesced b.heapStart b.maxOrder b.freeBlocks
  above : ∀ o, b.maxOrder < o → b.freeLists o = []

/-- The state of `find_block` once it has split down to order `j`: as `Tiled`, but the
block at the head of the list of `j`, the upper half of the last split, may have its
buddy free. -/
structure Splitting (b : BuddyAllocator) (live : List (Nat × Nat)) (j : Nat) : Prop where
  inv : b.Inv live
  covers : Covers b.heapStart b.maxOrder (b.freeBlocks ++ live)
  head : ∀ p rest, b.freeLists j = p :: rest →
    CoalescedExcept b.heapStart b.maxOrder b.freeBlocks (p, j)
  above : ∀ o, b.maxOrder < o → b.freeLists o = []

theorem Tiled.splitting (ht : b.Tiled live) (j : Nat) : b.Splitting live j :=
  ⟨ht.inv, ht.covers, fun _ _ _ => ht.coalesced.except _, ht.above⟩

theorem Tiled.perm (ht : b.Tiled live) (hp : live.Perm live') : b.Tiled live' :=
  ⟨ht.inv.perm hp, ht.covers.mono (hp.append_left _).subset, ht.coalesced, ht.above⟩

/-- Popping the head of the list of `j` hands it out; no pair of free buddies is left. -/
theorem Splitting.popBlock (hs : b.Splitting live j) (hpop : b.popBlockFromFreeList j = some (p, b'))
    (hj : j ≤ b.maxOrder) : b'.Tiled ((p, j) :: live) ∧ SameArena b b' := by
  obtain ⟨hi', harena⟩ := hs.inv.popBlock hpop hj
  have hperm := freeBlocks_popBlock hpop hj
  obtain ⟨next, hfree, hb'⟩ := popBlock_eq hpop
  -- the popped block was free once only
  have hnot : (p, j) ∉ b'.freeBlocks := fun h =>
    (hs.inv.blocks.perm (hperm.append_right live)).not_mem_tail (List.mem_append_left _ h)
  refine ⟨⟨hi', ?_, ?_, ?_⟩, harena⟩
  · rw [harena.heapStart, harena.maxOrder]
    exact hs.covers.mono ((hperm.append_right live).trans List.perm_middle.symm).subset
  · rw [harena.heapStart, harena.maxOrder]
    exact ((hs.head p next hfree).mono hperm.symm.subset).pop hnot
  · rw [hb']
    exact above_update hs.above hj next

/-- Splitting the head of the list of `j + 1` leaves its upper half at the head of the
list of `j`, the one free block whose buddy may be free. -/
theorem Splitting.splitBlock (hs : b.Splitting live (j + 1)) (hj : j + 1 ≤ b.maxOrder)
    (hne : b.freeLists (j + 1) ≠ []) :
    ∃ b', b.splitBlock (j + 1) = some b' ∧ b'.Splitting live j ∧ SameArena b b' ∧
      b'.freeLists j ≠ [] := by
  obtain ⟨b₂, hsplit, hi₂, harena₂, hne₂⟩ := hs.inv.splitBlock hj hne
  obtain ⟨c, b₁, hpop⟩ := popBlock_isSome hne
  rw [splitBlock_eq hpop, Option.some.injEq] at hsplit
  subst hsplit
  have harena₁ := sameArena_of_popBlock hpop
  have hj₁ : j ≤ b₁.maxOrder := by rw [harena₁.maxOrder]; omega
  have hperm₁ := freeBlocks_popBlock hpop hj
  have hperm₂ := freeBlocks_splitBlock (b := b₁) (c := c) hj₁
  obtain ⟨next, hfree, hb₁⟩ := popBlock_eq hpop
  have hblocks := hs.inv.blocks.perm (hperm₁.append_right live)
  obtain ⟨hc, hdvd, -⟩ := hblocks.inArena _ List.mem_cons_self
  -- with the split block gone no free buddies are left, and its halves are the one pair
  have hcl : Coalesced b.heapStart b.maxOrder b₁.freeBlocks :=
    ((hs.head c next hfree).mono hperm₁.symm.subset).pop
      fun h => hblocks.not_mem_tail (List.mem_append_left _ h)
  have hbase : ∀ y ∈ b₁.freeBlocks, b.heapStart ≤ y.1 := fun y hy =>
    (hblocks.inArena y (List.mem_cons_of_mem _ (List.mem_append_left _ hy))).base_le
  have habove₁ : ∀ o, b₁.maxOrder < o → b₁.freeLists o = [] := by
    rw [hb₁]
    exact above_update hs.above hj next
  refine ⟨_, splitBlock_eq hpop, ⟨hi₂, ?_, ?_, ?_⟩, harena₂, hne₂⟩
  · rw [harena₂.heapStart, harena₂.maxOrder]
    have hcov := (hs.covers.mono (hperm₁.append_right live).subset).split
    exact hcov.mono (hperm₂.append_right live).symm.subset
  · intro q rest hq
    rw [freeLists_addBlock_self, List.cons.injEq] at hq
    rw [← hq.1, harena₂.heapStart, harena₂.maxOrder]
    exact ((hcl.split hbase hc hdvd).mono hperm₂.subset)
  · exact above_update (above_update habove₁ hj₁ _) hj₁ _

/-- The split loop of `find_block` ends with the block it split down at the head of the
list of the order asked for. -/
theorem Splitting.splitDown {k : Nat} (hs : b.Splitting live (o + k)) (hk : o + k ≤ b.maxOrder)
    (hne : b.freeLists (o + k) ≠ []) :
    ∃ b', b.splitDown o k = some b' ∧ b'.Splitting live o ∧ SameArena b b' ∧
      b'.freeLists o ≠ [] := by
  induction k generalizing b with
  | zero => exact ⟨b, rfl, hs, SameArena.refl b, hne⟩
  | succ k ih =>
    obtain ⟨b₁, hsplit, hs₁, harena₁, hne₁⟩ := hs.splitBlock (j := o + k) hk hne
    obtain ⟨b₂, hdown, hs₂, harena₂, hne₂⟩ := ih hs₁ (by rw [harena₁.maxOrder]; omega) hne₁
    refine ⟨b₂, ?_, hs₂, harena₁.trans harena₂, hne₂⟩
    simp only [BuddyAllocator.splitDown, hsplit, Option.bind_some, hdown]

/-- **`find_block` keeps the tiling**: the block it hands out becomes live, and the halves
that splitting leaves free have no free buddy. -/
theorem Tiled.findBlock (ht : b.Tiled live) (ho : o ≤ b.maxOrder)
    (h : b.findBlock o = some (.ok (p, b'))) : b'.Tiled ((p, o) :: live) ∧ SameArena b b' := by
  unfold BuddyAllocator.findBlock at h
  split at h
  · -- a block of the order is free
    obtain ⟨⟨q, b''⟩, hpop, hq⟩ := Option.map_eq_some_iff.mp h
    cases hq
    exact (ht.splitting o).popBlock hpop ho
  · split at h
    · -- the first larger order with a free block is split down
      rename_i higher hfind
      have hmem := List.mem_of_find?_eq_some hfind
      have hne : b.freeLists higher ≠ [] := by simpa using List.find?_some hfind
      rw [List.mem_range'_1] at hmem
      have hsum : o + (higher - o) = higher := Nat.add_sub_cancel' (by omega)
      obtain ⟨b₁, hdown, hs₁, harena₁, -⟩ :=
        (ht.splitting (o + (higher - o))).splitDown (by omega) (by rwa [hsum])
      rw [hdown, Option.bind_some] at h
      obtain ⟨⟨q, b''⟩, hpop, hq⟩ := Option.map_eq_some_iff.mp h
      cases hq
      obtain ⟨ht', harena'⟩ := hs₁.popBlock hpop (by rw [harena₁.maxOrder]; exact ho)
      exact ⟨ht', harena₁.trans harena'⟩
    · cases h

/-- `allocate` keeps the tiling, with the block handed out live. -/
theorem Tiled.allocate {layout : Layout} (ht : b.Tiled live)
    (h : b.allocate layout = some (.ok (p, b'))) :
    b'.Tiled ((p, blockOrder layout) :: live) ∧ SameArena b b' := by
  unfold BuddyAllocator.allocate at h
  split at h
  · cases h
  · dsimp only at h
    split at h
    · cases h
    · exact ht.findBlock (by omega) h

/-- Pushing the block being freed, when its buddy is not free, keeps the tiling. -/
theorem Tiled.addBlock (ht : b.Tiled ((p, o) :: live))
    (hfree : o < b.maxOrder → b.isBlockFree (b.buddyOf p o) o = false) :
    (b.addBlockToFreeList p o).Tiled live ∧ SameArena b (b.addBlockToFreeList p o) := by
  have ho := ht.inv.order_le List.mem_cons_self
  have hperm := freeBlocks_addBlock (b := b) (p := p) ho
  have hp : b.heapStart ≤ p := (ht.inv.inArena List.mem_cons_self).base_le
  obtain ⟨hi', harena⟩ := ht.inv.addBlock
  refine ⟨⟨hi', ?_, ?_, above_update ht.above ho _⟩, harena⟩
  · exact ht.covers.mono (List.perm_middle.trans (hperm.append_right live).symm).subset
  · -- the buddy of the block is not free, so no pair of free buddies appears
    have hbuddy : o < b.maxOrder → buddy b.heapStart (p, o) ∉ b.freeBlocks := by
      intro hlt hmem
      rw [← buddyOf_eq, mem_freeBlocks ho] at hmem
      have := hfree hlt
      simp [isBlockFree, hmem] at this
    exact (ht.coalesced.push ht.inv.base_le hp hbuddy).mono (Nat.le_refl _) hperm.subset

/-- Merging the block being freed with its free buddy keeps the tiling, with the merged
block being freed. -/
theorem Tiled.merge (ht : b.Tiled ((p, o) :: live))
    (hfree : b.isBlockFree (b.buddyOf p o) o = true) (ho : o < b.maxOrder) :
    (b.removeBlockFromFreeList (b.buddyOf p o) o).Tiled
      ((if p < b.buddyOf p o then p else b.buddyOf p o, o + 1) :: live) := by
  have hmem : b.buddyOf p o ∈ b.freeLists o := by simpa [isBlockFree] using hfree
  have hpair := @freeBlocks_merge_perm b live p o hmem (Nat.le_of_lt ho)
  have hrem := freeBlocks_removeBlock hmem (Nat.le_of_lt ho)
  have hp := ht.inv.inArena List.mem_cons_self
  refine ⟨ht.inv.merge hfree ho, ?_, ?_, above_update ht.above (Nat.le_of_lt ho) _⟩
  · -- the merged block covers what the block and its buddy covered
    have hcov := (ht.covers.mono hpair.subset).merge hp.base_le hp.aligned rfl
    exact hcov.mono List.perm_middle.symm.subset
  · exact ht.coalesced.mono (Nat.le_refl _) fun x hx =>
      hrem.symm.subset (List.mem_cons_of_mem _ hx)

/-- **The merge loop of `free_block` keeps the tiling**: given the iterations to reach
`max_order`, it merges until the buddy is not free, so no pair of free buddies is left. -/
theorem Tiled.freeBlockLoop {fuel ptr : Nat} (ht : b.Tiled ((ptr, o) :: live))
    (hfuel : b.maxOrder ≤ o + fuel) :
    (b.freeBlockLoop fuel ptr o).Tiled live ∧ SameArena b (b.freeBlockLoop fuel ptr o) := by
  induction fuel generalizing b ptr o with
  | zero => exact ht.addBlock fun hlt => absurd hlt (by omega)
  | succ fuel ih =>
    unfold BuddyAllocator.freeBlockLoop
    split
    · rename_i ho
      dsimp only
      split
      · -- the buddy is free: merge and go on one order up
        rename_i hfree
        obtain ⟨ht', harena'⟩ := ih (ht.merge hfree ho)
          (by rw [(sameArena_removeBlock b _ _).maxOrder]; omega)
        exact ⟨ht', (sameArena_removeBlock _ _ _).trans harena'⟩
      · rename_i hfree
        exact ht.addBlock fun _ => by simpa using hfree
    · rename_i ho
      exact ht.addBlock fun hlt => absurd hlt ho

/-- `deallocate` keeps the tiling, for a live block freed with its layout. -/
theorem Tiled.deallocate {layout : Layout} (ht : b.Tiled live)
    (hperm : live.Perm ((p, blockOrder layout) :: live')) (h : b.deallocate p layout = .ok b') :
    b'.Tiled live' ∧ SameArena b b' := by
  unfold BuddyAllocator.deallocate at h
  dsimp only at h
  split at h
  · cases h
  · cases h
    unfold BuddyAllocator.freeBlock
    exact (ht.perm hperm).freeBlockLoop (by omega)

/-- `new` establishes the tiling: its one free block is the whole arena. -/
theorem Tiled.of_new {ptr size : Nat} (hres : BuddyAllocator.new ptr size = some (.ok b)) :
    b.Tiled [] := by
  obtain ⟨a, n, m, hm, -, -, rfl⟩ := new_eq hres
  have hperm : ((⟨a, n, fun _ => [], m⟩ : BuddyAllocator).addBlockToFreeList a m).freeBlocks.Perm
      [(a, m)] := by
    refine (freeBlocks_addBlock (Nat.le_refl m)).trans ?_
    rw [freeBlocks_empty (fun _ => rfl)]
  refine ⟨inv_initial hm, ?_, ?_, above_update (fun _ _ => rfl) (Nat.le_refl m) _⟩
  · intro t h₁ h₂
    exact ⟨(a, m), List.mem_append_left _ (hperm.symm.subset (List.mem_singleton_self _)), h₁, h₂⟩
  · intro x hx hlt
    rw [hperm.mem_iff, List.mem_singleton] at hx
    subst hx
    exact absurd hlt (Nat.lt_irrefl m)

/-- **With nothing live the free lists are the initial block**: the arena as one block of
order `max_order` at `heap_start`, and nothing else. -/
theorem Tiled.freeLists_eq (ht : b.Tiled []) :
    b.freeLists = Function.update (fun _ => []) b.maxOrder [b.heapStart] := by
  have hblocks := ht.inv.blocks
  rw [List.append_nil] at hblocks
  -- the free blocks tile the arena and hold no two buddies, so they are the arena
  have htiles : Tiles b.heapStart b.heapStart b.maxOrder b.freeBlocks :=
    ⟨fun x hx => ⟨(hblocks.inArena x hx).base_le, (hblocks.inArena x hx).aligned⟩,
      fun x hx => ⟨(hblocks.inArena x hx).base_le, (hblocks.inArena x hx).end_le⟩,
      by simpa using ht.covers⟩
  have hsingle := htiles.eq_single_of_coalesced hblocks.disjoint (Nat.le_refl _)
    (by rw [Nat.sub_self]; exact Nat.dvd_zero _) ht.coalesced
  obtain ⟨hlast, hbelow⟩ := tagged_succ_eq_single b.freeLists hsingle
  funext o
  rcases Nat.lt_trichotomy o b.maxOrder with hlt | rfl | hgt
  · rw [Function.update_of_ne (Nat.ne_of_lt hlt), hbelow o hlt]
  · rw [Function.update_self, hlast]
  · rw [Function.update_of_ne (Nat.ne_of_gt hgt), ht.above o hgt]

/-- Two allocators over the same arena with the same free lists are the same. -/
theorem SameArena.eq (h : SameArena b b') (hf : b'.freeLists = b.freeLists) : b' = b := by
  obtain ⟨hs, hz, hm⟩ := h
  cases b
  cases b'
  dsimp only at hs hz hm hf
  rw [hs, hz, hm, hf]

/-- Drained over the arena of an allocator `new` built, an allocator is that one. -/
theorem Tiled.eq_of_new {ptr size : Nat} {b₀ : BuddyAllocator}
    (hnew : BuddyAllocator.new ptr size = some (.ok b₀)) (ht : b.Tiled []) (harena : SameArena b₀ b) :
    b = b₀ := by
  refine harena.eq ?_
  rw [ht.freeLists_eq, (Tiled.of_new hnew).freeLists_eq, harena.maxOrder, harena.heapStart]

end BuddyAllocator

/-! ## §2 Runs of a Buddy Allocator -/

/-- A client of a buddy allocator used on its own, as the tests of `buddy.rs` use it: the
allocator, and the blocks it got back and has not freed. -/
structure BuddyClient where
  buddy : BuddyAllocator
  live : List (Nat × Layout)

namespace BuddyClient

open BuddyAllocator

/-- One call.  An allocation panic ends the run; a client frees only a live block, with
its layout, as the safety contract of `deallocate` asks. -/
def step (c : BuddyClient) : Call → Option BuddyClient
  | .allocate layout =>
    match c.buddy.allocate layout with
    | none => none
    | some (.ok (ptr, buddy)) => some ⟨buddy, (ptr, layout) :: c.live⟩
    | some (.error _) => some c
  | .deallocate ptr layout =>
    if (ptr, layout) ∈ c.live then
      match c.buddy.deallocate ptr layout with
      | .ok buddy => some ⟨buddy, c.live.erase (ptr, layout)⟩
      | .error _ => some c
    else none

/-- A fresh allocator from `new ptr size`. -/
def IsInit (ptr size : Nat) (c : BuddyClient) : Prop :=
  BuddyAllocator.new ptr size = some (.ok c.buddy) ∧ c.live = []

/-- The states of a client of the allocator `new ptr size` built. -/
def Reach (ptr size : Nat) (c : BuddyClient) : Prop :=
  Reachable (Det step) (IsInit ptr size) c

/-- The live blocks, as the allocator sees them. -/
def blocks (live : List (Nat × Layout)) : List (Nat × Nat) :=
  live.map fun x => (x.1, blockOrder x.2)

/-- Along a run from `b₀`: the tiling, over the arena of `b₀`. -/
def Good (b₀ : BuddyAllocator) (c : BuddyClient) : Prop :=
  c.buddy.Tiled (blocks c.live) ∧ SameArena b₀ c.buddy

variable {c c' : BuddyClient} {b₀ : BuddyAllocator} {ptr size : Nat}

/-- A call keeps the tiling. -/
theorem Good.of_step (hg : Good b₀ c) {call : Call} (h : c.step call = some c') : Good b₀ c' := by
  obtain ⟨ht, harena⟩ := hg
  cases call with
  | allocate layout =>
    simp only [BuddyClient.step] at h
    split at h
    · cases h
    · rename_i p b' hres
      cases h
      obtain ⟨ht', harena'⟩ := ht.allocate hres
      exact ⟨ht', harena.trans harena'⟩
    · cases h
      exact ⟨ht, harena⟩
  | deallocate p layout =>
    simp only [BuddyClient.step] at h
    split at h
    · rename_i hx
      split at h
      · rename_i b' hres
        cases h
        -- the freed block leaves the live blocks
        have hperm : (blocks c.live).Perm ((p, blockOrder layout) :: blocks (c.live.erase (p, layout))) :=
          (List.perm_cons_erase hx).map _
        obtain ⟨ht', harena'⟩ := ht.deallocate hperm hres
        exact ⟨ht', harena.trans harena'⟩
      · cases h
        exact ⟨ht, harena⟩
    · cases h

/-- **The tiling holds along every run**, over the arena `new` built. -/
theorem Reach.good (hnew : BuddyAllocator.new ptr size = some (.ok b₀)) (h : Reach ptr size c) :
    Good b₀ c := by
  refine Reachable.invariant (Good b₀) ?_ (fun _ _ _ hg h => hg.of_step h) h
  rintro c ⟨hinit, hlive⟩
  rw [hnew, Option.some.injEq, Except.ok.injEq] at hinit
  subst hinit
  rw [Good, hlive]
  exact ⟨Tiled.of_new hnew, SameArena.refl _⟩

end BuddyClient

/-! ## §3 Slabs with Every Slot Free -/

namespace Slab

variable {s s' s₀ : Slab} {p : Nat}

/-- The slots of a slab in address order: the free list `new` links. -/
def slots (s : Slab) : List Nat :=
  (List.range s.capacity).map fun k => s.start + k * s.slotSize

/-- A slab but for its free list and count: its slot size, its region and its capacity. -/
def shape (s : Slab) : Nat × Nat × Nat × Nat :=
  (s.slotSize, s.start, s.endPtr, s.capacity)

theorem mem_slots : p ∈ s.slots ↔ s.IsSlot p := by
  simp only [slots, List.mem_map, List.mem_range, IsSlot]
  exact ⟨fun ⟨k, hk, he⟩ => ⟨k, hk, he.symm⟩, fun ⟨k, hk, he⟩ => ⟨k, hk, he.symm⟩⟩

theorem slots_eq_of_shape (h : s.shape = s₀.shape) : s.slots = s₀.slots := by
  simp only [shape, Prod.mk.injEq] at h
  obtain ⟨h₁, h₂, -, h₄⟩ := h
  simp only [slots, h₁, h₂, h₄]

/-- **A slab with nothing live has every slot free**: its free list holds each of its slots
once, and `free_count` is its capacity. -/
theorem Inv.refilled (hi : s.Inv []) : s.freeList.Perm s.slots ∧ s.freeCount = s.capacity := by
  have hnodup : s.freeList.Nodup := by simpa using hi.nodup
  have hlen : s.freeList.length = s.capacity := by simpa using hi.complete
  -- distinct slots, as many as the slab has
  have hsub : s.freeList.Subperm s.slots :=
    hnodup.subperm fun q hq => mem_slots.mpr (hi.slots q (List.mem_append_left _ hq))
  exact ⟨hsub.perm_of_length_le (by rw [hlen, Slab.slots, List.length_map, List.length_range]),
    hi.count.trans hlen⟩

theorem allocate_shape (h : s.allocate = .ok (p, s')) : s'.shape = s.shape := by
  obtain ⟨next, -, rfl⟩ := allocate_eq h
  rfl

theorem deallocate_shape (h : s.deallocate p = .ok s') : s'.shape = s.shape := by
  unfold Slab.deallocate at h
  split_ifs at h
  cases h
  rfl

/-- A slab has the free state of `s₀`: the same slots, the same of them free, and the
same count. -/
structure SameFree (s s₀ : Slab) : Prop where
  shape : s.shape = s₀.shape
  freeList : s.freeList.Perm s₀.freeList
  freeCount : s.freeCount = s₀.freeCount

/-- Two slabs of one shape with nothing live have the same free state. -/
theorem sameFree_of_refilled (h : s.shape = s₀.shape) (hs : s.Inv []) (hs₀ : s₀.Inv []) :
    SameFree s s₀ := by
  obtain ⟨hperm, hcount⟩ := hs.refilled
  obtain ⟨hperm₀, hcount₀⟩ := hs₀.refilled
  have hcap : s.capacity = s₀.capacity := by
    simp only [shape, Prod.mk.injEq] at h
    exact h.2.2.2
  refine ⟨h, ?_, by rw [hcount, hcount₀, hcap]⟩
  rw [slots_eq_of_shape h] at hperm
  exact hperm.trans hperm₀.symm

end Slab

namespace SlabAllocator

variable {size p : Nat} {l l' l₀ : List (Option Slab)} {a a' a₀ : SlabAllocator} {lo hi : Nat}

/-- The shapes of the slabs, `none` where a class has no slab. -/
def shapes (l : List (Option Slab)) : List (Option (Nat × Nat × Nat × Nat)) :=
  l.map (Option.map Slab.shape)

@[simp] theorem shapes_cons (e : Option Slab) (l : List (Option Slab)) :
    shapes (e :: l) = e.map Slab.shape :: shapes l := rfl

/-- Allocation only pops a free list: every slab keeps its shape. -/
theorem allocIn_shapes (h : allocIn size l = .ok (p, l')) : shapes l' = shapes l := by
  induction l generalizing l' with
  | nil => simp [allocIn] at h
  | cons e rest ih =>
    cases e with
    | none =>
      obtain ⟨r, hr, rfl⟩ := allocIn_none_cons h
      rw [shapes_cons, shapes_cons, ih hr]
    | some s =>
      rcases allocIn_some_cons h with ⟨-, s', hs', rfl⟩ | ⟨-, r, hr, rfl⟩
      · rw [shapes_cons, shapes_cons, Option.map_some, Option.map_some, Slab.allocate_shape hs']
      · rw [shapes_cons, shapes_cons, ih hr]

/-- Deallocation only pushes onto a free list: every slab keeps its shape. -/
theorem deallocIn_shapes (h : deallocIn p l = .ok l') : shapes l' = shapes l := by
  induction l generalizing l' with
  | nil => cases h
  | cons e rest ih =>
    cases e with
    | none =>
      obtain ⟨r, hr, rfl⟩ := map_eq_ok.mp h
      rw [shapes_cons, shapes_cons, ih hr]
    | some s =>
      simp only [deallocIn] at h
      split at h
      · obtain ⟨s', hs', rfl⟩ := map_eq_ok.mp h
        rw [shapes_cons, shapes_cons, Option.map_some, Option.map_some, Slab.deallocate_shape hs']
      · obtain ⟨r, hr, rfl⟩ := map_eq_ok.mp h
        rw [shapes_cons, shapes_cons, ih hr]

theorem allocate_shapes {layout : Layout} (h : a.allocate layout = .ok (p, a')) :
    shapes a'.slabs = shapes a.slabs := by
  unfold allocate at h
  split at h
  · cases h
  · obtain ⟨⟨q, l'⟩, hr, hrl⟩ := map_eq_ok.mp h
    simp only [Prod.mk.injEq] at hrl
    obtain ⟨rfl, rfl⟩ := hrl
    exact allocIn_shapes hr

theorem deallocate_shapes (h : a.deallocate p = .ok a') : shapes a'.slabs = shapes a.slabs := by
  obtain ⟨l', hl', rfl⟩ := map_eq_ok.mp h
  exact deallocIn_shapes hl'

/-- With nothing live, every slab of an allocator has nothing live. -/
theorem Inv.slab_inv (ha : a.Inv lo hi []) {s : Slab} (hs : some s ∈ a.slabs) : s.Inv [] :=
  (ha.slabs.mem hs).2.2

/-- A request that the slabs of `l₀` serve, the slabs of `l` serve too, when they have the
same shapes and every slot of each is free. -/
theorem allocIn_ok_of_shapes (hs : shapes l = shapes l₀)
    (hf : ∀ s, some s ∈ l → s.freeList.length = s.capacity)
    (hf₀ : ∀ s, some s ∈ l₀ → s.freeList.length = s.capacity)
    (h₀ : ∃ r, allocIn size l₀ = .ok r) : ∃ r, allocIn size l = .ok r := by
  induction l₀ generalizing l with
  | nil =>
    obtain ⟨r, hr⟩ := h₀
    cases hr
  | cons e₀ rest₀ ih =>
    obtain ⟨⟨q, l₁⟩, h₀⟩ := h₀
    cases l with
    | nil => cases hs
    | cons e rest =>
      rw [shapes_cons, shapes_cons, List.cons.injEq] at hs
      obtain ⟨he, hrest⟩ := hs
      have ih' := ih hrest (fun s hs => hf s (List.mem_cons_of_mem _ hs))
        (fun s hs => hf₀ s (List.mem_cons_of_mem _ hs))
      cases e₀ with
      | none =>
        cases e with
        | some s => cases he
        | none =>
          -- both classes are empty: the search goes on in both
          obtain ⟨r₀, hr₀, -⟩ := allocIn_none_cons h₀
          obtain ⟨⟨q', m⟩, hm⟩ := ih' ⟨_, hr₀⟩
          exact ⟨(q', none :: m), by simp [allocIn, hm, Except.map]⟩
      | some s₀ =>
        cases e with
        | none => cases he
        | some s =>
          rw [Option.map_some, Option.map_some, Option.some.injEq] at he
          have hsize : s.slotSize = s₀.slotSize := congrArg Prod.fst he
          have hcap : s.capacity = s₀.capacity := congrArg (fun x => x.2.2.2) he
          rcases allocIn_some_cons h₀ with ⟨hge, s₀', hs₀', -⟩ | ⟨hlt, r₀, hr₀, -⟩
          · -- the slab of `l₀` serves it from its free list, so that of `l` has one too
            obtain ⟨next₀, hfree₀, -⟩ := Slab.allocate_eq hs₀'
            have hlen : 0 < s.freeList.length := by
              rw [hf s List.mem_cons_self, hcap, ← hf₀ s₀ List.mem_cons_self, hfree₀]
              exact Nat.succ_pos _
            obtain ⟨slot, next, hfree⟩ := List.exists_cons_of_length_pos hlen
            refine ⟨(slot, some { s with freeList := next, freeCount := s.freeCount - 1 } :: rest),
              ?_⟩
            simp [allocIn, hsize, hge, Slab.allocate, hfree, Except.map]
          · -- the slabs are passed over alike
            obtain ⟨⟨q', m⟩, hm⟩ := ih' ⟨_, hr₀⟩
            have hlt' : ¬ size ≤ s.slotSize := by omega
            exact ⟨(q', some s :: m), by simp [allocIn, hlt', hm, Except.map]⟩

/-- What a drained slab allocator serves: what one of the same shapes serves. -/
theorem allocate_ok_of_shapes {layout : Layout} (hs : shapes a.slabs = shapes a₀.slabs)
    (hf : ∀ s, some s ∈ a.slabs → s.Inv []) (hf₀ : ∀ s, some s ∈ a₀.slabs → s.Inv [])
    (h₀ : ∃ r, a₀.allocate layout = .ok r) : ∃ r, a.allocate layout = .ok r := by
  have hlen : ∀ {a : SlabAllocator}, (∀ s, some s ∈ a.slabs → s.Inv []) →
      ∀ s, some s ∈ a.slabs → s.freeList.length = s.capacity :=
    fun h s hs => by simpa using (h s hs).complete
  obtain ⟨r₀, h₀⟩ := h₀
  unfold allocate at h₀ ⊢
  split at h₀
  · cases h₀
  · rename_i hpos
    rw [if_neg hpos]
    obtain ⟨r₁, hr₁, -⟩ := map_eq_ok.mp h₀
    obtain ⟨r, hr⟩ := allocIn_ok_of_shapes hs (hlen hf) (hlen hf₀) ⟨r₁, hr₁⟩
    exact ⟨_, by rw [hr]; rfl⟩

/-- Slabs of the same shapes with nothing live have the same free state. -/
theorem forall₂_sameFree (hs : shapes l = shapes l₀) (hf : ∀ s, some s ∈ l → s.Inv [])
    (hf₀ : ∀ s, some s ∈ l₀ → s.Inv []) : List.Forall₂ (Option.Rel Slab.SameFree) l l₀ := by
  induction l₀ generalizing l with
  | nil =>
    cases l with
    | nil => exact .nil
    | cons e rest => cases hs
  | cons e₀ rest₀ ih =>
    cases l with
    | nil => cases hs
    | cons e rest =>
      rw [shapes_cons, shapes_cons, List.cons.injEq] at hs
      obtain ⟨he, hrest⟩ := hs
      refine .cons ?_ (ih hrest (fun s hs => hf s (List.mem_cons_of_mem _ hs))
        (fun s hs => hf₀ s (List.mem_cons_of_mem _ hs)))
      cases e₀ with
      | none =>
        cases e with
        | none => exact .none
        | some s => cases he
      | some s₀ =>
        cases e with
        | none => cases he
        | some s =>
          rw [Option.map_some, Option.map_some, Option.some.injEq] at he
          exact .some (Slab.sameFree_of_refilled he (hf s List.mem_cons_self)
            (hf₀ s₀ List.mem_cons_self))

end SlabAllocator

/-! ## §4 The Hybrid Allocator Drained -/

namespace HybridAllocator

open BuddyAllocator

variable {heap₀ heap heap' : HybridAllocator} {hs hz p : Nat} {live : List (Nat × Layout)}
  {layout : Layout} {x : Nat × Layout}

/-- What freeing everything needs of a hybrid allocator that `new` built as `heap₀`: the
invariant, the tiling of its buddy allocator over the arena of `heap₀`'s, and slabs of the
shapes of `heap₀`'s. -/
structure Refills (heap₀ heap : HybridAllocator) (hs hz : Nat) (live : List (Nat × Layout)) :
    Prop where
  inv : heap.Inv hs hz live
  tiled : heap.buddy.Tiled (buddyLive hs hz live)
  arena : SameArena heap₀.buddy heap.buddy
  shapes : SlabAllocator.shapes heap.slab.slabs = SlabAllocator.shapes heap₀.slab.slabs

theorem Refills.of_new (hres : HybridAllocator.new hs hz = some (.ok heap)) :
    heap.Refills heap hs hz [] :=
  ⟨Inv.of_new hres, Tiled.of_new (new_eq hres).2, SameArena.refl _, rfl⟩

/-- `allocate` keeps it, with the new allocation live. -/
theorem Refills.allocate (hr : heap₀.Refills heap hs hz live)
    (hres : heap.allocate layout = some (.ok (p, heap'))) :
    heap₀.Refills heap' hs hz ((p, layout) :: live) := by
  have hinv := hr.inv.allocate hres
  rcases allocate_cases hres with ⟨-, hpos, slab', hslab, rfl⟩ | ⟨b', hb, rfl⟩
  · -- a slab serves it; the buddy allocator is untouched
    have hlt := hr.inv.lt_slabEnd_of_slab hpos hslab
    have hbuddy : buddyLive hs hz ((p, layout) :: live) = buddyLive hs hz live := by
      simp [buddyLive, hlt]
    refine ⟨hinv, by rw [hbuddy]; exact hr.tiled, hr.arena, ?_⟩
    exact (SlabAllocator.allocate_shapes hslab).trans hr.shapes
  · -- the buddy allocator serves it; the slabs are untouched
    have hge := hr.inv.not_lt_slabEnd_of_buddy hb
    have hbuddy : buddyLive hs hz ((p, layout) :: live) =
        (p, blockOrder layout) :: buddyLive hs hz live := by
      simp [buddyLive, Nat.le_of_not_lt hge]
    obtain ⟨ht', harena'⟩ := hr.tiled.allocate hb
    exact ⟨hinv, by rw [hbuddy]; exact ht', hr.arena.trans harena', hr.shapes⟩

/-- `deallocate` of a live allocation keeps it. -/
theorem Refills.deallocate (hr : heap₀.Refills heap hs hz live) (hx : x ∈ live)
    (hd : heap.deallocate x.1 x.2 = .ok heap') : heap₀.Refills heap' hs hz (live.erase x) := by
  obtain ⟨heap'', hd', hinv⟩ := hr.inv.deallocate hx
  rw [hd, Except.ok.injEq] at hd'
  subst hd'
  rw [hr.inv.deallocate_eq hx] at hd
  split_ifs at hd with hlt
  · -- its slab takes it back; the buddy allocator's share is unchanged
    obtain ⟨slab', hs', rfl⟩ := map_eq_ok.mp hd
    refine ⟨hinv, hr.tiled.perm (share_perm_erase_of_neg hx (by simpa using hlt)), hr.arena, ?_⟩
    exact (SlabAllocator.deallocate_shapes hs').trans hr.shapes
  · -- the buddy allocator takes it back and merges
    obtain ⟨b', hb', rfl⟩ := map_eq_ok.mp hd
    obtain ⟨ht', harena'⟩ := hr.tiled.deallocate
      (share_perm_erase (g := fun x => (x.1, blockOrder x.2)) hx (by simpa using hlt)) hb'
    exact ⟨hinv, ht', hr.arena.trans harena', hr.shapes⟩

/-- The hybrid allocator `new` built as `heap₀`, drained: each slab has every slot free,
as `heap₀`'s has, the buddy allocator is `heap₀`'s with its one initial block, and what
`heap₀` could allocate can be allocated again. -/
structure Drained (heap₀ heap : HybridAllocator) : Prop where
  slabs : List.Forall₂ (Option.Rel Slab.SameFree) heap.slab.slabs heap₀.slab.slabs
  refilled : ∀ s, some s ∈ heap.slab.slabs → s.freeList.Perm s.slots ∧ s.freeCount = s.capacity
  buddy : heap.buddy = heap₀.buddy
  initial_block : heap.buddy.freeLists =
    Function.update (fun _ => []) heap.buddy.maxOrder [heap.buddy.heapStart]
  allocate : ∀ layout r₀, heap₀.allocate layout = some (.ok r₀) →
    ∃ r, heap.allocate layout = some (.ok r)

/-- What `heap` allocates: what `heap₀` allocates, when the buddy allocators are the same
and the slabs of `heap` serve what those of `heap₀` serve. -/
theorem allocate_ok_of_same (hbuddy : heap.buddy = heap₀.buddy)
    (hslab : (∃ r, heap₀.slab.allocate layout = .ok r) → ∃ r, heap.slab.allocate layout = .ok r)
    {r₀ : Nat × HybridAllocator} (h₀ : heap₀.allocate layout = some (.ok r₀)) :
    ∃ r, heap.allocate layout = some (.ok r) := by
  have hpos : layout.size ≠ 0 := by
    intro h
    simp [HybridAllocator.allocate, h] at h₀
  unfold HybridAllocator.allocate
  rw [if_neg hpos]
  dsimp only
  obtain ⟨q, heap₀'⟩ := r₀
  rcases allocate_cases h₀ with ⟨hsmall, -, slab', hslab₀, -⟩ | ⟨b', hb, -⟩
  · -- a slab of `heap₀` serves it, so one of `heap` does
    obtain ⟨⟨q', s⟩, hq⟩ := hslab ⟨_, hslab₀⟩
    rw [if_pos ⟨hsmall, hsmall⟩, hq]
    exact ⟨_, rfl⟩
  · -- the buddy allocator of `heap₀` serves it, and `heap` has the same one
    have hvia : ∃ r, ((heap.buddy.allocate layout).map fun r =>
        r.map fun r => (r.1, { heap with buddy := r.2 })) = some (.ok r) := by
      rw [hbuddy, hb]
      exact ⟨_, rfl⟩
    split
    · split
      · exact ⟨_, rfl⟩
      · exact hvia
    · exact hvia

/-- With nothing live, the allocator is drained back to `heap₀`. -/
theorem Refills.drained (hnew : HybridAllocator.new hs hz = some (.ok heap₀))
    (hr : heap₀.Refills heap hs hz []) : Drained heap₀ heap := by
  have h₀ := Refills.of_new hnew
  have hslabs : ∀ s, some s ∈ heap.slab.slabs → s.Inv [] := fun s hs => hr.inv.slab.slab_inv hs
  have hslabs₀ : ∀ s, some s ∈ heap₀.slab.slabs → s.Inv [] := fun s hs => h₀.inv.slab.slab_inv hs
  have hbuddy : heap.buddy = heap₀.buddy := hr.tiled.eq_of_new (new_eq hnew).2 hr.arena
  refine ⟨SlabAllocator.forall₂_sameFree hr.shapes hslabs hslabs₀,
    fun s hs => (hslabs s hs).refilled, hbuddy, hr.tiled.freeLists_eq, ?_⟩
  intro layout r₀ h
  exact allocate_ok_of_same hbuddy
    (SlabAllocator.allocate_ok_of_shapes hr.shapes hslabs hslabs₀) h

end HybridAllocator

namespace Client

open HybridAllocator

variable {heap₀ : HybridAllocator} {hs hz : Nat} {c c' : Client}

/-- A call keeps `Refills`. -/
theorem refills_step (hr : heap₀.Refills c.heap hs hz c.live) {call : Call}
    (h : c.step call = some c') : heap₀.Refills c'.heap hs hz c'.live := by
  rcases step_cases h with rfl | ⟨layout, p, heap', hres, rfl⟩ | ⟨x, hx, heap', hd, rfl⟩
  · exact hr
  · exact hr.allocate hres
  · exact hr.deallocate hx hd

/-- **`Refills` holds along every run** from the allocator `new` built. -/
theorem Reach.refills (hnew : HybridAllocator.new hs hz = some (.ok heap₀)) (h : Reach hs hz c) :
    heap₀.Refills c.heap hs hz c.live := by
  refine Reachable.invariant (fun c => heap₀.Refills c.heap hs hz c.live) ?_
    (fun _ _ _ hr h => refills_step hr h) h
  rintro c ⟨hinit, hlive⟩
  rw [hnew, Option.some.injEq, Except.ok.injEq] at hinit
  rw [← hinit, hlive]
  exact Refills.of_new hnew

end Client

/-! ## §5 Freeing Everything -/

/-- **Freeing everything gives both allocators back their initial state.**  Along every
run of the hybrid allocator, once every allocation is freed with its layout, each slab has
its whole slot set free with `free_count` at its capacity, as after `new`, the buddy
allocator is as `new` left it, with its one initial block as its only free block, and
every layout the fresh allocator could serve can be served again; and the same of a buddy
allocator used on its own. -/
theorem allocators_drain_to_initial :
    (∀ {hs hz : Nat} {heap₀ : HybridAllocator} {c : Client},
      HybridAllocator.new hs hz = some (.ok heap₀) → Client.Reach hs hz c → c.live = [] →
        HybridAllocator.Drained heap₀ c.heap) ∧
    (∀ {ptr size : Nat} {b₀ : BuddyAllocator} {c : BuddyClient},
      BuddyAllocator.new ptr size = some (.ok b₀) → BuddyClient.Reach ptr size c → c.live = [] →
        c.buddy = b₀ ∧
          c.buddy.freeLists = Function.update (fun _ => []) c.buddy.maxOrder [c.buddy.heapStart]) := by
  refine ⟨fun hnew hreach hlive => ?_, fun hnew hreach hlive => ?_⟩
  · have hr := hreach.refills hnew
    rw [hlive] at hr
    exact hr.drained hnew
  · obtain ⟨ht, harena⟩ := hreach.good hnew
    rw [hlive] at ht
    exact ⟨ht.eq_of_new hnew harena, ht.freeLists_eq⟩

/-- A 16 KiB heap after two slab allocations and a buddy allocation, each freed again, and a
buddy allocator over 4 KiB after two allocations, both freed: both are back as `new` built
them. -/
theorem allocators_drain_afterUse :
    (∃ heap₀ c, HybridAllocator.new 0 16384 = some (.ok heap₀) ∧
      exec Client.step ⟨heap₀, []⟩ [.allocate ⟨8, 8, ⟨3, rfl⟩⟩, .allocate ⟨1024, 8, ⟨3, rfl⟩⟩,
        .allocate ⟨16, 16, ⟨4, rfl⟩⟩, .deallocate 0 ⟨8, 8, ⟨3, rfl⟩⟩,
        .deallocate 11264 ⟨1024, 8, ⟨3, rfl⟩⟩, .deallocate 592 ⟨16, 16, ⟨4, rfl⟩⟩] = some c ∧
      HybridAllocator.Drained heap₀ c.heap) ∧
    ∃ b₀ c, BuddyAllocator.new 0 4096 = some (.ok b₀) ∧
      exec BuddyClient.step ⟨b₀, []⟩ [.allocate ⟨64, 8, ⟨3, rfl⟩⟩, .allocate ⟨128, 8, ⟨3, rfl⟩⟩,
        .deallocate 1984 ⟨64, 8, ⟨3, rfl⟩⟩, .deallocate 1792 ⟨128, 8, ⟨3, rfl⟩⟩] = some c ∧
      c.buddy = b₀ ∧
        c.buddy.freeLists = Function.update (fun _ => []) c.buddy.maxOrder [c.buddy.heapStart] := by
  obtain ⟨heap₀, c, hnew, hrun, hlive⟩ : ∃ heap₀ c, HybridAllocator.new 0 16384 = some (.ok heap₀) ∧
      exec Client.step ⟨heap₀, []⟩ [.allocate ⟨8, 8, ⟨3, rfl⟩⟩, .allocate ⟨1024, 8, ⟨3, rfl⟩⟩,
        .allocate ⟨16, 16, ⟨4, rfl⟩⟩, .deallocate 0 ⟨8, 8, ⟨3, rfl⟩⟩,
        .deallocate 11264 ⟨1024, 8, ⟨3, rfl⟩⟩, .deallocate 592 ⟨16, 16, ⟨4, rfl⟩⟩] = some c ∧
      c.live = [] :=
    ⟨_, _, rfl, rfl, rfl⟩
  obtain ⟨b₀, c', hb, hrun', hlive'⟩ : ∃ b₀ c', BuddyAllocator.new 0 4096 = some (.ok b₀) ∧
      exec BuddyClient.step ⟨b₀, []⟩ [.allocate ⟨64, 8, ⟨3, rfl⟩⟩, .allocate ⟨128, 8, ⟨3, rfl⟩⟩,
        .deallocate 1984 ⟨64, 8, ⟨3, rfl⟩⟩, .deallocate 1792 ⟨128, 8, ⟨3, rfl⟩⟩] = some c' ∧
      c'.live = [] :=
    ⟨_, _, rfl, rfl, rfl⟩
  have hreach : Client.Reach 0 16384 c := ⟨_, _, ⟨hnew, rfl⟩, exec_run hrun⟩
  have hreach' : BuddyClient.Reach 0 4096 c' := ⟨_, _, ⟨hb, rfl⟩, exec_run hrun'⟩
  exact ⟨⟨heap₀, c, hnew, hrun, allocators_drain_to_initial.1 hnew hreach hlive⟩,
    ⟨b₀, c', hb, hrun', allocators_drain_to_initial.2 hb hreach' hlive'⟩⟩

end Beskar.Heaperion
