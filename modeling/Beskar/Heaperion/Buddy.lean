import Mathlib
import Beskar.Heaperion.Basic
import Beskar.Lib.Blocks

/-!
# Heaperion: the Buddy Allocator

Model of `heaperion/src/buddy.rs`.  The allocator serves power-of-two blocks out of
`[heap_start, heap_start + heap_size)` and keeps one intrusive free list per order, here a
function from orders to lists of block addresses (head first), as the array
`free_lists: [_; MAX_ORDER]` is indexed.  Indexing past the array panics; that can only
happen in `new`, which therefore returns `Option`.  `pop_block_from_free_list` unwraps
the head of its list, so it and everything that calls it returns `Option` too.

## Main results

- `Inv`: the free blocks and the live blocks are pairwise disjoint blocks of the arena
  `[heap_start, heap_start + 2 ^ max_order)`, which lies inside the heap (`BlocksOk` from
  `Beskar.Lib.Blocks`).
- `allocate_spec`, `allocate_ne_none`: allocation never panics and hands out a block of the
  layout's order, kept by the invariant as live.
- `deallocate_spec`: freeing a live block with its layout succeeds, however far it merges.
- `new_spec`, `new_ok`: `new` establishes the invariant, and accepts every heap of 16 bytes
  up to 256 MiB.
-/

namespace Beskar.Heaperion

open Beskar.Lib

/-- `MAX_ORDER`: the number of free lists. -/
def maxOrder : Nat := 28

/-- `MIN_BLOCK_SIZE`. -/
def minBlockSize : Nat := 16

/-- `BuddyAllocator`. -/
structure BuddyAllocator where
  heapStart : Nat
  heapSize : Nat
  freeLists : Nat → List Nat
  maxOrder : Nat

/-- The order that `allocate` and `deallocate` compute for a layout: that of the power of
two above both its size and its alignment, and at least `MIN_BLOCK_SIZE`. -/
def blockOrder (layout : Layout) : Nat :=
  let size := max layout.size minBlockSize
  let align := max layout.align minBlockSize
  sizeToOrder (nextPowerOfTwo (max size align))

namespace BuddyAllocator

/-- `add_block_to_free_list`: push onto the list of `order`. -/
def addBlockToFreeList (b : BuddyAllocator) (ptr order : Nat) : BuddyAllocator :=
  { b with freeLists := Function.update b.freeLists order (ptr :: b.freeLists order) }

/-- `pop_block_from_free_list`: `unwrap` panics on an empty list. -/
def popBlockFromFreeList (b : BuddyAllocator) (order : Nat) : Option (Nat × BuddyAllocator) :=
  match b.freeLists order with
  | [] => none
  | block :: next => some (block, { b with freeLists := Function.update b.freeLists order next })

/-- `remove_block_from_free_list`: unlink the first block at `ptr`, if there is one. -/
def removeBlockFromFreeList (b : BuddyAllocator) (ptr order : Nat) : BuddyAllocator :=
  { b with freeLists := Function.update b.freeLists order ((b.freeLists order).erase ptr) }

/-- `is_block_free`: a walk of the list of `order`. -/
def isBlockFree (b : BuddyAllocator) (ptr order : Nat) : Bool :=
  (b.freeLists order).contains ptr

/-- `buddy_of`: flip the bit of the order in the offset from the heap start. -/
def buddyOf (b : BuddyAllocator) (ptr order : Nat) : Nat :=
  b.heapStart + ((ptr - b.heapStart) ^^^ orderToSize order)

/-- `split_block`: replace a block of `order` by its halves, pushed lower half first. -/
def splitBlock (b : BuddyAllocator) (order : Nat) : Option BuddyAllocator :=
  match b.popBlockFromFreeList order with
  | none => none
  | some (blockPtr, b) =>
    let halfSize := orderToSize order / 2
    some ((b.addBlockToFreeList blockPtr (order - 1)).addBlockToFreeList (blockPtr + halfSize)
      (order - 1))

/-- The loop `for split_order in (order..order + k).rev()` of `find_block`: split at
`order + k`, then down to `order + 1`. -/
def splitDown (b : BuddyAllocator) (order : Nat) : Nat → Option BuddyAllocator
  | 0 => some b
  | k + 1 => (b.splitBlock (order + k + 1)).bind fun b => b.splitDown order k

/-- `find_block`: pop a block of `order`, or split the first larger one down to it. -/
def findBlock (b : BuddyAllocator) (order : Nat) :
    Option (Except HeapError (Nat × BuddyAllocator)) :=
  if b.freeLists order ≠ [] then (b.popBlockFromFreeList order).map .ok
  else
    match (List.range' (order + 1) (b.maxOrder - order)).find? (fun o => b.freeLists o ≠ []) with
    | some higherOrder =>
      (b.splitDown order (higherOrder - order)).bind fun b =>
        (b.popBlockFromFreeList order).map .ok
    | none => some (.error .outOfMemory)

/-- `BuddyAllocator::allocate`. -/
def allocate (b : BuddyAllocator) (layout : Layout) :
    Option (Except HeapError (Nat × BuddyAllocator)) :=
  if layout.size = 0 then some (.error .invalidSize)
  else
    let order := blockOrder layout
    if order > b.maxOrder then some (.error .outOfMemory)
    else b.findBlock order

/-- The merge loop of `free_block`, with the number of iterations left as fuel. -/
def freeBlockLoop (b : BuddyAllocator) : Nat → Nat → Nat → BuddyAllocator
  | 0, ptr, order => b.addBlockToFreeList ptr order
  | fuel + 1, ptr, order =>
    if order < b.maxOrder then
      let buddyPtr := b.buddyOf ptr order
      if b.isBlockFree buddyPtr order then
        (b.removeBlockFromFreeList buddyPtr order).freeBlockLoop fuel
          (if ptr < buddyPtr then ptr else buddyPtr) (order + 1)
      else b.addBlockToFreeList ptr order
    else b.addBlockToFreeList ptr order

/-- `free_block`.  Every iteration raises the order, and the loop stops at `max_order`, so
`max_order - order` iterations are all it can take: with no fuel left the order has
reached `max_order`, where the loop pushes the block as it does here. -/
def freeBlock (b : BuddyAllocator) (ptr order : Nat) : BuddyAllocator :=
  b.freeBlockLoop (b.maxOrder - order) ptr order

/-- `BuddyAllocator::deallocate`. -/
def deallocate (b : BuddyAllocator) (ptr : Nat) (layout : Layout) :
    Except HeapError BuddyAllocator :=
  let heapEnd := b.heapStart + b.heapSize
  if ptr < b.heapStart ∨ ptr ≥ heapEnd then .error .invalidPointer
  else .ok (b.freeBlock ptr (blockOrder layout))

/-- `BuddyAllocator::new`: one initial block, of the largest order that fits. -/
def new (ptr size : Nat) : Option (Except HeapError BuddyAllocator) :=
  if size < minBlockSize then some (.error .invalidSize)
  else
    let alignedAddr := alignUp ptr minBlockSize
    let adjustment := alignedAddr - ptr
    if adjustment ≥ size then some (.error .invalidSize)
    else
      let adjustedSize := size - adjustment
      let initialOrder := sizeToOrder (nextPowerOfTwo adjustedSize / 2)
      let buddy : BuddyAllocator :=
        { heapStart := alignedAddr, heapSize := adjustedSize, freeLists := fun _ => [],
          maxOrder := min initialOrder (Heaperion.maxOrder - 1) }
      if orderToSize initialOrder ≤ adjustedSize then
        -- `free_lists[initial_order]` is out of bounds from `MAX_ORDER` on
        if initialOrder < Heaperion.maxOrder then
          some (.ok (buddy.addBlockToFreeList alignedAddr initialOrder))
        else none
      else some (.ok buddy)

/-! ## §1 The Free Lists as Blocks -/

/-- The free blocks with their orders, over the orders up to `max_order`. -/
def freeBlocks (b : BuddyAllocator) : List (Nat × Nat) :=
  tagged b.freeLists (b.maxOrder + 1)

/-- `b'` manages the same memory as `b`. -/
structure SameArena (b b' : BuddyAllocator) : Prop where
  heapStart : b'.heapStart = b.heapStart
  heapSize : b'.heapSize = b.heapSize
  maxOrder : b'.maxOrder = b.maxOrder

variable {b b' b'' : BuddyAllocator} {live live' : List (Nat × Nat)} {p o : Nat}

theorem SameArena.refl (b : BuddyAllocator) : SameArena b b := ⟨rfl, rfl, rfl⟩

theorem SameArena.trans (h₁ : SameArena b b') (h₂ : SameArena b' b'') : SameArena b b'' :=
  ⟨h₂.heapStart.trans h₁.heapStart, h₂.heapSize.trans h₁.heapSize, h₂.maxOrder.trans h₁.maxOrder⟩

theorem sameArena_addBlock (b : BuddyAllocator) (p o : Nat) :
    SameArena b (b.addBlockToFreeList p o) := ⟨rfl, rfl, rfl⟩

theorem sameArena_removeBlock (b : BuddyAllocator) (p o : Nat) :
    SameArena b (b.removeBlockFromFreeList p o) := ⟨rfl, rfl, rfl⟩

/-- What `pop_block_from_free_list` does: take the head of the list of `order`. -/
theorem popBlock_eq (h : b.popBlockFromFreeList o = some (p, b')) :
    ∃ next, b.freeLists o = p :: next ∧ b' = { b with freeLists := Function.update b.freeLists o next } := by
  unfold popBlockFromFreeList at h
  split at h
  · cases h
  · rename_i block next hfree
    cases h
    exact ⟨next, hfree, rfl⟩

theorem popBlock_isSome (hne : b.freeLists o ≠ []) :
    ∃ p b', b.popBlockFromFreeList o = some (p, b') := by
  unfold popBlockFromFreeList
  split
  · contradiction
  · exact ⟨_, _, rfl⟩

theorem sameArena_of_popBlock (h : b.popBlockFromFreeList o = some (p, b')) : SameArena b b' := by
  obtain ⟨next, -, rfl⟩ := popBlock_eq h
  exact ⟨rfl, rfl, rfl⟩

theorem freeBlocks_addBlock (ho : o ≤ b.maxOrder) :
    (b.addBlockToFreeList p o).freeBlocks.Perm ((p, o) :: b.freeBlocks) := by
  have h := tagged_perm_of_perm (Function.update b.freeLists o (p :: b.freeLists o))
    (n := b.maxOrder + 1) (Nat.lt_succ_of_le ho) (by rw [Function.update_self])
  rwa [Function.update_idem, Function.update_eq_self] at h

theorem freeBlocks_popBlock (h : b.popBlockFromFreeList o = some (p, b')) (ho : o ≤ b.maxOrder) :
    b.freeBlocks.Perm ((p, o) :: b'.freeBlocks) := by
  obtain ⟨next, hfree, rfl⟩ := popBlock_eq h
  exact tagged_perm_of_perm b.freeLists (Nat.lt_succ_of_le ho) (by rw [hfree])

theorem freeBlocks_removeBlock (hp : p ∈ b.freeLists o) (ho : o ≤ b.maxOrder) :
    b.freeBlocks.Perm ((p, o) :: (b.removeBlockFromFreeList p o).freeBlocks) :=
  tagged_perm_of_perm b.freeLists (Nat.lt_succ_of_le ho) (List.perm_cons_erase hp)

/-- What `split_block` does with the block it pops from the list of `o + 1`. -/
theorem splitBlock_eq {c : Nat} (hpop : b.popBlockFromFreeList (o + 1) = some (c, b')) :
    b.splitBlock (o + 1) = some ((b'.addBlockToFreeList c o).addBlockToFreeList (c + 2 ^ o) o) := by
  have hhalf : orderToSize (o + 1) / 2 = 2 ^ o := by
    rw [orderToSize, Nat.pow_succ, Nat.mul_div_cancel _ (by decide)]
  simp only [BuddyAllocator.splitBlock, hpop, Nat.add_sub_cancel, hhalf]

/-- The two halves pushed by `split_block` join the free blocks. -/
theorem freeBlocks_splitBlock {c : Nat} (ho : o ≤ b.maxOrder) :
    ((b.addBlockToFreeList c o).addBlockToFreeList (c + 2 ^ o) o).freeBlocks.Perm
      ((c, o) :: (c + 2 ^ o, o) :: b.freeBlocks) := by
  have h₁ := freeBlocks_addBlock (b := b) (p := c) ho
  have h₂ := freeBlocks_addBlock (b := b.addBlockToFreeList c o) (p := c + 2 ^ o) ho
  exact h₂.trans ((h₁.cons _).trans (List.Perm.swap _ _ _))

/-- Freeing a block whose buddy is free: the two, then the other blocks. -/
theorem freeBlocks_merge_perm (hmem : b.buddyOf p o ∈ b.freeLists o) (ho : o ≤ b.maxOrder) :
    (b.freeBlocks ++ (p, o) :: live).Perm ((p, o) :: (b.buddyOf p o, o) ::
      ((b.removeBlockFromFreeList (b.buddyOf p o) o).freeBlocks ++ live)) :=
  List.perm_middle.trans (((freeBlocks_removeBlock hmem ho).append_right live).cons _)

/-! ## §2 The Invariant -/

/-- The free blocks and the live blocks (address and order) are pairwise disjoint blocks
of the arena `[heap_start, heap_start + 2 ^ max_order)`, which lies inside the heap. -/
structure Inv (b : BuddyAllocator) (live : List (Nat × Nat)) : Prop where
  arena_le : 2 ^ b.maxOrder ≤ b.heapSize
  blocks : BlocksOk b.heapStart b.maxOrder (b.freeBlocks ++ live)

/-- The invariant carries over to a state on the same memory whose blocks are still
disjoint blocks of the arena. -/
theorem Inv.of_sameArena (hi : b.Inv live) (h : SameArena b b')
    (hb : BlocksOk b.heapStart b.maxOrder (b'.freeBlocks ++ live')) : b'.Inv live' :=
  ⟨by rw [h.maxOrder, h.heapSize]; exact hi.arena_le, by rw [h.heapStart, h.maxOrder]; exact hb⟩

theorem Inv.perm (hi : b.Inv live) (hp : live.Perm live') : b.Inv live' :=
  hi.of_sameArena (SameArena.refl b) (hi.blocks.perm (hp.append_left _))

theorem Inv.inArena (hi : b.Inv live) {x : Nat × Nat} (hx : x ∈ live) :
    InArena b.heapStart b.maxOrder x :=
  hi.blocks.inArena x (List.mem_append_right _ hx)

/-- A live block is no larger than the arena. -/
theorem Inv.order_le (hi : b.Inv live) {x : Nat × Nat} (hx : x ∈ live) : x.2 ≤ b.maxOrder := by
  have hfit := (hi.inArena hx).fits
  exact (Nat.pow_le_pow_iff_right (show 1 < 2 by decide)).mp (by omega)

/-- A live block lies inside the heap. -/
theorem Inv.live_bounds (hi : b.Inv live) {x : Nat × Nat} (hx : x ∈ live) :
    b.heapStart ≤ x.1 ∧ x.1 + 2 ^ x.2 ≤ b.heapStart + b.heapSize := by
  have harena := hi.inArena hx
  have := harena.end_le
  have := hi.arena_le
  exact ⟨harena.base_le, by omega⟩

/-- The live blocks are pairwise disjoint. -/
theorem Inv.live_pairwise (hi : b.Inv live) : live.Pairwise BlockDisjoint :=
  hi.blocks.disjoint.sublist (List.sublist_append_right _ _)

/-- Popping a free block makes it live. -/
theorem Inv.popBlock (hi : b.Inv live) (h : b.popBlockFromFreeList o = some (p, b'))
    (ho : o ≤ b.maxOrder) : b'.Inv ((p, o) :: live) ∧ SameArena b b' := by
  have harena := sameArena_of_popBlock h
  refine ⟨hi.of_sameArena harena (hi.blocks.perm ?_), harena⟩
  exact ((freeBlocks_popBlock h ho).append_right live).trans List.perm_middle.symm

/-- Pushing a block being freed makes it free. -/
theorem Inv.addBlock (hi : b.Inv ((p, o) :: live)) :
    (b.addBlockToFreeList p o).Inv live ∧ SameArena b (b.addBlockToFreeList p o) := by
  have ho := hi.order_le List.mem_cons_self
  refine ⟨hi.of_sameArena (sameArena_addBlock b p o) (hi.blocks.perm ?_), sameArena_addBlock b p o⟩
  exact List.perm_middle.trans ((freeBlocks_addBlock ho).append_right live).symm

/-- Splitting a free block of order `o + 1` leaves two free blocks of order `o`. -/
theorem Inv.splitBlock (hi : b.Inv live) (ho : o + 1 ≤ b.maxOrder)
    (hne : b.freeLists (o + 1) ≠ []) :
    ∃ b', b.splitBlock (o + 1) = some b' ∧ b'.Inv live ∧ SameArena b b' ∧ b'.freeLists o ≠ [] := by
  obtain ⟨c, b₁, hpop⟩ := popBlock_isSome hne
  have harena := sameArena_of_popBlock hpop
  have harena' := harena.trans ((sameArena_addBlock b₁ c o).trans
    (sameArena_addBlock _ (c + 2 ^ o) o))
  refine ⟨(b₁.addBlockToFreeList c o).addBlockToFreeList (c + 2 ^ o) o, splitBlock_eq hpop, ?_,
    harena', by simp [addBlockToFreeList]⟩
  -- the block leaves its list of order `o + 1`, and its halves join the list of `o`
  have hsplit := (hi.blocks.perm ((freeBlocks_popBlock hpop (by omega)).append_right live)).split
  refine hi.of_sameArena harena' (hsplit.perm ?_)
  exact ((freeBlocks_splitBlock (by rw [harena.maxOrder]; omega)).append_right live).symm

/-- The split loop of `find_block` leaves a free block of the order asked for. -/
theorem Inv.splitDown (hi : b.Inv live) {k : Nat} (hk : o + k ≤ b.maxOrder)
    (hne : b.freeLists (o + k) ≠ []) :
    ∃ b', b.splitDown o k = some b' ∧ b'.Inv live ∧ SameArena b b' ∧ b'.freeLists o ≠ [] := by
  induction k generalizing b with
  | zero => exact ⟨b, rfl, hi, SameArena.refl b, hne⟩
  | succ k ih =>
    obtain ⟨b₁, hsplit, hi₁, harena₁, hne₁⟩ := hi.splitBlock (o := o + k) (by omega) hne
    obtain ⟨b₂, hdown, hi₂, harena₂, hne₂⟩ := ih hi₁ (by rw [harena₁.maxOrder]; omega) hne₁
    refine ⟨b₂, ?_, hi₂, harena₁.trans harena₂, hne₂⟩
    simp only [BuddyAllocator.splitDown, hsplit, Option.bind_some, hdown]

/-- `find_block` never panics, and a block it returns is one of the order asked for, now
live. -/
theorem Inv.findBlock (hi : b.Inv live) (ho : o ≤ b.maxOrder) :
    ∃ r, b.findBlock o = some r ∧
      ∀ p b', r = .ok (p, b') → b'.Inv ((p, o) :: live) ∧ SameArena b b' := by
  unfold BuddyAllocator.findBlock
  split
  · -- a block of the order is free
    rename_i hne
    obtain ⟨p, b', hpop⟩ := popBlock_isSome hne
    refine ⟨.ok (p, b'), by rw [hpop]; rfl, ?_⟩
    rintro q b'' ⟨⟩
    exact hi.popBlock hpop ho
  · split
    · -- the first larger order with a free block is split down
      rename_i higher hfind
      have hmem := List.mem_of_find?_eq_some hfind
      have hne : b.freeLists higher ≠ [] := by simpa using List.find?_some hfind
      rw [List.mem_range'_1] at hmem
      obtain ⟨b₁, hdown, hi₁, harena₁, hne₁⟩ :=
        hi.splitDown (o := o) (k := higher - o) (by omega) (by rwa [Nat.add_sub_cancel' (by omega)])
      obtain ⟨p, b', hpop⟩ := popBlock_isSome hne₁
      refine ⟨.ok (p, b'), by rw [hdown, Option.bind_some, hpop]; rfl, ?_⟩
      rintro q b'' ⟨⟩
      obtain ⟨hi', harena'⟩ := hi₁.popBlock hpop (by rw [harena₁.maxOrder]; exact ho)
      exact ⟨hi', harena₁.trans harena'⟩
    · exact ⟨_, rfl, fun _ _ h => by cases h⟩

/-- The block of a layout's order holds the layout. -/
theorem size_le_blockOrder (layout : Layout) : layout.size ≤ 2 ^ blockOrder layout := by
  dsimp only [blockOrder]
  have h₁ := le_nextPowerOfTwo (max (max layout.size minBlockSize) (max layout.align minBlockSize))
  have h₂ := le_orderToSize_sizeToOrder
    (nextPowerOfTwo (max (max layout.size minBlockSize) (max layout.align minBlockSize)))
  rw [orderToSize] at h₂
  omega

/-- `allocate` never panics. -/
theorem allocate_ne_none (hi : b.Inv live) (layout : Layout) : b.allocate layout ≠ none := by
  unfold allocate
  split
  · simp
  · dsimp only
    split
    · simp
    · obtain ⟨r, hr, -⟩ := hi.findBlock (o := blockOrder layout) (by omega)
      rw [hr]
      simp

/-- A successful `allocate` hands out a block of the layout's order, now live. -/
theorem allocate_spec {layout : Layout} (hi : b.Inv live)
    (hres : b.allocate layout = some (.ok (p, b'))) :
    b'.Inv ((p, blockOrder layout) :: live) ∧ SameArena b b' := by
  unfold allocate at hres
  split at hres
  · cases hres
  · dsimp only at hres
    split at hres
    · cases hres
    · obtain ⟨r, hr, hok⟩ := hi.findBlock (o := blockOrder layout) (by omega)
      rw [hr, Option.some.injEq] at hres
      exact hok p b' hres

/-- A layout's alignment divides the block of its order. -/
theorem align_dvd_blockOrder (layout : Layout) : layout.align ∣ 2 ^ blockOrder layout := by
  obtain ⟨k, hk⟩ := layout.align_pow
  have hord : blockOrder layout =
      Nat.clog 2 (max (max layout.size minBlockSize) (max layout.align minBlockSize)) := by
    simp only [blockOrder, nextPowerOfTwo, sizeToOrder_two_pow]
  -- the block is a power of two at least the alignment, which is a power of two
  have hle : layout.align ≤ 2 ^ blockOrder layout := by
    rw [hord]
    exact Nat.le_trans (by omega) (Nat.le_pow_clog (by decide) _)
  rw [hk] at hle ⊢
  exact Nat.pow_dvd_pow 2 ((Nat.pow_le_pow_iff_right (by decide)).mp hle)

/-- **Blocks are aligned to the heap start, not to addresses**: a block handed out for a
layout lies at the heap start's remainder by the layout's alignment. -/
theorem allocate_mod_align {layout : Layout} (hi : b.Inv live)
    (hres : b.allocate layout = some (.ok (p, b'))) :
    p % layout.align = b.heapStart % layout.align := by
  obtain ⟨hinv, harena⟩ := allocate_spec hi hres
  have hin := hinv.inArena List.mem_cons_self
  rw [harena.heapStart] at hin
  obtain ⟨q, hq⟩ := (align_dvd_blockOrder layout).trans hin.aligned
  have hp : p = b.heapStart + layout.align * q := by
    have := hin.base_le
    dsimp only at this hq
    omega
  rw [hp, Nat.add_mul_mod_self_left]

/-! ## §3 Freeing and Merging -/

/-- Merging the block being freed with its free buddy leaves the merged block being
freed. -/
theorem Inv.merge (hi : b.Inv ((p, o) :: live)) (hfree : b.isBlockFree (b.buddyOf p o) o = true)
    (ho : o < b.maxOrder) :
    (b.removeBlockFromFreeList (b.buddyOf p o) o).Inv
      ((if p < b.buddyOf p o then p else b.buddyOf p o, o + 1) :: live) := by
  have hmem : b.buddyOf p o ∈ b.freeLists o := by simpa [isBlockFree] using hfree
  -- bring the block and its buddy to the front, then merge them
  have hmerge := (hi.blocks.perm (freeBlocks_merge_perm hmem (Nat.le_of_lt ho))).merge (by rfl)
  exact hi.of_sameArena (sameArena_removeBlock _ _ _)
    (hmerge.perm (List.perm_middle.symm))

/-- The merge loop of `free_block` frees the block being freed, merged or not. -/
theorem Inv.freeBlockLoop {fuel ptr : Nat} (hi : b.Inv ((ptr, o) :: live)) :
    (b.freeBlockLoop fuel ptr o).Inv live ∧ SameArena b (b.freeBlockLoop fuel ptr o) := by
  induction fuel generalizing b ptr o with
  | zero => exact hi.addBlock
  | succ fuel ih =>
    unfold BuddyAllocator.freeBlockLoop
    split
    · rename_i ho
      dsimp only
      split
      · -- the buddy is free: merge and go on one order up
        rename_i hfree
        obtain ⟨hi', harena'⟩ := ih (hi.merge hfree ho)
        exact ⟨hi', (sameArena_removeBlock _ _ _).trans harena'⟩
      · exact hi.addBlock
    · exact hi.addBlock

/-- Freeing a live block with the layout it was allocated with succeeds. -/
theorem deallocate_spec {layout : Layout} (hi : b.Inv live)
    (hperm : live.Perm ((p, blockOrder layout) :: live')) :
    ∃ b', b.deallocate p layout = .ok b' ∧ b'.Inv live' ∧ SameArena b b' := by
  have hi' := hi.perm hperm
  have hb := hi'.live_bounds List.mem_cons_self
  have := Nat.one_le_two_pow (n := blockOrder layout)
  refine ⟨b.freeBlock p (blockOrder layout), ?_, hi'.freeBlockLoop⟩
  unfold deallocate
  dsimp only at hb ⊢
  rw [if_neg (by omega)]

/-! ## §4 Initialisation -/

theorem freeBlocks_empty (h : ∀ o, b.freeLists o = []) : b.freeBlocks = [] := by
  simp [freeBlocks, tagged, h]

/-- An allocator whose one free block is the whole arena. -/
theorem inv_initial {a n m : Nat} (hm : 2 ^ m ≤ n) :
    ((⟨a, n, fun _ => [], m⟩ : BuddyAllocator).addBlockToFreeList a m).Inv [] := by
  refine ⟨hm, ?_⟩
  rw [List.append_nil]
  show BlocksOk a m _
  refine BlocksOk.perm (BlocksOk.single (x := (a, m)) ⟨Nat.le_refl a, by simp, by simp⟩) ?_
  refine ((freeBlocks_addBlock (Nat.le_refl m)).trans ?_).symm
  rw [freeBlocks_empty (fun _ => rfl)]

/-- What `new` builds when it succeeds: an allocator over the tail of the memory from the
first address aligned to `MIN_BLOCK_SIZE`, whose one free block is the whole arena.  The
initial block always fits, so the branch of `new` that pushes none is never taken. -/
theorem new_eq {ptr size : Nat} (hres : BuddyAllocator.new ptr size = some (.ok b)) :
    ∃ a n m, 2 ^ m ≤ n ∧ ptr ≤ a ∧ a + n = ptr + size ∧
      b = (⟨a, n, fun _ => [], m⟩ : BuddyAllocator).addBlockToFreeList a m := by
  unfold BuddyAllocator.new at hres
  split at hres
  · cases hres
  · dsimp only at hres
    split at hres
    · cases hres
    · rename_i hsize hadj
      obtain ⟨hle, -, -⟩ := alignUp_spec ptr (show 0 < minBlockSize by decide)
      -- the block of the initial order fits in the heap
      have hhalf := orderToSize_half_le (show 0 < size - (alignUp ptr minBlockSize - ptr) by omega)
      generalize sizeToOrder (nextPowerOfTwo (size - (alignUp ptr minBlockSize - ptr)) / 2) = i
        at hres hhalf
      split at hres
      · split at hres
        · -- below `MAX_ORDER` the initial block is pushed, and is the whole arena
          rename_i hfit hlt
          cases hres
          rw [orderToSize] at hhalf
          refine ⟨_, _, i, hhalf, hle, by omega, ?_⟩
          rw [Nat.min_eq_left (by unfold Heaperion.maxOrder at hlt ⊢; omega)]
        · cases hres
      · rename_i hnofit
        exact absurd hhalf hnofit

/-- `new` gives an allocator with its invariant, over the tail of the memory from the
first address aligned to `MIN_BLOCK_SIZE`. -/
theorem new_spec {ptr size : Nat} (hres : BuddyAllocator.new ptr size = some (.ok b)) :
    b.Inv [] ∧ ptr ≤ b.heapStart ∧ b.heapStart + b.heapSize = ptr + size := by
  obtain ⟨a, n, m, hm, hle, hend, rfl⟩ := new_eq hres
  exact ⟨inv_initial hm, hle, hend⟩

/-- `new` accepts every heap of `MIN_BLOCK_SIZE` bytes up to `2 ^ 28` bytes. -/
theorem new_ok {ptr size : Nat} (h₁ : minBlockSize ≤ size) (h₂ : size ≤ 2 ^ 28) :
    ∃ b, BuddyAllocator.new ptr size = some (.ok b) := by
  obtain ⟨hle, hlt, -⟩ := alignUp_spec ptr (show 0 < minBlockSize by decide)
  have hadj : alignUp ptr minBlockSize - ptr < minBlockSize := by omega
  -- the initial order is below `MAX_ORDER` as the heap is at most `2 ^ 28` bytes
  have horder : sizeToOrder (nextPowerOfTwo (size - (alignUp ptr minBlockSize - ptr)) / 2) <
      Heaperion.maxOrder := by
    rw [sizeToOrder_half]
    have := Nat.clog_le_of_le_pow (b := 2) (show size - (alignUp ptr minBlockSize - ptr) ≤ 2 ^ 28 by omega)
    unfold Heaperion.maxOrder
    omega
  unfold BuddyAllocator.new
  rw [if_neg (by omega)]
  dsimp only
  rw [if_neg (by omega), if_pos horder]
  split
  · exact ⟨_, rfl⟩
  · exact ⟨_, rfl⟩

/-- **`new` panics on a heap of more than `2 ^ 28` bytes past its aligned start**:
`max_order` is clamped to `MAX_ORDER - 1`, but the initial order is not, and pushing the
initial block indexes `free_lists` at it, past its `MAX_ORDER` lists. -/
theorem new_panics_past_max_order {ptr size : Nat}
    (h : 2 ^ 28 < size - (alignUp ptr minBlockSize - ptr)) : BuddyAllocator.new ptr size = none := by
  -- half the power of two above the heap is a block of order at least `28`
  have hclog : 28 < Nat.clog 2 (size - (alignUp ptr minBlockSize - ptr)) := by
    by_contra hle
    have := (Nat.clog_le_iff_le_pow (show 1 < 2 by decide)).mp (Nat.le_of_not_lt hle)
    omega
  have hfit := orderToSize_half_le (show 0 < size - (alignUp ptr minBlockSize - ptr) by omega)
  unfold BuddyAllocator.new
  rw [if_neg (by unfold minBlockSize; omega)]
  dsimp only
  rw [if_neg (by omega), if_pos hfit, if_neg (by rw [sizeToOrder_half]; unfold Heaperion.maxOrder; omega)]

/-- A heap of `2 ^ 29` bytes at address `0`. -/
theorem new_panics_at_512mib :
    2 ^ 28 < 2 ^ 29 - (alignUp 0 minBlockSize - 0) ∧ BuddyAllocator.new 0 (2 ^ 29) = none :=
  ⟨by decide, new_panics_past_max_order (by decide)⟩

end BuddyAllocator

end Beskar.Heaperion
