import Beskar.Mem.Covered
import Beskar.Lib.Checked

/-!
# The Bootloader's Frame Allocator and the Kernel's Memory Map

Model of `EarlyFrameAllocator` (`bootloader/src/mem/phys.rs`). The bootloader allocates
4 KiB frames from the `CONVENTIONAL` descriptors of the UEFI memory map, in map order, by
a bump pointer `next_frame` that starts at 1 MiB and jumps forward to the start of each
descriptor it reaches. At exit, `construct_memory_map` hands the kernel the usable
descriptors with the interval `[min_frame.start, next_frame.start]` carved out of each.

A physical address is a `Nat`: `PhysAddr::new_truncate` keeps its low 52 bits, and a
`u64` operation that overflows, or an `unwrap`, an `assert!` or the `max().unwrap()` of
`new` on an empty map, is a panic (`none`). A frame is its start address. A UEFI memory
map is a list of descriptors: the specification aligns every `PhysicalStart` to 4 KiB,
and each descriptor is taken to hold a page and to end inside the physical address space
(`MemoryDescriptor.Ok`).

## Main results
- `allocateFrames_spec`: no `allocate_frame` call panics; the frames any number of calls
  return increase strictly, lie between the bump pointer before and after, and each lies
  inside a `CONVENTIONAL` descriptor.
- `constructMemoryMap_eq`: on a map of apart descriptors, `construct_memory_map` with
  `mem_map_max_region_count()` entries does not panic, and hands the kernel the `pieces` of
  each usable descriptor: at most one more range than descriptors, since only the descriptor
  that holds `min_frame` can give two.
- `memoryMap_pairwise_disjoint`, `memoryMap_usable`, `memoryMap_disjoint_slice`,
  `memoryMap_cover`: those ranges are disjoint, each lies in a usable descriptor and misses
  `[min_frame, next_frame)`, and together they cover every frame of a usable descriptor
  outside `[min_frame, next_frame]`.
- `early_frames_and_memory_map`: the three together, from `new` on.
-/

namespace Beskar.Boot.Phys

open Beskar.Lib Beskar.Mem

/-! ## Section 1: The Model -/

/-- `uefi::boot::MemoryType`: the types of the UEFI specification, and any other value. -/
inductive MemoryType where
  | reserved | loaderCode | loaderData | bootServicesCode | bootServicesData
  | runtimeServicesCode | runtimeServicesData | conventional | unusable
  | acpiReclaim | acpiNonVolatile | mmio | mmioPortSpace | palCode | persistentMemory
  | other (raw : Nat)
deriving DecidableEq, Repr

/-- The fields of `MemoryDescriptor` that the allocator reads. -/
structure MemoryDescriptor where
  ty : MemoryType
  physStart : Nat
  pageCount : Nat
deriving DecidableEq, Repr

/-- `M4KiB::SIZE`. -/
def frameSize : Nat := 0x1000

/-- `PhysAddr::new_truncate`. -/
def newTruncate (addr : Nat) : Nat := addr % 2 ^ 52

/-- `Frame::containing_address`. -/
def containingFrame (addr : Nat) : Nat := addr - addr % frameSize

/-- `PhysAddr::new_truncate(descriptor.phys_start) + descriptor.page_count * M4KiB::SIZE`:
the end of the descriptor, one past its last byte. -/
def descEnd (d : MemoryDescriptor) : Option Nat := do
  let size ← mulChecked 64 d.pageCount frameSize
  let sum ← addChecked 64 (newTruncate d.physStart) size
  pure (newTruncate sum)

/-- `EarlyFrameAllocator`. -/
structure EarlyFrameAllocator where
  memoryMap : List MemoryDescriptor
  currentEntryIndex : Nat
  nextFrame : Nat
  minFrame : Nat
  maxPhysicalAddress : Nat
deriving DecidableEq, Repr

/-- The largest end of a descriptor, `none` for an empty map or a panic. -/
def maxEnd : List MemoryDescriptor → Option (Option Nat)
  | [] => some none
  | d :: ds => do
    let e ← descEnd d
    let m ← maxEnd ds
    pure (some (match m with | some m => max e m | none => e))

/-- `usable_after_bootloader_exit`. -/
def usableAfterBootloaderExit (d : MemoryDescriptor) : Bool :=
  match d.ty with
  | .conventional | .loaderCode | .bootServicesCode | .bootServicesData => true
  -- the UEFI specification leaves runtime services memory to the firmware
  | .runtimeServicesCode | .runtimeServicesData => false
  | _ => false

namespace EarlyFrameAllocator

/-- `EarlyFrameAllocator::new`; `max().unwrap()` panics on an empty map. -/
def new (memoryMap : List MemoryDescriptor) : Option EarlyFrameAllocator := do
  -- the lower 1 MiB is skipped by convention
  let frame := containingFrame (newTruncate 0x100000)
  let max ← (← maxEnd memoryMap)
  let maxPhysicalAddress := Nat.max max (newTruncate 0x1_0000_0000)
  pure ⟨memoryMap, 0, frame, frame, maxPhysicalAddress⟩

/-- `EarlyFrameAllocator::allocate_from_desc`: move `next_frame` up to the descriptor, and
take it if it is still inside. -/
def allocateFromDesc (self : EarlyFrameAllocator) (d : MemoryDescriptor) :
    Option (Option Nat × EarlyFrameAllocator) := do
  let startPaddr := newTruncate d.physStart
  let endPaddr ← descEnd d
  let startFrame := containingFrame startPaddr
  let last ← subChecked endPaddr 1
  let endFrame := containingFrame (newTruncate last)
  let self := if self.nextFrame < startFrame then { self with nextFrame := startFrame } else self
  if self.nextFrame ≤ endFrame then
    -- `self.next_frame + 1`: `containing_address(start + 1 * SIZE)`
    let next ← addChecked 64 self.nextFrame frameSize
    pure (some self.nextFrame, { self with nextFrame := containingFrame (newTruncate next) })
  else pure (none, self)

/-- The `while let` loop of `allocate_frame` over the descriptors from
`current_entry_index` on. -/
def allocateLoop (self : EarlyFrameAllocator) :
    List MemoryDescriptor → Option (Option Nat × EarlyFrameAllocator)
  | [] => pure (none, self)
  | d :: ds => do
    if d.ty = .conventional then
      let (frame, self) ← self.allocateFromDesc d
      match frame with
      | some frame => pure (some frame, self)
      | none => allocateLoop { self with currentEntryIndex := self.currentEntryIndex + 1 } ds
    else allocateLoop { self with currentEntryIndex := self.currentEntryIndex + 1 } ds

/-- `FrameAllocator::allocate_frame`. -/
def allocateFrame (self : EarlyFrameAllocator) : Option (Option Nat × EarlyFrameAllocator) :=
  self.allocateLoop (self.memoryMap.drop self.currentEntryIndex)

/-- `n` calls of `allocate_frame`, with the frames they return. -/
def allocateFrames (self : EarlyFrameAllocator) : Nat → Option (List Nat × EarlyFrameAllocator)
  | 0 => pure ([], self)
  | n + 1 => do
    let (frame, self) ← self.allocateFrame
    let (frames, self) ← allocateFrames self n
    pure (frame.toList ++ frames, self)

/-- `mem_map_max_region_count`. -/
def memMapMaxRegionCount (self : EarlyFrameAllocator) : Nat := self.memoryMap.length + 2

/-- `add_region`: a range whose start is its end is dropped; `none` is the panic of the
`assert!` on a full array of `maxRegions` entries. -/
def addRegion (maxRegions : Nat) (region : MemoryRange) (regions : List MemoryRange) :
    Option (List MemoryRange) :=
  if region.start = region.endAddr then some regions
  else if regions.length < maxRegions then some (regions ++ [region])
  else none

/-- `split_region`: the parts of the region before and after its overlap with
`allocated_slice`, or the whole region when they do not overlap. -/
def splitRegion (maxRegions : Nat) (region : MemoryRange) (regions : List MemoryRange)
    (allocatedSlice : Nat × Nat) : Option (List MemoryRange) := do
  let overlapStart := max region.start allocatedSlice.1
  let overlapEnd := min region.endAddr allocatedSlice.2
  if overlapStart < overlapEnd then
    let beforeEnd ← subChecked overlapStart 1
    let regions ← if region.start < beforeEnd then
        addRegion maxRegions (MemoryRange.new region.start beforeEnd) regions
      else pure regions
    let afterStart ← addChecked 64 overlapEnd 1
    if afterStart < region.endAddr then
      addRegion maxRegions (MemoryRange.new afterStart region.endAddr) regions
    else pure regions
  else addRegion maxRegions region regions

/-- The loop of `construct_memory_map` over the descriptors. -/
def constructLoop (maxRegions : Nat) (allocatedSlice : Nat × Nat) :
    List MemoryRange → List MemoryDescriptor → Option (List MemoryRange)
  | regions, [] => some regions
  | regions, d :: ds => do
    let start := newTruncate d.physStart
    let endAddr ← descEnd d
    let last ← subChecked endAddr 1
    let region := MemoryRange.new start last
    let regions ← if usableAfterBootloaderExit d then
        splitRegion maxRegions region regions allocatedSlice
      else pure regions
    constructLoop maxRegions allocatedSlice regions ds

/-- `EarlyFrameAllocator::construct_memory_map`: the ranges it writes, `&mut
regions[..next_index]`. -/
def constructMemoryMap (self : EarlyFrameAllocator) (maxRegions : Nat) :
    Option (List MemoryRange) :=
  constructLoop maxRegions (self.minFrame, self.nextFrame) [] self.memoryMap

end EarlyFrameAllocator

/-! ## Section 2: Descriptors of a UEFI Memory Map -/

/-- One past the last byte of a descriptor. -/
def MemoryDescriptor.endAddr (d : MemoryDescriptor) : Nat := d.physStart + d.pageCount * frameSize

/-- A descriptor of a UEFI memory map as this development takes it: 4 KiB aligned, as the UEFI
specification requires of `PhysicalStart`, at least one page, and ending inside the
physical address space, so that no address computation overflows. -/
structure MemoryDescriptor.Ok (d : MemoryDescriptor) : Prop where
  aligned : d.physStart % frameSize = 0
  pos : 1 ≤ d.pageCount
  fits : d.endAddr < 2 ^ 52

/-- Two descriptors share no address. -/
def MemoryDescriptor.Apart (d e : MemoryDescriptor) : Prop :=
  d.endAddr ≤ e.physStart ∨ e.endAddr ≤ d.physStart

theorem newTruncate_of_lt {a : Nat} (h : a < 2 ^ 52) : newTruncate a = a := Nat.mod_eq_of_lt h

theorem containingFrame_of_aligned {a : Nat} (h : a % frameSize = 0) : containingFrame a = a := by
  rw [containingFrame, h, Nat.sub_zero]

section Ok

variable {d : MemoryDescriptor} (h : d.Ok)
include h

theorem MemoryDescriptor.Ok.endAddr_aligned : d.endAddr % frameSize = 0 := by
  rw [MemoryDescriptor.endAddr, Nat.add_mul_mod_self_right, h.aligned]

theorem MemoryDescriptor.Ok.start_lt_endAddr : d.physStart + frameSize ≤ d.endAddr := by
  have := h.pos
  unfold MemoryDescriptor.endAddr
  rw [show frameSize = 1 * frameSize from (Nat.one_mul _).symm, ← Nat.mul_assoc, Nat.mul_one]
  exact Nat.add_le_add_left (Nat.mul_le_mul_right _ this) _

/-- No computation of the end of a descriptor overflows. -/
theorem MemoryDescriptor.Ok.descEnd_eq : descEnd d = some d.endAddr := by
  have hfits := h.fits
  have hsize : d.pageCount * frameSize < 2 ^ 64 := by
    unfold MemoryDescriptor.endAddr at hfits
    omega
  have hsum : d.physStart + d.pageCount * frameSize < 2 ^ 64 := by
    unfold MemoryDescriptor.endAddr at hfits
    omega
  have hstart : d.physStart < 2 ^ 52 := by
    unfold MemoryDescriptor.endAddr at hfits
    omega
  simp only [descEnd, mulChecked, if_pos hsize, newTruncate_of_lt hstart, addChecked, if_pos hsum,
    Option.bind_eq_bind, Option.bind_some, Option.pure_def]
  exact congrArg some (newTruncate_of_lt hfits)

end Ok

/-! ## Section 3: The Frames the Allocator Hands Out -/

namespace EarlyFrameAllocator

/-- The allocator between calls: the bump pointer is a frame of the physical address space at
or above `min_frame`, which is 1 MiB, and every descriptor of the map is `Ok`. -/
structure Inv (a : EarlyFrameAllocator) : Prop where
  ok : ∀ d ∈ a.memoryMap, d.Ok
  min_eq : a.minFrame = 0x100000
  min_le : a.minFrame ≤ a.nextFrame
  aligned : a.nextFrame % frameSize = 0
  lt : a.nextFrame < 2 ^ 52

/-- What one descriptor gives: nothing, when the bump pointer is past it, or the first
free frame in it, with the bump pointer moved one frame past that. -/
theorem allocateFromDesc_spec {self : EarlyFrameAllocator} {d : MemoryDescriptor} (hd : d.Ok)
    (haligned : self.nextFrame % frameSize = 0) :
    (d.endAddr ≤ self.nextFrame ∧ self.allocateFromDesc d = some (none, self)) ∨
      ∃ f, self.nextFrame ≤ f ∧ d.physStart ≤ f ∧ f + frameSize ≤ d.endAddr ∧
        f % frameSize = 0 ∧
        self.allocateFromDesc d = some (some f, { self with nextFrame := f + frameSize }) := by
  have hend := hd.endAddr_aligned
  have hfirst := hd.start_lt_endAddr
  have hfits := hd.fits
  have hfs : frameSize = 0x1000 := rfl
  have hlast : containingFrame (newTruncate (d.endAddr - 1)) = d.endAddr - frameSize := by
    rw [newTruncate_of_lt (by omega), containingFrame]
    rw [hfs] at hend ⊢
    omega
  have hsub : subChecked d.endAddr 1 = some (d.endAddr - 1) := subChecked_eq_some.mpr ⟨by omega, rfl⟩
  have hstart : containingFrame (newTruncate d.physStart) = d.physStart := by
    rw [newTruncate_of_lt (by omega), containingFrame_of_aligned hd.aligned]
  -- the frame taken is the bump pointer, moved up to the descriptor if it is below it
  by_cases hbelow : self.nextFrame < d.physStart
  · right
    have hnext : addChecked 64 d.physStart frameSize = some (d.physStart + frameSize) :=
      addChecked_eq_some.mpr ⟨by omega, rfl⟩
    have hnext_aligned : (d.physStart + frameSize) % frameSize = 0 := by
      rw [Nat.add_mod_right]
      exact hd.aligned
    refine ⟨d.physStart, Nat.le_of_lt hbelow, Nat.le_refl _, hfirst, hd.aligned, ?_⟩
    simp only [allocateFromDesc, hd.descEnd_eq, hstart, hsub, hlast, if_pos hbelow,
      Option.bind_eq_bind, Option.bind_some, Option.pure_def]
    rw [if_pos (by omega), hnext, Option.bind_some, newTruncate_of_lt (by omega),
      containingFrame_of_aligned hnext_aligned]
  · by_cases hin : self.nextFrame + frameSize ≤ d.endAddr
    · right
      have hnext : addChecked 64 self.nextFrame frameSize = some (self.nextFrame + frameSize) :=
        addChecked_eq_some.mpr ⟨by omega, rfl⟩
      have hnext_aligned : (self.nextFrame + frameSize) % frameSize = 0 := by
        rw [Nat.add_mod_right]
        exact haligned
      refine ⟨self.nextFrame, Nat.le_refl _, Nat.le_of_not_lt hbelow, hin, haligned, ?_⟩
      simp only [allocateFromDesc, hd.descEnd_eq, hstart, hsub, hlast, if_neg hbelow,
        Option.bind_eq_bind, Option.bind_some, Option.pure_def]
      rw [if_pos (by omega), hnext, Option.bind_some, newTruncate_of_lt (by omega),
        containingFrame_of_aligned hnext_aligned]
    · -- the bump pointer is a frame past the last frame of the descriptor
      left
      refine ⟨by rw [hfs] at haligned hend; omega, ?_⟩
      simp only [allocateFromDesc, hd.descEnd_eq, hstart, hsub, hlast, if_neg hbelow,
        Option.bind_eq_bind, Option.bind_some, Option.pure_def]
      rw [if_neg (by omega)]

/-- What one call of `allocate_frame` may do, from `self`, over the descriptors `ds` it
reads: return nothing and leave the bump pointer, or return a frame at or above the bump
pointer inside a `CONVENTIONAL` descriptor of `ds`, with the bump pointer one frame past it.
The map and `min_frame` stay. -/
def Outcome (ds : List MemoryDescriptor) (self : EarlyFrameAllocator)
    (r : Option Nat × EarlyFrameAllocator) : Prop :=
  r.2.memoryMap = self.memoryMap ∧ r.2.minFrame = self.minFrame ∧
    ((r.1 = none ∧ r.2.nextFrame = self.nextFrame) ∨
      ∃ f, r.1 = some f ∧ self.nextFrame ≤ f ∧ f % frameSize = 0 ∧
        r.2.nextFrame = f + frameSize ∧
        ∃ d ∈ ds, d.ty = .conventional ∧ d.physStart ≤ f ∧ f + frameSize ≤ d.endAddr)

/-- Moving on to the next descriptor keeps what a later call may do. -/
theorem Outcome.cons {self : EarlyFrameAllocator} {d : MemoryDescriptor} {ds : List MemoryDescriptor}
    {r : Option Nat × EarlyFrameAllocator} {i : Nat}
    (h : Outcome ds { self with currentEntryIndex := i } r) : Outcome (d :: ds) self r := by
  obtain ⟨hmap, hmin, hnone | ⟨f, hf, hle, hal, hnext, e, he, hty, hs, hend⟩⟩ := h
  · exact ⟨hmap, hmin, .inl hnone⟩
  · exact ⟨hmap, hmin, .inr ⟨f, hf, hle, hal, hnext, e, List.mem_cons_of_mem _ he, hty, hs, hend⟩⟩

theorem allocateLoop_of_not_conventional {self : EarlyFrameAllocator} {d : MemoryDescriptor}
    (ds : List MemoryDescriptor) (hty : d.ty ≠ .conventional) :
    self.allocateLoop (d :: ds) =
      { self with currentEntryIndex := self.currentEntryIndex + 1 }.allocateLoop ds := by
  rw [allocateLoop, if_neg hty]

theorem allocateLoop_of_none {self self' : EarlyFrameAllocator} {d : MemoryDescriptor}
    (ds : List MemoryDescriptor) (hty : d.ty = .conventional)
    (h : self.allocateFromDesc d = some (none, self')) :
    self.allocateLoop (d :: ds) =
      { self' with currentEntryIndex := self'.currentEntryIndex + 1 }.allocateLoop ds := by
  rw [allocateLoop, if_pos hty, h]
  rfl

theorem allocateLoop_of_some {self self' : EarlyFrameAllocator} {d : MemoryDescriptor} {f : Nat}
    (ds : List MemoryDescriptor) (hty : d.ty = .conventional)
    (h : self.allocateFromDesc d = some (some f, self')) :
    self.allocateLoop (d :: ds) = some (some f, self') := by
  rw [allocateLoop, if_pos hty, h]
  rfl

/-- **One call of the loop**: it does not panic, and does what `Outcome` says. -/
theorem allocateLoop_spec {ds : List MemoryDescriptor} (hds : ∀ d ∈ ds, d.Ok)
    {self : EarlyFrameAllocator} (haligned : self.nextFrame % frameSize = 0) :
    ∃ r, self.allocateLoop ds = some r ∧ Outcome ds self r := by
  induction ds generalizing self with
  | nil => exact ⟨_, rfl, rfl, rfl, .inl ⟨rfl, rfl⟩⟩
  | cons d ds ih =>
    have hrest : ∀ e ∈ ds, e.Ok := fun e he => hds e (List.mem_cons_of_mem _ he)
    by_cases hty : d.ty = .conventional
    · rcases allocateFromDesc_spec (hds d List.mem_cons_self) haligned with
        ⟨-, hnone⟩ | ⟨f, hle, hs, hend, hal, hsome⟩
      · -- the bump pointer is past this descriptor: on to the next one
        rw [allocateLoop_of_none ds hty hnone]
        obtain ⟨r, hr, hout⟩ :=
          @ih hrest { self with currentEntryIndex := self.currentEntryIndex + 1 } haligned
        exact ⟨r, hr, hout.cons⟩
      · rw [allocateLoop_of_some ds hty hsome]
        exact ⟨_, rfl, rfl, rfl, .inr ⟨f, rfl, hle, hal, rfl, d, List.mem_cons_self, hty, hs, hend⟩⟩
    · rw [allocateLoop_of_not_conventional ds hty]
      obtain ⟨r, hr, hout⟩ :=
        @ih hrest { self with currentEntryIndex := self.currentEntryIndex + 1 } haligned
      exact ⟨r, hr, hout.cons⟩

/-- **`allocate_frame` does not panic**, and its frame comes from the map. -/
theorem allocateFrame_spec {self : EarlyFrameAllocator} (hinv : Inv self) :
    ∃ r, self.allocateFrame = some r ∧ Outcome self.memoryMap self r := by
  obtain ⟨r, hr, hmap, hmin, hout⟩ :=
    @allocateLoop_spec (self.memoryMap.drop self.currentEntryIndex)
      (fun d hd => hinv.ok d (List.mem_of_mem_drop hd)) self hinv.aligned
  refine ⟨r, hr, hmap, hmin, ?_⟩
  rcases hout with hnone | ⟨f, hf, hle, hal, hnext, d, hd, hty, hs, hend⟩
  · exact .inl hnone
  · exact .inr ⟨f, hf, hle, hal, hnext, d, List.mem_of_mem_drop hd, hty, hs, hend⟩

/-- A call keeps the invariant. -/
theorem Inv.of_outcome {self : EarlyFrameAllocator} (hinv : Inv self)
    {r : Option Nat × EarlyFrameAllocator} (h : Outcome self.memoryMap self r) : Inv r.2 := by
  obtain ⟨hmap, hmin, ⟨-, hnext⟩ | ⟨f, -, hle, hal, hnext, d, hd, -, -, hend⟩⟩ := h
  · exact ⟨hmap ▸ hinv.ok, hmin ▸ hinv.min_eq, hmin ▸ hnext ▸ hinv.min_le,
      hnext ▸ hinv.aligned, hnext ▸ hinv.lt⟩
  · have hfits := (hinv.ok d hd).fits
    refine ⟨hmap ▸ hinv.ok, hmin ▸ hinv.min_eq, ?_, ?_, ?_⟩
    · rw [hnext, hmin]
      exact Nat.le_trans hinv.min_le (Nat.le_trans hle (Nat.le_add_right _ _))
    · rw [hnext, Nat.add_mod_right]
      exact hal
    · rw [hnext]
      exact Nat.lt_of_le_of_lt hend hfits

/-- What `n` calls of `allocate_frame` do from `self` to `a`, returning `fs`. -/
structure HandsOut (s a : EarlyFrameAllocator) (fs : List Nat) : Prop where
  inv : Inv a
  memoryMap : a.memoryMap = s.memoryMap
  minFrame : a.minFrame = s.minFrame
  next_le : s.nextFrame ≤ a.nextFrame
  sorted : fs.Pairwise (· < ·)
  bounds : ∀ f ∈ fs, s.nextFrame ≤ f ∧ f + frameSize ≤ a.nextFrame
  conventional : ∀ f ∈ fs, ∃ d ∈ s.memoryMap, d.ty = .conventional ∧ d.physStart ≤ f ∧
    f + frameSize ≤ d.endAddr

/-- **Any number of `allocate_frame` calls**: none panics; the frames they return increase
strictly, and lie between the bump pointer before and after, each in a `CONVENTIONAL`
descriptor. -/
theorem allocateFrames_spec {self : EarlyFrameAllocator} (hinv : Inv self) (n : Nat) :
    ∃ fs a, self.allocateFrames n = some (fs, a) ∧ HandsOut self a fs := by
  induction n generalizing self with
  | zero =>
    exact ⟨[], self, rfl, hinv, rfl, rfl, Nat.le_refl _, List.Pairwise.nil,
      fun _ h => absurd h List.not_mem_nil, fun _ h => absurd h List.not_mem_nil⟩
  | succ n ih =>
    obtain ⟨⟨frame, s⟩, hr, hout⟩ := allocateFrame_spec hinv
    obtain ⟨fs, a, hrest, ho⟩ := @ih s (hinv.of_outcome hout)
    refine ⟨frame.toList ++ fs, a, by
      simp only [allocateFrames, hr, Option.bind_eq_bind, Option.bind_some, hrest, Option.pure_def],
      ?_⟩
    obtain ⟨hmap, hmin, ⟨rfl, hnext⟩ | ⟨f, rfl, hle, -, hnext, d, hd, hty, hs, hend⟩⟩ := hout
    · -- no frame: the later calls start from the same bump pointer
      dsimp only at hmap hmin hnext
      exact ⟨ho.inv, ho.memoryMap.trans hmap, ho.minFrame.trans hmin, hnext ▸ ho.next_le,
        ho.sorted, fun f hf => hnext ▸ ho.bounds f hf, fun f hf => hmap ▸ ho.conventional f hf⟩
    · -- the frame `f` is below every later one, which start past it
      dsimp only at hmap hmin hnext
      refine ⟨ho.inv, ho.memoryMap.trans hmap, ho.minFrame.trans hmin, ?_, ?_, ?_, ?_⟩
      · have := ho.next_le
        omega
      · refine List.Pairwise.cons (fun g hg => ?_) ho.sorted
        have := (ho.bounds g hg).1
        unfold frameSize at hnext
        omega
      · rintro g (_ | ⟨_, hg⟩)
        · have := ho.next_le
          omega
        · have := ho.bounds g hg
          omega
      · rintro g (_ | ⟨_, hg⟩)
        · exact ⟨d, hd, hty, hs, hend⟩
        · exact hmap ▸ ho.conventional g hg

/-- The largest end of a non-empty map of `Ok` descriptors is computed without a panic. -/
theorem maxEnd_isSome {ds : List MemoryDescriptor} (hds : ∀ d ∈ ds, d.Ok) (hne : ds ≠ []) :
    ∃ m, maxEnd ds = some (some m) := by
  induction ds with
  | nil => exact absurd rfl hne
  | cons d ds ih =>
    have hrest : ∀ e ∈ ds, e.Ok := fun e he => hds e (List.mem_cons_of_mem _ he)
    rcases ds with _ | ⟨e, ds⟩
    · exact ⟨d.endAddr, by simp [maxEnd, (hds d List.mem_cons_self).descEnd_eq]⟩
    · obtain ⟨m, hm⟩ := ih hrest (List.cons_ne_nil _ _)
      exact ⟨max d.endAddr m, by simp [maxEnd.eq_2 d, (hds d List.mem_cons_self).descEnd_eq, hm]⟩

/-- `new` panics on an empty map. -/
theorem new_nil : new [] = none := rfl

/-- **`new` on a non-empty map of `Ok` descriptors** starts the bump pointer and
`min_frame` at 1 MiB. -/
theorem new_spec {map : List MemoryDescriptor} (hok : ∀ d ∈ map, d.Ok) (hne : map ≠ []) :
    ∃ a, new map = some a ∧ Inv a ∧ a.memoryMap = map ∧ a.nextFrame = 0x100000 := by
  obtain ⟨m, hm⟩ := maxEnd_isSome hok hne
  refine ⟨_, by simp only [new, hm]; rfl, ⟨hok, rfl, Nat.le_refl _, ?_, ?_⟩, rfl, rfl⟩
  · show containingFrame (newTruncate 0x100000) % frameSize = 0
    decide
  · show containingFrame (newTruncate 0x100000) < 2 ^ 52
    decide

end EarlyFrameAllocator

/-! ## Section 4: Carving the Allocated Frames out of a Region

`split_region` appends at most two ranges, through `add_region`. When nothing panics, what
it appends is `pieces`, and every fact about the ranges of the map is a fact about
`pieces`. -/

namespace EarlyFrameAllocator

/-- What `add_region` appends when there is room. -/
def keep (region : MemoryRange) : List MemoryRange :=
  if region.start = region.endAddr then [] else [region]

/-- What `split_region` appends when nothing panics. -/
def pieces (region : MemoryRange) (allocatedSlice : Nat × Nat) : List MemoryRange :=
  let overlapStart := max region.start allocatedSlice.1
  let overlapEnd := min region.endAddr allocatedSlice.2
  if overlapStart < overlapEnd then
    (if region.start < overlapStart - 1 then keep (MemoryRange.new region.start (overlapStart - 1))
      else []) ++
    (if overlapEnd + 1 < region.endAddr then keep (MemoryRange.new (overlapEnd + 1) region.endAddr)
      else [])
  else keep region

theorem addRegion_eq {maxRegions : Nat} {region : MemoryRange} {regions : List MemoryRange}
    (h : regions.length + (keep region).length ≤ maxRegions) :
    addRegion maxRegions region regions = some (regions ++ keep region) := by
  by_cases hempty : region.start = region.endAddr
  · rw [addRegion, if_pos hempty, keep, if_pos hempty, List.append_nil]
  · have hroom : regions.length < maxRegions := by
      rw [keep, if_neg hempty, List.length_singleton] at h
      omega
    rw [addRegion, if_neg hempty, if_pos hroom, keep, if_neg hempty]

/-- An `if` around `add_region`, as `split_region` has it twice. -/
theorem addRegion_ite_eq {maxRegions : Nat} {c : Prop} [Decidable c] {region : MemoryRange}
    {regions : List MemoryRange}
    (h : regions.length + (if c then keep region else []).length ≤ maxRegions) :
    (if c then addRegion maxRegions region regions else pure regions) =
      some (regions ++ if c then keep region else []) := by
  by_cases hc : c
  · simp only [if_pos hc] at h ⊢
    exact addRegion_eq h
  · simp only [if_neg hc, List.append_nil]
    rfl

/-- **`split_region` does not panic** when `allocated_slice` starts above zero, the region
ends below `u64::MAX` and the array has room for what it appends. -/
theorem splitRegion_eq {maxRegions : Nat} {region : MemoryRange} {regions : List MemoryRange}
    {allocatedSlice : Nat × Nat} (hpos : 0 < allocatedSlice.1)
    (hend : region.endAddr + 1 < 2 ^ 64)
    (hroom : regions.length + (pieces region allocatedSlice).length ≤ maxRegions) :
    splitRegion maxRegions region regions allocatedSlice =
      some (regions ++ pieces region allocatedSlice) := by
  by_cases hov : max region.start allocatedSlice.1 < min region.endAddr allocatedSlice.2
  · have hsub : subChecked (max region.start allocatedSlice.1) 1 =
        some (max region.start allocatedSlice.1 - 1) := if_pos (by omega)
    have hadd : addChecked 64 (min region.endAddr allocatedSlice.2) 1 =
        some (min region.endAddr allocatedSlice.2 + 1) := if_pos (by omega)
    simp only [pieces, if_pos hov, List.length_append] at hroom
    -- the join point after the range before the overlap: the range after it
    have hafter : ∀ regs : List MemoryRange,
        regs.length + (if min region.endAddr allocatedSlice.2 + 1 < region.endAddr then
          keep (MemoryRange.new (min region.endAddr allocatedSlice.2 + 1) region.endAddr)
          else []).length ≤ maxRegions →
        (if min region.endAddr allocatedSlice.2 + 1 < region.endAddr then
          addRegion maxRegions (MemoryRange.new (min region.endAddr allocatedSlice.2 + 1)
            region.endAddr) regs
          else pure regs) =
        some (regs ++ if min region.endAddr allocatedSlice.2 + 1 < region.endAddr then
          keep (MemoryRange.new (min region.endAddr allocatedSlice.2 + 1) region.endAddr)
          else []) :=
      fun regs h => addRegion_ite_eq h
    simp only [splitRegion, pieces, if_pos hov, hsub, hadd, Option.bind_eq_bind, Option.bind_some]
    by_cases hb : region.start < max region.start allocatedSlice.1 - 1
    · simp only [if_pos hb] at hroom ⊢
      rw [addRegion_eq (by omega), Option.bind_some, hafter _ (by rw [List.length_append]; omega),
        List.append_assoc]
    · simp only [if_neg hb, List.length_nil, Nat.zero_add, List.nil_append, Option.pure_def,
        Option.bind_some] at hroom ⊢
      exact hafter regions hroom
  · rw [pieces, if_neg hov] at hroom
    simp only [splitRegion, pieces, if_neg hov]
    exact addRegion_eq hroom

/-! ### What the pieces are -/

theorem mem_keep {p region : MemoryRange} (h : p ∈ keep region) :
    p = region ∧ region.start ≠ region.endAddr := by
  by_cases hempty : region.start = region.endAddr
  · rw [keep, if_pos hempty] at h
    exact absurd h List.not_mem_nil
  · rw [keep, if_neg hempty, List.mem_singleton] at h
    exact ⟨h, hempty⟩

theorem mem_ite_keep {c : Prop} [Decidable c] {p region : MemoryRange}
    (h : p ∈ if c then keep region else []) : c ∧ p = region ∧ region.start ≠ region.endAddr := by
  by_cases hc : c
  · rw [if_pos hc] at h
    exact ⟨hc, mem_keep h⟩
  · rw [if_neg hc] at h
    exact absurd h List.not_mem_nil

theorem pairwise_keep (R : MemoryRange → MemoryRange → Prop) (region : MemoryRange) :
    (keep region).Pairwise R := by
  unfold keep
  split
  · exact List.Pairwise.nil
  · exact List.pairwise_singleton R region

theorem pairwise_ite_keep (R : MemoryRange → MemoryRange → Prop) (c : Prop) [Decidable c]
    (region : MemoryRange) : (if c then keep region else []).Pairwise R := by
  split
  · exact pairwise_keep R region
  · exact List.Pairwise.nil

theorem length_keep_le (region : MemoryRange) : (keep region).length ≤ 1 := by
  unfold keep
  split <;> simp

theorem length_ite_keep_le {c : Prop} [Decidable c] (region : MemoryRange) :
    (if c then keep region else []).length ≤ 1 := by
  split
  · exact length_keep_le region
  · exact Nat.zero_le 1

section Pieces

variable {region p : MemoryRange} {a₀ a₁ : Nat}

/-- **Inversion of `pieces`**: the range before the overlap, which ends just below
`min_frame`, the range after it, which starts just above `next_frame`, or the whole region,
when the two do not overlap. -/
theorem mem_pieces (h : p ∈ pieces region (a₀, a₁)) :
    (region.start < a₀ - 1 ∧ a₀ < a₁ ∧ a₀ < region.endAddr ∧ p = ⟨region.start, a₀ - 1⟩) ∨
    (a₁ + 1 < region.endAddr ∧ region.start < a₁ ∧ a₀ < a₁ ∧ p = ⟨a₁ + 1, region.endAddr⟩) ∨
    (min region.endAddr a₁ ≤ max region.start a₀ ∧ region.start ≠ region.endAddr ∧ p = region) := by
  simp only [pieces] at h
  by_cases hov : max region.start a₀ < min region.endAddr a₁
  · rw [if_pos hov, List.mem_append] at h
    rcases h with hp | hp
    · -- the range before the overlap: the overlap starts at `min_frame`
      obtain ⟨hb, rfl, -⟩ := mem_ite_keep hp
      have hmax : max region.start a₀ = a₀ := by omega
      left
      rw [hmax]
      exact ⟨by omega, by omega, by omega, rfl⟩
    · -- the range after the overlap: the overlap ends at `next_frame`
      obtain ⟨ha, rfl, -⟩ := mem_ite_keep hp
      have hmin : min region.endAddr a₁ = a₁ := by omega
      right; left
      rw [hmin]
      exact ⟨by omega, by omega, by omega, rfl⟩
  · rw [if_neg hov] at h
    obtain ⟨rfl, hne⟩ := mem_keep h
    exact .inr (.inr ⟨Nat.le_of_not_lt hov, hne, rfl⟩)

/-- Every piece lies in the region. -/
theorem addrs_subset_of_mem_pieces (h : p ∈ pieces region (a₀, a₁)) :
    p.addrs ⊆ region.addrs := by
  intro x hx
  rw [mem_addrs] at hx ⊢
  rcases mem_pieces h with ⟨-, -, hlt, rfl⟩ | ⟨-, hlt, -, rfl⟩ | ⟨-, -, rfl⟩
  · exact ⟨hx.1, by dsimp only at hx; omega⟩
  · exact ⟨by dsimp only at hx; omega, hx.2⟩
  · exact hx

/-- **No piece holds a byte of `[min_frame, next_frame)`**, for a region whose end is the last
byte of a frame and a `min_frame` that is a frame. -/
theorem disjoint_of_mem_pieces (h : p ∈ pieces region (a₀, a₁))
    (hend : (region.endAddr + 1) % frameSize = 0) (ha₀ : a₀ % frameSize = 0) :
    Disjoint p.addrs (Set.Ico a₀ a₁) := by
  have hfs : frameSize = 0x1000 := rfl
  rw [Set.disjoint_left]
  intro x hx hxa
  rw [mem_addrs] at hx
  rw [Set.mem_Ico] at hxa
  rcases mem_pieces h with ⟨hlt, -, -, rfl⟩ | ⟨-, -, -, rfl⟩ | ⟨hno, hne, rfl⟩
  · dsimp only at hx
    omega
  · dsimp only at hx
    omega
  · -- a whole region meets the slice only at a byte that is its end and `min_frame`,
    -- which the alignment excludes
    rw [hfs] at hend ha₀
    omega

/-- The pieces come in address order, with a gap between them. -/
theorem pieces_sorted (region : MemoryRange) (a₀ a₁ : Nat) :
    (pieces region (a₀, a₁)).Pairwise (fun p q => p.endAddr < q.start) := by
  simp only [pieces]
  by_cases hov : max region.start a₀ < min region.endAddr a₁
  · rw [if_pos hov, List.pairwise_append]
    refine ⟨pairwise_ite_keep _ _ _, pairwise_ite_keep _ _ _, ?_⟩
    intro q hq r hr
    obtain ⟨-, rfl, -⟩ := mem_ite_keep hq
    obtain ⟨-, rfl, -⟩ := mem_ite_keep hr
    show max region.start a₀ - 1 < min region.endAddr a₁ + 1
    omega
  · rw [if_neg hov]
    exact pairwise_keep _ region

/-- The pieces share no address. -/
theorem pieces_pairwise_disjoint (region : MemoryRange) (a₀ a₁ : Nat) :
    (pieces region (a₀, a₁)).Pairwise (fun p q => Disjoint p.addrs q.addrs) := by
  refine (pieces_sorted region a₀ a₁).imp fun {p q} hpq => Set.disjoint_left.mpr ?_
  intro x hxp hxq
  rw [mem_addrs] at hxp hxq
  omega

/-- **The pieces cover every frame of the region outside the slice**, when the region holds
more than one byte. -/
theorem pieces_cover (hne : region.start < region.endAddr) {g : Nat} (hlo : region.start ≤ g)
    (hhi : g + frameSize ≤ region.endAddr + 1) (hout : g + frameSize ≤ a₀ ∨ a₁ < g) :
    Set.Ico g (g + frameSize) ⊆ covered (pieces region (a₀, a₁)) := by
  have hfs : frameSize = 0x1000 := rfl
  rw [hfs] at hhi hout ⊢
  -- the piece that holds the frame, given by its bounds
  suffices h : ∃ q ∈ pieces region (a₀, a₁), q.start ≤ g ∧ g + 0x1000 ≤ q.endAddr + 1 by
    obtain ⟨q, hq, hs, he⟩ := h
    intro x hx
    rw [Set.mem_Ico] at hx
    exact ⟨q, hq, mem_addrs.mpr ⟨by omega, by omega⟩⟩
  simp only [pieces]
  by_cases hov : max region.start a₀ < min region.endAddr a₁
  · rw [if_pos hov]
    rcases hout with hbelow | habove
    · -- below `min_frame`: the range before the overlap
      have hmax : max region.start a₀ = a₀ := by omega
      refine ⟨MemoryRange.new region.start (a₀ - 1), List.mem_append_left _ ?_, hlo, ?_⟩
      · rw [hmax, if_pos (by omega), keep, if_neg (by dsimp only [MemoryRange.new]; omega)]
        exact List.mem_singleton_self _
      · dsimp only [MemoryRange.new]
        omega
    · -- above `next_frame`: the range after the overlap
      have hmin : min region.endAddr a₁ = a₁ := by omega
      refine ⟨MemoryRange.new (a₁ + 1) region.endAddr, List.mem_append_right _ ?_, ?_, hhi⟩
      · rw [hmin, if_pos (by omega), keep, if_neg (by dsimp only [MemoryRange.new]; omega)]
        exact List.mem_singleton_self _
      · dsimp only [MemoryRange.new]
        omega
  · rw [if_neg hov, keep, if_neg (Nat.ne_of_lt hne)]
    exact ⟨region, List.mem_singleton_self _, hlo, hhi⟩

/-- A second piece comes only from a region that holds a byte below `min_frame` and
`min_frame` itself. -/
theorem length_pieces_le (region : MemoryRange) (a₀ a₁ : Nat) :
    (pieces region (a₀, a₁)).length ≤
      if region.start < a₀ ∧ a₀ ≤ region.endAddr then 2 else 1 := by
  simp only [pieces]
  by_cases hov : max region.start a₀ < min region.endAddr a₁
  · rw [if_pos hov, List.length_append]
    have hb := length_ite_keep_le (c := region.start < max region.start a₀ - 1)
      (MemoryRange.new region.start (max region.start a₀ - 1))
    have ha := length_ite_keep_le (c := min region.endAddr a₁ + 1 < region.endAddr)
      (MemoryRange.new (min region.endAddr a₁ + 1) region.endAddr)
    by_cases hs : region.start < a₀ ∧ a₀ ≤ region.endAddr
    · rw [if_pos hs]
      omega
    · -- without a byte below `min_frame` there is no range before the overlap
      have hnone : ¬ region.start < max region.start a₀ - 1 := by omega
      rw [if_neg hs, if_neg hnone, List.length_nil, Nat.zero_add]
      exact ha
  · rw [if_neg hov]
    exact Nat.le_trans (length_keep_le region) (by split <;> omega)

end Pieces

end EarlyFrameAllocator

/-! ## Section 5: The Memory Map Handed to the Kernel -/

/-- The region `construct_memory_map` makes of a descriptor: `[start, end - 1]`. -/
def MemoryDescriptor.region (d : MemoryDescriptor) : MemoryRange :=
  MemoryRange.new d.physStart (d.endAddr - 1)

section Ok

variable {d : MemoryDescriptor} (h : d.Ok)
include h

theorem MemoryDescriptor.Ok.region_addrs : d.region.addrs = Set.Ico d.physStart d.endAddr := by
  have hfs : frameSize = 0x1000 := rfl
  have := h.start_lt_endAddr
  rw [hfs] at this
  ext x
  rw [mem_addrs, Set.mem_Ico]
  unfold MemoryDescriptor.region MemoryRange.new
  dsimp only
  omega

theorem MemoryDescriptor.Ok.region_start_lt : d.region.start < d.region.endAddr := by
  have hfs : frameSize = 0x1000 := rfl
  have := h.start_lt_endAddr
  rw [hfs] at this
  unfold MemoryDescriptor.region MemoryRange.new
  dsimp only
  omega

theorem MemoryDescriptor.Ok.region_end_aligned : (d.region.endAddr + 1) % frameSize = 0 := by
  have hfs : frameSize = 0x1000 := rfl
  have := h.start_lt_endAddr
  have hend : d.endAddr - 1 + 1 = d.endAddr := by rw [hfs] at this; omega
  unfold MemoryDescriptor.region MemoryRange.new
  dsimp only
  rw [hend]
  exact h.endAddr_aligned

end Ok

/-- Apart descriptors share no address. -/
theorem MemoryDescriptor.Apart.disjoint {d e : MemoryDescriptor} (h : d.Apart e) :
    Disjoint (Set.Ico d.physStart d.endAddr) (Set.Ico e.physStart e.endAddr) := by
  rw [Set.disjoint_left]
  intro x hxd hxe
  rw [Set.mem_Ico] at hxd hxe
  rcases h with h | h <;> omega

/-- A frame that misses `[min_frame, next_frame]` lies below or above it. -/
theorem frame_below_or_above {g a₀ a₁ : Nat} (hle : a₀ ≤ a₁)
    (h : Disjoint (Set.Ico g (g + frameSize)) (Set.Icc a₀ a₁)) : g + frameSize ≤ a₀ ∨ a₁ < g := by
  have hfs : frameSize = 0x1000 := rfl
  rw [hfs] at h ⊢
  by_contra hin
  -- the larger of the frame's start and `min_frame` lies in both
  exact Set.disjoint_left.mp h (show max g a₀ ∈ Set.Ico g (g + 0x1000) by
    rw [Set.mem_Ico]; omega) (show max g a₀ ∈ Set.Icc a₀ a₁ by rw [Set.mem_Icc]; omega)

namespace EarlyFrameAllocator

/-- What the loop of `construct_memory_map` appends for one descriptor. -/
def carve (allocatedSlice : Nat × Nat) (d : MemoryDescriptor) : List MemoryRange :=
  if usableAfterBootloaderExit d then pieces d.region allocatedSlice else []

theorem constructLoop_cons_eq {maxRegions : Nat} {allocatedSlice : Nat × Nat}
    {regions : List MemoryRange} {d : MemoryDescriptor} (ds : List MemoryDescriptor) (hd : d.Ok) :
    constructLoop maxRegions allocatedSlice regions (d :: ds) =
      (if usableAfterBootloaderExit d then splitRegion maxRegions d.region regions allocatedSlice
        else pure regions).bind (constructLoop maxRegions allocatedSlice · ds) := by
  have hfs : frameSize = 0x1000 := rfl
  have hstart : newTruncate d.physStart = d.physStart := by
    have := hd.fits
    have := hd.start_lt_endAddr
    exact newTruncate_of_lt (by omega)
  have hsub : subChecked d.endAddr 1 = some (d.endAddr - 1) := by
    have := hd.start_lt_endAddr
    exact if_pos (by omega)
  simp only [constructLoop, hd.descEnd_eq, hsub, hstart, Option.bind_eq_bind, Option.bind_some]
  split <;> rfl

/-- **The loop of `construct_memory_map` does not panic** on `Ok` descriptors when the array
has room for what it appends, and appends the `carve` of each descriptor. -/
theorem constructLoop_eq {maxRegions : Nat} {allocatedSlice : Nat × Nat}
    (hpos : 0 < allocatedSlice.1) {ds : List MemoryDescriptor} (hds : ∀ d ∈ ds, d.Ok)
    {regions : List MemoryRange}
    (hroom : regions.length + (ds.flatMap (carve allocatedSlice)).length ≤ maxRegions) :
    constructLoop maxRegions allocatedSlice regions ds =
      some (regions ++ ds.flatMap (carve allocatedSlice)) := by
  induction ds generalizing regions with
  | nil => rw [List.flatMap_nil, List.append_nil]; rfl
  | cons d ds ih =>
    have hd := hds d List.mem_cons_self
    rw [List.flatMap_cons, List.length_append] at hroom
    have hstep : (if usableAfterBootloaderExit d then
        splitRegion maxRegions d.region regions allocatedSlice else pure regions) =
        some (regions ++ carve allocatedSlice d) := by
      unfold carve
      split
      · have hend : d.region.endAddr + 1 < 2 ^ 64 := by
          have := hd.fits
          unfold MemoryDescriptor.region MemoryRange.new
          dsimp only
          omega
        exact splitRegion_eq hpos hend (by unfold carve at hroom; rw [if_pos ‹_›] at hroom; omega)
      · rw [List.append_nil]
        rfl
    rw [constructLoop_cons_eq ds hd, hstep, Option.bind_some,
      ih (fun e he => hds e (List.mem_cons_of_mem _ he)) (by rw [List.length_append]; omega),
      List.flatMap_cons, List.append_assoc]

section Carve

variable {a₀ a₁ : Nat} {d : MemoryDescriptor}

theorem length_carve_le (d : MemoryDescriptor) :
    (carve (a₀, a₁) d).length ≤ if d.physStart < a₀ ∧ a₀ ≤ d.endAddr - 1 then 2 else 1 := by
  unfold carve
  split
  · exact length_pieces_le d.region a₀ a₁
  · rw [List.length_nil]
    exact Nat.zero_le _

/-- Descriptors none of which holds `min_frame` with a byte below it give a range each. -/
theorem length_flatMap_carve_le_length {ds : List MemoryDescriptor}
    (h : ∀ d ∈ ds, ¬ (d.physStart < a₀ ∧ a₀ ≤ d.endAddr - 1)) :
    (ds.flatMap (carve (a₀, a₁))).length ≤ ds.length := by
  induction ds with
  | nil => exact Nat.le_refl _
  | cons d ds ih =>
    have hd := @length_carve_le a₀ a₁ d
    rw [if_neg (h d List.mem_cons_self)] at hd
    rw [List.flatMap_cons, List.length_append, List.length_cons]
    have := ih (fun e he => h e (List.mem_cons_of_mem _ he))
    omega

/-- **At most one more range than descriptors**: of apart descriptors, only one holds
`min_frame` with a byte below it, and only that one may give two ranges. -/
theorem length_flatMap_carve_le {ds : List MemoryDescriptor}
    (hap : ds.Pairwise MemoryDescriptor.Apart) :
    (ds.flatMap (carve (a₀, a₁))).length ≤ ds.length + 1 := by
  induction ds with
  | nil => exact Nat.zero_le _
  | cons d ds ih =>
    rw [List.pairwise_cons] at hap
    have hd := @length_carve_le a₀ a₁ d
    rw [List.flatMap_cons, List.length_append, List.length_cons]
    by_cases hs : d.physStart < a₀ ∧ a₀ ≤ d.endAddr - 1
    · -- `d` holds `min_frame`, so no later descriptor does
      have hrest : ∀ e ∈ ds, ¬ (e.physStart < a₀ ∧ a₀ ≤ e.endAddr - 1) := by
        intro e he hes
        rcases hap.1 e he with h | h <;> omega
      have := @length_flatMap_carve_le_length _ a₁ _ hrest
      rw [if_pos hs] at hd
      omega
    · rw [if_neg hs] at hd
      have := ih hap.2
      omega

theorem carve_pairwise_disjoint (d : MemoryDescriptor) :
    (carve (a₀, a₁) d).Pairwise (fun p q => Disjoint p.addrs q.addrs) := by
  unfold carve
  split
  · exact pieces_pairwise_disjoint d.region a₀ a₁
  · exact List.Pairwise.nil

theorem usable_of_mem_carve {p : MemoryRange} (h : p ∈ carve (a₀, a₁) d) :
    usableAfterBootloaderExit d = true ∧ p ∈ pieces d.region (a₀, a₁) := by
  unfold carve at h
  split at h
  · exact ⟨‹_›, h⟩
  · exact absurd h List.not_mem_nil

theorem addrs_subset_of_mem_carve (hd : d.Ok) {p : MemoryRange} (h : p ∈ carve (a₀, a₁) d) :
    p.addrs ⊆ Set.Ico d.physStart d.endAddr :=
  hd.region_addrs ▸ addrs_subset_of_mem_pieces (usable_of_mem_carve h).2

theorem carve_cover (hd : d.Ok) (hu : usableAfterBootloaderExit d = true) {g : Nat}
    (hlo : d.physStart ≤ g) (hhi : g + frameSize ≤ d.endAddr) (hout : g + frameSize ≤ a₀ ∨ a₁ < g) :
    Set.Ico g (g + frameSize) ⊆ covered (carve (a₀, a₁) d) := by
  have hend : g + frameSize ≤ d.region.endAddr + 1 := by
    have := hd.start_lt_endAddr
    unfold MemoryDescriptor.region MemoryRange.new
    dsimp only
    omega
  unfold carve
  rw [if_pos hu]
  exact pieces_cover hd.region_start_lt hlo hend hout

end Carve

section MemoryMap

variable {map : List MemoryDescriptor} (hok : ∀ d ∈ map, d.Ok) {a₀ a₁ : Nat}
include hok

/-- The ranges of the map share no address: those of one descriptor by `pieces_sorted`, those
of two by the descriptors' own disjointness. -/
theorem memoryMap_pairwise_disjoint (hap : map.Pairwise MemoryDescriptor.Apart) :
    (map.flatMap (carve (a₀, a₁))).Pairwise (fun p q => Disjoint p.addrs q.addrs) := by
  refine List.pairwise_flatMap.mpr ⟨fun d _ => carve_pairwise_disjoint d, ?_⟩
  refine hap.imp_of_mem fun {d e} hd he hde p hp q hq => ?_
  exact hde.disjoint.mono (addrs_subset_of_mem_carve (hok d hd) hp)
    (addrs_subset_of_mem_carve (hok e he) hq)

theorem memoryMap_usable {p : MemoryRange} (hp : p ∈ map.flatMap (carve (a₀, a₁))) :
    ∃ d ∈ map, usableAfterBootloaderExit d = true ∧ p.addrs ⊆ Set.Ico d.physStart d.endAddr := by
  obtain ⟨d, hd, hpd⟩ := List.mem_flatMap.mp hp
  exact ⟨d, hd, (usable_of_mem_carve hpd).1, addrs_subset_of_mem_carve (hok d hd) hpd⟩

theorem memoryMap_disjoint_slice (ha₀ : a₀ % frameSize = 0) {p : MemoryRange}
    (hp : p ∈ map.flatMap (carve (a₀, a₁))) : Disjoint p.addrs (Set.Ico a₀ a₁) := by
  obtain ⟨d, hd, hpd⟩ := List.mem_flatMap.mp hp
  exact disjoint_of_mem_pieces (usable_of_mem_carve hpd).2 (hok d hd).region_end_aligned ha₀

theorem memoryMap_cover (hle : a₀ ≤ a₁) {d : MemoryDescriptor} (hd : d ∈ map)
    (hu : usableAfterBootloaderExit d = true) {g : Nat} (hlo : d.physStart ≤ g)
    (hhi : g + frameSize ≤ d.endAddr) (hout : Disjoint (Set.Ico g (g + frameSize)) (Set.Icc a₀ a₁)) :
    Set.Ico g (g + frameSize) ⊆ covered (map.flatMap (carve (a₀, a₁))) := by
  intro x hx
  obtain ⟨q, hq, hxq⟩ := carve_cover (hok d hd) hu hlo hhi (frame_below_or_above hle hout) hx
  exact ⟨q, List.mem_flatMap.mpr ⟨d, hd, hq⟩, hxq⟩

end MemoryMap

/-- **`construct_memory_map` does not panic** with `mem_map_max_region_count()` entries on a
map of apart descriptors, and hands the kernel the `carve` of each descriptor. -/
theorem constructMemoryMap_eq {a : EarlyFrameAllocator} (hinv : Inv a)
    (hap : a.memoryMap.Pairwise MemoryDescriptor.Apart) :
    a.constructMemoryMap a.memMapMaxRegionCount =
      some (a.memoryMap.flatMap (carve (a.minFrame, a.nextFrame))) := by
  have hpos : 0 < (a.minFrame, a.nextFrame).1 := by
    show 0 < a.minFrame
    rw [hinv.min_eq]
    decide
  have hlen := @length_flatMap_carve_le a.minFrame a.nextFrame _ hap
  unfold constructMemoryMap memMapMaxRegionCount
  rw [constructLoop_eq hpos hinv.ok (by rw [List.length_nil, Nat.zero_add]; omega), List.nil_append]

end EarlyFrameAllocator

/-- What the kernel is handed once `fs` were allocated and the allocator reached `a`. -/
structure Handover (map : List MemoryDescriptor) (a : EarlyFrameAllocator) (fs : List Nat)
    (regions : List MemoryRange) : Prop where
  frames_sorted : fs.Pairwise (· < ·)
  frames_above : ∀ f ∈ fs, 0x100000 ≤ f
  frames_conventional : ∀ f ∈ fs, ∃ d ∈ map, d.ty = .conventional ∧ d.physStart ≤ f ∧
    f + frameSize ≤ d.endAddr
  regions_disjoint : regions.Pairwise (fun p q => Disjoint p.addrs q.addrs)
  regions_usable : ∀ p ∈ regions, ∃ d ∈ map, usableAfterBootloaderExit d = true ∧
    p.addrs ⊆ Set.Ico d.physStart d.endAddr
  regions_avoid_frames : ∀ p ∈ regions, ∀ f ∈ fs, Disjoint p.addrs (Set.Ico f (f + frameSize))
  regions_cover : ∀ d ∈ map, usableAfterBootloaderExit d = true → ∀ g, g % frameSize = 0 →
    d.physStart ≤ g → g + frameSize ≤ d.endAddr →
    Disjoint (Set.Ico g (g + frameSize)) (Set.Icc a.minFrame a.nextFrame) →
    Set.Ico g (g + frameSize) ⊆ covered regions

open EarlyFrameAllocator in
theorem early_frames_and_memory_map {map : List MemoryDescriptor} (hok : ∀ d ∈ map, d.Ok)
    (hap : map.Pairwise MemoryDescriptor.Apart) (hne : map ≠ []) (n : Nat) :
    ∃ a₀ fs a regions, EarlyFrameAllocator.new map = some a₀ ∧
      a₀.allocateFrames n = some (fs, a) ∧
      a.constructMemoryMap a.memMapMaxRegionCount = some regions ∧ Handover map a fs regions := by
  obtain ⟨a₀, hnew, hinv₀, hmap₀, hnext₀⟩ := new_spec hok hne
  obtain ⟨fs, a, hrun, ho⟩ := allocateFrames_spec hinv₀ n
  have hmap : a.memoryMap = map := ho.memoryMap.trans hmap₀
  refine ⟨a₀, fs, a, _, hnew, hrun, constructMemoryMap_eq ho.inv (hmap ▸ hap), ?_⟩
  -- every frame lies in `[min_frame, next_frame)`, which starts where `new` put the bump pointer
  have hmin : a.minFrame = a₀.nextFrame := by rw [ho.minFrame, hinv₀.min_eq, hnext₀]
  have hslice : ∀ f ∈ fs, Set.Ico f (f + frameSize) ⊆ Set.Ico a.minFrame a.nextFrame := by
    intro f hf x hx
    have hb := ho.bounds f hf
    rw [Set.mem_Ico] at hx ⊢
    omega
  have hmin_aligned : a.minFrame % frameSize = 0 := by
    rw [ho.inv.min_eq]
    decide
  rw [hmap]
  exact {
    frames_sorted := ho.sorted
    frames_above := fun f hf => hnext₀ ▸ (ho.bounds f hf).1
    frames_conventional := fun f hf => hmap₀ ▸ ho.conventional f hf
    regions_disjoint := memoryMap_pairwise_disjoint hok hap
    regions_usable := fun p hp => memoryMap_usable hok hp
    regions_avoid_frames := fun p hp f hf =>
      (memoryMap_disjoint_slice hok hmin_aligned hp).mono_right (hslice f hf)
    regions_cover := fun d hd hu g _ hlo hhi hout =>
      memoryMap_cover hok ho.inv.min_le hd hu hlo hhi hout }

theorem early_frames_of_one_descriptor :
    (∀ d ∈ [(⟨.conventional, 0x100000, 16⟩ : MemoryDescriptor)], d.Ok) ∧
      [(⟨.conventional, 0x100000, 16⟩ : MemoryDescriptor)].Pairwise MemoryDescriptor.Apart ∧
      [(⟨.conventional, 0x100000, 16⟩ : MemoryDescriptor)] ≠ [] ∧
      ∃ a₀ fs a regions,
        EarlyFrameAllocator.new [⟨.conventional, 0x100000, 16⟩] = some a₀ ∧
        a₀.allocateFrames 2 = some (fs, a) ∧
        a.constructMemoryMap a.memMapMaxRegionCount = some regions ∧
        Handover [⟨.conventional, 0x100000, 16⟩] a fs regions := by
  have hok : ∀ d ∈ [(⟨.conventional, 0x100000, 16⟩ : MemoryDescriptor)], d.Ok := by
    intro d hd
    rw [List.mem_singleton] at hd
    subst hd
    exact ⟨by decide, by decide, by decide⟩
  have hap := List.pairwise_singleton MemoryDescriptor.Apart
    (⟨.conventional, 0x100000, 16⟩ : MemoryDescriptor)
  exact ⟨hok, hap, List.cons_ne_nil _ _, early_frames_and_memory_map hok hap (List.cons_ne_nil _ _) 2⟩

end Beskar.Boot.Phys
