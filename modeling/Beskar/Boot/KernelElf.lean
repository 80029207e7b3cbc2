import Beskar.Elf.File
import Beskar.Paging.PageTable

/-!
# The Bootloader's Kernel Loader

Model of `load_kernel_elf` (`bootloader/src/kernel_elf.rs`). The bootloader maps the
kernel's ELF image in the kernel's page table at `KERNEL_IMAGE_BASE` in four passes over
the program headers:
1. the file pages of each `LOAD` segment are mapped in place, onto the frames of the
   image, and its `.bss` is zeroed: the page the `.bss` starts in is first copied to a new
   frame, and the pages after it get new zeroed frames;
2. the `R_RELATIVE` relocations of the `DYNAMIC` segment are read and written through the
   page table, and a page written to is first copied to a new frame;
3. each `GNU_RELRO` page loses `WRITABLE`;
4. a last pass over each `LOAD` segment is meant to clear `BIT_9`, the mark the first two
   passes leave on a page they copied.

The state is the kernel's page table, the frames the `EarlyFrameAllocator` still hands
out, in order, and physical memory. A panic (`expect`, `unwrap`, `assert!`, or a plain
`u64` operation that overflows) is `none`.

The kernel's `OffsetPageTable` reaches a table at `offset + frame`, where `PageTable` goes
through the recursive mapping. Both walk the same tables in physical memory, and their
4 KiB `map`, `unmap`, `update_flags` and `translate` differ only in the error that a huge
page met on the way gives, which the bootloader turns into a panic either way; the model
runs `PageTable`'s mappers. The tables are kept apart from the bytes of physical memory:
their frames come from the allocator, as do the frames the loader writes, and the
allocator hands out each frame once.

The loops are structural recursions over the page and frame ranges (`Page.rangeInclusive`)
and over the program headers.
-/

namespace Beskar.Boot

open Beskar.Arch (VirtAddr Alignment)
open Beskar.Lib Beskar.Paging Beskar.Elf

/-- `KERNEL_IMAGE_BASE`: `VirtAddr::new_extend(257 << 39)`. -/
def kernelImageBase : VirtAddr := VirtAddr.newExtend (257 * 2 ^ 39)

/-- `M4KiB::SIZE`. -/
def pageSize : Nat := 4096

/-- `PhysAddr::new_truncate`: the low 52 bits. -/
def physTruncate (a : Nat) : Nat := a % 2 ^ 52

/-- What `load_kernel_elf` works on: the kernel's page table, the frames the frame
allocator still hands out, and physical memory. -/
structure BootState where
  pageTable : PageTable
  frames : FrameAllocator
  phys : Memory

/-- A step of the loader: a panic (`none`), or a result and the new state. -/
abbrev BootM := StateT BootState Option

/-- `LoadedKernelInfo`. -/
structure LoadedKernelInfo where
  entryPoint : VirtAddr
  imageOffset : VirtAddr
  kernelSize : Nat

/-! ## Section 1: Panics, the Frame Allocator and the Page Table -/

/-- `option.expect(..)` and `result.unwrap()`: the value, or a panic. -/
def expect {α : Type} : Option α → BootM α
  | some a => pure a
  | none => failure

/-- `assert!(c)`. -/
def assert (c : Bool) : BootM Unit := if c then pure () else failure

/-- `frame_allocator.allocate_frame().expect(..)`: the next frame the allocator hands out. -/
def allocateFrame : BootM (Frame .size4KiB) := do
  let s ← get
  match s.frames with
  | [] => failure
  | f :: rest =>
    set { s with frames := rest }
    pure f

/-- `page_table.map(page, frame, flags, frame_allocator).expect(..)`. The tables it creates
take their frames from the allocator. -/
def mapPage (page : Page .size4KiB) (frame : Frame .size4KiB) (flags : Flags) : BootM Unit := do
  let s ← get
  match PageTable.map4KiB s.pageTable s.frames page frame flags with
  | (pt, alloc, .ok ()) => set { s with pageTable := pt, frames := alloc }
  | (_, _, .error _) => failure

/-- `page_table.unmap(page).unwrap()`: the frame the page was mapped to. -/
def unmapPage (page : Page .size4KiB) : BootM (Frame .size4KiB) := do
  let s ← get
  match PageTable.unmap4KiB s.pageTable page with
  | .ok (f, pt) =>
    set { s with pageTable := pt }
    pure f
  | .error _ => failure

/-- `page_table.update_flags(page, flags).unwrap()`. -/
def updateFlags (page : Page .size4KiB) (flags : Flags) : BootM Unit := do
  let s ← get
  match PageTable.updateFlags4KiB s.pageTable page flags with
  | .ok pt => set { s with pageTable := pt }
  | .error _ => failure

/-- `page_table.translate(page).expect(..)`: the page's frame and flags. -/
def translate (page : Page .size4KiB) : BootM (Frame .size4KiB × Flags) := do
  expect (PageTable.translate4KiB (← get).pageTable page)

/-- `copy_nonoverlapping` of a whole frame to another. -/
def copyFrame (src dst : Frame .size4KiB) : BootM Unit :=
  modify fun s =>
    let bytes := (List.range pageSize).map fun i => s.phys (src.start + i)
    { s with phys := s.phys.writeBytes dst.start bytes }

/-- `write_bytes(dst, 0, size)` in physical memory. -/
def zeroPhys (dst size : Nat) : BootM Unit :=
  modify fun s => { s with phys := s.phys.zeroBytes dst size }

/-- The `size` bytes of physical memory from `src`. -/
def readPhys (src size : Nat) : BootM (List UInt8) := do
  let s ← get
  pure ((List.range size).map fun i => s.phys (src + i))

/-- `dest.copy_from_slice(src)` into physical memory at `dst`. -/
def writePhys (dst : Nat) (src : List UInt8) : BootM Unit :=
  modify fun s => { s with phys := s.phys.writeBytes dst src }

/-- The copy of a page to a new frame, in `zero_bss` and in `copy_to_krnlspc`: the new
frame gets the bytes of the page's frame, and the page is mapped to it with its flags and
`BIT_9`, the mark of a page already copied. -/
def copyToNewFrame (page : Page .size4KiB) (frame : Frame .size4KiB) (flags : Flags) :
    BootM (Frame .size4KiB) := do
  let newFrame ← allocateFrame
  copyFrame frame newFrame
  let _ ← unmapPage page
  mapPage page newFrame (flags.union Flags.bit9)
  pure newFrame

/-! ## Section 2: `LOAD` Segments -/

/-- The flags of a segment's pages: `PRESENT | GLOBAL`, with `WRITABLE` for a writable
segment and `NO_EXECUTE` for one that is not executable. -/
def segmentFlags (ph : ProgramHeader) : Flags :=
  let flags := Flags.present.union Flags.global
  let flags := if ph.isWrite then flags.union Flags.writable else flags
  if !ph.isExecute then flags.union Flags.noExecute else flags

/-- `vao + ph.virtual_addr()` made a `VirtAddr`, a plain `u64` addition. -/
def segmentStart (ph : ProgramHeader) (vao : Nat) : BootM VirtAddr :=
  expect ((addChecked 64 vao ph.virtualAddr.toNat).map VirtAddr.newExtend)

/-- The loop of `handle_segment_load` over the file frames: the frame `k` frames after the
first is mapped at the page `k` pages after the segment's first. -/
def mapFilePages (startPage : Page .size4KiB) (startFrame : Frame .size4KiB) (flags : Flags)
    (frames : List (Frame .size4KiB)) : BootM Unit :=
  forM frames fun frame => do
    let page ← expect (startPage.add ((frame.start - startFrame.start) / pageSize))
    mapPage page frame flags

/-- The loop of `zero_bss` over the whole pages of the `.bss`: each gets a new frame,
zeroed, with the segment's flags. -/
def mapZeroPages (flags : Flags) (pages : List (Page .size4KiB)) : BootM Unit :=
  forM pages fun page => do
    let frame ← allocateFrame
    zeroPhys frame.start pageSize
    mapPage page frame flags

/-- `zero_bss`. The page the `.bss` starts in, when it starts inside a page, is copied to a
new frame unless `BIT_9` marks it copied already, and zeroed from there; the pages from the
next page boundary to the last byte of the segment get new zeroed frames. -/
def zeroBss (virtStart : VirtAddr) (ph : ProgramHeader) : BootM Unit := do
  let zeroStart ← expect (virtStart.add ph.fileSize.toNat)
  let zeroEnd ← expect (virtStart.add ph.memSize.toNat)
  let beforeAligned := zeroStart.raw % pageSize
  if beforeAligned ≠ 0 then
    let lastPage := Page.containingAddress .size4KiB zeroStart
    let (paddr, flags) ← translate lastPage
    let newFrame ←
      if flags.contains Flags.bit9 then pure paddr else copyToNewFrame lastPage paddr flags
    zeroPhys (newFrame.start + beforeAligned) (pageSize - beforeAligned)
  let flags := segmentFlags ph
  let alignedStart ← expect (zeroStart.alignedUp Alignment.align4K)
  let startPage := Page.containingAddress .size4KiB alignedStart
  let endPage := Page.containingAddress .size4KiB (← expect (zeroEnd.sub 1))
  mapZeroPages flags (Page.rangeInclusive startPage endPage)

/-- `handle_segment_load`: the frames of the file image, from the image's physical address
`kernelBase`, are mapped in place at `vao + vaddr`, then the `.bss` is zeroed. The
additions on `PhysAddr` truncate to 52 bits after a plain `u64` addition. -/
def handleSegmentLoad (kernelBase : Nat) (ph : ProgramHeader) (vao : Nat) : BootM Unit := do
  let physStart := physTruncate (← expect (addChecked 64 (physTruncate kernelBase) ph.offset.toNat))
  let startFrame := Frame.containingAddress .size4KiB physStart
  let physEnd := physTruncate (← expect (addChecked 64 physStart ph.fileSize.toNat))
  let endFrame := Frame.containingAddress .size4KiB (physTruncate (← expect (subChecked physEnd 1)))
  let virtStart ← segmentStart ph vao
  let startPage := Page.containingAddress .size4KiB virtStart
  mapFilePages startPage startFrame (segmentFlags ph) (Frame.rangeInclusive startFrame endFrame)
  if ph.fileSize.toNat < ph.memSize.toNat then zeroBss virtStart ph

/-! ## Section 3: Relocations -/

/-- The part of `page` that `copy_from_krnlspc` and `copy_to_krnlspc` copy for the buffer
at `[addr, endAddr]`: its offset in the frame, its length, and its offset in the buffer.
The subtractions are plain `u64` ones, and the buffer offset is masked to 48 bits. -/
def pageCopyRange (page : Page .size4KiB) (addr endAddr : VirtAddr) : Option (Nat × Nat × Nat) := do
  let pageStart := page.startAddress
  let pageEnd ← pageStart.add (pageSize - 1)
  let startCopy := max pageStart.raw addr.raw
  let endCopy := min pageEnd.raw endAddr.raw
  let startOffsetInFrame ← subChecked startCopy pageStart.raw
  let copyLen ← (subChecked endCopy startCopy).bind (addChecked 64 · 1)
  let startOffsetBuffer ← subChecked startCopy addr.raw
  pure (startOffsetInFrame, copyLen, startOffsetBuffer % 2 ^ 48)

/-- The loop of `copy_from_krnlspc` over the pages of the buffer, with the buffer as its
accumulator: each page's part is read from the frame it is mapped to. -/
def readPages (addr endAddr : VirtAddr) : List UInt8 → List (Page .size4KiB) → BootM (List UInt8)
  | buf, [] => pure buf
  | buf, page :: pages => do
    let (frame, _) ← translate page
    let (offsetInFrame, copyLen, offsetInBuffer) ← expect (pageCopyRange page addr endAddr)
    let startPaddr := physTruncate (← expect (addChecked 64 frame.start offsetInFrame))
    let src ← readPhys startPaddr copyLen
    let buf ← expect (copyIntoSlice buf offsetInBuffer src)
    readPages addr endAddr buf pages

/-- `copy_from_krnlspc`: the `len` bytes from `addr`, read through the page table. -/
def copyFromKrnlspc (addr : VirtAddr) (len : Nat) : BootM (List UInt8) := do
  let endAddr ← expect ((subChecked len 1).bind addr.add)
  readPages addr endAddr (List.replicate len 0)
    (Page.rangeInclusive (Page.containingAddress .size4KiB addr)
      (Page.containingAddress .size4KiB endAddr))

/-- The loop of `copy_to_krnlspc` over the pages of the buffer: a page not marked by
`BIT_9` is first copied to a new frame, and its part of the buffer is written there. -/
def writePages (addr endAddr : VirtAddr) (buf : List UInt8) (pages : List (Page .size4KiB)) :
    BootM Unit :=
  forM pages fun page => do
    let (frame, flags) ← translate page
    let physFrame ← if flags.contains Flags.bit9 then pure frame else copyToNewFrame page frame flags
    let (offsetInFrame, copyLen, offsetInBuffer) ← expect (pageCopyRange page addr endAddr)
    let startPaddr := physTruncate (← expect (addChecked 64 physFrame.start offsetInFrame))
    let src ← expect (sliceRange buf offsetInBuffer (offsetInBuffer + copyLen))
    writePhys startPaddr src

/-- `copy_to_krnlspc`: `buf` written from `addr` through the page table. -/
def copyToKrnlspc (addr : VirtAddr) (buf : List UInt8) : BootM Unit := do
  let endAddr ← expect ((subChecked buf.length 1).bind addr.add)
  writePages addr endAddr buf
    (Page.rangeInclusive (Page.containingAddress .size4KiB addr)
      (Page.containingAddress .size4KiB endAddr))

/-- The loop of `handle_segment_dynamic` over the dynamic entries, with `rela`, `relasz`
and `relaent`: a tag met twice fails its assertion, and an unknown tag panics in
`unwrap`. -/
def relaEntries : List Dyn → Option Nat → Option Nat → Option Nat →
    BootM (Option Nat × Option Nat × Option Nat)
  | [], rela, relasz, relaent => pure (rela, relasz, relaent)
  | d :: ds, rela, relasz, relaent =>
    match d.tag with
    | none => failure
    | some .rela => do
      assert rela.isNone
      relaEntries ds (some d.un.toNat) relasz relaent
    | some .relaSize => do
      assert relasz.isNone
      relaEntries ds rela (some d.un.toNat) relaent
    | some .relaEnt => do
      assert relaent.isNone
      relaEntries ds rela relasz (some d.un.toNat)
    | some .other => relaEntries ds rela relasz relaent

/-- The `any` of `handle_segment_dynamic`: some `LOAD` header holds `offset`. It goes
through the headers in order, and the plain `u64` addition `vaddr + mem_size` is made
only once `vaddr <= offset` holds. -/
def anyLoadHolds : List ProgramHeader → Nat → Option Bool
  | [], _ => some false
  | ph :: phs, offset =>
    match ph.type with
    | none => none
    | some ty =>
      if ty = .load ∧ ph.virtualAddr.toNat ≤ offset then
        match addChecked 64 ph.virtualAddr.toNat ph.memSize.toNat with
        | none => none
        | some segEnd => if offset < segEnd then some true else anyLoadHolds phs offset
      else anyLoadHolds phs offset

/-- The loop of `handle_segment_dynamic` over the relocation entries: entry `i` is read
from `vao + table + 24 i` through the page table, checked, and `vao + addend` is written
at `vao + r_offset`. -/
def relocateEntries (elf : ElfFile) (vao tableOffset : Nat) (entries : List Nat) :
    BootM Unit :=
  forM entries fun i => do
    let offset ← expect ((mulChecked 64 Rela.size i).bind (addChecked 64 tableOffset))
    let addr ← expect ((addChecked 64 vao offset).bind VirtAddr.tryNew)
    let buf ← copyFromKrnlspc addr Rela.size
    let rela ← expect (readRela buf 0)
    assert (rela.getSymbolTableIndex == 0)
    assert (rela.getType == 8)
    assert (← expect (anyLoadHolds elf.programHeaders rela.offset))
    let target ← expect ((addChecked 64 vao rela.offset).map VirtAddr.newExtend)
    let value ← expect (addChecked 64 vao rela.addend)
    copyToKrnlspc target (leBytes value)

/-- `handle_segment_dynamic`: find the `RELA` table and apply its entries. A table given
without its size or entry size, or with entries of another size, is an assertion
failure. -/
def handleSegmentDynamic (elf : ElfFile) (ph : ProgramHeader) (vao : Nat) : BootM Unit := do
  let data ← expect ph.dynamic
  let (rela, relasz, relaent) ← relaEntries data none none none
  match rela with
  | none => assert (relasz.isNone && relaent.isNone)
  | some tableOffset =>
    let totalSize ← expect relasz
    let entrySize ← expect relaent
    assert (entrySize == Rela.size)
    relocateEntries elf vao tableOffset (List.range (totalSize / entrySize))

/-! ## Section 4: `GNU_RELRO` and the Last Pass -/

/-- The loop of `handle_segment_gnurelro`: each page that is writable loses `WRITABLE`. -/
def clearWritable (pages : List (Page .size4KiB)) : BootM Unit :=
  forM pages fun page => do
    let (_, flags) ← translate page
    if flags.contains Flags.writable then updateFlags page (flags.without Flags.writable)

/-- `handle_segment_gnurelro`: the pages of `[vao + vaddr, vao + vaddr + mem_size)`. -/
def handleSegmentGnuRelro (ph : ProgramHeader) (vao : Nat) : BootM Unit := do
  let start ← segmentStart ph vao
  let last ← expect ((start.add ph.memSize.toNat).bind (·.sub 1))
  clearWritable (Page.rangeInclusive (Page.containingAddress .size4KiB start)
    (Page.containingAddress .size4KiB last))

/-- The loop of the last pass over the pages of a `LOAD` segment. At every page it reads
the flags of `endPage`, the segment's last page, and gives the page those flags without
`BIT_9` when they have it. -/
def clearBit9 (endPage : Page .size4KiB) (pages : List (Page .size4KiB)) : BootM Unit :=
  forM pages fun page => do
    let (_, flags) ← translate endPage
    if flags.contains Flags.bit9 then updateFlags page (flags.without Flags.bit9)

/-- The last pass on one `LOAD` segment: the pages of `[vao + vaddr, vao + vaddr + mem_size)`. -/
def clearBit9Segment (ph : ProgramHeader) (vao : Nat) : BootM Unit := do
  let start ← segmentStart ph vao
  let segEnd ← expect (((addChecked 64 vao ph.virtualAddr.toNat).bind
    (addChecked 64 · ph.memSize.toNat)).map VirtAddr.newExtend)
  let endPage := Page.containingAddress .size4KiB (← expect (segEnd.sub 1))
  clearBit9 endPage (Page.rangeInclusive (Page.containingAddress .size4KiB start) endPage)

/-- `translate` reads the page table and changes nothing. -/
theorem translate_run {s : BootState} {page : Page .size4KiB} {r : Frame .size4KiB × Flags}
    (ht : PageTable.translate4KiB s.pageTable page = some r) :
    (translate page).run s = some (r, s) := by
  show (expect (PageTable.translate4KiB s.pageTable page)).run s = _
  rw [ht]
  rfl

/-- The last pass reads only the flags of the segment's last page: when those lack
`BIT_9`, it leaves the state as it is, whatever the other pages' flags hold. -/
theorem clearBit9_of_not_bit9 {s : BootState} {endPage : Page .size4KiB}
    {frame : Frame .size4KiB} {flags : Flags}
    (ht : PageTable.translate4KiB s.pageTable endPage = some (frame, flags))
    (hb : flags.contains Flags.bit9 = false) (pages : List (Page .size4KiB)) :
    (clearBit9 endPage pages).run s = some ((), s) := by
  induction pages with
  | nil => rfl
  | cons page pages ih =>
    unfold clearBit9 at ih ⊢
    rw [List.forM_cons, StateT.run_bind, StateT.run_bind, translate_run ht]
    simp only [Option.bind_eq_bind, Option.bind_some, hb, Bool.false_eq_true, if_false,
      StateT.run_pure]
    exact ih

/-! ## Section 5: `load_segments` and `load_kernel_elf` -/

/-- The first pass of `load_segments` on one header: a `LOAD` segment is loaded, a `TLS`
segment only warned about, an `INTERP` segment and an unknown type are panics. -/
def loadHeader (kernelBase vao : Nat) (ph : ProgramHeader) : BootM Unit := do
  match ← expect ph.type with
  | .load => handleSegmentLoad kernelBase ph vao
  | .interp => failure
  | _ => pure ()

/-- A pass of `load_segments` that handles the headers of one type. -/
def handleOfType (ty : SegmentType) (handle : ProgramHeader → BootM Unit)
    (ph : ProgramHeader) : BootM Unit := do
  if (← expect ph.type) = ty then handle ph

/-- `load_segments`: the four passes over the program headers. -/
def loadSegments (elf : ElfFile) (kernelBase vao : Nat) : BootM Unit := do
  forM elf.programHeaders (loadHeader kernelBase vao)
  forM elf.programHeaders (handleOfType .dynamic (handleSegmentDynamic elf · vao))
  forM elf.programHeaders (handleOfType .gnuRelro (handleSegmentGnuRelro · vao))
  forM elf.programHeaders (handleOfType .load (clearBit9Segment · vao))

/-- The fold of `load_kernel_elf` over the `LOAD` headers, with the accumulators `min` of
the starts and `max` of the ends; `vaddr + mem_size` is a plain `u64` addition. -/
def loadBounds : List ProgramHeader → Nat → Nat → Option (Nat × Nat)
  | [], lo, hi => some (lo, hi)
  | ph :: phs, lo, hi =>
    if ph.type = some .load then
      match addChecked 64 ph.virtualAddr.toNat ph.memSize.toNat with
      | none => none
      | some segEnd => loadBounds phs (min lo ph.virtualAddr.toNat) (max hi segEnd)
    else loadBounds phs lo hi

/-- `load_kernel_elf`. The image lies at the physical address `kernelBase`. The checks
come first; the offset `vao` puts the lowest `LOAD` address at `KERNEL_IMAGE_BASE`; after
the segments are loaded, the entry point and the size are read off the headers. -/
def loadKernelElf (elf : ElfFile) (kernelBase : Nat) : BootM LoadedKernelInfo := do
  assert (physTruncate kernelBase % pageSize == 0)
  assert elf.header.sane
  forM elf.programHeaders fun ph => assert ph.sane
  assert (decide (elf.header.elfClass = .sixtyFour))
  assert (decide (elf.header.machine = .x86_64))
  let (minAddr, maxAddr) ← expect (loadBounds elf.programHeaders (2 ^ 64 - 1) 0)
  assert (decide (minAddr ≤ maxAddr))
  let vao := (← expect (kernelImageBase.sub minAddr)).raw
  loadSegments elf kernelBase vao
  let ends ← expect (elf.programHeaders.mapM fun ph =>
    addChecked 64 ph.virtualAddr.toNat ph.memSize.toNat)
  let entry ← expect (addChecked 64 vao elf.header.entryPoint.toNat)
  pure ⟨VirtAddr.newExtend entry, VirtAddr.newExtend vao, ends.max?.getD 0⟩

/-! ## Section 6: Two Kernels Whose Pages Keep the Wrong Flags

Both kernels meet the loader's contract: an `x86_64` image at a page-aligned physical
address, one `LOAD` segment with `p_offset = p_vaddr = 0`, an `R_RELATIVE` relocation
inside it, and fresh frames from `0x200000` on, apart from the image at `0x100000` and the
level-4 table. -/

/-- The physical address of the kernel image. -/
def kernelBase : Nat := 0x100000

/-- An `x86_64` executable with its entry point at `0`. -/
def kernelHeader : Header := ⟨true, .sixtyFour, .littleEndian, .systemV, .x86_64, .executable, 0⟩

/-- A writable `LOAD` segment at `0`, with a file image of `fileSize` bytes at offset `0`. -/
def loadAtZero (fileSize memSize : UInt64) : ProgramHeader :=
  { sane := true, type := some .load, isWrite := true, isExecute := false, offset := 0,
    virtualAddr := 0, fileSize := fileSize, memSize := memSize, dynamic := none }

/-- A kernel whose `.bss` starts half-way into its first page and fills the second. -/
def bssKernel : ElfFile where
  input := List.replicate 0x800 0x90
  header := kernelHeader
  programHeaders := [loadAtZero 0x800 0x2000]

/-- A `DYNAMIC` segment whose `RELA` table is one entry at `0x800`. -/
def dynamicAt800 : ProgramHeader :=
  { sane := true, type := some .dynamic, isWrite := false, isExecute := false, offset := 0x800,
    virtualAddr := 0x800, fileSize := 0, memSize := 0,
    dynamic := some [⟨some .rela, 0x800⟩, ⟨some .relaSize, 24⟩, ⟨some .relaEnt, 24⟩] }

/-- A `GNU_RELRO` range over the first page. -/
def relroFirstPage : ProgramHeader :=
  { sane := true, type := some .gnuRelro, isWrite := false, isExecute := false, offset := 0,
    virtualAddr := 0, fileSize := 0, memSize := 0x1000, dynamic := none }

/-- A kernel of two file pages whose first page is `GNU_RELRO`, and whose one relocation
(`r_offset = 0x1000`, `R_RELATIVE`, `r_addend = 0`, at `0x800`) lies in its second page. -/
def relroKernel : ElfFile where
  input := List.replicate 0x800 0 ++ [0, 0x10, 0, 0, 0, 0, 0, 0, 8, 0, 0, 0, 0, 0, 0, 0] ++
    List.replicate (0x2000 - 0x810) 0
  header := kernelHeader
  programHeaders := [loadAtZero 0x2000 0x2000, dynamicAt800, relroFirstPage]

/-- Sixteen fresh frames from `0x200000` on. -/
def freshFrames : FrameAllocator :=
  (List.range 16).map fun k => Frame.containingAddress .size4KiB (0x200000 + k * pageSize)

/-- The state `load_kernel_elf` starts from: an empty level-4 table, fresh frames, and the
image at `kernelBase`. -/
def bootState (input : List UInt8) : BootState :=
  ⟨⟨0x1ff000, fun _ _ => Entry.empty⟩, freshFrames, Memory.writeBytes (fun _ => 0) kernelBase input⟩

/-- The flags of the page holding `v`, when it is mapped. -/
def pageFlags (s : BootState) (v : VirtAddr) : Option Flags :=
  (PageTable.translate4KiB s.pageTable (Page.containingAddress .size4KiB v)).map Prod.snd

/-- `load_kernel_elf` leaves the first page of each kernel, at `KERNEL_IMAGE_BASE`, with
flags the contract rules out:
- in `bssKernel` the page keeps `BIT_9`: the `.bss` copy marked it, and the last page,
  mapped to a new zeroed frame, has no `BIT_9`, so the last pass changes nothing
  (`clearBit9_of_not_bit9`);
- in `relroKernel` the `GNU_RELRO` page is writable: the relocation copied and marked the
  last page, so the last pass gives every page the last page's flags, `WRITABLE` among
  them. -/
theorem load_kernel_elf_wrong_flags :
    ((loadKernelElf bssKernel kernelBase).run (bootState bssKernel.input)).map
        (fun r => (r.1.imageOffset, (pageFlags r.2 kernelImageBase).map (·.contains Flags.bit9))) =
      some (kernelImageBase, some true) ∧
    ((loadKernelElf relroKernel kernelBase).run (bootState relroKernel.input)).map
        (fun r => (r.1.imageOffset,
          (pageFlags r.2 kernelImageBase).map (·.contains Flags.writable))) =
      some (kernelImageBase, some true) := by
  constructor
  · decide +kernel
  · decide +kernel

end Beskar.Boot
