import Beskar.Elf.File
import Beskar.Lib.Checked
import Beskar.Lib.Fallible

/-!
# The ELF Loader

Model of `ElfLoader::load` (`kernel/src/process/binary/elf/src/loader.rs`), over any
`MemoryMapper`. The loader works in four steps:
1. It checks the file and computes the page-aligned range that the `LOAD` and `TLS`
   segments span.
2. It asks the mapper for a region of that size.
3. It loads each program header into the region at `region + (vaddr - min_vaddr)`:
   - a `LOAD` segment is copied, zeroed and given its flags;
   - a `TLS` segment is copied, and recorded as the TLS template;
   - a `DYNAMIC` segment's `R_RELATIVE` relocations are applied;
   - a `GNU_RELRO` range is made read-only.
4. It returns the entry point at the same offset.

A computation is a `Fallible` program over the mapper's state and the log of `Event`s.
The log is ghost state: the source keeps no such log, and it is here so that theorems can
speak of every access the loader makes. Arithmetic follows the source operator by
operator:
- `checked_*` followed by `ok_or(Overflow)?` returns `Overflow`;
- a plain `+`, `-` or `*` on `u64` or `usize` panics on overflow, as in a build with
  overflow checks (`ofOption`);
- a `VirtAddr + u64` is such an addition followed by `new_extend`.

The loops of the source are structural recursions over the program headers, the dynamic
entries and the relocation indices, each with the accumulators of its loop.
-/

namespace Beskar.Elf

open Beskar.Arch (VirtAddr)
open Beskar.Lib Fallible

/-- The state the loader runs in: the mapper's own state, and the log of what was done
to memory. -/
structure LoadState (σ : Type) where
  mapper : σ
  events : List Event

/-- A computation of the loader. -/
abbrev LoadM (σ α : Type) := Fallible ElfLoadError (LoadState σ) α

/-- `MemoryRange` of `beskar_core`: a start and an inclusive end. -/
structure MemoryRange where
  start : Nat
  endAddr : Nat
deriving DecidableEq

/-- `MemoryRange::size`: `end - start + 1`, plain `u64` arithmetic. -/
def MemoryRange.size (r : MemoryRange) : Option Nat :=
  (subChecked r.endAddr r.start).bind fun d => addChecked 64 d 1

namespace ElfLoader

variable {σ : Type}

/-- `PAGE_SIZE`. -/
def pageSize : Nat := 4096

/-- `MAX_LOAD_SEGMENTS`. -/
def maxLoadSegments : Nat := 16

/-- `R_RELATIVE` on `x86_64`. -/
def rRelative : Nat := 8

/-! ## Section 1: Checks and Arithmetic -/

/-- `Self::sanity_check`. -/
def sanityCheck (elf : ElfFile) : Except ElfLoadError Unit :=
  if !elf.header.sane then .error .invalidBinary
  else if elf.programHeaders.any (fun ph => !ph.sane) then .error .invalidBinary
  else if elf.header.elfClass ≠ .sixtyFour then .error .invalidBinary
  else if elf.header.machine ≠ .x86_64 then .error .invalidBinary
  else if elf.header.data ≠ .littleEndian then .error .invalidBinary
  else if !(elf.header.osAbi = .systemV || elf.header.osAbi = .linux) then .error .invalidBinary
  else if !(elf.header.type = .executable || elf.header.type = .sharedObject) then
    .error .invalidBinary
  else .ok ()

/-- `align_down`: `value & !(align - 1)`, which clears the remainder by the power of two
`align`. -/
def alignDown (value align : Nat) : Nat := value - value % align

/-- `align_up`: `value.checked_add(align - 1).map(|v| v & !(align - 1))`, or `Overflow`. -/
def alignUp (value align : Nat) : Except ElfLoadError Nat :=
  match addChecked 64 value (align - 1) with
  | some v => .ok (alignDown v align)
  | none => .error .overflow

/-- The headers `calculate_address_range` counts: `get_type()` is `Load` or `Tls`. -/
def isAllocated (ph : ProgramHeader) : Bool :=
  ph.type = some .load || ph.type = some .tls

/-- The loop of `calculate_address_range` over the counted headers, with its accumulators
`min_vaddr` and `max_vaddr`. The `- 1` after `align_up` is a plain `u64` subtraction. -/
def addressRangeLoop :
    List ProgramHeader → Nat → Nat → Option (Except ElfLoadError (Nat × Nat))
  | [], minVaddr, maxVaddr => some (.ok (minVaddr, maxVaddr))
  | ph :: phs, minVaddr, maxVaddr =>
    if isAllocated ph then
      match addChecked 64 ph.virtualAddr.toNat ph.memSize.toNat with
      | none => some (.error .overflow)
      | some segEnd =>
        match alignUp segEnd pageSize with
        | .error e => some (.error e)
        | .ok segEndUp =>
          match subChecked segEndUp 1 with
          | none => none
          | some segEndAligned =>
            addressRangeLoop phs (min minVaddr (alignDown ph.virtualAddr.toNat pageSize))
              (max maxVaddr segEndAligned)
    else addressRangeLoop phs minVaddr maxVaddr

/-- `Self::calculate_address_range`: a file with no counted header is invalid. -/
def calculateAddressRange (elf : ElfFile) : Option (Except ElfLoadError MemoryRange) :=
  (addressRangeLoop elf.programHeaders (2 ^ 64 - 1) 0).map fun r =>
    r.bind fun (minVaddr, maxVaddr) =>
      if minVaddr = 2 ^ 64 - 1 then .error .invalidBinary else .ok ⟨minVaddr, maxVaddr⟩

/-- `Self::compute_segment_flags`. -/
def computeSegmentFlags (ph : ProgramHeader) : PageFlags :=
  match ph.isWrite, ph.isExecute with
  | true, true => PageFlags.rwx
  | true, false => PageFlags.rw
  | false, true => PageFlags.rx
  | false, false => PageFlags.r

/-- `Self::vaddr_to_file_offset`: the file offset of `vaddr` in the first `LOAD` segment
whose file image holds it. Both additions are plain `u64` ones, so the outer `none` is a
panic. The first addition only runs once `vaddr >= seg_vaddr` holds, because `&&` is
short-circuit. -/
def vaddrToFileOffset : List ProgramHeader → Nat → Option (Option Nat)
  | [], _ => some none
  | ph :: phs, vaddr =>
    if ph.type ≠ some .load then vaddrToFileOffset phs vaddr
    else if ph.virtualAddr.toNat ≤ vaddr then
      match addChecked 64 ph.virtualAddr.toNat ph.fileSize.toNat with
      | none => none
      | some segFileEnd =>
        if vaddr < segFileEnd then
          (addChecked 64 ph.offset.toNat (vaddr - ph.virtualAddr.toNat)).map some
        else vaddrToFileOffset phs vaddr
    else vaddrToFileOffset phs vaddr

/-- The loop of `process_relocations` over the dynamic entries, with the accumulators
`rela_vaddr`, `rela_size` and `rela_ent`. An unknown tag is an invalid binary. -/
def relaInfo :
    List Dyn → Option Nat → Option Nat → Option Nat →
      Except ElfLoadError (Option Nat × Option Nat × Option Nat)
  | [], relaVaddr, relaSize, relaEnt => .ok (relaVaddr, relaSize, relaEnt)
  | d :: ds, relaVaddr, relaSize, relaEnt =>
    match d.tag with
    | none => .error .invalidBinary
    | some .rela => relaInfo ds (some d.un.toNat) relaSize relaEnt
    | some .relaSize => relaInfo ds relaVaddr (some d.un.toNat) relaEnt
    | some .relaEnt => relaInfo ds relaVaddr relaSize (some d.un.toNat)
    | some .other => relaInfo ds relaVaddr relaSize relaEnt

/-- The loop of `process_relocations` that collects the `LOAD` segment ranges
`(seg_start, seg_end)`, at most `MAX_LOAD_SEGMENTS` of them. -/
def loadSegmentRanges :
    List ProgramHeader → List (Nat × Nat) → Except ElfLoadError (List (Nat × Nat))
  | [], ranges => .ok ranges
  | ph :: phs, ranges =>
    if ph.type = some .load then
      if maxLoadSegments ≤ ranges.length then .error .invalidBinary
      else
        match addChecked 64 ph.virtualAddr.toNat ph.memSize.toNat with
        | none => .error .overflow
        | some segEnd => loadSegmentRanges phs (ranges ++ [(ph.virtualAddr.toNat, segEnd)])
    else loadSegmentRanges phs ranges

/-! ## Section 2: Calls of the Mapper -/

/-- A call of the mapper. It keeps the mapper's new state, and `Err(())` becomes
`.map_err(|()| ElfLoadError::MapperError)?`. -/
def callMapper {α : Type} (f : σ → Except Unit α × σ) : LoadM σ α := do
  let st ← get
  let r := f st.mapper
  set { st with mapper := r.2 }
  match r.1 with
  | .ok a => pure a
  | .error () => throw .mapperError

/-- The event enters the log. -/
def emit (e : Event) : LoadM σ Unit :=
  modify fun st => { st with events := st.events ++ [e] }

/-- `mapper.map_region(size, flags)`. -/
def mapRegion (mapper : MemoryMapper σ) (size : Nat) (flags : PageFlags) :
    LoadM σ MappedRegion := do
  let region ← callMapper (mapper.mapRegion · size flags)
  emit (.mapRegion region)
  pure region

/-- `mapper.copy_data(dest, src)`. -/
def copyData (mapper : MemoryMapper σ) (dest : VirtAddr) (src : List UInt8) : LoadM σ Unit := do
  emit (.copyData dest src)
  callMapper (mapper.copyData · dest src)

/-- `mapper.zero_region(dest, size)`. -/
def zeroRegion (mapper : MemoryMapper σ) (dest : VirtAddr) (size : Nat) : LoadM σ Unit := do
  emit (.zeroRegion dest size)
  callMapper (mapper.zeroRegion · dest size)

/-- `mapper.update_flags(region, flags)`. -/
def updateFlags (mapper : MemoryMapper σ) (region : MappedRegion) (flags : PageFlags) :
    LoadM σ Unit := do
  emit (.updateFlags region flags)
  callMapper (mapper.updateFlags · region flags)

/-! ## Section 3: Loading the Segments -/

/-- `Self::load_segment`: copy the file image to `region + (vaddr - min_vaddr)`, zero the
rest of the memory image, and set the segment's flags on all of it. -/
def loadSegment (elf : ElfFile) (ph : ProgramHeader) (regionAddr minVaddr : VirtAddr)
    (mapper : MemoryMapper σ) : LoadM σ Unit := do
  let fileSize := ph.fileSize.toNat
  let memSize := ph.memSize.toNat
  if memSize < fileSize then throw .invalidSegment
  let destOffset ← okOr (subChecked ph.virtualAddr.toNat minVaddr.raw) .overflow
  let destAddr ← okOr (addChecked 64 regionAddr.raw destOffset) .overflow
  if 0 < fileSize then
    -- `offset + file_size` is a plain `usize` addition; `input.get` checks the range
    let fileEnd ← ofOption (addChecked 64 ph.offset.toNat fileSize)
    let fileData ← okOr (sliceRange elf.input ph.offset.toNat fileEnd) .invalidBinary
    copyData mapper (VirtAddr.newExtend destAddr) fileData
  if fileSize < memSize then
    let bssSize := memSize - fileSize
    let bssAddr ← okOr (addChecked 64 destAddr fileSize) .overflow
    zeroRegion mapper (VirtAddr.newExtend bssAddr) bssSize
  updateFlags mapper ⟨VirtAddr.newExtend destAddr, memSize⟩ (computeSegmentFlags ph)

/-- `Self::load_tls_segment`: as `load_segment`, with no flags, and nothing at all for an
empty file image. -/
def loadTlsSegment (ph : ProgramHeader) (input : List UInt8) (regionAddr minVaddr : VirtAddr)
    (mapper : MemoryMapper σ) : LoadM σ Unit := do
  let fileSize := ph.fileSize.toNat
  if fileSize = 0 then pure ()
  else
    let memSize := ph.memSize.toNat
    if memSize < fileSize then throw .invalidSegment
    let fileEnd ← ofOption (addChecked 64 ph.offset.toNat fileSize)
    let fileData ← okOr (sliceRange input ph.offset.toNat fileEnd) .invalidBinary
    let destOffset ← okOr (subChecked ph.virtualAddr.toNat minVaddr.raw) .overflow
    let destAddr ← okOr (addChecked 64 regionAddr.raw destOffset) .overflow
    copyData mapper (VirtAddr.newExtend destAddr) fileData
    if fileSize < memSize then
      let bssAddr ← okOr (addChecked 64 destAddr fileSize) .overflow
      zeroRegion mapper (VirtAddr.newExtend bssAddr) (memSize - fileSize)

/-- The loop of `process_relocations` over `0..num_entries`. Each `R_RELATIVE` entry,
with no symbol, writes `region + addend` at `region + (r_offset - min_vaddr)`, once
`r_offset` lies in some `LOAD` segment. Only the first byte of the eight is checked.
`reloc_file_offset + i * reloc_ent` is plain `u64` arithmetic. -/
def relocate (input : List UInt8) (loadSegments : List (Nat × Nat))
    (relocFileOffset relocEnt : Nat) (regionAddr minVaddr : VirtAddr) : List Nat → LoadM σ Unit
  | [] => pure ()
  | i :: is => do
    let relocOffset ← ofOption ((mulChecked 64 i relocEnt).bind (addChecked 64 relocFileOffset))
    let rela ← ofOption (readRela input relocOffset)
    if rela.getSymbolTableIndex ≠ 0 ∨ rela.getType ≠ rRelative then
      relocate input loadSegments relocFileOffset relocEnt regionAddr minVaddr is
    else
      let inLoadSegment := loadSegments.any fun seg => seg.1 ≤ rela.offset && rela.offset < seg.2
      if !inLoadSegment then throw .relocationError
      let targetDelta ← okOr (subChecked rela.offset minVaddr.raw) .overflow
      let targetAddr ← okOr (addChecked 64 regionAddr.raw targetDelta) .overflow
      let relocatedValue ← okOr (addChecked 64 regionAddr.raw rela.addend) .overflow
      emit (.write targetAddr relocatedValue)
      relocate input loadSegments relocFileOffset relocEnt regionAddr minVaddr is

/-- `Self::process_relocations`: find the `RELA` table through the dynamic entries, check
it lies in the input, and apply it. The writes go through a raw pointer, not through the
mapper. -/
def processRelocations (elf : ElfFile) (ph : ProgramHeader) (regionAddr minVaddr : VirtAddr) :
    LoadM σ Unit := do
  let data ← okOr ph.dynamic .invalidBinary
  let (relaVaddr, relaSize, relaEnt) ← MonadExcept.ofExcept (relaInfo data none none none)
  match relaVaddr with
  | none => pure ()
  | some relocVaddr =>
    let relocSize ← okOr relaSize .invalidBinary
    let relocEnt ← okOr relaEnt .invalidBinary
    if relocEnt ≠ Rela.size then throw .relocationError
    let relocFileOffset ←
      okOr (← ofOption (vaddrToFileOffset elf.programHeaders relocVaddr)) .invalidBinary
    let numEntries := relocSize / relocEnt
    let relocEntryEnd ← okOr (addChecked 64 relocFileOffset relocSize) .overflow
    if elf.input.length < relocEntryEnd then throw .invalidBinary
    let loadSegments ← MonadExcept.ofExcept (loadSegmentRanges elf.programHeaders [])
    relocate elf.input loadSegments relocFileOffset relocEnt regionAddr minVaddr
      (List.range numEntries)

/-- `Self::process_gnu_relro`: make `region + (vaddr - min_vaddr)` read-only for
`mem_size` bytes. The subtraction is a plain `u64` one, and the addition is
`VirtAddr + u64`. -/
def processGnuRelro (ph : ProgramHeader) (regionAddr minVaddr : VirtAddr)
    (mapper : MemoryMapper σ) : LoadM σ Unit := do
  let offset ← ofOption (subChecked ph.virtualAddr.toNat minVaddr.raw)
  let virtAddr ← ofOption (regionAddr.add offset)
  updateFlags mapper ⟨virtAddr, ph.memSize.toNat⟩ PageFlags.r

/-- `Self::load_segments`: the loop over the program headers, with the TLS template as
its accumulator. -/
def loadSegments (elf : ElfFile) (regionAddr minVaddr : VirtAddr) (mapper : MemoryMapper σ) :
    List ProgramHeader → Option TlsTemplate → LoadM σ (Option TlsTemplate)
  | [], tlsTemplate => pure tlsTemplate
  | ph :: phs, tlsTemplate =>
    match ph.type with
    | none => throw .invalidBinary
    | some .load => do
      loadSegment elf ph regionAddr minVaddr mapper
      loadSegments elf regionAddr minVaddr mapper phs tlsTemplate
    | some .tls => do
      loadTlsSegment ph elf.input regionAddr minVaddr mapper
      let start ← ofOption ((subChecked ph.virtualAddr.toNat minVaddr.raw).bind regionAddr.add)
      loadSegments elf regionAddr minVaddr mapper phs
        (some ⟨start, ph.fileSize.toNat, ph.memSize.toNat⟩)
    | some .dynamic => do
      processRelocations elf ph regionAddr minVaddr
      loadSegments elf regionAddr minVaddr mapper phs tlsTemplate
    | some .gnuRelro => do
      processGnuRelro ph regionAddr minVaddr mapper
      loadSegments elf regionAddr minVaddr mapper phs tlsTemplate
    | some .interp => throw .unsupportedFeature
    | some .null | some .note | some .shLib | some .phdr | some .other =>
      loadSegments elf regionAddr minVaddr mapper phs tlsTemplate

/-- `ElfLoader::load`. When loading the segments fails, the region is unmapped (its
result dropped by `.ok()`) and the mapper rolled back. The entry point is placed at
`region + (entry - start)`, with a plain `u64` subtraction and no check against the
range. -/
def load (elf : ElfFile) (mapper : MemoryMapper σ) : LoadM σ LoadedBinary := do
  MonadExcept.ofExcept (sanityCheck elf)
  let addrRange ← ofChecked (calculateAddressRange elf)
  let size ← ofOption addrRange.size
  let region ← mapRegion mapper size PageFlags.rw
  let tlsTemplate ← tryCatch
    (loadSegments elf region.virtAddr (VirtAddr.newExtend addrRange.start) mapper
      elf.programHeaders none)
    fun e => do
      modify fun st => { st with mapper := mapper.rollback (mapper.unmapRegion st.mapper region).2 }
      throw e
  let entryOffset ← ofOption (subChecked elf.header.entryPoint.toNat addrRange.start)
  let runtimeAddr ← ofOption (region.virtAddr.add entryOffset)
  pure ⟨runtimeAddr, tlsTemplate⟩

/-! ## Section 4: What the Loader Leaves Unchecked

The region is sized by the `LOAD` and `TLS` segments alone. Three things are placed at
`region + (vaddr - min_vaddr)` without a check against its end:
- the entry point;
- a `GNU_RELRO` range;
- a relocation, of which only the first byte is checked against a `LOAD` segment.

The file below shows all three. Its one `LOAD` segment spans one page, so the region is
that page. The segment's last byte is the target of an `R_RELATIVE` entry, a `GNU_RELRO`
range lies two pages further, and the entry point lies four pages further. An empty
`TLS` segment sits just past the end, so the TLS template starts at the region's end. -/

/-- A mapper whose every call succeeds, and whose `map_region` returns a region of the
requested size at `base`. -/
def acceptingMapper (base : VirtAddr) : MemoryMapper Unit where
  mapRegion _ size _ := (.ok ⟨base, size⟩, ())
  copyData _ _ _ := (.ok (), ())
  zeroRegion _ _ _ := (.ok (), ())
  updateFlags _ _ _ := (.ok (), ())
  unmapRegion _ _ := (.ok (), ())
  rollback _ := ()

/-- A program header with no flags, and no dynamic entries unless given. -/
def header (type : SegmentType) (vaddr fileSize memSize : UInt64)
    (dynamic : Option (List Dyn)) : ProgramHeader :=
  { sane := true, type := some type, isWrite := false, isExecute := false, offset := 0,
    virtualAddr := vaddr, fileSize := fileSize, memSize := memSize, dynamic := dynamic }

/-- An executable for `x86_64` with its entry point at `entry`. -/
def executableHeader (entry : UInt64) : Header :=
  { sane := true, elfClass := .sixtyFour, data := .littleEndian, osAbi := .systemV,
    machine := .x86_64, type := .executable, entryPoint := entry }

/-- One `Rela` entry: `r_offset = 0xfff`, `r_info = R_RELATIVE`, `r_addend = 0`. -/
def lastByteRela : List UInt8 :=
  [0xff, 0x0f, 0, 0, 0, 0, 0, 0, 8, 0, 0, 0, 0, 0, 0, 0, 0, 0, 0, 0, 0, 0, 0, 0]

/-- The file: a `LOAD` page whose file image is its own `RELA` table, an empty `TLS`
segment at `0x1000`, a `DYNAMIC` segment naming the table, and a `GNU_RELRO` page at
`0x3000`. Its entry point is `0x5000`. -/
def escapingElf : ElfFile where
  input := lastByteRela
  header := executableHeader 0x5000
  programHeaders :=
    [header .load 0 24 0x1000 none, header .tls 0x1000 0 0 none,
     header .dynamic 0 0 0 (some [⟨some .rela, 0⟩, ⟨some .relaSize, 24⟩, ⟨some .relaEnt, 24⟩]),
     header .gnuRelro 0x3000 0 0x1000 none]

/-- A file whose only `LOAD` segment is empty at address `0`: `align_up(0) - 1` goes
below zero. -/
def emptyLoadElf : ElfFile where
  input := []
  header := executableHeader 0
  programHeaders := [header .load 0 0 0 none]

/-- The user address at which the mapper places the region. -/
def regionBase : VirtAddr := ⟨0x400000, by norm_num⟩

/-- The loader succeeds on a file while leaving the region it mapped. The mapper mapped
one page at `regionBase`, every call succeeded, and yet:
- the entry point is four pages past the region;
- the TLS template starts at the region's end;
- some access lies outside the region, namely the eight-byte relocation write at its last
  byte and the `GNU_RELRO` flag update.

A file whose only `LOAD` segment is empty makes `load` panic, whatever the mapper. -/
theorem load_leaves_region :
    (∃ bin st, (load escapingElf (acceptingMapper regionBase)).run ⟨(), []⟩ =
        some (.ok bin, st) ∧
      Event.mapRegion ⟨regionBase, 0x1000⟩ ∈ st.events ∧
      ¬ bin.entryPoint.raw < regionBase.raw + 0x1000 ∧
      (∃ tls ∈ bin.tlsTemplate, ¬ tls.start.raw < regionBase.raw + 0x1000) ∧
      ¬ ∀ e ∈ st.events, e.Within regionBase.raw 0x1000) ∧
    ∀ (σ : Type) (mapper : MemoryMapper σ) (st : LoadState σ),
      (load emptyLoadElf mapper).run st = none := by
  refine ⟨?_, fun σ mapper st => ?_⟩
  · -- the run is evaluated whole: every step of it is on closed data
    have hrun : (load escapingElf (acceptingMapper regionBase)).run ⟨(), []⟩ =
        some (.ok ⟨VirtAddr.newExtend 0x405000, some ⟨VirtAddr.newExtend 0x401000, 0, 0⟩⟩,
          ⟨(), [.mapRegion ⟨regionBase, 0x1000⟩, .copyData regionBase lastByteRela,
            .zeroRegion (VirtAddr.newExtend 0x400018) 0xfe8,
            .updateFlags ⟨regionBase, 0x1000⟩ PageFlags.r, .write 0x400fff 0x400000,
            .updateFlags ⟨VirtAddr.newExtend 0x403000, 0x1000⟩ PageFlags.r]⟩) := rfl
    exact ⟨_, _, hrun, by decide⟩
  · -- `calculate_address_range` panics before the mapper is called
    have hrange : calculateAddressRange emptyLoadElf = none := by decide
    have hsane : sanityCheck emptyLoadElf = .ok () := by decide
    simp only [load, run_bind, hsane, run_ofExcept_ok, hrange, run_ofChecked, Option.map_none]

end ElfLoader

end Beskar.Elf
