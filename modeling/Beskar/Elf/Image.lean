import Beskar.Elf.Loader

/-!
# The Bytes the ELF Loader Leaves

The loader's log (`Event`) says what it asked of memory; this module says what that does
to the bytes. The kernel's `ElfMemoryMapper` (`kernel/src/process/binary/elf.rs`)
implements `copy_data` as `copy_nonoverlapping` and `zero_region` as `write_bytes` at the
virtual address; a relocation is the unaligned write of a little-endian word; mapping a
region and changing flags move no byte. The region's bytes after a load are the log
folded over what memory held before (`memoryAfter`), and no result here depends on that
first content.

The image a load is meant to leave (`referenceImage`) is built from the `LOAD` segments
alone, each at `region + (vaddr - min_vaddr)`, with the file's `R_RELATIVE` relocations
written over it.

Memory is `Lib.Memory`, with the byte writes of `Lib.Slice`.

## Contents
- §1 events on memory, and the frame lemma over a log;
- §2 the reference image;
- §3 what one header leaves: a `LOAD` segment writes its image over its range, and a
  `TLS` segment zeroes the range of its `.tbss`, whatever lay there;
- §4 two files whose load differs from the reference.
-/

namespace Beskar.Elf

open Beskar.Arch (VirtAddr canonicalize)
open Beskar.Lib Fallible

/-! ## §1 Events on Memory -/

/-- What an event does to memory. -/
def Event.apply (m : Memory) : Event → Memory
  | .mapRegion _ => m
  | .copyData dest src => m.writeBytes dest.raw src
  | .zeroRegion dest size => m.zeroBytes dest.raw size
  | .updateFlags _ _ => m
  | .write target value => m.writeBytes target (leBytes value)

/-- Memory after the log `es`, from `m`. -/
def memoryAfter (m : Memory) (es : List Event) : Memory := es.foldl Event.apply m

@[simp] theorem memoryAfter_nil (m : Memory) : memoryAfter m [] = m := rfl

@[simp] theorem memoryAfter_cons (m : Memory) (e : Event) (es : List Event) :
    memoryAfter m (e :: es) = memoryAfter (e.apply m) es := rfl

theorem memoryAfter_append (m : Memory) (es fs : List Event) :
    memoryAfter m (es ++ fs) = memoryAfter (memoryAfter m es) fs :=
  List.foldl_append

/-- An event inside `[base, base + size)` leaves every byte outside it. -/
theorem Event.apply_of_within {e : Event} {base size a : Nat} (he : e.Within base size)
    (ha : a < base ∨ base + size ≤ a) (m : Memory) : e.apply m a = m a := by
  cases e with
  | mapRegion => rfl
  | copyData dest src =>
    simp only [Event.Within] at he
    exact Memory.writeBytes_outside (by omega)
  | zeroRegion dest n =>
    simp only [Event.Within] at he
    exact Memory.zeroBytes_outside (by omega)
  | updateFlags => rfl
  | write target value =>
    simp only [Event.Within] at he
    exact Memory.writeBytes_outside (by rw [length_leBytes]; omega)

/-- The frame lemma of a log: a log of events inside `[base, base + size)` leaves every
byte outside it. -/
theorem memoryAfter_of_within {es : List Event} {base size a : Nat}
    (hes : ∀ e ∈ es, e.Within base size) (ha : a < base ∨ base + size ≤ a) (m : Memory) :
    memoryAfter m es a = m a := by
  induction es generalizing m with
  | nil => rfl
  | cons e es ih =>
    rw [memoryAfter_cons, ih (fun e' he' => hes e' (List.mem_cons_of_mem e he'))]
    exact Event.apply_of_within (hes e List.mem_cons_self) ha m

/-! ## §2 The Reference Image -/

namespace ElfLoader

/-- Where a segment's memory image starts in the region: `region + (vaddr - min_vaddr)`. -/
def segmentDest (regionAddr minVaddr : Nat) (ph : ProgramHeader) : Nat :=
  regionAddr + (ph.virtualAddr.toNat - minVaddr)

/-- Byte `i` of a segment's memory image: its file byte in the file image, zero in the
tail. -/
def segmentByte (input : List UInt8) (ph : ProgramHeader) (i : Nat) : UInt8 :=
  if i < ph.fileSize.toNat then input.getD (ph.offset.toNat + i) 0 else 0

/-- The image of the `LOAD` segments alone: the byte of the first `LOAD` segment whose
memory image holds the address, and zero where none does. With pairwise disjoint segments
the first is the only one. -/
def loadImage (elf : ElfFile) (regionAddr minVaddr : Nat) : Memory := fun a =>
  match elf.programHeaders.find? (fun ph => ph.type = some .load &&
      decide (segmentDest regionAddr minVaddr ph ≤ a) &&
      decide (a < segmentDest regionAddr minVaddr ph + ph.memSize.toNat)) with
  | some ph => segmentByte elf.input ph (a - segmentDest regionAddr minVaddr ph)
  | none => 0

/-- The `R_RELATIVE` entries, with no symbol, of the `RELA` table each `DYNAMIC` header
names, read from the file where `process_relocations` finds them. -/
def relativeRelocations (elf : ElfFile) : List Rela :=
  elf.programHeaders.flatMap fun ph =>
    match ph.type, ph.dynamic with
    | some .dynamic, some ds =>
      match relaInfo ds none none none with
      | .ok (some vaddr, some size, some ent) =>
        match vaddrToFileOffset elf.programHeaders vaddr with
        | some (some off) =>
          ((List.range (size / ent)).filterMap fun i => readRela elf.input (off + i * ent)).filter
            fun r => r.getSymbolTableIndex = 0 && r.getType = rRelative
        | _ => []
      | _ => []
    | _, _ => []

/-- The image a load should leave: the `LOAD` image, with the word `region + addend` of
each relocation at `region + (r_offset - min_vaddr)`. -/
def referenceImage (elf : ElfFile) (regionAddr minVaddr : Nat) : Memory :=
  (relativeRelocations elf).foldl
    (fun m r => m.writeBytes (regionAddr + (r.offset - minVaddr)) (leBytes (regionAddr + r.addend)))
    (loadImage elf regionAddr minVaddr)

/-! ## §3 What One Header Leaves

A header's work on memory is its log. The lemmas first read the log off a successful run,
then say what the log leaves at each byte of the header's range. -/

variable {σ : Type} {mapper : MemoryMapper σ} {st st' : LoadState σ}

/-- A mapper call that succeeded has logged its event, and only it. -/
theorem emit_callMapper_events {α : Type} {e : Event} {f : σ → Except Unit α × σ} {a : α}
    (h : (emit e >>= fun _ => callMapper f).run st = some (.ok a, st')) :
    st'.events = st.events ++ [e] := by
  simp only [emit, callMapper, run_bind, run_modify, run_get, run_set] at h
  split at h
  · simp at h
    rw [← h.2]
  · simp at h

/-- The zeroing of a segment's tail `[file_size, mem_size)`, from `dest`, when it has one. -/
def bssEvents (fileSize memSize dest : Nat) : List Event :=
  if fileSize < memSize then
    [.zeroRegion (VirtAddr.newExtend (dest + fileSize)) (memSize - fileSize)]
  else []

/-- The end of `load_segment`: the zeroing of the tail, when there is one, then the flags. -/
theorem bss_events {fs ms dest : Nat} {flags : PageFlags}
    (h : (if fs < ms then do
            let bssAddr ← okOr (addChecked 64 dest fs) ElfLoadError.overflow
            zeroRegion mapper (VirtAddr.newExtend bssAddr) (ms - fs)
            updateFlags mapper ⟨VirtAddr.newExtend dest, ms⟩ flags
          else updateFlags mapper ⟨VirtAddr.newExtend dest, ms⟩ flags).run st =
        some (.ok (), st')) :
    st'.events =
      st.events ++ bssEvents fs ms dest ++ [.updateFlags ⟨VirtAddr.newExtend dest, ms⟩ flags] := by
  unfold bssEvents
  split at h
  · rename_i hbss
    cases hb : addChecked 64 dest fs with
    | none => simp [hb] at h
    | some b =>
      obtain ⟨-, rfl⟩ := addChecked_eq_some.mp hb
      rw [hb, okOr, pure_bind, run_bind_eq_ok] at h
      obtain ⟨_, s1, hz, hf⟩ := h
      rw [emit_callMapper_events hf, emit_callMapper_events hz, if_pos hbss]
  · rename_i hbss
    rw [emit_callMapper_events h, if_neg hbss, List.append_nil]

/-- The copy of a segment's file image to `dest`, when it has one. -/
def copyEvents (input : List UInt8) (ph : ProgramHeader) (dest : Nat) : List Event :=
  if 0 < ph.fileSize.toNat then
    [.copyData (VirtAddr.newExtend dest) ((input.drop ph.offset.toNat).take ph.fileSize.toNat)]
  else []

/-- The log of a `LOAD` segment whose memory image starts at `dest`. -/
def loadSegmentEvents (input : List UInt8) (ph : ProgramHeader) (dest : Nat) : List Event :=
  copyEvents input ph dest ++ bssEvents ph.fileSize.toNat ph.memSize.toNat dest ++
    [.updateFlags ⟨VirtAddr.newExtend dest, ph.memSize.toNat⟩ (computeSegmentFlags ph)]

/-- A successful `load_segment` has checked the segment and logged `loadSegmentEvents`. -/
theorem loadSegment_events {elf : ElfFile} {ph : ProgramHeader} {regionAddr minVaddr : VirtAddr}
    (h : (loadSegment elf ph regionAddr minVaddr mapper).run st = some (.ok (), st')) :
    minVaddr.raw ≤ ph.virtualAddr.toNat ∧ ph.fileSize.toNat ≤ ph.memSize.toNat ∧
      (0 < ph.fileSize.toNat → ph.offset.toNat + ph.fileSize.toNat ≤ elf.input.length) ∧
      st'.events = st.events ++
        loadSegmentEvents elf.input ph (segmentDest regionAddr.raw minVaddr.raw ph) := by
  unfold loadSegment at h
  simp only at h
  by_cases hfm : ph.memSize.toNat < ph.fileSize.toNat
  · simp [hfm] at h
  rw [if_neg hfm] at h
  -- `dest_offset` and `dest_addr`
  obtain ⟨off, hoff, h⟩ := run_okOr_bind_eq_ok.mp h
  obtain ⟨dest, hdest, h⟩ := run_okOr_bind_eq_ok.mp h
  obtain ⟨hmin, rfl⟩ := subChecked_eq_some.mp hoff
  obtain ⟨-, rfl⟩ := addChecked_eq_some.mp hdest
  refine ⟨hmin, Nat.not_lt.mp hfm, ?_⟩
  unfold loadSegmentEvents copyEvents segmentDest
  split at h
  · -- the file image, sliced out of the input, is copied before the tail
    rename_i hfs
    obtain ⟨fileEnd, hend, h⟩ := run_ofOption_bind_eq_ok.mp h
    obtain ⟨data, hdata, h⟩ := run_okOr_bind_eq_ok.mp h
    obtain ⟨-, rfl⟩ := addChecked_eq_some.mp hend
    obtain ⟨hin, rfl⟩ := sliceRange_eq_some_iff.mp hdata
    obtain ⟨_, s1, hcopy, htail⟩ := run_bind_eq_ok.mp h
    rw [Nat.add_sub_cancel_left] at hcopy
    rw [bss_events htail, emit_callMapper_events hcopy, if_pos hfs]
    exact ⟨fun _ => hin.2, by simp only [List.append_assoc]⟩
  · rename_i hfs
    rw [bss_events h, if_neg hfs]
    exact ⟨fun h => absurd h hfs, by simp only [List.nil_append, List.append_assoc]⟩

variable {input : List UInt8} {ph : ProgramHeader} {dest : Nat}

/-- A `LOAD` segment's log keeps to its memory image `[dest, dest + mem_size)` when that
lies in the lower half. -/
theorem loadSegmentEvents_within (hfm : ph.fileSize.toNat ≤ ph.memSize.toNat)
    (hlow : dest + ph.memSize.toNat < 2 ^ 47) :
    ∀ e ∈ loadSegmentEvents input ph dest, e.Within dest ph.memSize.toNat := by
  intro e he
  simp only [loadSegmentEvents, copyEvents, bssEvents, List.mem_append] at he
  rcases he with (he | he) | he
  · -- the copy of the file image, at most `file_size` bytes
    split at he
    · obtain rfl := List.mem_singleton.mp he
      have hlen : (List.take ph.fileSize.toNat (List.drop ph.offset.toNat input)).length ≤
          ph.fileSize.toNat := List.length_take_le _ _
      simp only [Event.Within, VirtAddr.newExtend_raw_of_lt (show dest < 2 ^ 47 by omega)]
      omega
    · cases he
  · -- the zeroing of the tail
    split at he
    · obtain rfl := List.mem_singleton.mp he
      simp only [Event.Within, VirtAddr.newExtend_raw_of_lt (show dest + ph.fileSize.toNat < 2 ^ 47 by omega)]
      omega
    · cases he
  · obtain rfl := List.mem_singleton.mp he
    simp only [Event.Within, VirtAddr.newExtend_raw_of_lt (show dest < 2 ^ 47 by omega)]
    omega

/-- The copy leaves the file bytes over the file image and every other byte as it was. -/
theorem memoryAfter_copyEvents
    (hin : 0 < ph.fileSize.toNat → ph.offset.toNat + ph.fileSize.toNat ≤ input.length)
    (hlow : dest < 2 ^ 47) (m : Memory) (i : Nat) :
    memoryAfter m (copyEvents input ph dest) (dest + i) =
      if i < ph.fileSize.toNat then input.getD (ph.offset.toNat + i) 0 else m (dest + i) := by
  unfold copyEvents
  split
  · rename_i hfs
    have hlen : ((input.drop ph.offset.toNat).take ph.fileSize.toNat).length = ph.fileSize.toNat := by
      simp only [List.length_take, List.length_drop]
      have := hin hfs
      omega
    simp only [memoryAfter_cons, memoryAfter_nil, Event.apply, VirtAddr.newExtend_raw_of_lt hlow]
    by_cases hfi : i < ph.fileSize.toNat
    · rw [if_pos hfi, Memory.writeBytes_inside (by omega) (by omega), Nat.add_sub_cancel_left]
      simp [List.getD_eq_getElem?_getD, hfi, List.getElem?_drop]
    · rw [if_neg hfi]
      exact Memory.writeBytes_outside (by omega)
  · rw [if_neg (by omega)]
    rfl

/-- The zeroing of the tail leaves zero over `[file_size, mem_size)` of the image and
every other byte as it was. -/
theorem memoryAfter_bssEvents {fs ms : Nat} (hlow : dest + ms < 2 ^ 47) (m : Memory) (i : Nat) :
    memoryAfter m (bssEvents fs ms dest) (dest + i) =
      if fs ≤ i ∧ i < ms then 0 else m (dest + i) := by
  unfold bssEvents
  split
  · rename_i hbss
    simp only [memoryAfter_cons, memoryAfter_nil, Event.apply,
      VirtAddr.newExtend_raw_of_lt (show dest + fs < 2 ^ 47 by omega)]
    by_cases hi : fs ≤ i ∧ i < ms
    · rw [if_pos hi]
      exact Memory.zeroBytes_inside (by omega) (by omega)
    · rw [if_neg hi]
      exact Memory.zeroBytes_outside (by omega)
  · rw [if_neg (by omega)]
    rfl

/-- What a `LOAD` segment's log leaves over its memory image: byte `i` of the image,
whatever memory held before. -/
theorem memoryAfter_loadSegmentEvents
    (hin : 0 < ph.fileSize.toNat → ph.offset.toNat + ph.fileSize.toNat ≤ input.length)
    (hlow : dest + ph.memSize.toNat < 2 ^ 47) (m : Memory) {i : Nat} (hi : i < ph.memSize.toNat) :
    memoryAfter m (loadSegmentEvents input ph dest) (dest + i) = segmentByte input ph i := by
  rw [loadSegmentEvents, memoryAfter_append, memoryAfter_append, memoryAfter_cons,
    memoryAfter_nil, Event.apply, memoryAfter_bssEvents hlow, memoryAfter_copyEvents hin (by omega)]
  unfold segmentByte
  -- the tail's zeroing wins over `[file_size, mem_size)`, the copy below it
  by_cases hfi : i < ph.fileSize.toNat
  · rw [if_neg (by omega), if_pos hfi, if_pos hfi]
  · rw [if_pos ⟨Nat.not_lt.mp hfi, hi⟩, if_neg hfi]

/-- The log of a `TLS` segment whose memory image starts at `dest`: nothing for an empty
file image, else the copy of the `.tdata` and the zeroing of the `.tbss`. -/
def tlsSegmentEvents (input : List UInt8) (ph : ProgramHeader) (dest : Nat) : List Event :=
  if ph.fileSize.toNat = 0 then []
  else copyEvents input ph dest ++ bssEvents ph.fileSize.toNat ph.memSize.toNat dest

/-- A successful `load_tls_segment` has logged `tlsSegmentEvents`, after checking a
segment with a file image. -/
theorem loadTlsSegment_events {input : List UInt8} {ph : ProgramHeader}
    {regionAddr minVaddr : VirtAddr}
    (h : (loadTlsSegment ph input regionAddr minVaddr mapper).run st = some (.ok (), st')) :
    (0 < ph.fileSize.toNat → minVaddr.raw ≤ ph.virtualAddr.toNat ∧
        ph.fileSize.toNat ≤ ph.memSize.toNat ∧ ph.offset.toNat + ph.fileSize.toNat ≤ input.length) ∧
      st'.events = st.events ++
        tlsSegmentEvents input ph (segmentDest regionAddr.raw minVaddr.raw ph) := by
  unfold loadTlsSegment at h
  simp only at h
  unfold tlsSegmentEvents
  split at h
  · -- an empty `.tdata`: nothing is done
    rename_i hfs
    simp only [run_pure, Option.some.injEq, Prod.mk.injEq, true_and] at h
    rw [if_pos hfs, List.append_nil, h]
    exact ⟨fun h => absurd hfs (by omega), rfl⟩
  rename_i hfs
  by_cases hfm : ph.memSize.toNat < ph.fileSize.toNat
  · simp [hfm] at h
  rw [if_neg hfm] at h
  -- the `.tdata` is sliced out of the input, and its destination computed
  obtain ⟨fileEnd, hend, h⟩ := run_ofOption_bind_eq_ok.mp h
  obtain ⟨data, hdata, h⟩ := run_okOr_bind_eq_ok.mp h
  obtain ⟨off, hoff, h⟩ := run_okOr_bind_eq_ok.mp h
  obtain ⟨dest, hdest, h⟩ := run_okOr_bind_eq_ok.mp h
  obtain ⟨-, rfl⟩ := addChecked_eq_some.mp hend
  obtain ⟨hin, rfl⟩ := sliceRange_eq_some_iff.mp hdata
  obtain ⟨hmin, rfl⟩ := subChecked_eq_some.mp hoff
  obtain ⟨-, rfl⟩ := addChecked_eq_some.mp hdest
  obtain ⟨_, s1, hcopy, htail⟩ := run_bind_eq_ok.mp h
  refine ⟨fun _ => ⟨hmin, Nat.not_lt.mp hfm, hin.2⟩, ?_⟩
  rw [if_neg hfs]
  unfold copyEvents bssEvents segmentDest
  rw [Nat.add_sub_cancel_left] at hcopy
  rw [if_pos (by omega), ← List.append_assoc, ← emit_callMapper_events hcopy]
  split at htail
  · -- the `.tbss` is zeroed after the `.tdata`
    rename_i hbss
    obtain ⟨b, hb, htail⟩ := run_okOr_bind_eq_ok.mp htail
    obtain ⟨-, rfl⟩ := addChecked_eq_some.mp hb
    rw [emit_callMapper_events htail, if_pos hbss]
  · rename_i hbss
    simp only [run_pure, Option.some.injEq, Prod.mk.injEq, true_and] at htail
    rw [if_neg hbss, List.append_nil, htail]

/-- What a `TLS` segment's log leaves at byte `i` of its range: the segment's own image,
the `.tdata` and then zeros for the `.tbss`, whatever lay there before. -/
theorem memoryAfter_tlsSegmentEvents {input : List UInt8} {ph : ProgramHeader} {dest : Nat}
    (hfm : ph.fileSize.toNat ≤ ph.memSize.toNat)
    (hin : 0 < ph.fileSize.toNat → ph.offset.toNat + ph.fileSize.toNat ≤ input.length)
    (hlow : dest + ph.memSize.toNat < 2 ^ 47) (m : Memory) (i : Nat) :
    memoryAfter m (tlsSegmentEvents input ph dest) (dest + i) =
      if 0 < ph.fileSize.toNat ∧ i < ph.memSize.toNat then segmentByte input ph i
      else m (dest + i) := by
  unfold tlsSegmentEvents
  split
  · rename_i hfs
    rw [if_neg (by omega)]
    rfl
  · rename_i hfs
    rw [memoryAfter_append, memoryAfter_bssEvents hlow, memoryAfter_copyEvents hin (by omega)]
    unfold segmentByte
    -- the `.tdata`, the `.tbss`, and the bytes above the segment
    by_cases hfi : i < ph.fileSize.toNat
    · rw [if_neg (by omega), if_pos hfi, if_pos ⟨by omega, by omega⟩, if_pos hfi]
    · by_cases hmi : i < ph.memSize.toNat
      · rw [if_pos ⟨by omega, hmi⟩, if_pos ⟨by omega, hmi⟩, if_neg hfi]
      · rw [if_neg (by omega), if_neg hfi, if_neg (by omega)]

/-! ## §4 Two Files the Loader Gets Wrong -/

/-- A `TLS` segment inside a `LOAD` segment, as a linker lays out `.tdata`, `.tbss` and
`.data`: the `LOAD` file image is sixteen bytes of `.tdata` and sixteen bytes `0xaa` of
`.data`; the `TLS` segment has the `.tdata` as its file image and sixteen bytes of
`.tbss` after it, at the addresses of the `.data`. -/
def tbssElf : ElfFile where
  input := List.replicate 16 1 ++ List.replicate 16 0xaa
  header := executableHeader 0
  programHeaders := [header .load 0 0x20 0x20 none, header .tls 0 0x10 0x20 none]

/-- A `DYNAMIC` header listed before the `LOAD` segment that holds its relocation's
target. The file image is one `Rela` entry (`r_offset = 0x18`, `R_RELATIVE`,
`r_addend = 0x100`) followed by the eight bytes at `0x18` it relocates. -/
def dynamicFirstElf : ElfFile where
  input := [0x18, 0, 0, 0, 0, 0, 0, 0, 8, 0, 0, 0, 0, 0, 0, 0, 0, 1, 0, 0, 0, 0, 0, 0] ++
    List.replicate 8 0
  header := executableHeader 0
  programHeaders :=
    [header .dynamic 0 0 0 (some [⟨some .rela, 0⟩, ⟨some .relaSize, 24⟩, ⟨some .relaEnt, 24⟩]),
     header .load 0 0x20 0x20 none]

/-- The loader's image differs from the reference on each file, whatever memory held
before, though the load succeeds and the file's one `LOAD` segment lies in the mapped page:
- in `tbssElf` the zeroing of the `.tbss` erases the `.data` byte at offset `0x10`, which
  is `0xaa` in the reference;
- in `dynamicFirstElf` the `LOAD` copy, made after the relocation, puts the file byte at
  `0x19` back over byte 1 of the relocated word `0x400100`. -/
theorem load_differs_from_reference :
    (∃ bin st, (load tbssElf (acceptingMapper regionBase)).run ⟨(), []⟩ = some (.ok bin, st) ∧
        Event.mapRegion ⟨regionBase, 0x1000⟩ ∈ st.events ∧
        calculateAddressRange tbssElf = some (.ok ⟨0, 0xfff⟩) ∧
        ∀ m, memoryAfter m st.events (regionBase.raw + 0x10) = 0 ∧
          referenceImage tbssElf regionBase.raw 0 (regionBase.raw + 0x10) = 0xaa) ∧
      (∃ bin st, (load dynamicFirstElf (acceptingMapper regionBase)).run ⟨(), []⟩ =
          some (.ok bin, st) ∧
        Event.mapRegion ⟨regionBase, 0x1000⟩ ∈ st.events ∧
        calculateAddressRange dynamicFirstElf = some (.ok ⟨0, 0xfff⟩) ∧
        ∀ m, memoryAfter m st.events (regionBase.raw + 0x19) = 0 ∧
          referenceImage dynamicFirstElf regionBase.raw 0 (regionBase.raw + 0x19) = 1) := by
  -- the two runs, with their logs cut at the headers
  have htbss : (load tbssElf (acceptingMapper regionBase)).run ⟨(), []⟩ =
      some (.ok ⟨VirtAddr.newExtend 0x400000, some ⟨VirtAddr.newExtend 0x400000, 0x10, 0x20⟩⟩,
        ⟨(), [.mapRegion ⟨regionBase, 0x1000⟩] ++
          loadSegmentEvents tbssElf.input (header .load 0 0x20 0x20 none) regionBase.raw ++
          tlsSegmentEvents tbssElf.input (header .tls 0 0x10 0x20 none) regionBase.raw⟩) := rfl
  have hdyn : (load dynamicFirstElf (acceptingMapper regionBase)).run ⟨(), []⟩ =
      some (.ok ⟨VirtAddr.newExtend 0x400000, none⟩,
        ⟨(), [.mapRegion ⟨regionBase, 0x1000⟩, .write 0x400018 0x400100] ++
          loadSegmentEvents dynamicFirstElf.input (header .load 0 0x20 0x20 none)
            regionBase.raw⟩) := rfl
  refine ⟨⟨_, _, htbss, by decide, by decide +kernel, fun m => ⟨?_, by decide +kernel⟩⟩,
    ⟨_, _, hdyn, by decide, by decide +kernel, fun m => ⟨?_, by decide +kernel⟩⟩⟩
  · -- the `TLS` segment writes last over `[0, 0x20)`, and byte `0x10` of its image is `.tbss`
    rw [memoryAfter_append, memoryAfter_tlsSegmentEvents (by decide) (by decide) (by decide),
      if_pos (by decide)]
    decide
  · -- the `LOAD` segment writes last over `[0, 0x20)`, its file byte at `0x19`
    rw [memoryAfter_append, memoryAfter_loadSegmentEvents (by decide) (by decide) _ (by decide)]
    decide

end ElfLoader

end Beskar.Elf
