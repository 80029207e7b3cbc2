import Beskar.Arch.Addrs
import Beskar.Lib.Slice

/-!
# ELF Files as the Loader Reads Them

The data of the generic ELF loader (`kernel/src/process/binary/elf`):
- the parsed file it reads;
- the `MemoryMapper` interface it calls;
- what it returns;
- what it does to memory.

The loader reads its input through the `xmas_elf` crate, and what that crate returns is
the model's input (`ElfFile`). It holds:
- the ELF header fields the loader checks;
- for each program header, its fields and `get_type()`, which fails on an unknown type;
- for a `Dynamic` header, `get_data()` as the list of its dynamic entries;
- the results (`sane`) of the crate's two sanity checks, `header::sanity_check` and
  `program::sanity_check`.

The raw bytes of the input stay in the file (`input`). The loader slices them for segment
data, and reads relocation entries from them with an unaligned pointer read.

The target is `x86_64`: `R_RELATIVE = 8`, machine `X86_64`, and little-endian words.

## Main definitions
- `ElfFile`, `ProgramHeader`, `Dyn`; `Rela` and `readRela`, the unsafe read
- `MemoryMapper`: the trait, as functions over the state of an implementation
- `Event`: what the loader does to memory, that is the mapper calls and its own
  relocation writes
- `Event.Within`: the bytes an event touches lie inside a range
-/

namespace Beskar.Elf

open Beskar.Arch (VirtAddr)
open Beskar.Lib

/-! ## Section 1: The Parsed File -/

/-- `xmas_elf::header::Class`. -/
inductive ElfClass
  | none | thirtyTwo | sixtyFour | other
deriving DecidableEq, Repr

/-- `xmas_elf::header::Data`. -/
inductive DataEncoding
  | none | littleEndian | bigEndian | other
deriving DecidableEq, Repr

/-- `xmas_elf::header::OsAbi`, with the ABIs the loader refuses folded into `other`. -/
inductive OsAbi
  | systemV | linux | other
deriving DecidableEq, Repr

/-- `xmas_elf::header::Machine`, with the machines the loader refuses folded into `other`. -/
inductive Machine
  | x86_64 | aarch64 | other
deriving DecidableEq, Repr

/-- `xmas_elf::header::Type`. -/
inductive ObjectType
  | none | relocatable | executable | sharedObject | core | processorSpecific
deriving DecidableEq, Repr

/-- The ELF header, as `elf.header.pt1` and `elf.header.pt2` report it. -/
structure Header where
  /-- `header::sanity_check(elf)` succeeds. -/
  sane : Bool
  elfClass : ElfClass
  data : DataEncoding
  osAbi : OsAbi
  machine : Machine
  type : ObjectType
  /-- `pt2.entry_point()`. -/
  entryPoint : UInt64

/-- `xmas_elf::program::Type`, with the OS- and processor-specific types other than
`GNU_RELRO` folded into `other`. -/
inductive SegmentType
  | null | load | dynamic | interp | note | shLib | phdr | tls | gnuRelro | other
deriving DecidableEq, Repr

/-- `xmas_elf::dynamic::Tag`, with the tags the loader ignores folded into `other`. -/
inductive DynTag
  | rela | relaSize | relaEnt | other
deriving DecidableEq, Repr

/-- An entry of a `Dynamic64` segment. `get_tag` fails (`none`) on a tag the crate does
not know. For the three tags the loader reads, the accessor it uses returns the `d_un`
word: `get_ptr` for `DT_RELA`, and `get_val` for `DT_RELASZ` and `DT_RELAENT`. -/
structure Dyn where
  tag : Option DynTag
  un : UInt64

/-- A program header. -/
structure ProgramHeader where
  /-- `program::sanity_check(ph, elf)` succeeds. -/
  sane : Bool
  /-- `get_type()`, `none` where it fails. -/
  type : Option SegmentType
  /-- `flags().is_write()`. -/
  isWrite : Bool
  /-- `flags().is_execute()`. -/
  isExecute : Bool
  offset : UInt64
  virtualAddr : UInt64
  fileSize : UInt64
  memSize : UInt64
  /-- `get_data(elf)` when it returns `SegmentData::Dynamic64`: the entries. It is `none`
  when the call fails or returns another variant. -/
  dynamic : Option (List Dyn)

/-- `ElfFile`: the input bytes and what `xmas_elf` parsed from them. -/
structure ElfFile where
  input : List UInt8
  header : Header
  programHeaders : List ProgramHeader

/-! ## Section 2: Relocation Entries -/

/-- `sections::Rela<P64>`: the words `r_offset`, `r_info` and `r_addend`. -/
structure Rela where
  offset : Nat
  info : Nat
  addend : Nat

namespace Rela

/-- `size_of::<Rela<P64>>()`. -/
def size : Nat := 24

/-- `get_symbol_table_index`: `(r_info >> 32) as u32`. -/
def getSymbolTableIndex (r : Rela) : Nat := r.info / 2 ^ 32

/-- `get_type`: `(r_info & 0xffff_ffff) as u32`. -/
def getType (r : Rela) : Nat := r.info % 2 ^ 32

end Rela

/-- `input.as_ptr().byte_add(offset).cast::<Rela<P64>>().read_unaligned()`: the three
little-endian words at `offset`. The read is not bounds-checked; out of bounds it is
undefined behaviour, modelled as a panic (`none`). -/
def readRela (input : List UInt8) (offset : Nat) : Option Rela :=
  if offset + Rela.size ≤ input.length then
    some ⟨leField input offset 8, leField input (offset + 8) 8, leField input (offset + 16) 8⟩
  else none

theorem readRela_of_le {input : List UInt8} {offset : Nat}
    (h : offset + Rela.size ≤ input.length) : (readRela input offset).isSome := by
  simp [readRela, h]

/-! ## Section 3: Errors, Results and the Mapper -/

/-- `ElfLoadError`. -/
inductive ElfLoadError
  | invalidBinary | unsupportedFeature | mapperError | relocationError | invalidSegment
  | overflow
deriving DecidableEq, Repr

/-- `PageFlags(u8)`. -/
structure PageFlags where
  bits : UInt8
deriving DecidableEq, Repr

namespace PageFlags

def present : UInt8 := 0b0001
def writable : UInt8 := 0b0010
def executable : UInt8 := 0b0100

def rx : PageFlags := ⟨present ||| executable⟩
def rwx : PageFlags := ⟨present ||| writable ||| executable⟩
def r : PageFlags := ⟨present⟩
def rw : PageFlags := ⟨present ||| writable⟩

end PageFlags

/-- `MappedRegion`: a start address and a size in bytes. -/
structure MappedRegion where
  virtAddr : VirtAddr
  size : Nat
deriving DecidableEq

/-- `trait MemoryMapper`, over the state `σ` of an implementation: each method returns
its result and the new state. -/
structure MemoryMapper (σ : Type) where
  mapRegion : σ → Nat → PageFlags → Except Unit MappedRegion × σ
  copyData : σ → VirtAddr → List UInt8 → Except Unit Unit × σ
  zeroRegion : σ → VirtAddr → Nat → Except Unit Unit × σ
  updateFlags : σ → MappedRegion → PageFlags → Except Unit Unit × σ
  unmapRegion : σ → MappedRegion → Except Unit Unit × σ
  rollback : σ → σ

/-- `TlsTemplate`. -/
structure TlsTemplate where
  start : VirtAddr
  fileSize : Nat
  memSize : Nat
deriving DecidableEq

/-- `LoadedBinary`. Its entry point is the address that `transmute` turns into an
`extern "C" fn()`. -/
structure LoadedBinary where
  entryPoint : VirtAddr
  tlsTemplate : Option TlsTemplate
deriving DecidableEq

/-! ## Section 4: What the Loader Does to Memory -/

/-- The loader's effects on memory, in order. They are the mapper calls, and the
relocation writes it makes itself through a raw pointer. -/
inductive Event
  | mapRegion (region : MappedRegion)
  | copyData (dest : VirtAddr) (src : List UInt8)
  | zeroRegion (dest : VirtAddr) (size : Nat)
  | updateFlags (region : MappedRegion) (flags : PageFlags)
  /-- `(target as *mut u64).write_unaligned(value)`: eight bytes at `target`. -/
  | write (target value : Nat)
deriving DecidableEq

/-- The bytes the event touches lie in `[base, base + size)`. Mapping the region itself
touches none of them. -/
def Event.Within (base size : Nat) : Event → Prop
  | .mapRegion _ => True
  | .copyData dest src => base ≤ dest.raw ∧ dest.raw + src.length ≤ base + size
  | .zeroRegion dest n => base ≤ dest.raw ∧ dest.raw + n ≤ base + size
  | .updateFlags region _ => base ≤ region.virtAddr.raw ∧ region.virtAddr.raw + region.size ≤ base + size
  | .write target _ => base ≤ target ∧ target + 8 ≤ base + size

instance (base size : Nat) : (e : Event) → Decidable (e.Within base size)
  | .mapRegion _ => inferInstanceAs (Decidable True)
  | .copyData _ _ => inferInstanceAs (Decidable (_ ∧ _))
  | .zeroRegion _ _ => inferInstanceAs (Decidable (_ ∧ _))
  | .updateFlags _ _ => inferInstanceAs (Decidable (_ ∧ _))
  | .write _ _ => inferInstanceAs (Decidable (_ ∧ _))

end Beskar.Elf
