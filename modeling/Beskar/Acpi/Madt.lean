import Beskar.Lib.Fallible
import Beskar.Lib.Slice
import Beskar.Boot.Phys

/-!
# The MADT Parser

`Madt::parse` of `foundry/acpi/src/sdt/madt.rs`, over the table `Madt::load` maps and
validates (`sdt.rs`). The table is a byte string `t`: a 44-byte header, whose `u32` at
byte 4 is the table's length, then entries of a type byte and a length byte each. The
loop walks the entries from byte 44 by their length bytes while an entry header fits in
the length, and dispatches on the type.

The loop runs with fuel; out of fuel is `abort`, a loop that does not end. A panic
(`assert_eq!`, `unreachable!`, `expect`) is an error whose value is its message. The state
records, besides the locals of `parse`, every byte range the code reads
(`read_unaligned` of a field, a header or a whole entry), as `(start, size)`. Memory past
the end of `t` reads as zero: which bytes are there matters to no result below.

## Main results

- `loop_run_of_walkFrom`: over a walk of legal entries the loop collects, in table order,
  exactly what `collect` says, and reads only the length field and those entries.
- `parse_eq_collect`: so on a table whose entries are legal, fit in the table and have
  non-zero lengths, `parse` terminates, reads only bytes of the table and returns the
  entries found by the walk (`walkFrom_of_pos` gives the walk).
- `parse_loops_or_reads_past_end`: on a table whose every reached entry is legal, an entry
  of length zero makes `parse` loop for every fuel, and an entry whose struct runs past the
  length is read past it.
-/

namespace Beskar.Acpi

open Beskar.Lib Beskar.Lib.Fallible
open Beskar.Boot.Phys (newTruncate)

/-- The byte at `i`, as a number. -/
def byte (t : List UInt8) (i : Nat) : Nat := (t.getD i 0).toNat

/-! ## §1 System Description Tables -/

namespace Sdt

/-- `Sdt::length`: the `u32` at `offset_of!(SdtHeader, length)`. -/
def length (t : List UInt8) : Nat := leField t 4 4

/-- `Sdt::validate`: the table's bytes, `length` of them, sum to zero in wrapping `u8`
arithmetic. -/
def validate (t : List UInt8) : Bool :=
  (List.range (length t)).foldl (fun sum i => sum + t.getD i 0) (0 : UInt8) == 0

end Sdt

/-- `Madt::load` after `sdt::map`: the table, unless `validate` fails. -/
def load (t : List UInt8) : Except String (List UInt8) :=
  if Sdt.validate t then .ok t else .error "Madt is invalid"

/-- `size_of::<MadtHeader>()`: the SDT header, `lapic_paddr` and `flags`. -/
def madtHeaderSize : Nat := 44

/-- `size_of::<EntryHeader>()`. -/
def entryHeaderSize : Nat := 2

/-- `offset_of!(MadtHeader, lapic_paddr)`. -/
def lapicPaddrOffset : Nat := 36

/-! ## §2 Entries -/

/-- The arms of the `match` on `entry_type`. -/
inductive EntryKind
  | lapic
  | ioApic
  | interruptSourceOverride
  | ioNmiSource
  | localNmi
  | lapicAddressOverride
  /-- Types 6 to 8, which `parse` rejects with `unreachable!`. -/
  | sapic
  | x2Apic
  | x2ApicNmi
  /-- Types 11 to 15, rejected as well. -/
  | gic
  /-- Every other type, which `parse` skips. -/
  | other
deriving DecidableEq, Repr

namespace EntryKind

/-- The arm an entry type falls in. -/
def ofType : Nat → EntryKind
  | 0 => .lapic
  | 1 => .ioApic
  | 2 => .interruptSourceOverride
  | 3 => .ioNmiSource
  | 4 => .localNmi
  | 5 => .lapicAddressOverride
  | 9 => .x2Apic
  | 10 => .x2ApicNmi
  | x => if 6 ≤ x ∧ x ≤ 8 then .sapic else if 11 ≤ x ∧ x ≤ 15 then .gic else .other

/-- `size_of` of the struct an arm reads, for the arms that read one. -/
def structSize : EntryKind → Option Nat
  | .lapic => some 8
  | .ioApic => some 12
  | .interruptSourceOverride => some 10
  | .ioNmiSource => some 8
  | .localNmi => some 6
  | .lapicAddressOverride => some 12
  | .x2Apic => some 16
  | .x2ApicNmi => some 12
  | _ => none

end EntryKind

/-- `ParsedLapic`. -/
structure ParsedLapic where
  id : Nat
  acpiId : Nat
  flags : Nat
deriving DecidableEq, Repr

/-- `ParsedIoApic`. -/
structure ParsedIoApic where
  id : Nat
  addr : Nat
  gsiBase : Nat
deriving DecidableEq, Repr

/-- `ParsedIoNmiSource`. -/
structure ParsedIoNmiSource where
  flags : Nat
  gsi : Nat
deriving DecidableEq, Repr

/-- `ParsedIoIso`. -/
structure ParsedIoIso where
  source : Nat
  gsi : Nat
  flags : Nat
deriving DecidableEq, Repr

/-- `Lint`. -/
inductive Lint
  | lint0
  | lint1
deriving DecidableEq, Repr

/-- `Lint::try_from`. -/
def Lint.tryFrom : Nat → Option Lint
  | 0 => some .lint0
  | 1 => some .lint1
  | _ => none

/-- `ParsedLocalNmi`. -/
structure ParsedLocalNmi where
  flags : Nat
  acpiId : Nat
  lint : Lint
deriving DecidableEq, Repr

/-- `ParsedMadt`. -/
structure ParsedMadt where
  lapicPaddr : Nat
  lapics : List ParsedLapic
  localNmis : List ParsedLocalNmi
  ioApics : List ParsedIoApic
  ioNmiSources : List ParsedIoNmiSource
  ioIso : List ParsedIoIso
deriving DecidableEq, Repr

/-- `InterruptSourceOverride`, the fields past its header. -/
structure InterruptSourceOverride where
  busSource : Nat
  irqSource : Nat
  gsi : Nat
  flags : Nat

/-- `LocalNmi`, the fields past its header. -/
structure LocalNmi where
  acpiId : Nat
  flags : Nat
  lint : Nat

/-! Each arm's `read_unaligned` of its packed struct at the entry's start `a`, with the
fields it unpacks. -/

def readLapic (t : List UInt8) (a : Nat) : ParsedLapic :=
  ⟨byte t (a + 3), byte t (a + 2), leField t (a + 4) 4⟩

def readIoApic (t : List UInt8) (a : Nat) : ParsedIoApic :=
  ⟨byte t (a + 2), newTruncate (leField t (a + 4) 4), leField t (a + 8) 4⟩

def readInterruptSourceOverride (t : List UInt8) (a : Nat) : InterruptSourceOverride :=
  ⟨byte t (a + 2), byte t (a + 3), leField t (a + 4) 4, leField t (a + 8) 2⟩

def readIoNmiSource (t : List UInt8) (a : Nat) : ParsedIoNmiSource :=
  ⟨leField t (a + 2) 2, leField t (a + 4) 4⟩

def readLocalNmi (t : List UInt8) (a : Nat) : LocalNmi :=
  ⟨byte t (a + 2), leField t (a + 3) 2, byte t (a + 5)⟩

/-- `LapicAddressOverride::address`. -/
def readLapicAddress (t : List UInt8) (a : Nat) : Nat := leField t (a + 4) 8

/-! ## §3 `Madt::parse` -/

/-- The locals of `parse`, gathered as the `ParsedMadt` it returns, and the byte ranges
read so far. -/
structure Walk where
  offset : Nat
  parsed : ParsedMadt
  reads : List (Nat × Nat)

/-- A read of `size` bytes from `start`. -/
def readBytes (start size : Nat) : Fallible String Walk Unit :=
  modifyThe Walk fun s => { s with reads := s.reads ++ [(start, size)] }

/-- A push onto one of the vectors, or the write of `lapic_paddr`. -/
def update (f : ParsedMadt → ParsedMadt) : Fallible String Walk Unit :=
  modifyThe Walk fun s => { s with parsed := f s.parsed }

/-- `assert_eq!(a, b, msg)`. -/
def assertEq (a b : Nat) (msg : String) : Fallible String Walk Unit :=
  if a = b then pure () else throw msg

/-- The message of an `assert_eq!` without one of its own. -/
def assertionFailed : String := "assertion `left == right` failed"

/-- The arm of the `match` for an entry at `a` of length byte `len`. -/
def entry (t : List UInt8) (a len : Nat) : EntryKind → Fallible String Walk Unit
  | .lapic => do
    assertEq len 8 assertionFailed
    readBytes a 8
    let lapic := readLapic t a
    if lapic.flags &&& 0b1 = 0b1 then update fun p => { p with lapics := p.lapics ++ [lapic] }
    else if lapic.flags &&& 0b10 = 0b10 then throw "Bootloader should have enabled this LAPIC."
    else pure ()
  | .ioApic => do
    assertEq len 12 assertionFailed
    readBytes a 12
    let ioApic := readIoApic t a
    update fun p => { p with ioApics := p.ioApics ++ [ioApic] }
  | .interruptSourceOverride => do
    assertEq len 10 assertionFailed
    readBytes a 10
    let iso := readInterruptSourceOverride t a
    assertEq iso.busSource 0 "ISO bus source must be 0."
    update fun p => { p with ioIso := p.ioIso ++ [⟨iso.irqSource, iso.gsi, iso.flags⟩] }
  | .ioNmiSource => do
    assertEq len 8 assertionFailed
    readBytes a 8
    let nmiSource := readIoNmiSource t a
    update fun p => { p with ioNmiSources := p.ioNmiSources ++ [nmiSource] }
  | .localNmi => do
    assertEq len 6 assertionFailed
    readBytes a 6
    let localNmi := readLocalNmi t a
    let lint ← okOr (Lint.tryFrom localNmi.lint) "Invalid LINT value in Local NMI entry."
    update fun p => { p with localNmis := p.localNmis ++ [⟨localNmi.flags, localNmi.acpiId, lint⟩] }
  | .lapicAddressOverride => do
    assertEq len 12 "Invalid MADT entry length for Local APIC Address Override."
    readBytes a 12
    let address := readLapicAddress t a
    update fun p => { p with lapicPaddr := newTruncate address }
  | .sapic => throw "PA-RISC architecture specific MADT entry found."
  | .x2Apic => do
    assertEq len 16 "Invalid MADT entry length for Processor Local x2APIC."
    readBytes a 16
  | .x2ApicNmi => do
    assertEq len 12 "Invalid MADT entry length for Local x2APIC NMI Structure."
    readBytes a 12
  | .gic => throw "ARM architecture specific MADT entry found."
  | .other => pure ()

/-- The body of the `while` loop: the entry header at `offset`, its arm, and the step to
the next entry by the length byte. -/
def body (t : List UInt8) : Fallible String Walk Unit := do
  let s ← getThe Walk
  let entryStart := madtHeaderSize + s.offset
  readBytes entryStart entryHeaderSize
  let entryType := byte t entryStart
  let entryLength := byte t (entryStart + 1)
  entry t entryStart entryLength (EntryKind.ofType entryType)
  modifyThe Walk fun s => { s with offset := s.offset + entryLength }

/-- The `while` loop, whose condition reads `self.length()` each time. -/
def loop (t : List UInt8) : Nat → Fallible String Walk Unit
  | 0 => abort
  | fuel + 1 => do
    readBytes 4 4
    let s ← getThe Walk
    if s.offset + madtHeaderSize + entryHeaderSize ≤ Sdt.length t then
      body t
      loop t fuel
    else pure ()

/-- What `parse` starts from: `lapic_paddr` of the header, and empty vectors. -/
def ParsedMadt.header (t : List UInt8) : ParsedMadt :=
  ⟨newTruncate (leField t lapicPaddrOffset 4), [], [], [], [], []⟩

/-- The state before the loop, after the read of `lapic_paddr`. -/
def Walk.init (t : List UInt8) : Walk := ⟨0, ParsedMadt.header t, [(lapicPaddrOffset, 4)]⟩

/-- `Madt::parse`, with the byte ranges it read. -/
def parse (t : List UInt8) (fuel : Nat) : Option (Except String ParsedMadt × List (Nat × Nat)) :=
  ((loop t fuel).run (Walk.init t)).map fun (r, s) => (r.map fun _ => s.parsed, s.reads)

/-! ## §4 The Walk

What `parse` is for, stated over the table alone: the offsets the walk by length bytes
reaches, which entries there are legal, and what each entry contributes. -/

/-- The type byte of the entry at `offset`. -/
def entryType (t : List UInt8) (o : Nat) : Nat := byte t (madtHeaderSize + o)

/-- The length byte of the entry at `offset`. -/
def entryLength (t : List UInt8) (o : Nat) : Nat := byte t (madtHeaderSize + o + 1)

/-- The arm the entry at `offset` takes. -/
def kindAt (t : List UInt8) (o : Nat) : EntryKind := EntryKind.ofType (entryType t o)

/-- The loop condition at `offset`: an entry header fits in the table's length. -/
def Fits (t : List UInt8) (o : Nat) : Prop :=
  o + madtHeaderSize + entryHeaderSize ≤ Sdt.length t

instance (t : List UInt8) (o : Nat) : Decidable (Fits t o) := inferInstanceAs (Decidable (_ ≤ _))

/-- The offsets the walk reaches: from 0, on by each length byte while a header fits. -/
inductive Reached (t : List UInt8) : Nat → Prop
  | start : Reached t 0
  | next {o : Nat} : Reached t o → Fits t o → Reached t (o + entryLength t o)

/-- A walk from `offset` that ends, through the entries at `os`. There is none through an
entry of length zero, which the walk never leaves. -/
inductive WalkFrom (t : List UInt8) : Nat → List Nat → Prop
  | stop {o : Nat} : ¬Fits t o → WalkFrom t o []
  | visit {o : Nat} {os : List Nat} : Fits t o → WalkFrom t (o + entryLength t o) os →
      WalkFrom t o (o :: os)

/-- The field checks of an arm: no LAPIC that is only online-capable, an ISO on bus 0, a
Local NMI on `LINT0` or `LINT1`. -/
def EntryKind.fieldsOk (t : List UInt8) (a : Nat) : EntryKind → Bool
  | .lapic =>
    let flags := (readLapic t a).flags
    flags &&& 0b1 == 0b1 || flags &&& 0b10 != 0b10
  | .interruptSourceOverride => (readInterruptSourceOverride t a).busSource == 0
  | .localNmi => (Lint.tryFrom (readLocalNmi t a).lint).isSome
  | _ => true

/-- The entry at `offset` passes its arm: a struct of its own length and legal fields, or a
type `parse` skips; not a type it rejects. -/
def entryOk (t : List UInt8) (o : Nat) : Bool :=
  let k := kindAt t o
  match k.structSize with
  | some n => entryLength t o == n && k.fieldsOk t (madtHeaderSize + o)
  | none => k == .other

/-- The tables the walk can be run on: a length field that covers the header, a valid
checksum, and a legal entry at every offset the walk reaches. -/
def WellFormed (t : List UInt8) : Prop :=
  madtHeaderSize ≤ Sdt.length t ∧ Sdt.validate t = true ∧
    ∀ o, Reached t o → Fits t o → entryOk t o = true

/-! What the entry at `offset` contributes to each vector, and to `lapic_paddr`. -/

def lapicAt (t : List UInt8) (o : Nat) : Option ParsedLapic :=
  let lapic := readLapic t (madtHeaderSize + o)
  if kindAt t o = .lapic ∧ lapic.flags &&& 0b1 = 0b1 then some lapic else none

def ioApicAt (t : List UInt8) (o : Nat) : Option ParsedIoApic :=
  if kindAt t o = .ioApic then some (readIoApic t (madtHeaderSize + o)) else none

def ioIsoAt (t : List UInt8) (o : Nat) : Option ParsedIoIso :=
  let iso := readInterruptSourceOverride t (madtHeaderSize + o)
  if kindAt t o = .interruptSourceOverride then some ⟨iso.irqSource, iso.gsi, iso.flags⟩
  else none

def ioNmiSourceAt (t : List UInt8) (o : Nat) : Option ParsedIoNmiSource :=
  if kindAt t o = .ioNmiSource then some (readIoNmiSource t (madtHeaderSize + o)) else none

def localNmiAt (t : List UInt8) (o : Nat) : Option ParsedLocalNmi :=
  let localNmi := readLocalNmi t (madtHeaderSize + o)
  if kindAt t o = .localNmi then
    (Lint.tryFrom localNmi.lint).map fun lint => ⟨localNmi.flags, localNmi.acpiId, lint⟩
  else none

def lapicAddressAt (t : List UInt8) (o : Nat) : Option Nat :=
  if kindAt t o = .lapicAddressOverride then
    some (newTruncate (readLapicAddress t (madtHeaderSize + o)))
  else none

/-- The entries at `os` added to `p`, in table order; the last address override wins. -/
def ParsedMadt.collect (t : List UInt8) (os : List Nat) (p : ParsedMadt) : ParsedMadt where
  lapicPaddr := (os.filterMap (lapicAddressAt t)).getLast?.getD p.lapicPaddr
  lapics := p.lapics ++ os.filterMap (lapicAt t)
  localNmis := p.localNmis ++ os.filterMap (localNmiAt t)
  ioApics := p.ioApics ++ os.filterMap (ioApicAt t)
  ioNmiSources := p.ioNmiSources ++ os.filterMap (ioNmiSourceAt t)
  ioIso := p.ioIso ++ os.filterMap (ioIsoAt t)

/-- The read an arm makes of its struct, for the arms that read one. -/
def structRead (t : List UInt8) (o : Nat) : List (Nat × Nat) :=
  ((kindAt t o).structSize.map fun n => (madtHeaderSize + o, n)).toList

/-- The reads of one pass of the loop body at `offset`: the entry header, then the struct. -/
def entryReads (t : List UInt8) (o : Nat) : List (Nat × Nat) :=
  (madtHeaderSize + o, entryHeaderSize) :: structRead t o

/-- The state after one pass over a legal entry. -/
def Walk.absorb (t : List UInt8) (s : Walk) : Walk where
  offset := s.offset + entryLength t s.offset
  parsed := s.parsed.collect t [s.offset]
  reads := s.reads ++ entryReads t s.offset

/-! ## §5 One Pass of the Loop -/

section Step

variable {t : List UInt8} {o : Nat} {s : Walk}

@[simp] theorem run_readBytes (start size : Nat) (s : Walk) :
    (readBytes start size).run s = some (.ok (), { s with reads := s.reads ++ [(start, size)] }) :=
  rfl

@[simp] theorem run_update (f : ParsedMadt → ParsedMadt) (s : Walk) :
    (update f).run s = some (.ok (), { s with parsed := f s.parsed }) := rfl

@[simp] theorem run_assertEq_self (a : Nat) (msg : String) (s : Walk) :
    (assertEq a a msg).run s = some (.ok (), s) := by
  simp [assertEq]

theorem collect_nil (p : ParsedMadt) : p.collect t [] = p := by
  simp [ParsedMadt.collect]

theorem collect_append (os os' : List Nat) (p : ParsedMadt) :
    p.collect t (os ++ os') = (p.collect t os).collect t os' := by
  simp only [ParsedMadt.collect, List.filterMap_append, List.append_assoc, List.getLast?_append,
    Option.getD_or]

theorem filterMap_singleton {α β : Type} (f : α → Option β) (a : α) :
    [a].filterMap f = (f a).toList := by
  cases h : f a <;> simp [h]

theorem collect_singleton (p : ParsedMadt) : p.collect t [o] =
    { lapicPaddr := (lapicAddressAt t o).getD p.lapicPaddr
      lapics := p.lapics ++ (lapicAt t o).toList
      localNmis := p.localNmis ++ (localNmiAt t o).toList
      ioApics := p.ioApics ++ (ioApicAt t o).toList
      ioNmiSources := p.ioNmiSources ++ (ioNmiSourceAt t o).toList
      ioIso := p.ioIso ++ (ioIsoAt t o).toList } := by
  simp only [ParsedMadt.collect, filterMap_singleton]
  cases lapicAddressAt t o <;> rfl

/-- The arm of a legal entry adds what `collect` says and reads its struct. -/
theorem entry_run_of_ok (hok : entryOk t o = true) (s : Walk) :
    (entry t (madtHeaderSize + o) (entryLength t o) (kindAt t o)).run s =
      some (.ok (), { s with parsed := s.parsed.collect t [o], reads := s.reads ++ structRead t o }) := by
  unfold entryOk at hok
  rw [collect_singleton]
  simp only [lapicAt, ioApicAt, ioIsoAt, ioNmiSourceAt, localNmiAt, lapicAddressAt, structRead]
  revert hok
  -- each arm: the checks `entryOk` made pass, and the arm pushes what its `…At` says
  cases kindAt t o with
  | lapic =>
    simp only [EntryKind.structSize, EntryKind.fieldsOk, Bool.and_eq_true, beq_iff_eq,
      Bool.or_eq_true, bne_iff_ne, ne_eq]
    rintro ⟨hlen, hflags⟩
    by_cases h1 : (readLapic t (madtHeaderSize + o)).flags &&& 0b1 = 0b1
    · simp [entry, hlen, h1]
    · simp only [entry, hlen, h1, hflags.resolve_left h1, run_bind, run_assertEq_self,
        run_readBytes, run_pure, true_and, if_false]
      simp
  | interruptSourceOverride =>
    simp only [EntryKind.structSize, EntryKind.fieldsOk, Bool.and_eq_true, beq_iff_eq]
    rintro ⟨hlen, hbus⟩
    simp [entry, hlen, hbus]
  | localNmi =>
    simp only [EntryKind.structSize, EntryKind.fieldsOk, Bool.and_eq_true, beq_iff_eq,
      Option.isSome_iff_exists]
    rintro ⟨hlen, lint, hlint⟩
    simp [entry, hlen, hlint, okOr]
  | ioApic | ioNmiSource | lapicAddressOverride | x2Apic | x2ApicNmi =>
    simp only [EntryKind.structSize, EntryKind.fieldsOk, Bool.and_true, beq_iff_eq]
    intro hlen
    simp [entry, hlen]
  | sapic | gic => simp [EntryKind.structSize]
  | other =>
    intro _
    simp [entry, EntryKind.structSize]

/-- One pass of the body over a legal entry. -/
theorem body_run_of_ok (hok : entryOk t s.offset = true) : (body t).run s = some (.ok (), s.absorb t) := by
  have hentry := entry_run_of_ok hok { s with reads := s.reads ++ [(madtHeaderSize + s.offset, entryHeaderSize)] }
  simp only [entryLength, kindAt, entryType] at hentry
  simp only [body, run_bind, run_getThe, run_readBytes]
  rw [hentry]
  simp only [run_modifyThe, Walk.absorb, entryReads, List.append_assoc, List.singleton_append]
  rfl

/-- One turn of the loop: the read of the length field, then the condition. -/
theorem loop_succ_run (fuel : Nat) (s : Walk) :
    (loop t (fuel + 1)).run s =
      if Fits t s.offset then (body t >>= fun _ => loop t fuel).run { s with reads := s.reads ++ [(4, 4)] }
      else some (.ok (), { s with reads := s.reads ++ [(4, 4)] }) := by
  simp only [loop, run_bind, run_readBytes, run_getThe, run_ite]
  by_cases h : Fits t s.offset
  · have h' : s.offset + madtHeaderSize + entryHeaderSize ≤ Sdt.length t := h
    simp only [h, h', if_true]
  · have h' : ¬s.offset + madtHeaderSize + entryHeaderSize ≤ Sdt.length t := h
    simp only [h, h', if_false]
    rfl

/-- A turn of the loop at a legal entry that fits goes on from the entry's end. -/
theorem loop_succ_run_of_ok (hfits : Fits t s.offset) (hok : entryOk t s.offset = true)
    (fuel : Nat) :
    (loop t (fuel + 1)).run s = (loop t fuel).run (Walk.absorb t { s with reads := s.reads ++ [(4, 4)] }) := by
  rw [loop_succ_run, if_pos hfits, run_bind,
    body_run_of_ok (s := { s with reads := s.reads ++ [(4, 4)] }) hok]

end Step

/-! ## §6 Runs of the Loop -/

section Runs

variable {t : List UInt8}

theorem reached_of_walkFrom {o : Nat} {os : List Nat} (hw : WalkFrom t o os) (hr : Reached t o) :
    ∀ o' ∈ os, Reached t o' ∧ Fits t o' := by
  induction hw with
  | stop => simp
  | visit hfits _ ih =>
    intro o' ho'
    rcases List.mem_cons.mp ho' with rfl | ho'
    · exact ⟨hr, hfits⟩
    · exact ih (.next hr hfits) o' ho'

/-- A walk whose entries all have a non-zero length ends, after at most `length` entries. -/
theorem walkFrom_of_pos (hpos : ∀ o, Reached t o → Fits t o → 0 < entryLength t o) :
    ∃ os, WalkFrom t 0 os ∧ os.length ≤ Sdt.length t := by
  -- strong induction on the bytes left past the offset, which each entry shortens
  suffices h : ∀ n o, Sdt.length t - o = n → Reached t o →
      ∃ os, WalkFrom t o os ∧ os.length ≤ Sdt.length t - o from
    h _ 0 rfl .start
  intro n
  induction n using Nat.strong_induction_on with
  | _ n ih =>
    intro o hn hr
    by_cases hf : Fits t o
    · have hpos' := hpos o hr hf
      unfold Fits madtHeaderSize entryHeaderSize at hf
      obtain ⟨os, hw, hlen⟩ :=
        ih _ (by omega) (o + entryLength t o) rfl (.next hr hf)
      exact ⟨o :: os, .visit hf hw, by simp only [List.length_cons]; omega⟩
    · exact ⟨[], .stop hf, by simp⟩

/-- Over a walk of legal entries the loop collects what `collect` says and reads only the
length field and the entries: the run lemma of the step lemma `loop_succ_run_of_ok`. -/
theorem loop_run_of_walkFrom {o : Nat} {os : List Nat} (hw : WalkFrom t o os)
    (hok : ∀ o' ∈ os, entryOk t o' = true) {s : Walk} (ho : s.offset = o) {fuel : Nat}
    (hfuel : os.length < fuel) :
    ∃ s', (loop t fuel).run s = some (.ok (), s') ∧ s'.parsed = s.parsed.collect t os ∧
      ∃ new, s'.reads = s.reads ++ new ∧
        ∀ r ∈ new, r = (4, 4) ∨ ∃ o' ∈ os, r ∈ entryReads t o' := by
  obtain ⟨fuel, rfl⟩ : ∃ f, fuel = f + 1 := ⟨fuel - 1, by omega⟩
  induction hw generalizing s fuel with
  | stop hnot =>
    rw [loop_succ_run, if_neg (ho ▸ hnot)]
    refine ⟨_, rfl, (collect_nil _).symm, [(4, 4)], rfl, ?_⟩
    simp
  | @visit o os hfits hw ih =>
    subst ho
    have hfuel' : os.length < fuel := by simpa using hfuel
    obtain ⟨fuel, rfl⟩ : ∃ f, fuel = f + 1 := ⟨fuel - 1, by omega⟩
    rw [loop_succ_run_of_ok hfits (hok _ List.mem_cons_self)]
    obtain ⟨s', hrun, hparsed, new, hreads, hnew⟩ :=
      ih (fun o' h => hok o' (List.mem_cons_of_mem _ h))
        (s := Walk.absorb t { s with reads := s.reads ++ [(4, 4)] }) rfl fuel hfuel'
    refine ⟨s', hrun, ?_, (4, 4) :: entryReads t s.offset ++ new, ?_, ?_⟩
    · rw [hparsed, show s.offset :: os = [s.offset] ++ os from rfl, collect_append]
      rfl
    · rw [hreads]
      simp [Walk.absorb]
    · intro r hr
      simp only [List.cons_append, List.mem_cons, List.mem_append] at hr
      rcases hr with rfl | hr | hr
      · exact .inl rfl
      · exact .inr ⟨s.offset, List.mem_cons_self, hr⟩
      · rcases hnew r hr with h | ⟨o', ho', h⟩
        · exact .inl h
        · exact .inr ⟨o', List.mem_cons_of_mem _ ho', h⟩

/-- At an entry of length zero that fits, every turn of the loop ends where it began. -/
theorem loop_run_eq_none_of_zero {o : Nat} (hfits : Fits t o) (hzero : entryLength t o = 0)
    (hok : entryOk t o = true) : ∀ fuel (s : Walk), s.offset = o → (loop t fuel).run s = none := by
  intro fuel
  induction fuel with
  | zero => intro s _; rfl
  | succ fuel ih =>
    intro s ho
    subst ho
    rw [loop_succ_run_of_ok hfits hok]
    exact ih _ (by simp [Walk.absorb, hzero])

/-- What every run of the loop from an offset the walk reaches satisfies, every run from
offset 0 satisfies, when the entries on the way are legal. -/
theorem loop_run_of_reached (Φ : Option (Except String Unit × Walk) → Prop) (hnone : Φ none)
    (hok : ∀ o', Reached t o' → Fits t o' → entryOk t o' = true) {o : Nat} (hr : Reached t o)
    (hΦ : ∀ fuel (s : Walk), s.offset = o → Φ ((loop t fuel).run s)) :
    ∀ fuel (s : Walk), s.offset = 0 → Φ ((loop t fuel).run s) := by
  -- back along the walk: a turn at a legal entry goes on from the next offset
  induction hr with
  | start => exact hΦ
  | @next o hr hfits ih =>
    apply ih
    intro fuel s ho
    cases fuel with
    | zero => exact hnone
    | succ fuel =>
      subst ho
      rw [loop_succ_run_of_ok hfits (hok _ hr hfits)]
      exact hΦ fuel _ rfl

/-! Reads are never undone: every operation keeps a byte range once read in the log. -/

theorem keeps_readBytes (r : Nat × Nat) (start size : Nat) :
    Keeps (fun s : Walk => r ∈ s.reads) (readBytes start size) :=
  Keeps.modifyThe fun _ hs => List.mem_append_left _ hs

theorem keeps_entry (r : Nat × Nat) (a len : Nat) (k : EntryKind) :
    Keeps (fun s : Walk => r ∈ s.reads) (entry t a len k) := by
  have hassert (x y : Nat) (msg : String) : Keeps (fun s : Walk => r ∈ s.reads) (assertEq x y msg) :=
    Keeps.ite (Keeps.pure _) (Keeps.throw _)
  have hupdate (f : ParsedMadt → ParsedMadt) : Keeps (fun s : Walk => r ∈ s.reads) (update f) :=
    Keeps.modifyThe fun _ hs => hs
  cases k with
  | lapic =>
    exact Keeps.bind (hassert _ _ _) fun _ => Keeps.bind (keeps_readBytes r _ _) fun _ =>
      Keeps.ite (hupdate _) (Keeps.ite (Keeps.throw _) (Keeps.pure _))
  | ioApic | ioNmiSource | lapicAddressOverride =>
    exact Keeps.bind (hassert _ _ _) fun _ => Keeps.bind (keeps_readBytes r _ _) fun _ => hupdate _
  | interruptSourceOverride =>
    exact Keeps.bind (hassert _ _ _) fun _ => Keeps.bind (keeps_readBytes r _ _) fun _ =>
      Keeps.bind (hassert _ _ _) fun _ => hupdate _
  | localNmi =>
    exact Keeps.bind (hassert _ _ _) fun _ => Keeps.bind (keeps_readBytes r _ _) fun _ =>
      Keeps.bind (Keeps.okOr _ _) fun _ => hupdate _
  | x2Apic | x2ApicNmi => exact Keeps.bind (hassert _ _ _) fun _ => keeps_readBytes r _ _
  | sapic | gic => exact Keeps.throw _
  | other => exact Keeps.pure _

theorem keeps_loop (r : Nat × Nat) (fuel : Nat) :
    Keeps (fun s : Walk => r ∈ s.reads) (loop t fuel) := by
  induction fuel with
  | zero => exact Keeps.abort
  | succ fuel ih =>
    have hbody : Keeps (fun s : Walk => r ∈ s.reads) (body t) :=
      Keeps.getThe_bind fun _ _ => Keeps.bind (keeps_readBytes r _ _) fun _ =>
        Keeps.bind (keeps_entry r _ _ _) fun _ => Keeps.modifyThe fun _ hs => hs
    exact Keeps.bind (keeps_readBytes r _ _) fun _ => Keeps.getThe_bind fun _ _ =>
      Keeps.ite (Keeps.bind hbody fun _ => ih) (Keeps.pure _)

/-- Every run that passes a recognised entry has read its whole struct. -/
theorem loop_reads_struct {o n : Nat} (hfits : Fits t o) (hok : entryOk t o = true)
    (hn : (kindAt t o).structSize = some n) :
    ∀ fuel (s : Walk), s.offset = o → ∀ out, (loop t fuel).run s = some out →
      (madtHeaderSize + o, n) ∈ out.2.reads := by
  intro fuel s ho out hrun
  cases fuel with
  | zero => cases hrun
  | succ fuel =>
    subst ho
    rw [loop_succ_run_of_ok hfits hok] at hrun
    refine keeps_loop _ fuel _ out.1 out.2 ?_ hrun
    simp [Walk.absorb, entryReads, structRead, hn]

end Runs

/-! ## §7 What `parse` Returns -/

section Parse

variable {t : List UInt8}

theorem parse_eq_some_iff {fuel : Nat} {out : Except String ParsedMadt × List (Nat × Nat)} :
    parse t fuel = some out ↔
      ∃ x, (loop t fuel).run (Walk.init t) = some x ∧ out = (x.1.map fun _ => x.2.parsed, x.2.reads) := by
  simp only [parse, Option.map_eq_some_iff]
  constructor
  · rintro ⟨x, hx, rfl⟩
    exact ⟨x, hx, rfl⟩
  · rintro ⟨x, hx, rfl⟩
    exact ⟨x, hx, rfl⟩

/-- The reads of an entry whose header the loop condition let through, and whose struct
fits, are within the table. -/
theorem entryReads_le {o : Nat} (hfits : Fits t o)
    (hfit : ∀ n, (kindAt t o).structSize = some n → madtHeaderSize + o + n ≤ Sdt.length t) :
    ∀ r ∈ entryReads t o, r.1 + r.2 ≤ Sdt.length t := by
  unfold Fits madtHeaderSize entryHeaderSize at hfits
  intro r hr
  simp only [entryReads, structRead, List.mem_cons] at hr
  rcases hr with rfl | hr
  · -- the entry header
    simp only [madtHeaderSize, entryHeaderSize]
    omega
  · -- the struct of a recognised arm
    cases hn : (kindAt t o).structSize with
    | none => simp [hn] at hr
    | some n =>
      simp only [hn, Option.map_some, Option.toList_some, List.mem_singleton] at hr
      subst hr
      exact hfit n hn

/-- On a table whose walk ends at legal entries that fit in the table, `parse` returns
exactly the entries found by the walk, in table order, and reads only bytes of the table. -/
theorem parse_eq_collect {os : List Nat} (hwf : WellFormed t) (hw : WalkFrom t 0 os)
    (hfit : ∀ o ∈ os, ∀ n, (kindAt t o).structSize = some n → madtHeaderSize + o + n ≤ Sdt.length t)
    {fuel : Nat} (hfuel : os.length < fuel) :
    ∃ reads, parse t fuel = some (.ok ((ParsedMadt.header t).collect t os), reads) ∧
      ∀ r ∈ reads, r.1 + r.2 ≤ Sdt.length t := by
  obtain ⟨hlen, -, hok⟩ := hwf
  have hreached := reached_of_walkFrom hw .start
  obtain ⟨s', hrun, hparsed, new, hreads, hnew⟩ :=
    loop_run_of_walkFrom hw (fun o ho => hok o (hreached o ho).1 (hreached o ho).2)
      (s := Walk.init t) rfl hfuel
  refine ⟨s'.reads, parse_eq_some_iff.mpr ⟨_, hrun, by rw [hparsed]; rfl⟩, ?_⟩
  unfold madtHeaderSize at hlen
  intro r hr
  rw [hreads] at hr
  rcases List.mem_append.mp hr with hr | hr
  · -- the read of `lapic_paddr`
    simp only [Walk.init, lapicPaddrOffset, List.mem_singleton] at hr
    subst hr
    simp only
    omega
  · rcases hnew r hr with rfl | ⟨o, ho, hr⟩
    · -- the length field, read by each loop condition
      simp only
      omega
    · exact entryReads_le (hreached o ho).2 (hfit o ho) r hr

/-- So on a table whose reached entries are legal, fit and have a non-zero length, `parse`
terminates with enough fuel, returns the entries of the walk and reads only the table. -/
theorem parse_terminates_in_bounds (hwf : WellFormed t)
    (hgood : ∀ o, Reached t o → Fits t o → 0 < entryLength t o ∧
      ∀ n, (kindAt t o).structSize = some n → madtHeaderSize + o + n ≤ Sdt.length t) :
    ∃ os, WalkFrom t 0 os ∧ ∀ fuel, Sdt.length t < fuel → ∃ reads,
      parse t fuel = some (.ok ((ParsedMadt.header t).collect t os), reads) ∧
        ∀ r ∈ reads, r.1 + r.2 ≤ Sdt.length t := by
  obtain ⟨os, hw, hlen⟩ := walkFrom_of_pos fun o hr hf => (hgood o hr hf).1
  have hreached := reached_of_walkFrom hw .start
  refine ⟨os, hw, fun fuel hfuel => parse_eq_collect hwf hw ?_ (by omega)⟩
  intro o ho
  exact (hgood o (hreached o ho).1 (hreached o ho).2).2

/-- A 52-byte MADT whose one entry, a Local APIC of 8 bytes, ends at the length. -/
def lapicTable : List UInt8 :=
  [0x41, 0x50, 0x49, 0x43, 52, 0, 0, 0, 5, 194] ++ List.replicate 26 0 ++
    [0x00, 0x00, 0xE0, 0xFE, 1, 0, 0, 0] ++ [0, 8, 0, 0, 1, 0, 0, 0]

theorem reached_lapicTable {o : Nat} (hr : Reached lapicTable o) : o = 0 ∨ o = 8 := by
  induction hr with
  | start => exact .inl rfl
  | next _ hf ih =>
    rcases ih with rfl | rfl
    · exact .inr (by decide)
    · exact absurd hf (by decide)

/-- On `lapicTable` every reached entry is legal, fits and has a non-zero length, so
`parse` terminates within the table. -/
theorem parse_terminates_in_bounds_lapic :
    WellFormed lapicTable ∧
      (∀ o, Reached lapicTable o → Fits lapicTable o → 0 < entryLength lapicTable o ∧
        ∀ n, (kindAt lapicTable o).structSize = some n →
          madtHeaderSize + o + n ≤ Sdt.length lapicTable) ∧
      ∃ os, WalkFrom lapicTable 0 os ∧ ∀ fuel, Sdt.length lapicTable < fuel → ∃ reads,
        parse lapicTable fuel =
          some (.ok ((ParsedMadt.header lapicTable).collect lapicTable os), reads) ∧
        ∀ r ∈ reads, r.1 + r.2 ≤ Sdt.length lapicTable := by
  have hwf : WellFormed lapicTable := by
    refine ⟨by decide, by decide, fun o hr hf => ?_⟩
    rcases reached_lapicTable hr with rfl | rfl
    · decide
    · exact absurd hf (by decide)
  have hgood : ∀ o, Reached lapicTable o → Fits lapicTable o → 0 < entryLength lapicTable o ∧
      ∀ n, (kindAt lapicTable o).structSize = some n →
        madtHeaderSize + o + n ≤ Sdt.length lapicTable := by
    intro o hr hf
    rcases reached_lapicTable hr with rfl | rfl
    · -- the Local APIC's 8 bytes end at the length, 52
      refine ⟨by decide, fun n hn => ?_⟩
      have hk : (kindAt lapicTable 0).structSize = some 8 := by decide
      rw [hk, Option.some.injEq] at hn
      subst hn
      decide
    · exact absurd hf (by decide)
  exact ⟨hwf, hgood, parse_terminates_in_bounds hwf hgood⟩

/-- `parse` on a table whose every reached entry is legal: an entry of length zero makes it
loop for every fuel, and a recognised entry whose struct runs past the length is read past
the length. -/
theorem parse_loops_or_reads_past_end :
    (∀ t, WellFormed t → ∀ o, Reached t o → Fits t o → entryLength t o = 0 →
      ∀ fuel, parse t fuel = none) ∧
    (∀ t, WellFormed t → ∀ o n, Reached t o → Fits t o → (kindAt t o).structSize = some n →
      Sdt.length t < madtHeaderSize + o + n →
      ∀ fuel out, parse t fuel = some out → ∃ r ∈ out.2, Sdt.length t < r.1 + r.2) := by
  constructor
  · intro t hwf o hr hfits hzero fuel
    obtain ⟨-, -, hok⟩ := hwf
    have hnone := loop_run_of_reached (fun x => x = none) rfl hok hr
      (loop_run_eq_none_of_zero hfits hzero (hok o hr hfits)) fuel (Walk.init t) rfl
    simp [parse, hnone]
  · intro t hwf o n hr hfits hn hpast fuel out hout
    obtain ⟨-, -, hok⟩ := hwf
    obtain ⟨x, hx, rfl⟩ := parse_eq_some_iff.mp hout
    have hread := loop_run_of_reached (fun x => ∀ out, x = some out → (madtHeaderSize + o, n) ∈ out.2.reads)
      (fun _ h => nomatch h) hok hr
      (fun fuel s ho out h => loop_reads_struct hfits (hok o hr hfits) hn fuel s ho out h)
      fuel (Walk.init t) rfl x hx
    exact ⟨_, hread, hpast⟩

/-! Two tables that pass `validate` and have legal entries: one whose only entry, of an
unknown type, has length zero, and one whose only entry, a Local APIC, runs past the
length. -/

/-- A 44-byte MADT header of length 46, with `lapic_paddr` 0xFEE00000 and `PCAT_COMPAT`. -/
def sampleHeader (checksum : UInt8) : List UInt8 :=
  [0x41, 0x50, 0x49, 0x43, 46, 0, 0, 0, 5, checksum] ++ List.replicate 26 0 ++
    [0x00, 0x00, 0xE0, 0xFE, 1, 0, 0, 0]

/-- The header and an entry of type 16 and length 0. -/
def zeroLengthTable : List UInt8 := sampleHeader 193 ++ [16, 0]

/-- The header and a Local APIC entry, whose 8 bytes end 6 bytes past the length. -/
def overrunTable : List UInt8 := sampleHeader 201 ++ [0, 8]

theorem reached_zeroLengthTable {o : Nat} (hr : Reached zeroLengthTable o) : o = 0 := by
  induction hr with
  | start => rfl
  | next _ _ ih =>
    subst ih
    decide

theorem wellFormed_zeroLengthTable : WellFormed zeroLengthTable := by
  refine ⟨by decide, by decide, fun o hr _ => ?_⟩
  rw [reached_zeroLengthTable hr]
  decide

theorem reached_overrunTable {o : Nat} (hr : Reached overrunTable o) : o = 0 ∨ o = 8 := by
  induction hr with
  | start => exact .inl rfl
  | next _ hf ih =>
    rcases ih with rfl | rfl
    · exact .inr (by decide)
    · exact absurd hf (by decide)

theorem wellFormed_overrunTable : WellFormed overrunTable := by
  refine ⟨by decide, by decide, fun o hr hf => ?_⟩
  rcases reached_overrunTable hr with rfl | rfl
  · decide
  · exact absurd hf (by decide)

theorem parse_loops_or_reads_past_end_samples :
    WellFormed zeroLengthTable ∧ (∀ fuel, parse zeroLengthTable fuel = none) ∧
      WellFormed overrunTable ∧
      parse overrunTable 2 =
        some (.ok ⟨0xFEE00000, [], [], [], [], []⟩, [(36, 4), (4, 4), (44, 2), (44, 8), (4, 4)]) ∧
      ∀ fuel out, parse overrunTable fuel = some out → ∃ r ∈ out.2, Sdt.length overrunTable < r.1 + r.2 :=
  ⟨wellFormed_zeroLengthTable,
    parse_loops_or_reads_past_end.1 _ wellFormed_zeroLengthTable 0 .start (by decide) (by decide),
    wellFormed_overrunTable, rfl,
    parse_loops_or_reads_past_end.2 _ wellFormed_overrunTable 0 8 .start (by decide) (by decide)
      (by decide)⟩

end Parse

end Beskar.Acpi
