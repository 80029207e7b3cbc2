import Mathlib
import Beskar.Arch.Addrs

/-!
# Paging: Flags, Entries, Pages and Frames

Model of the entry level of `beskar-hal/src/x86_64/paging/page_table.rs` and of the page
and frame types of `beskar-core/src/arch/paging`.

`Flags(u64)` keeps its field private and every value of it is built from its constants,
so its bits lie in `Flags::ALL` (bits 0 to 11 and 63); the model is the set of its bits,
with that bound as a field.  An `Entry(u64)` is a frame address in bits 12 to 51 and flags
in `ALL`; as the two parts never overlap the model is the pair.  `Entry::set` masks the
address with `FRAME_MASK` (`frameBits`), and `Frame::containing_address` aligns a physical
address down after `PhysAddr` has truncated it to 52 bits.

## Contents

- `PageSize`, `levelSize`, `index`: the three page sizes and the index of an address in
  the table of each level.
- `Flags` with its constants and set operations, `Entry` with `set`, `set_flags`,
  `add_flags`, `next`, and the view of an entry as the walk sees it (`Entry.child?`,
  `Entry.leaf?`).
- `Page`, `Frame`: aligned addresses.
-/

namespace Beskar.Paging

/-! ## §1 Sizes and Indices -/

/-- `M4KiB`, `M2MiB`, `M1GiB`. -/
inductive PageSize
  | size4KiB
  | size2MiB
  | size1GiB
deriving DecidableEq, Repr

/-- The level of the table whose entries map a page of the size (`P1` for 4 KiB pages). -/
def PageSize.level : PageSize → Nat
  | .size4KiB => 1
  | .size2MiB => 2
  | .size1GiB => 3

/-- What an entry of a table of level `ℓ` spans: `4 KiB · 512 ^ (ℓ - 1)`. -/
def levelSize (ℓ : Nat) : Nat := 2 ^ (12 + 9 * (ℓ - 1))

/-- `MemSize::SIZE`. -/
def PageSize.size (S : PageSize) : Nat := levelSize S.level

/-- `VirtAddr::p4_index` to `p1_index`: `(addr >> (12 + 9 (ℓ - 1))) & 0x1FF`. -/
def index (ℓ : Nat) (v : Nat) : Fin 512 :=
  ⟨v / levelSize ℓ % 512, Nat.mod_lt _ (by decide)⟩

theorem levelSize_pos (ℓ : Nat) : 0 < levelSize ℓ := Nat.two_pow_pos _

@[simp] theorem PageSize.size_size4KiB : PageSize.size4KiB.size = 4096 := rfl
@[simp] theorem PageSize.size_size2MiB : PageSize.size2MiB.size = 2 ^ 21 := rfl
@[simp] theorem PageSize.size_size1GiB : PageSize.size1GiB.size = 2 ^ 30 := rfl

theorem PageSize.level_pos (S : PageSize) : 1 ≤ S.level := by cases S <;> decide

theorem PageSize.level_le (S : PageSize) : S.level ≤ 3 := by cases S <;> decide

/-! ## §2 Flags -/

/-- `Flags(u64)`: its set bits, all inside `Flags::ALL`. -/
structure Flags where
  bits : Finset (Fin 64)
  bits_mem_all : ∀ i ∈ bits, i.val < 12 ∨ i.val = 63

namespace Flags

instance : DecidableEq Flags := fun a b =>
  decidable_of_iff (a.bits = b.bits) (by cases a; cases b; simp)

/-- A flag of one bit. -/
def ofBit (i : Fin 64) (h : i.val < 12 ∨ i.val = 63) : Flags :=
  ⟨{i}, fun j hj => by rw [Finset.mem_singleton.mp hj]; exact h⟩

/-- `Flags::PRESENT`. -/
def present : Flags := ofBit 0 (by decide)

/-- `Flags::WRITABLE`. -/
def writable : Flags := ofBit 1 (by decide)

/-- `Flags::USER_ACCESSIBLE`. -/
def userAccessible : Flags := ofBit 2 (by decide)

/-- `Flags::HUGE_PAGE`. -/
def hugePage : Flags := ofBit 7 (by decide)

/-- `Flags::GLOBAL`. -/
def global : Flags := ofBit 8 (by decide)

/-- `Flags::BIT_9`, a bit the hardware ignores. -/
def bit9 : Flags := ofBit 9 (by decide)

/-- `Flags::NO_EXECUTE`. -/
def noExecute : Flags := ofBit 63 (by decide)

/-- `Flags::EMPTY`. -/
def empty : Flags := ⟨∅, fun _ h => absurd h (Finset.notMem_empty _)⟩

/-- `Flags::union`, `|`. -/
def union (a b : Flags) : Flags :=
  ⟨a.bits ∪ b.bits, fun i hi => (Finset.mem_union.mp hi).elim (a.bits_mem_all i) (b.bits_mem_all i)⟩

/-- `Flags::without`: `a & !b`. -/
def without (a b : Flags) : Flags :=
  ⟨a.bits \ b.bits, fun i hi => a.bits_mem_all i (Finset.mem_sdiff.mp hi).1⟩

/-- `Flags::is_empty`. -/
def isEmpty (a : Flags) : Bool := decide (a.bits = ∅)

/-- `Flags::contains`: `other.without(self).is_empty()`. -/
def contains (a other : Flags) : Bool := (other.without a).isEmpty

/-- `Flags::PARENT`: present and writable. -/
def parent : Flags := present.union writable

theorem contains_iff {a b : Flags} : a.contains b = true ↔ b.bits ⊆ a.bits := by
  simp [contains, isEmpty, without, Finset.sdiff_eq_empty_iff_subset]

/-- Containing a one-bit flag is having its bit. -/
theorem contains_ofBit {a : Flags} {i : Fin 64} {h} : a.contains (ofBit i h) = true ↔ i ∈ a.bits := by
  simp [contains_iff, ofBit]

@[simp] theorem union_bits (a b : Flags) : (a.union b).bits = a.bits ∪ b.bits := rfl

@[simp] theorem without_bits (a b : Flags) : (a.without b).bits = a.bits \ b.bits := rfl

@[simp] theorem present_bits : present.bits = {0} := rfl

@[simp] theorem writable_bits : writable.bits = {1} := rfl

@[simp] theorem userAccessible_bits : userAccessible.bits = {2} := rfl

@[simp] theorem hugePage_bits : hugePage.bits = {7} := rfl

@[simp] theorem empty_bits : empty.bits = ∅ := rfl

theorem isEmpty_iff {a : Flags} : a.isEmpty = true ↔ a = empty := by
  cases a
  simp [isEmpty, empty]

/-- A union has a bit when one of its sides has it. -/
theorem contains_ofBit_union {a b : Flags} {i : Fin 64} {h} :
    (a.union b).contains (ofBit i h) = (a.contains (ofBit i h) || b.contains (ofBit i h)) := by
  apply Bool.eq_iff_iff.mpr
  simp [contains_ofBit]

theorem contains_present_iff {a : Flags} : a.contains present = true ↔ (0 : Fin 64) ∈ a.bits :=
  contains_ofBit

theorem contains_hugePage_iff {a : Flags} : a.contains hugePage = true ↔ (7 : Fin 64) ∈ a.bits :=
  contains_ofBit

/-- Adding `PRESENT` adds no `HUGE_PAGE`. -/
theorem contains_hugePage_union_present (a : Flags) :
    (a.union present).contains hugePage = a.contains hugePage := by
  apply Bool.eq_iff_iff.mpr
  simp [contains_hugePage_iff]

theorem contains_present_union_present (a : Flags) : (a.union present).contains present = true := by
  simp [contains_present_iff]

end Flags

/-! ## §3 Entries -/

/-- `MappingError` (the frame of `AlreadyMapped` by its start address). -/
inductive MappingError
  | alreadyMapped (frame : Nat)
  | frameAllocationFailed
  | notMapped
  | unexpectedLargePage
  | unexpectedNotLargePage
deriving DecidableEq, Repr

/-- `Entry::FRAME_MASK`, `0x000F_FFFF_FFFF_F000`, applied to an address: bits 12 to 51. -/
def frameBits (a : Nat) : Nat := a % 2 ^ 52 - a % 4096

/-- `Entry(u64)`: the frame address and the flags. -/
structure Entry where
  addr : Nat
  flags : Flags
deriving DecidableEq

namespace Entry

/-- `Entry::EMPTY`. -/
def empty : Entry := ⟨0, Flags.empty⟩

/-- `Entry::is_null`: the raw value is zero. -/
def isNull (e : Entry) : Bool := e.addr == 0 && e.flags.isEmpty

/-- `Entry::is_present`. -/
def isPresent (e : Entry) : Bool := e.flags.contains Flags.present

/-- `Entry::is_large`. -/
def isLarge (e : Entry) : Bool := e.flags.contains Flags.hugePage

/-- `Entry::set`: the address masked by `FRAME_MASK`, and the flags. -/
def set (addr : Nat) (flags : Flags) : Entry := ⟨frameBits addr, flags⟩

/-- `Entry::set_flags`: replace the flags, keep the address. -/
def setFlags (e : Entry) (flags : Flags) : Entry := ⟨e.addr, flags⟩

/-- `Entry::add_flags`: `|=` the flags. -/
def addFlags (e : Entry) (flags : Flags) : Entry := ⟨e.addr, e.flags.union flags⟩

/-- `Entry::present_addr`. -/
def presentAddr (e : Entry) : Option Nat := if e.isPresent then some e.addr else none

/-- `Entry::next` and `Entry::next_mut`: through the recursive mapping, the table in the
frame the entry points to. -/
def next (e : Entry) : Except MappingError Nat :=
  if e.isPresent && !e.isLarge then .ok e.addr
  else if e.isPresent && e.isLarge then .error .unexpectedLargePage
  else .error .notMapped

/-! The walk of `translate_addr` at an entry of a table of level `ℓ`: it goes on to the next
table through a present entry that is not a huge page (above level 1), and otherwise stops
with the entry as the leaf that maps the address, if it is a present entry of level 1 or a
present huge page of level 2 or 3, or with no translation. -/

/-- The table an entry of level `ℓ` leads to. -/
def child? (ℓ : Nat) (e : Entry) : Option Nat :=
  if 2 ≤ ℓ ∧ e.isPresent = true ∧ e.isLarge = false then some e.addr else none

/-- The leaf an entry of level `ℓ` is, with its level. -/
def leaf? (ℓ : Nat) (e : Entry) : Option (Nat × Entry) :=
  if e.isPresent = true ∧ (ℓ = 1 ∨ (2 ≤ ℓ ∧ ℓ ≤ 3 ∧ e.isLarge = true)) then some (ℓ, e) else none

/-- The well-formedness of a leaf of level `ℓ`: a non-null entry of level 1, or a non-null
huge page of level 2 or 3, is present. -/
def LeafOk (ℓ : Nat) (e : Entry) : Prop :=
  (ℓ = 1 ∨ (2 ≤ ℓ ∧ ℓ ≤ 3 ∧ e.isLarge = true)) → e.isNull = false → e.isPresent = true

instance (ℓ : Nat) (e : Entry) : Decidable (LeafOk ℓ e) := by unfold LeafOk; infer_instance

@[simp] theorem set_addr (addr : Nat) (flags : Flags) : (set addr flags).addr = frameBits addr := rfl
@[simp] theorem set_flags (addr : Nat) (flags : Flags) : (set addr flags).flags = flags := rfl
@[simp] theorem addFlags_addr (e : Entry) (flags : Flags) : (e.addFlags flags).addr = e.addr := rfl
@[simp] theorem addFlags_flags (e : Entry) (flags : Flags) :
    (e.addFlags flags).flags = e.flags.union flags := rfl
@[simp] theorem setFlags_addr (e : Entry) (flags : Flags) : (e.setFlags flags).addr = e.addr := rfl
@[simp] theorem setFlags_flags (e : Entry) (flags : Flags) : (e.setFlags flags).flags = flags := rfl

theorem isPresent_iff {e : Entry} : e.isPresent = true ↔ (0 : Fin 64) ∈ e.flags.bits :=
  Flags.contains_ofBit

theorem isLarge_iff {e : Entry} : e.isLarge = true ↔ (7 : Fin 64) ∈ e.flags.bits :=
  Flags.contains_ofBit

/-- The empty entry leads nowhere and maps nothing. -/
@[simp] theorem empty_isPresent : empty.isPresent = false := by
  rw [Bool.eq_false_iff, Ne, isPresent_iff]
  simp [empty]

@[simp] theorem empty_isNull : empty.isNull = true := by
  simp [isNull, empty, Flags.isEmpty]

@[simp] theorem empty_child? (ℓ : Nat) : empty.child? ℓ = none := by simp [child?]

@[simp] theorem empty_leaf? (ℓ : Nat) : empty.leaf? ℓ = none := by simp [leaf?]

theorem empty_leafOk (ℓ : Nat) : LeafOk ℓ empty := fun _ h => by simp at h

/-- A present entry is a leaf or leads on. -/
theorem child?_eq_none_of_not_present {ℓ : Nat} {e : Entry} (h : e.isPresent = false) :
    e.child? ℓ = none := by
  simp [child?, h]

theorem leaf?_eq_none_of_not_present {ℓ : Nat} {e : Entry} (h : e.isPresent = false) :
    e.leaf? ℓ = none := by
  simp [leaf?, h]

/-- An entry of level 1 leads nowhere. -/
@[simp] theorem child?_one (e : Entry) : e.child? 1 = none := by simp [child?]

/-- A huge page leads nowhere. -/
theorem child?_eq_none_of_large {ℓ : Nat} {e : Entry} (h : e.isLarge = true) :
    e.child? ℓ = none := by
  simp [child?, h]

@[simp] theorem isPresent_set (addr : Nat) (flags : Flags) :
    (set addr flags).isPresent = flags.contains Flags.present := rfl

@[simp] theorem isLarge_set (addr : Nat) (flags : Flags) :
    (set addr flags).isLarge = flags.contains Flags.hugePage := rfl

/-- A present entry is a good leaf. -/
theorem leafOk_of_isPresent {ℓ : Nat} {e : Entry} (h : e.isPresent = true) : LeafOk ℓ e :=
  fun _ _ => h

/-- `add_flags` keeps a present entry present, and does not make it a huge page when the
added flags have no `HUGE_PAGE`. -/
theorem isPresent_addFlags {e : Entry} (h : e.isPresent = true) (flags : Flags) :
    (e.addFlags flags).isPresent = true := by
  unfold isPresent at h ⊢
  rw [addFlags_flags, Flags.present, Flags.contains_ofBit_union]
  rw [Flags.present] at h
  simp [h]

theorem isLarge_addFlags (e : Entry) {flags : Flags} (h : flags.contains Flags.hugePage = false) :
    (e.addFlags flags).isLarge = e.isLarge := by
  unfold isLarge
  rw [addFlags_flags, Flags.hugePage, Flags.contains_ofBit_union]
  rw [Flags.hugePage] at h
  simp [h]

/-- Where `add_flags` leaves a present entry lead: where it led. -/
theorem child?_addFlags {ℓ : Nat} {e : Entry} (hp : e.isPresent = true) {flags : Flags}
    (h : flags.contains Flags.hugePage = false) : (e.addFlags flags).child? ℓ = e.child? ℓ := by
  simp [child?, isPresent_addFlags hp, isLarge_addFlags e h, hp]

/-- The entry `next_or_create` sets for a new table leads to it. -/
theorem child?_set_union_present {ℓ : Nat} (hℓ : 2 ≤ ℓ) (addr : Nat) {flags : Flags}
    (h : flags.contains Flags.hugePage = false) :
    (set addr (flags.union Flags.present)).child? ℓ = some (frameBits addr) := by
  have hl : (flags.union Flags.present).contains Flags.hugePage = false := by
    rw [Flags.contains_hugePage_union_present, h]
  have hp := Flags.contains_present_union_present flags
  simp [child?, hℓ, hl, hp]

/-- An entry that leads to a table is no leaf. -/
theorem leaf?_eq_none_of_child?_eq_some {ℓ u : Nat} {e : Entry} (h : e.child? ℓ = some u) :
    e.leaf? ℓ = none := by
  unfold child? at h
  split_ifs at h with hc
  obtain ⟨hℓ, -, hl⟩ := hc
  simp [leaf?, hl, show ℓ ≠ 1 by omega]

/-- A null entry is not present. -/
theorem isPresent_eq_false_of_isNull {e : Entry} (h : e.isNull = true) : e.isPresent = false := by
  simp only [isNull, Bool.and_eq_true, beq_iff_eq, Flags.isEmpty_iff] at h
  obtain ⟨-, hf⟩ := h
  rw [Bool.eq_false_iff, Ne, isPresent_iff, hf]
  simp [Flags.empty]

/-- The entry `unmap` writes is the empty entry. -/
theorem set_zero_empty : set 0 Flags.empty = empty := rfl

/-- `next` goes to the table an entry of level 2 or more leads to. -/
theorem next_eq_ok_iff {ℓ : Nat} (hℓ : 2 ≤ ℓ) {e : Entry} {t : Nat} :
    e.next = .ok t ↔ e.child? ℓ = some t := by
  unfold next child?
  cases hp : e.isPresent <;> cases hl : e.isLarge <;> simp [hℓ, eq_comm]

/-- The entry `next_or_create` sets for a new table: `next_mut` then finds the table. -/
theorem next_set_union_present (addr : Nat) {flags : Flags}
    (h : flags.contains Flags.hugePage = false) :
    (set addr (flags.union Flags.present)).next = .ok (frameBits addr) :=
  (next_eq_ok_iff le_rfl).mpr (child?_set_union_present le_rfl addr h)

end Entry

/-! ## §4 Pages and Frames -/

/-- `Page<S>`: a canonical virtual address aligned to the page size. -/
structure Page (S : PageSize) where
  start : Nat
  aligned : start % S.size = 0
  canonical : Arch.canonicalize start = start

/-- `Frame<S>`: a physical address aligned to the frame size. -/
structure Frame (S : PageSize) where
  start : Nat
  aligned : start % S.size = 0
  lt : start < 2 ^ 52
deriving DecidableEq

/-- `Frame::containing_address`: the `PhysAddr` (truncated to 52 bits) aligned down. -/
def Frame.containingAddress (S : PageSize) (a : Nat) : Frame S :=
  ⟨a % 2 ^ 52 - a % 2 ^ 52 % S.size, by
    exact Nat.sub_mod_eq_zero_of_mod_eq (Nat.mod_mod _ _).symm,
   by
    have := Nat.mod_lt a (show 0 < 2 ^ 52 by decide)
    omega⟩

/-- Every page size divides `2 ^ 48`, so aligning to it commutes with the canonical form. -/
theorem PageSize.size_dvd (S : PageSize) : S.size ∣ 2 ^ 48 := by
  cases S <;> decide

/-- `Page::containing_address`: the address aligned down to the page size. The source's
`VirtAddr` is canonical, and aligning it down keeps it canonical; the model takes the
canonical form of the aligned address, which changes nothing on such an address. -/
def Page.containingAddress (S : PageSize) (v : Arch.VirtAddr) : Page S :=
  ⟨Arch.canonicalize (v.raw - v.raw % S.size),
   by
    rw [Arch.canonicalize_mod_of_dvd S.size_dvd]
    exact Nat.sub_mod_eq_zero_of_mod_eq (Nat.mod_mod _ _).symm,
   Arch.canonicalize_canonicalize _⟩

/-- `Page::start_address`. -/
def Page.startAddress {S : PageSize} (p : Page S) : Arch.VirtAddr :=
  ⟨p.start, by rw [← p.canonical]; exact Arch.canonicalize_lt _⟩

/-- `page + n`: `containing_address(start + n * SIZE)`, where the `u64` product and the
`VirtAddr` sum panic on overflow. -/
def Page.add {S : PageSize} (p : Page S) (n : Nat) : Option (Page S) :=
  ((Lib.mulChecked 64 n S.size).bind (Lib.addChecked 64 p.start)).map fun a =>
    Page.containingAddress S (Arch.VirtAddr.newExtend a)

/-- `Page::range_inclusive(start, end)` as its iterator yields it: `start`, `start + 1`, …
while the page is at most `end`. The step past `end` is not taken here: it overflows
only after the last page of the address space. -/
def Page.rangeInclusive {S : PageSize} (a b : Page S) : List (Page S) :=
  if a.start ≤ b.start then
    (List.range ((b.start - a.start) / S.size + 1)).map fun k =>
      Page.containingAddress S (Arch.VirtAddr.newExtend (a.start + k * S.size))
  else []

/-- `Frame::range_inclusive(start, end)` as its iterator yields it: `start`, `start + 1`,
… while the frame is at most `end`. -/
def Frame.rangeInclusive {S : PageSize} (a b : Frame S) : List (Frame S) :=
  if a.start ≤ b.start then
    (List.range ((b.start - a.start) / S.size + 1)).map fun k =>
      Frame.containingAddress S (a.start + k * S.size)
  else []

theorem Frame.ext_start {S : PageSize} {f g : Frame S} (h : f.start = g.start) : f = g := by
  cases f
  cases g
  cases h
  rfl

/-- A frame aligned to 4 KiB passes `FRAME_MASK` unchanged. -/
theorem frameBits_start {S : PageSize} (f : Frame S) : frameBits f.start = f.start := by
  have hdvd : 4096 ∣ S.size := by cases S <;> decide
  have h4 : f.start % 4096 = 0 := Nat.mod_eq_zero_of_dvd
    (Nat.dvd_trans hdvd (Nat.dvd_of_mod_eq_zero f.aligned))
  unfold frameBits
  rw [Nat.mod_eq_of_lt f.lt, h4, Nat.sub_zero]

/-- The frame containing the start of a frame is the frame. -/
theorem Frame.containingAddress_start {S : PageSize} (f : Frame S) :
    Frame.containingAddress S f.start = f := by
  apply Frame.ext_start
  show f.start % 2 ^ 52 - f.start % 2 ^ 52 % S.size = f.start
  rw [Nat.mod_eq_of_lt f.lt, f.aligned, Nat.sub_zero]

end Beskar.Paging
