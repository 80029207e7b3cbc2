import Beskar.Arch.Addrs

/-!
# User Buffers in System Calls

Model of the argument checks of `kernel/src/syscall.rs` and of
`AddressSpace::is_addr_owned` (`kernel/src/mem/address_space.rs`).

A system call that takes a user buffer (`sc_read`, `sc_write`, `sc_open`) turns two
raw `u64` arguments into a start address and a length, asks `probe` whether the range
belongs to the calling process, and then builds a slice over it.  `sc_mprotect` turns
its arguments into a range of 4 KiB pages and hands every page to `update_flags`.

The model returns what reaches memory: the slice handed on (`BufferAccess.slice`), or
the first and last page handed to `update_flags`.  `none` is a panic: the `u64`
additions inside `VirtAddr + u64` and the `debug_assert!(start <= end)` of
`is_addr_owned` both panic in a build with debug assertions.

## Main results

- `userBuffer_slice_lt_kernelAsBase`: an accepted slice always ends below `KERNEL_AS_BASE`.
- `userBuffer_slice_probed_iff`: the slice stays inside the probed range exactly when
  `start + len` did not fold through `new_extend`.
- `sc_mprotect_probed_of_unaligned`: `sc_mprotect` consults `probe` only when the pointer
  is unaligned *and* the size is not a page multiple.
-/

namespace Beskar.Kernel.Syscall

open Beskar.Arch Beskar.Lib

/-! ## §1 Arguments and the Ownership Probe -/

/-- `syscall::Arguments`: the six raw argument registers.  The calls modelled here read
the first four. -/
structure Arguments where
  one : UInt64
  two : UInt64
  three : UInt64
  four : UInt64
deriving DecidableEq, Repr

/-- `AddressSpace::is_addr_owned`, reached through `syscall::probe`:
`debug_assert!(start <= end); start <= end && end < KERNEL_AS_BASE`.  The assertion
panics (`none`) when `start > end`. -/
def probe (start end_ : VirtAddr) : Option Bool :=
  if start ≤ end_ then some (decide (end_ < kernelAsBase)) else none

theorem probe_eq_some_true {start end_ : VirtAddr} :
    probe start end_ = some true ↔ start.raw ≤ end_.raw ∧ end_.raw < 2 ^ 64 - 2 ^ 47 := by
  unfold probe
  split <;> simp_all [VirtAddr.le_def, VirtAddr.lt_def]

/-! ## §2 Buffers of `sc_read`, `sc_write` and `sc_open` -/

/-- What a system call does with a user buffer. -/
inductive BufferAccess where
  /-- Returned an error code before touching memory. -/
  | rejected
  /-- Built `slice::from_raw_parts(start, len)` and handed it to the file system. -/
  | slice (start len : Nat)
deriving DecidableEq, Repr

/-- The buffer logic shared by `sc_read`, `sc_write` and `sc_open`:
`start = VirtAddr::try_new(raw).unwrap_or_default()`, then
`if !probe(start, start + len) { return -1 }`, then a slice of `len` bytes at `start`
(`len.try_into().unwrap()` cannot fail for a `u64` on a 64-bit target). -/
def userBuffer (rawStart len : Nat) : Option BufferAccess :=
  let start := (VirtAddr.tryNew rawStart).getD VirtAddr.zero
  match start.add len with
  | none => none
  | some end_ =>
    match probe start end_ with
    | none => none
    | some false => some .rejected
    | some true => some (.slice start.raw len)

/-- `sc_read`: a negative handle (`args.one.cast_signed() < 0`) is refused first, then
the buffer is `(args.two, args.three)`. -/
def scRead (args : Arguments) : Option BufferAccess :=
  if 2 ^ 63 ≤ args.one.toNat then some .rejected
  else userBuffer args.two.toNat args.three.toNat

/-- `sc_write`: the same checks as `sc_read`, the slice being read instead of written. -/
def scWrite (args : Arguments) : Option BufferAccess :=
  if 2 ^ 63 ≤ args.one.toNat then some .rejected
  else userBuffer args.two.toNat args.three.toNat

/-- `sc_open`: the path buffer is `(args.one, args.two)`; the UTF-8 check happens after
the slice is built, so it does not change which bytes are read. -/
def scOpen (args : Arguments) : Option BufferAccess :=
  userBuffer args.one.toNat args.two.toNat

/-- Inversion of `userBuffer`: an accepted slice starts at a probed start address `v`
whose sum with the length is in range and folds to an end address below
`KERNEL_AS_BASE`. -/
theorem userBuffer_eq_slice {rawStart len a l : Nat}
    (h : userBuffer rawStart len = some (.slice a l)) :
    l = len ∧ a + len < 2 ^ 64 ∧ a ≤ canonicalize (a + len) ∧
      canonicalize (a + len) < 2 ^ 64 - 2 ^ 47 := by
  unfold userBuffer at h
  simp only at h
  split at h
  · cases h
  · rename_i end_ hend
    obtain ⟨hlt, rfl⟩ := VirtAddr.add_eq_some.mp hend
    split at h
    · cases h
    · cases h
    · rename_i hprobe
      simp only [Option.some.injEq, BufferAccess.slice.injEq] at h
      obtain ⟨rfl, rfl⟩ := h
      obtain ⟨hle, hbase⟩ := probe_eq_some_true.mp hprobe
      exact ⟨rfl, hlt, hle, hbase⟩

/-- **Accepted slices end below `KERNEL_AS_BASE`.**  Folding through `new_extend` cannot
carry a slice into the higher half: a sum landing there keeps bit 47 set and is
refused by `probe`. -/
theorem userBuffer_slice_lt_kernelAsBase {rawStart len a l : Nat}
    (h : userBuffer rawStart len = some (.slice a l)) : a + l ≤ kernelAsBase.raw := by
  obtain ⟨rfl, hlt, -, hbase⟩ := userBuffer_eq_slice h
  rw [canonicalize_lt_iff] at hbase
  rw [kernelAsBase_raw]
  by_contra hge
  -- `a + l` lies in `[2^64 - 2^47, 2^64)`, where bit 47 is set
  have := two_pow_47_le_mod_of_high hlt (by omega)
  omega

/-- **The probed range covers the slice exactly when the end did not fold.**  `probe`
checks `[start, canonicalize (start + len)]`; the slice is `[start, start + len)`.  The
slice stays inside the probed range iff `start + len` is already canonical in the lower
half. -/
theorem userBuffer_slice_probed_iff {rawStart len a l : Nat}
    (h : userBuffer rawStart len = some (.slice a l)) :
    a + l ≤ canonicalize (a + l) ↔ a + l < 2 ^ 47 := by
  obtain ⟨rfl, hlt, -, hbase⟩ := userBuffer_eq_slice h
  constructor
  · intro hle
    -- the canonical form of an accepted end is below `2^47`
    have hlow : canonicalize (a + l) < 2 ^ 47 := by
      have hb := (canonicalize_lt_iff (a + l)).mp hbase
      simp only [canonicalize, hb, if_true]
    omega
  · intro hl
    rw [canonicalize_of_lt hl]

-- `sc_read(3, 0x1000, 0xFFFF_0000_0000_0000)`: the end folds back to `0x1000`, so `probe`
-- sees the one-byte range `[0x1000, 0x1000]` and the slice runs far past it
example : scRead ⟨3, 0x1000, 0xFFFF000000000000, 0⟩ = some (.slice 0x1000 0xFFFF000000000000) := by
  decide

/-! ## §3 Pages of `sc_mprotect` -/

/-- `sc_mprotect`: the first and last page start handed to `update_flags`, or `none`
inside `some` when the call returns before touching the page table.

```
if size == 0 { return Success }
let Some(va) = VirtAddr::try_new(ptr) else { return Failure };
let end = va + (size - 1);
if !va.is_aligned(Align4K) && !size.is_multiple_of(4096) && !probe(va, end) {
    return Failure;
}
for page in Page::range_inclusive(va.page(), end.page()) { pt.update_flags(page, flags)? }
```
The `&&` chain evaluates `probe` only when the first two tests hold. -/
def scMprotect (args : Arguments) : Option (Option (Nat × Nat)) :=
  let ptr := args.one.toNat
  let size := args.two.toNat
  if size = 0 then some none
  else
    match VirtAddr.tryNew ptr with
    | none => some none
    | some va =>
      match va.add (size - 1) with
      | none => none
      | some end_ =>
        if !va.isAligned .align4K && !(size % 4096 = 0) then
          match probe va end_ with
          | none => none
          | some false => some none
          | some true => some (some (va.page4K, end_.page4K))
        else some (some (va.page4K, end_.page4K))

/-- **`sc_mprotect` probes only unaligned, non-multiple requests.**  When the pointer is
not 4 KiB aligned and the size is not a multiple of 4 KiB, a call that reaches the page
table has had its whole range accepted by `probe`. -/
theorem sc_mprotect_probed_of_unaligned {args : Arguments} {p q : Nat}
    (hptr : args.one.toNat % 4096 ≠ 0) (hsize : args.two.toNat % 4096 ≠ 0)
    (h : scMprotect args = some (some (p, q))) :
    ∃ va end_ : VirtAddr, probe va end_ = some true ∧ p = va.page4K ∧ q = end_.page4K ∧
      va.raw = args.one.toNat := by
  unfold scMprotect at h
  simp only at h
  split at h
  · cases h
  · split at h
    · cases h
    · rename_i va hva
      obtain ⟨-, hraw⟩ := VirtAddr.tryNew_eq_some.mp hva
      split at h
      · cases h
      · rename_i end_ _
        have hguard : (!va.isAligned .align4K && !decide (args.two.toNat % 4096 = 0)) = true := by
          simp [VirtAddr.isAligned, Alignment.isAligned, hraw, hptr, hsize]
        rw [if_pos hguard] at h
        split at h
        · cases h
        · cases h
        · rename_i hprobe
          simp only [Option.some.injEq, Prod.mk.injEq] at h
          exact ⟨va, end_, hprobe, h.1.symm, h.2.symm, hraw⟩

/-- At `ptr = KERNEL_AS_BASE, size = 4096`, `sc_mprotect` hands the first kernel page to
`update_flags` without consulting `probe`: the pointer is aligned, so the guard's first
conjunct is already false. -/
theorem sc_mprotect_updates_kernel_page :
    scMprotect ⟨0xFFFF800000000000, 4096, 3, 0⟩ =
        some (some (kernelAsBase.raw, kernelAsBase.raw)) ∧
      probe (VirtAddr.newExtend 0xFFFF800000000000)
        (VirtAddr.newExtend 0xFFFF800000000FFF) = some false := by
  constructor
  · simp [scMprotect, VirtAddr.tryNew, VirtAddr.add, addChecked, canonicalize,
      VirtAddr.isAligned, Alignment.isAligned, VirtAddr.page4K, Alignment.alignDown]
  · simp [probe, VirtAddr.le_def, VirtAddr.lt_def, canonicalize]

end Beskar.Kernel.Syscall
