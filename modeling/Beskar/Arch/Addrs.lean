import Mathlib
import Beskar.Lib.Checked
import Beskar.Lib.Bits

/-!
# Virtual and Physical Addresses

Model of `beskar-core/src/arch/addrs.rs` and of the address constants of
`bootloader-api` (`KERNEL_AS_BASE`, ...).

x86-64 virtual addresses are 48 bits wide and *canonical*: bits 48..63 copy bit 47.
`VirtAddr::new_extend` forces any `u64` into that shape by sign-extending bit 47,
so adding a length to an address never fails but can fold a large sum back into a
small address.  Everything below keeps the `u64` arithmetic of the source: a value is
a natural number below `2 ^ 64`, a plain `+` is `Lib.addChecked 64` (a panic in a
build with overflow checks), and alignment masks are written as remainders by the
power of two they mask.

## Contents

- `canonicalize`, `VirtAddr.newExtend`, `VirtAddr.tryNew`, `VirtAddr.add`
- the lower half (`isLowerHalf`) and `kernelAsBase`, the start of the higher half
- `Alignment`, `VirtAddr.isAligned`, `VirtAddr.alignedDown`, the 4 KiB page of an address
- `VirtAddr.fromPtIndices` and the indices `p4Index` … `p1Index`, `pageOffset` of an address,
  with `fromPtIndices_indices`: a canonical address is rebuilt from its indices
-/

namespace Beskar.Arch

open Beskar.Lib

/-! ## §1 Canonical Form -/

/-- `VirtAddr::canonicalize`: `((raw << 16) as i64 >> 16) as u64`.  The left shift keeps
bits 0..47 of `raw` in bits 16..63; the arithmetic right shift moves them back and
copies bit 47 into bits 48..63. -/
def canonicalize (raw : Nat) : Nat :=
  if raw % 2 ^ 48 < 2 ^ 47 then raw % 2 ^ 48 else raw % 2 ^ 48 + (2 ^ 64 - 2 ^ 48)

theorem canonicalize_lt (raw : Nat) : canonicalize raw < 2 ^ 64 := by
  have := Nat.mod_lt raw (show 0 < 2 ^ 48 by norm_num)
  unfold canonicalize; split <;> omega

/-- A lower-half address is its own canonical form. -/
theorem canonicalize_of_lt {raw : Nat} (h : raw < 2 ^ 47) : canonicalize raw = raw := by
  have hmod : raw % 2 ^ 48 = raw := Nat.mod_eq_of_lt (by omega)
  unfold canonicalize
  rw [hmod, if_pos h]

/-- The canonical form lies in the lower half exactly when bit 47 of `raw` is clear. -/
theorem canonicalize_lt_iff (raw : Nat) :
    canonicalize raw < 2 ^ 64 - 2 ^ 47 ↔ raw % 2 ^ 48 < 2 ^ 47 := by
  have := Nat.mod_lt raw (show 0 < 2 ^ 48 by norm_num)
  unfold canonicalize; split <;> omega

/-- The canonical form is congruent to `raw` modulo `2 ^ 48`. -/
theorem canonicalize_mod (raw : Nat) : canonicalize raw % 2 ^ 48 = raw % 2 ^ 48 := by
  unfold canonicalize
  split
  · exact Nat.mod_mod_of_dvd raw (dvd_refl _)
  · have h : 2 ^ 64 - 2 ^ 48 = 2 ^ 48 * (2 ^ 16 - 1) := by norm_num
    rw [h, Nat.add_mul_mod_self_left, Nat.mod_mod]

/-- The canonical form reads only the low 48 bits. -/
theorem canonicalize_congr {a b : Nat} (h : a % 2 ^ 48 = b % 2 ^ 48) :
    canonicalize a = canonicalize b := by
  unfold canonicalize
  rw [h]

/-- The canonical form is its own canonical form. -/
theorem canonicalize_canonicalize (raw : Nat) :
    canonicalize (canonicalize raw) = canonicalize raw :=
  canonicalize_congr (canonicalize_mod raw)

/-- The canonical form keeps the remainder by any divisor of `2 ^ 48`. -/
theorem canonicalize_mod_of_dvd {d : Nat} (hd : d ∣ 2 ^ 48) (raw : Nat) :
    canonicalize raw % d = raw % d := by
  rw [← Nat.mod_mod_of_dvd (canonicalize raw) hd, canonicalize_mod, Nat.mod_mod_of_dvd raw hd]

/-- A `u64` at or above `2 ^ 64 - 2 ^ 47` has bit 47 set. -/
theorem two_pow_47_le_mod_of_high {x : Nat} (hx : x < 2 ^ 64) (hge : 2 ^ 64 - 2 ^ 47 ≤ x) :
    2 ^ 47 ≤ x % 2 ^ 48 := by
  obtain ⟨r, rfl⟩ : ∃ r, x = r + 2 ^ 48 * (2 ^ 16 - 1) := ⟨x - 2 ^ 48 * (2 ^ 16 - 1), by omega⟩
  rw [Nat.add_mul_mod_self_left, Nat.mod_eq_of_lt (by omega)]
  omega

/-- A higher-half address is its own canonical form. -/
theorem canonicalize_of_high {x : Nat} (hx : x < 2 ^ 64) (h : 2 ^ 64 - 2 ^ 47 ≤ x) :
    canonicalize x = x := by
  have h47 := two_pow_47_le_mod_of_high hx h
  obtain ⟨r, rfl⟩ : ∃ r, x = r + 2 ^ 48 * (2 ^ 16 - 1) := ⟨x - 2 ^ 48 * (2 ^ 16 - 1), by omega⟩
  unfold canonicalize
  rw [Nat.add_mul_mod_self_left, Nat.mod_eq_of_lt (by omega)] at *
  rw [if_neg (by omega)]
  omega

/-! ## §2 Virtual Addresses -/

/-- `VirtAddr(u64)`: a raw 64-bit value.  The constructors of the source only ever build
canonical values, but the type itself only promises a `u64`. -/
structure VirtAddr where
  /-- The raw value (`VirtAddr::as_u64`). -/
  raw : Nat
  raw_lt : raw < 2 ^ 64
deriving DecidableEq

namespace VirtAddr

instance : LE VirtAddr := ⟨fun a b => a.raw ≤ b.raw⟩
instance : LT VirtAddr := ⟨fun a b => a.raw < b.raw⟩
instance (a b : VirtAddr) : Decidable (a ≤ b) := inferInstanceAs (Decidable (a.raw ≤ b.raw))
instance (a b : VirtAddr) : Decidable (a < b) := inferInstanceAs (Decidable (a.raw < b.raw))

theorem le_def {a b : VirtAddr} : a ≤ b ↔ a.raw ≤ b.raw := Iff.rfl
theorem lt_def {a b : VirtAddr} : a < b ↔ a.raw < b.raw := Iff.rfl

/-- `VirtAddr::ZERO`, also the `Default` value. -/
def zero : VirtAddr := ⟨0, by norm_num⟩

/-- `VirtAddr::new_extend`: sign-extend bit 47. -/
def newExtend (addr : Nat) : VirtAddr := ⟨canonicalize addr, canonicalize_lt addr⟩

/-- `VirtAddr::try_new`: `None` unless the value is already canonical. -/
def tryNew (addr : Nat) : Option VirtAddr :=
  if (newExtend addr).raw ≠ addr then none else some (newExtend addr)

/-- `impl Add<u64> for VirtAddr`: `Self::new_extend(self.0 + rhs)`, where the `u64`
addition panics on overflow (`none`). -/
def add (v : VirtAddr) (rhs : Nat) : Option VirtAddr :=
  (addChecked 64 v.raw rhs).map newExtend

/-- `impl Sub<u64> for VirtAddr`: `Self::new_extend(self.0 - rhs)`, where the `u64`
subtraction panics below zero (`none`). -/
def sub (v : VirtAddr) (rhs : Nat) : Option VirtAddr :=
  (subChecked v.raw rhs).map newExtend

@[simp] theorem newExtend_raw (addr : Nat) : (newExtend addr).raw = canonicalize addr := rfl

/-- A lower-half address is its own `new_extend`. -/
theorem newExtend_raw_of_lt {addr : Nat} (h : addr < 2 ^ 47) : (newExtend addr).raw = addr :=
  canonicalize_of_lt h

@[simp] theorem zero_raw : zero.raw = 0 := rfl

theorem tryNew_eq_some {addr : Nat} {v : VirtAddr} :
    tryNew addr = some v ↔ canonicalize addr = addr ∧ v.raw = addr := by
  unfold tryNew
  split
  · simp_all
  · constructor
    · rintro ⟨⟩; simp_all
    · rintro ⟨h, hv⟩
      congr 1
      cases v
      simp_all [newExtend]

theorem add_eq_some {v w : VirtAddr} {rhs : Nat} :
    v.add rhs = some w ↔ v.raw + rhs < 2 ^ 64 ∧ w = newExtend (v.raw + rhs) := by
  unfold add
  constructor
  · intro h
    obtain ⟨s, hs, rfl⟩ := Option.map_eq_some_iff.mp h
    obtain ⟨hlt, rfl⟩ := addChecked_eq_some.mp hs
    exact ⟨hlt, rfl⟩
  · rintro ⟨hlt, rfl⟩
    rw [addChecked_eq_some.mpr ⟨hlt, rfl⟩]
    rfl

/-- An address is in the lower half when bit 47 and above are clear. -/
def isLowerHalf (v : VirtAddr) : Prop := v.raw < 2 ^ 47

instance (v : VirtAddr) : Decidable v.isLowerHalf := inferInstanceAs (Decidable (v.raw < _))

end VirtAddr

/-- `KERNEL_AS_BASE = VirtAddr::new_extend(256 << 39)`: the first higher-half address. -/
def kernelAsBase : VirtAddr := VirtAddr.newExtend (256 * 2 ^ 39)

@[simp] theorem kernelAsBase_raw : kernelAsBase.raw = 2 ^ 64 - 2 ^ 47 := by
  simp [kernelAsBase, canonicalize]

/-- Below `KERNEL_AS_BASE`, a canonical address is a lower-half address. -/
theorem lt_kernelAsBase_iff {addr : Nat} :
    (VirtAddr.newExtend addr) < kernelAsBase ↔ addr % 2 ^ 48 < 2 ^ 47 := by
  rw [VirtAddr.lt_def, kernelAsBase_raw, VirtAddr.newExtend_raw, canonicalize_lt_iff]

/-- A canonical value below `KERNEL_AS_BASE` is in the lower half. -/
theorem isLowerHalf_of_lt_kernelAsBase {addr : Nat}
    (h : VirtAddr.newExtend addr < kernelAsBase) : (VirtAddr.newExtend addr).isLowerHalf := by
  have hlow := lt_kernelAsBase_iff.mp h
  simp only [VirtAddr.isLowerHalf, VirtAddr.newExtend_raw, canonicalize, hlow, if_true]

/-! ## §3 Alignment and Pages -/

/-- `Alignment::Align…`: a power of two `2 ^ log`, from `Align1` to `Align512G`. -/
structure Alignment where
  /-- The exponent of the alignment. -/
  log : Nat
  log_le : log ≤ 39
deriving DecidableEq

/-- `Alignment::Align1`. -/
def Alignment.align1 : Alignment := ⟨0, by norm_num⟩

/-- `Alignment::Align4K`. -/
def Alignment.align4K : Alignment := ⟨12, by norm_num⟩

/-- `Alignment::as_u64`. -/
def Alignment.asU64 (a : Alignment) : Nat := 2 ^ a.log

/-- `Alignment::mask`: `align - 1`. -/
def Alignment.mask (a : Alignment) : Nat := a.asU64 - 1

/-- `Alignment::is_aligned`: `x & mask == 0` with `mask = align - 1`. -/
def Alignment.isAligned (a : Alignment) (x : Nat) : Bool := x % a.asU64 = 0

/-- `Alignment::align_down`: `x & !mask`, which clears the remainder by the alignment. -/
def Alignment.alignDown (a : Alignment) (x : Nat) : Nat := x - x % a.asU64

/-- `VirtAddr::is_aligned`. -/
def VirtAddr.isAligned (v : VirtAddr) (a : Alignment) : Bool := a.isAligned v.raw

/-- `VirtAddr::aligned_up`: `Self::new_extend(align.align_up(self.0))`, where `align_up` is
`(x + mask) & !mask` with a plain `u64` addition. -/
def VirtAddr.alignedUp (v : VirtAddr) (a : Alignment) : Option VirtAddr :=
  (addChecked 64 v.raw a.mask).map fun x => VirtAddr.newExtend (a.alignDown x)

/-- The start address of the 4 KiB page that contains `v` (`Page::<M4KiB>::containing_address`,
which aligns `v` down to `Align4K`). -/
def VirtAddr.page4K (v : VirtAddr) : Nat := Alignment.align4K.alignDown v.raw

@[simp] theorem Alignment.align4K_asU64 : Alignment.align4K.asU64 = 4096 := rfl

theorem VirtAddr.page4K_le (v : VirtAddr) : v.page4K ≤ v.raw := by
  simp only [page4K, Alignment.alignDown]; omega

theorem VirtAddr.page4K_mod (v : VirtAddr) : v.page4K % 4096 = 0 := by
  simp only [page4K, Alignment.alignDown, Alignment.align4K_asU64]
  exact Nat.sub_mod_eq_zero_of_mod_eq (Nat.mod_mod _ _).symm

/-! ## §4 Page-Table Indices -/

namespace VirtAddr

theorem ext_raw {a b : VirtAddr} (h : a.raw = b.raw) : a = b := by
  cases a
  cases b
  simp only at h
  subst h
  rfl

/-- `VirtAddr::from_pt_indices`: the four `u16` indices cut to 9 bits at bits 39, 30, 21
and 12, and the offset cut to 12 bits, sign-extended from bit 47. -/
def fromPtIndices (p4Index p3Index p2Index p1Index offset : Nat) : VirtAddr :=
  let addr := ((p4Index &&& 0x1FF) <<< 39) ||| ((p3Index &&& 0x1FF) <<< 30) |||
    ((p2Index &&& 0x1FF) <<< 21) ||| ((p1Index &&& 0x1FF) <<< 12) ||| (offset &&& 0xFFF)
  newExtend addr

/-- `VirtAddr::p4_index`; the `u16::try_from` of a 9-bit value cannot fail. -/
def p4Index (v : VirtAddr) : Nat := (v.raw >>> 39) &&& 0x1FF

/-- `VirtAddr::p3_index`. -/
def p3Index (v : VirtAddr) : Nat := (v.raw >>> 30) &&& 0x1FF

/-- `VirtAddr::p2_index`. -/
def p2Index (v : VirtAddr) : Nat := (v.raw >>> 21) &&& 0x1FF

/-- `VirtAddr::p1_index`. -/
def p1Index (v : VirtAddr) : Nat := (v.raw >>> 12) &&& 0x1FF

/-- `VirtAddr::page_offset`. -/
def pageOffset (v : VirtAddr) : Nat := v.raw &&& 0xFFF

/-- The address `from_pt_indices` builds, as arithmetic on the cut fields. -/
theorem fromPtIndices_raw (a b c d o : Nat) :
    (fromPtIndices a b c d o).raw =
      canonicalize (2 ^ 39 * (a % 512) + 2 ^ 30 * (b % 512) + 2 ^ 21 * (c % 512) +
        2 ^ 12 * (d % 512) + o % 4096) := by
  have h9 (n : Nat) : n &&& 0x1FF = n % 2 ^ 9 := Nat.and_two_pow_sub_one_eq_mod n 9
  have h12 (n : Nat) : n &&& 0xFFF = n % 2 ^ 12 := Nat.and_two_pow_sub_one_eq_mod n 12
  have hlt (n : Nat) : n % 2 ^ 9 < 2 ^ 9 := Nat.mod_lt _ (by norm_num)
  simp only [fromPtIndices, newExtend_raw, h9, h12]
  -- join the fields from the top: each is narrower than the gap below the one above it
  rw [shiftLeft_or_shiftLeft (m := 39) (n := 30) (by norm_num) (hlt b),
    shiftLeft_or_shiftLeft (m := 30) (n := 21) (by norm_num) (hlt c),
    shiftLeft_or_shiftLeft (m := 21) (n := 12) (by norm_num) (hlt d),
    shiftLeft_or_eq_add (Nat.mod_lt _ (by norm_num))]
  simp only [Nat.reduceSub, Nat.reducePow]
  congr 1
  omega

theorem p4Index_eq (v : VirtAddr) : v.p4Index = v.raw / 2 ^ 39 % 512 := by
  rw [p4Index, Nat.shiftRight_eq_div_pow]
  exact Nat.and_two_pow_sub_one_eq_mod _ 9

theorem p3Index_eq (v : VirtAddr) : v.p3Index = v.raw / 2 ^ 30 % 512 := by
  rw [p3Index, Nat.shiftRight_eq_div_pow]
  exact Nat.and_two_pow_sub_one_eq_mod _ 9

theorem p2Index_eq (v : VirtAddr) : v.p2Index = v.raw / 2 ^ 21 % 512 := by
  rw [p2Index, Nat.shiftRight_eq_div_pow]
  exact Nat.and_two_pow_sub_one_eq_mod _ 9

theorem p1Index_eq (v : VirtAddr) : v.p1Index = v.raw / 2 ^ 12 % 512 := by
  rw [p1Index, Nat.shiftRight_eq_div_pow]
  exact Nat.and_two_pow_sub_one_eq_mod _ 9

theorem pageOffset_eq (v : VirtAddr) : v.pageOffset = v.raw % 4096 :=
  Nat.and_two_pow_sub_one_eq_mod _ 12

/-- **A canonical address is rebuilt from its page-table indices and page offset.** -/
theorem fromPtIndices_indices {v : VirtAddr} (hv : canonicalize v.raw = v.raw) :
    fromPtIndices v.p4Index v.p3Index v.p2Index v.p1Index v.pageOffset = v := by
  apply ext_raw
  rw [fromPtIndices_raw, p4Index_eq, p3Index_eq, p2Index_eq, p1Index_eq, pageOffset_eq,
    ← hv]
  -- the fields are the low 48 bits of the address, all that `canonicalize` reads
  apply canonicalize_congr
  omega

end VirtAddr

end Beskar.Arch
