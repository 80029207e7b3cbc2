import Beskar.Storage.Fat.Entry
import Beskar.Lib.Checked

/-!
# Boot Sectors and Volume Sizing

`BootParamBlock` and `ExtendedBootParamBlock` of `fs/fat/bs.rs`, the parameter blocks of
a FAT12/16 and of a FAT32 boot sector, with the `configure_for_volume_size` that lays a
volume out from its size, the `calculate_sectors_per_fat*` it calls, and `validate`.

`configure_for_volume_size` picks the sectors per cluster from a table of thresholds on
the sector count, and the `fs_type` label from a threshold on the same count. The type a
FAT volume has is fixed by its count of data clusters instead (§5), so the two can
disagree, and do on whole ranges of sizes (§6).

A conversion that is `unwrap`ped, a subtraction, a division and the `u32` arithmetic are
checked (`Beskar.Lib.Checked`): a panic is `none`.

## Main results
- `BootParamBlock.configureForVolumeSize_new_eq_none_iff`: sizing `BootParamBlock::new`
  panics exactly below 15 sectors and from 268431377 sectors on.
- `BootSector.configureForVolumeSize_new_sound_iff`: what `BootSector::new` sizing makes
  validates, holds its areas and is labelled with the type its count of clusters calls
  for exactly from 17 up to 4085 sectors and from 8190 up to 1048947 sectors.
- `ExtendedBootSector.configureForVolumeSize_newFat32_sound_iff`: for FAT32 sizing, exactly
  from 66653 sectors on.
- `configureForVolumeSize_mislabels`: the ranges of sizes where the label is wrong or the
  sizing panics.
-/

namespace Beskar.Storage.Fat

open Beskar.Lib

/-! ## §1 The Parameter Blocks -/

/-- The fields of `BootParamBlockStart` that sizing and `validate` read. -/
structure BootParamBlockStart where
  /-- `bytes_per_sector`, a `u16`. -/
  bytesPerSector : Nat
  /-- `sectors_per_cluster`, a `u8`. -/
  sectorsPerCluster : Nat
  /-- `reserved_sectors`, a `u16`. -/
  reservedSectors : Nat
  /-- `fat_count`, a `u8`. -/
  fatCount : Nat
  /-- `root_entries`, a `u16`. -/
  rootEntries : Nat
  /-- `total_sectors`, a `u16`; `0` when the count is in `total_sectors_large`. -/
  totalSectors : Nat
  /-- `sectors_per_fat`, a `u16`; `0` on FAT32. -/
  sectorsPerFat : Nat
  /-- `total_sectors_large`, a `u32`. -/
  totalSectorsLarge : Nat
deriving DecidableEq, Repr

namespace BootParamBlockStart

/-- `BootParamBlockStart::new`. -/
def new : BootParamBlockStart where
  bytesPerSector := 512
  sectorsPerCluster := 1
  reservedSectors := 1
  fatCount := 2
  rootEntries := 512
  totalSectors := 0
  sectorsPerFat := 0
  totalSectorsLarge := 0

/-- The body `total_sectors` has in both blocks: the `u16` field unless it is `0`. -/
def sectorCount (s : BootParamBlockStart) : Nat :=
  if s.totalSectors ≠ 0 then s.totalSectors else s.totalSectorsLarge

end BootParamBlockStart

/-! The labels `fs_type` is set to, as the bytes of the literals. -/

/-- `*b"FAT     "`. -/
def fsTypeFat : List UInt8 := [0x46, 0x41, 0x54, 0x20, 0x20, 0x20, 0x20, 0x20]

/-- `*b"FAT12   "`. -/
def fsTypeFat12 : List UInt8 := [0x46, 0x41, 0x54, 0x31, 0x32, 0x20, 0x20, 0x20]

/-- `*b"FAT16   "`. -/
def fsTypeFat16 : List UInt8 := [0x46, 0x41, 0x54, 0x31, 0x36, 0x20, 0x20, 0x20]

/-- `*b"FAT32   "`. -/
def fsTypeFat32 : List UInt8 := [0x46, 0x41, 0x54, 0x33, 0x32, 0x20, 0x20, 0x20]

/-- `MAX_BYTES_PER_CLUSTER` of both `validate`s. -/
def maxBytesPerCluster : Nat := 32 * 1024

/-- `MAX_FAT_COUNT` of both `validate`s. -/
def maxFatCount : Nat := 2

/-- `dirent::DIR_ENTRY_SIZE`. -/
def dirEntrySize : Nat := 32

/-- `BootParamBlock`: the generic start, and the label `fs_type` of `BootParamBlockEnd`. -/
structure BootParamBlock where
  bpbStart : BootParamBlockStart
  fsType : List UInt8
deriving DecidableEq, Repr

/-- `ExtendedBootParamBlock`: the generic start, the FAT32 fields that sizing and
`validate` read, and the label. -/
structure ExtendedBootParamBlock where
  bpbStart : BootParamBlockStart
  /-- `sectors_per_fat_large`, a `u32`. -/
  sectorsPerFatLarge : Nat
  /-- `fs_info_sector`, a `u16`. -/
  fsInfoSector : Nat
  /-- `backup_boot_sector`, a `u16`. -/
  backupBootSector : Nat
  fsType : List UInt8
deriving DecidableEq, Repr

namespace BootParamBlock

/-- `BootParamBlock::new`. -/
def new : BootParamBlock := ⟨BootParamBlockStart.new, fsTypeFat⟩

/-- `BootParamBlock::with_fs_type`. -/
def withFsType (b : BootParamBlock) (fsType : List UInt8) : BootParamBlock :=
  { b with fsType := fsType }

@[simp] theorem withFsType_bpbStart (b : BootParamBlock) (fsType : List UInt8) :
    (b.withFsType fsType).bpbStart = b.bpbStart := rfl

@[simp] theorem withFsType_fsType (b : BootParamBlock) (fsType : List UInt8) :
    (b.withFsType fsType).fsType = fsType := rfl

/-- `BootParamBlock::new_fat12`. -/
def newFat12 : BootParamBlock := new.withFsType fsTypeFat12

/-- `BootParamBlock::new_fat16`. -/
def newFat16 : BootParamBlock := new.withFsType fsTypeFat16

/-- `BootParamBlock::total_sectors`. -/
def totalSectors (b : BootParamBlock) : Nat := b.bpbStart.sectorCount

/-- `BootParamBlock::validate`. Rust's `is_multiple_of(0)` holds of `0` alone, as
`% 0 = 0` does here. -/
def validate (b : BootParamBlock) : Bool :=
  let s := b.bpbStart
  if ¬ s.bytesPerSector.isPowerOfTwo ∨ s.bytesPerSector < 512 ∨ 4096 < s.bytesPerSector then
    false
  else if ¬ s.sectorsPerCluster.isPowerOfTwo ∨
      maxBytesPerCluster < s.bytesPerSector * s.sectorsPerCluster then false
  else if s.reservedSectors = 0 then false
  else if s.fatCount = 0 ∨ maxFatCount < s.fatCount then false
  else if ¬ (s.rootEntries * dirEntrySize) % s.bytesPerSector = 0 then false
  else if (s.totalSectors ≠ 0 ∧ s.totalSectorsLarge ≠ 0) ∨
      (s.totalSectors = 0 ∧ s.totalSectorsLarge = 0) then false
  else if s.sectorsPerFat = 0 then false
  else true

end BootParamBlock

namespace ExtendedBootParamBlock

/-- `ExtendedBootParamBlock::new`. The assertion of `with_reserved_sectors` holds of 32. -/
def new : ExtendedBootParamBlock :=
  ⟨{ BootParamBlockStart.new with reservedSectors := 32, rootEntries := 0 }, 0, 1, 6, fsTypeFat⟩

/-- `ExtendedBootParamBlock::new_fat32`. -/
def newFat32 : ExtendedBootParamBlock :=
  ⟨{ BootParamBlockStart.new with reservedSectors := 32, rootEntries := 0 }, 0, 1, 6,
    fsTypeFat32⟩

/-- `ExtendedBootParamBlock::total_sectors`. -/
def totalSectors (b : ExtendedBootParamBlock) : Nat := b.bpbStart.sectorCount

/-- `ExtendedBootParamBlock::validate`: the checks of `BootParamBlock::validate`, with
the FS information and backup sectors inside the reserved area, no root entries, the
count in `total_sectors_large` alone, and the `u32` sectors per FAT. -/
def validate (b : ExtendedBootParamBlock) : Bool :=
  let s := b.bpbStart
  if ¬ s.bytesPerSector.isPowerOfTwo ∨ s.bytesPerSector < 512 ∨ 4096 < s.bytesPerSector then
    false
  else if ¬ s.sectorsPerCluster.isPowerOfTwo ∨
      maxBytesPerCluster < s.bytesPerSector * s.sectorsPerCluster then false
  else if s.reservedSectors = 0 ∨ s.reservedSectors ≤ b.backupBootSector ∨
      s.reservedSectors ≤ b.fsInfoSector then false
  else if s.fatCount = 0 ∨ maxFatCount < s.fatCount then false
  else if s.rootEntries ≠ 0 ∨ ¬ (s.rootEntries * dirEntrySize) % s.bytesPerSector = 0 then
    false
  else if s.totalSectors ≠ 0 ∨ s.totalSectorsLarge = 0 then false
  else if b.sectorsPerFatLarge = 0 then false
  else true

end ExtendedBootParamBlock

/-! ## §2 Sizing a FAT12/16 Volume -/

namespace BootParamBlock

/-- The `if` chain of `configure_for_volume_size` that picks `sectors_per_cluster` from
the sector count. -/
def sectorsPerClusterFor (totalSectors : Nat) : Nat :=
  if totalSectors < 4085 then 1
  else if totalSectors < 8190 then 2
  else if totalSectors < 16450 then 1
  else if totalSectors < 32680 then 2
  else if totalSectors < 65525 then 4
  else if totalSectors < 131072 then 8
  else 16

/-- The `root_entries` that `configure_for_volume_size` picks. -/
def rootEntriesFor (totalSectors : Nat) : Nat :=
  if totalSectors < 16450 then 224 else 512

/-- The rows of the `sectors_per_cluster` table, with the root entries of each. -/
theorem layout_cases (n : Nat) :
    (n < 4085 ∧ sectorsPerClusterFor n = 1 ∧ rootEntriesFor n = 224) ∨
    ((4085 ≤ n ∧ n < 8190) ∧ sectorsPerClusterFor n = 2 ∧ rootEntriesFor n = 224) ∨
    ((8190 ≤ n ∧ n < 16450) ∧ sectorsPerClusterFor n = 1 ∧ rootEntriesFor n = 224) ∨
    ((16450 ≤ n ∧ n < 32680) ∧ sectorsPerClusterFor n = 2 ∧ rootEntriesFor n = 512) ∨
    ((32680 ≤ n ∧ n < 65525) ∧ sectorsPerClusterFor n = 4 ∧ rootEntriesFor n = 512) ∨
    ((65525 ≤ n ∧ n < 131072) ∧ sectorsPerClusterFor n = 8 ∧ rootEntriesFor n = 512) ∨
    (131072 ≤ n ∧ sectorsPerClusterFor n = 16 ∧ rootEntriesFor n = 512) := by
  have hroot₁ : n < 16450 → rootEntriesFor n = 224 := fun h => if_pos h
  have hroot₂ : ¬ n < 16450 → rootEntriesFor n = 512 := fun h => if_neg h
  unfold sectorsPerClusterFor
  split_ifs with h₁ h₂ h₃ h₄ h₅ h₆
  · exact .inl ⟨h₁, rfl, hroot₁ (by omega)⟩
  · exact .inr <| .inl ⟨⟨by omega, h₂⟩, rfl, hroot₁ (by omega)⟩
  · exact .inr <| .inr <| .inl ⟨⟨by omega, h₃⟩, rfl, hroot₁ h₃⟩
  · exact .inr <| .inr <| .inr <| .inl ⟨⟨by omega, h₄⟩, rfl, hroot₂ h₃⟩
  · exact .inr <| .inr <| .inr <| .inr <| .inl ⟨⟨by omega, h₅⟩, rfl, hroot₂ h₃⟩
  · exact .inr <| .inr <| .inr <| .inr <| .inr <| .inl ⟨⟨by omega, h₆⟩, rfl, hroot₂ h₃⟩
  · exact .inr <| .inr <| .inr <| .inr <| .inr <| .inr ⟨by omega, rfl, hroot₂ h₃⟩

/-- The body `calculate_sectors_per_fat_fat12` and `calculate_sectors_per_fat_fat16`
share: the sectors after the reserved area and the root directory, in clusters, sized by
`fatSizeBytes` and rounded up to whole sectors, as a `u16`. A `u16` count of root entries
times 32 fits in `u32`. -/
def calculateSectorsPerFat (fatSizeBytes : Nat → Option Nat) (b : BootParamBlock) :
    Option Nat := do
  let bytesPerSector := b.bpbStart.bytesPerSector
  let totalSectors := b.totalSectors
  let afterReserved ← subChecked totalSectors b.bpbStart.reservedSectors
  let rootSectors ← divChecked (b.bpbStart.rootEntries * 32) bytesPerSector
  let dataSectors ← subChecked afterReserved rootSectors
  let clusters ← divChecked dataSectors b.bpbStart.sectorsPerCluster
  let fatSize ← fatSizeBytes clusters
  let sectorsPerFat ← divCeilChecked fatSize bytesPerSector
  narrowChecked 16 sectorsPerFat

/-- `calculate_sectors_per_fat_fat12`: twelve bits an entry, `(clusters * 3).div_ceil(2)`. -/
def calculateSectorsPerFatFat12 (b : BootParamBlock) : Option Nat :=
  b.calculateSectorsPerFat fun clusters => do
    let bits ← mulChecked 32 clusters 3
    pure ((bits + 1) / 2)

/-- `calculate_sectors_per_fat_fat16`: two bytes an entry, `(clusters + 2) * 2`. -/
def calculateSectorsPerFatFat16 (b : BootParamBlock) : Option Nat :=
  b.calculateSectorsPerFat fun clusters => do
    let entries ← addChecked 32 clusters 2
    mulChecked 32 entries 2

/-- `BootParamBlock::configure_for_volume_size`. The label is chosen on the sector
count, by the first threshold of the `sectors_per_cluster` table. -/
def configureForVolumeSize (b : BootParamBlock) (volumeSizeBytes : Nat) :
    Option BootParamBlock := do
  let totalSectors ← divChecked volumeSizeBytes b.bpbStart.bytesPerSector
  let b ← if totalSectors ≤ 0xFFFF then
      -- the `u16::try_from` cannot fail under the guard
      pure { b with bpbStart.totalSectors := totalSectors, bpbStart.totalSectorsLarge := 0 }
    else do
      let totalSectorsLarge ← narrowChecked 32 totalSectors
      pure { b with
        bpbStart.totalSectors := 0, bpbStart.totalSectorsLarge := totalSectorsLarge }
  let b := { b with bpbStart.sectorsPerCluster := sectorsPerClusterFor totalSectors }
  let b := { b with bpbStart.rootEntries := rootEntriesFor totalSectors }
  if totalSectors < 4085 then
    let b := b.withFsType fsTypeFat12
    let sectorsPerFat ← b.calculateSectorsPerFatFat12
    pure { b with bpbStart.sectorsPerFat := sectorsPerFat }
  else
    let b := b.withFsType fsTypeFat16
    let sectorsPerFat ← b.calculateSectorsPerFatFat16
    pure { b with bpbStart.sectorsPerFat := sectorsPerFat }

/-- What `configure_for_volume_size` makes of `BootParamBlock::new` for `n` sectors, with
`sectorsPerFat` sectors per FAT. -/
def sized (n sectorsPerFat : Nat) : BootParamBlock where
  bpbStart :=
    { BootParamBlockStart.new with
      sectorsPerCluster := sectorsPerClusterFor n
      rootEntries := rootEntriesFor n
      totalSectors := if n ≤ 0xFFFF then n else 0
      sectorsPerFat := sectorsPerFat
      totalSectorsLarge := if n ≤ 0xFFFF then 0 else n }
  fsType := if n < 4085 then fsTypeFat12 else fsTypeFat16

/-- The sectors per FAT `configure_for_volume_size` computes for `n` sectors, before the
conversion to `u16`. -/
def sectorsPerFatFor (n : Nat) : Nat :=
  let clusters := (n - 1 - rootEntriesFor n * 32 / 512) / sectorsPerClusterFor n
  ((if n < 4085 then (clusters * 3 + 1) / 2 else (clusters + 2) * 2) + 511) / 512

/-- The shared calculation, when none of its steps panics. -/
theorem calculateSectorsPerFat_eq {fatSizeBytes : Nat → Option Nat} {b : BootParamBlock}
    (hbps : 0 < b.bpbStart.bytesPerSector) (hspc : 0 < b.bpbStart.sectorsPerCluster)
    (hfit : b.bpbStart.reservedSectors + b.bpbStart.rootEntries * 32 / b.bpbStart.bytesPerSector
      ≤ b.totalSectors) :
    b.calculateSectorsPerFat fatSizeBytes =
      (fatSizeBytes ((b.totalSectors - b.bpbStart.reservedSectors -
          b.bpbStart.rootEntries * 32 / b.bpbStart.bytesPerSector) /
          b.bpbStart.sectorsPerCluster)).bind fun bytes =>
        narrowChecked 16 ((bytes + b.bpbStart.bytesPerSector - 1) / b.bpbStart.bytesPerSector) := by
  simp only [calculateSectorsPerFat, divChecked_of_pos hbps, Option.bind_eq_bind, Option.bind_some]
  generalize b.bpbStart.rootEntries * 32 / b.bpbStart.bytesPerSector = r at hfit ⊢
  simp [subChecked_of_le (show b.bpbStart.reservedSectors ≤ b.totalSectors by omega),
    subChecked_of_le (show r ≤ b.totalSectors - b.bpbStart.reservedSectors by omega),
    divChecked_of_pos hspc, divCeilChecked_of_pos hbps]

section Sized

variable (n spf : Nat)

@[simp] theorem sized_bytesPerSector : (sized n spf).bpbStart.bytesPerSector = 512 := rfl
@[simp] theorem sized_sectorsPerCluster :
    (sized n spf).bpbStart.sectorsPerCluster = sectorsPerClusterFor n := rfl
@[simp] theorem sized_reservedSectors : (sized n spf).bpbStart.reservedSectors = 1 := rfl
@[simp] theorem sized_fatCount : (sized n spf).bpbStart.fatCount = 2 := rfl
@[simp] theorem sized_rootEntries : (sized n spf).bpbStart.rootEntries = rootEntriesFor n := rfl
@[simp] theorem sized_sectorsPerFat : (sized n spf).bpbStart.sectorsPerFat = spf := rfl
@[simp] theorem sized_fsType :
    (sized n spf).fsType = if n < 4085 then fsTypeFat12 else fsTypeFat16 := rfl

@[simp] theorem totalSectors_sized : (sized n spf).totalSectors = n := by
  simp only [totalSectors, BootParamBlockStart.sectorCount, sized]
  split_ifs <;> omega

end Sized

theorem sectorsPerClusterFor_pos (n : Nat) : 0 < sectorsPerClusterFor n := by
  rcases layout_cases n with h | h | h | h | h | h | h <;> obtain ⟨-, hspc, -⟩ := h <;> omega

/-- The data clusters the calculation counts stay far below `2 ^ 32`. -/
theorem clusters_lt {n : Nat} (hlt : n < 2 ^ 32) :
    (n - 1 - rootEntriesFor n * 32 / 512) / sectorsPerClusterFor n < 2 ^ 30 := by
  rcases layout_cases n with h | h | h | h | h | h | h <;> obtain ⟨hn, hspc, hroot⟩ := h <;> rw [hspc, hroot] <;> omega

section Layout

/-! A block laid out for `n` sectors as `configure_for_volume_size` lays out
`BootParamBlock::new`, whatever its label and sectors per FAT. -/

variable {b : BootParamBlock} {n : Nat} (hbps : b.bpbStart.bytesPerSector = 512)
  (hres : b.bpbStart.reservedSectors = 1) (hroot : b.bpbStart.rootEntries = rootEntriesFor n)
  (hspc : b.bpbStart.sectorsPerCluster = sectorsPerClusterFor n) (htot : b.totalSectors = n)
include hbps hres hroot hspc htot

theorem calculateSectorsPerFatFat12_of (h15 : 15 ≤ n) (h : n < 4085) :
    b.calculateSectorsPerFatFat12 = narrowChecked 16 (sectorsPerFatFor n) := by
  have h224 : rootEntriesFor n = 224 := if_pos (by omega)
  have h1 : sectorsPerClusterFor n = 1 := if_pos h
  rw [calculateSectorsPerFatFat12, calculateSectorsPerFat_eq (by simp [hbps])
    (by simp [hspc, h1]) (by simp [hbps, hres, hroot, htot, h224]; omega)]
  simp [hbps, hres, hroot, hspc, htot, sectorsPerFatFor, h224, h1, h,
    mulChecked_of_lt (show (n - 1 - 14) * 3 < 2 ^ 32 by omega)]

theorem calculateSectorsPerFatFat16_of (h : 4085 ≤ n) (hlt : n < 2 ^ 32) :
    b.calculateSectorsPerFatFat16 = narrowChecked 16 (sectorsPerFatFor n) := by
  have hr : rootEntriesFor n * 32 / 512 ≤ 32 := by unfold rootEntriesFor; split_ifs <;> omega
  have hcl := clusters_lt hlt
  rw [calculateSectorsPerFatFat16, calculateSectorsPerFat_eq (by simp [hbps])
    (by simp [hspc, sectorsPerClusterFor_pos]) (by simp [hbps, hres, hroot, htot]; omega)]
  simp only [hbps, hres, hroot, hspc, htot, sectorsPerFatFor, if_neg (show ¬ n < 4085 by omega)]
  generalize (n - 1 - rootEntriesFor n * 32 / 512) / sectorsPerClusterFor n = c at hcl ⊢
  simp [addChecked_of_lt (show c + 2 < 2 ^ 32 by omega),
    mulChecked_of_lt (show (c + 2) * 2 < 2 ^ 32 by omega)]

end Layout

/-- Sizing `BootParamBlock::new` for `n` sectors makes `sized n`, unless the sectors per FAT
overflow a `u16`. -/
theorem configureForVolumeSize_new {v : Nat} (h15 : 15 ≤ v / 512) (hlt : v / 512 < 2 ^ 32) :
    new.configureForVolumeSize v =
      (narrowChecked 16 (sectorsPerFatFor (v / 512))).map (sized (v / 512)) := by
  simp only [configureForVolumeSize, new, BootParamBlockStart.new, divChecked_of_pos (show 0 < 512 by decide)]
  generalize v / 512 = n at h15 hlt ⊢
  by_cases hsmall : n ≤ 0xFFFF
  · by_cases h : n < 4085
    · simp only [Option.bind_eq_bind, Option.bind_some, Option.pure_def, hsmall, h, if_true]
      rw [calculateSectorsPerFatFat12_of rfl rfl rfl rfl
        (by simp [totalSectors, BootParamBlockStart.sectorCount, show n ≠ 0 by omega]) h15 h]
      cases narrowChecked 16 (sectorsPerFatFor n) <;> simp [sized, hsmall, h, BootParamBlockStart.new]
    · simp only [Option.bind_eq_bind, Option.bind_some, Option.pure_def, hsmall, h, if_true,
        if_false]
      rw [calculateSectorsPerFatFat16_of rfl rfl rfl rfl
        (by simp [totalSectors, BootParamBlockStart.sectorCount, show n ≠ 0 by omega]) (by omega) hlt]
      cases narrowChecked 16 (sectorsPerFatFor n) <;> simp [sized, hsmall, h, BootParamBlockStart.new]
  · have h : ¬ n < 4085 := by omega
    simp only [Option.bind_eq_bind, Option.bind_some, Option.pure_def, hsmall, h, if_false,
      narrowChecked_of_lt hlt]
    rw [calculateSectorsPerFatFat16_of rfl rfl rfl rfl
      (by simp [totalSectors, BootParamBlockStart.sectorCount]) (by omega) hlt]
    cases narrowChecked 16 (sectorsPerFatFor n) <;> simp [sized, hsmall, h, BootParamBlockStart.new]

/-- The shared calculation panics when the reserved area and the root directory do not
fit. -/
theorem calculateSectorsPerFat_eq_none {fatSizeBytes : Nat → Option Nat} {b : BootParamBlock}
    (hbps : 0 < b.bpbStart.bytesPerSector)
    (h : b.totalSectors <
      b.bpbStart.reservedSectors + b.bpbStart.rootEntries * 32 / b.bpbStart.bytesPerSector) :
    b.calculateSectorsPerFat fatSizeBytes = none := by
  simp only [calculateSectorsPerFat, divChecked_of_pos hbps, Option.bind_eq_bind, Option.bind_some]
  generalize b.bpbStart.rootEntries * 32 / b.bpbStart.bytesPerSector = r at h ⊢
  by_cases hres : b.bpbStart.reservedSectors ≤ b.totalSectors
  · simp [subChecked_of_le hres, show b.totalSectors - b.bpbStart.reservedSectors < r by omega]
  · simp [show b.totalSectors < b.bpbStart.reservedSectors by omega]

/-- Below 15 sectors the root directory does not fit and the subtraction underflows. -/
theorem configureForVolumeSize_new_of_lt {v : Nat} (h : v / 512 < 15) :
    new.configureForVolumeSize v = none := by
  simp only [configureForVolumeSize, new, BootParamBlockStart.new,
    divChecked_of_pos (show 0 < 512 by decide)]
  generalize v / 512 = n at h ⊢
  simp only [Option.bind_eq_bind, Option.bind_some, Option.pure_def, if_pos (show n ≤ 0xFFFF by omega),
    if_pos (show n < 4085 by omega)]
  rw [calculateSectorsPerFatFat12, calculateSectorsPerFat_eq_none (by simp)]
  · rfl
  · simp only [totalSectors, BootParamBlockStart.sectorCount, withFsType_bpbStart, rootEntriesFor,
      if_pos (show n < 16450 by omega)]
    split_ifs <;> omega

/-- From `2 ^ 32` sectors on the count does not fit `total_sectors_large`. -/
theorem configureForVolumeSize_new_of_ge {v : Nat} (h : 2 ^ 32 ≤ v / 512) :
    new.configureForVolumeSize v = none := by
  simp only [configureForVolumeSize, new, BootParamBlockStart.new,
    divChecked_of_pos (show 0 < 512 by decide)]
  generalize v / 512 = n at h ⊢
  simp [show ¬ n ≤ 0xFFFF by omega, show narrowChecked 32 n = none by simpa using h]

/-- The sectors per FAT fit a `u16` below 268431377 sectors. -/
theorem sectorsPerFatFor_lt_iff {n : Nat} (h15 : 15 ≤ n) :
    sectorsPerFatFor n < 2 ^ 16 ↔ n < 268431377 := by
  rcases layout_cases n with h | h | h | h | h | h | h <;> obtain ⟨hn, hspc, hroot⟩ := h <;>
    simp only [sectorsPerFatFor, hspc, hroot] <;> split_ifs <;> omega

theorem configureForVolumeSize_new_eq_none_iff {v : Nat} :
    new.configureForVolumeSize v = none ↔ v / 512 < 15 ∨ 268431377 ≤ v / 512 := by
  rcases Nat.lt_or_ge (v / 512) 15 with h15 | h15
  · simp [configureForVolumeSize_new_of_lt h15, h15]
  rcases Nat.lt_or_ge (v / 512) (2 ^ 32) with hlt | hge
  · rw [configureForVolumeSize_new h15 hlt, Option.map_eq_none_iff, narrowChecked_eq_none,
      ← Nat.not_lt, sectorsPerFatFor_lt_iff h15]
    omega
  · simp only [configureForVolumeSize_new_of_ge hge, true_iff]
    omega

end BootParamBlock

/-! ## §3 Sizing a FAT32 Volume -/

namespace ExtendedBootParamBlock

/-- The `if` chain of `configure_for_volume_size` that picks `sectors_per_cluster`. -/
def sectorsPerClusterFor (totalSectors : Nat) : Nat :=
  if totalSectors < 532480 then 1
  else if totalSectors < 16777216 then 8
  else if totalSectors < 33554432 then 16
  else if totalSectors < 67108864 then 32
  else 64

/-- The rows of the `sectors_per_cluster` table. -/
theorem layout_cases (n : Nat) :
    (n < 532480 ∧ sectorsPerClusterFor n = 1) ∨
    ((532480 ≤ n ∧ n < 16777216) ∧ sectorsPerClusterFor n = 8) ∨
    ((16777216 ≤ n ∧ n < 33554432) ∧ sectorsPerClusterFor n = 16) ∨
    ((33554432 ≤ n ∧ n < 67108864) ∧ sectorsPerClusterFor n = 32) ∨
    (67108864 ≤ n ∧ sectorsPerClusterFor n = 64) := by
  unfold sectorsPerClusterFor
  split_ifs with h₁ h₂ h₃ h₄
  · exact .inl ⟨h₁, rfl⟩
  · exact .inr <| .inl ⟨⟨by omega, h₂⟩, rfl⟩
  · exact .inr <| .inr <| .inl ⟨⟨by omega, h₃⟩, rfl⟩
  · exact .inr <| .inr <| .inr <| .inl ⟨⟨by omega, h₄⟩, rfl⟩
  · exact .inr <| .inr <| .inr <| .inr ⟨by omega, rfl⟩

/-- `ExtendedBootParamBlock::calculate_sectors_per_fat`: four bytes an entry for the data
clusters and 100 more, rounded up to whole sectors, and a twentieth more. -/
def calculateSectorsPerFat (b : ExtendedBootParamBlock) : Option Nat := do
  let bytesPerSector := b.bpbStart.bytesPerSector
  let totalSectors := b.totalSectors
  let rootDirSectors := 0
  let afterReserved ← subChecked totalSectors b.bpbStart.reservedSectors
  let dataSectors ← subChecked afterReserved rootDirSectors
  let clusters ← divChecked dataSectors b.bpbStart.sectorsPerCluster
  let estimatedClusters ← addChecked 32 clusters 100
  let fatSizeBytes ← mulChecked 32 estimatedClusters 4
  let sectorsPerFat ← divCeilChecked fatSizeBytes bytesPerSector
  addChecked 32 sectorsPerFat (sectorsPerFat / 20)

/-- `ExtendedBootParamBlock::configure_for_volume_size`. The count goes to
`total_sectors_large` as `u32::try_from(..).unwrap_or(u32::MAX)`; the sectors per cluster
are picked on the count before that clamp. -/
def configureForVolumeSize (b : ExtendedBootParamBlock) (volumeSizeBytes : Nat) :
    Option ExtendedBootParamBlock := do
  let totalSectors ← divChecked volumeSizeBytes b.bpbStart.bytesPerSector
  let b := { b with
    bpbStart.totalSectors := 0,
    bpbStart.totalSectorsLarge := (narrowChecked 32 totalSectors).getD (2 ^ 32 - 1) }
  let b := { b with bpbStart.sectorsPerCluster := sectorsPerClusterFor totalSectors }
  let sectorsPerFat ← b.calculateSectorsPerFat
  pure { b with sectorsPerFatLarge := sectorsPerFat }

/-- What `configure_for_volume_size` makes of `ExtendedBootParamBlock::new_fat32` for `n`
sectors, with `sectorsPerFat` sectors per FAT. -/
def sized (n sectorsPerFat : Nat) : ExtendedBootParamBlock where
  bpbStart :=
    { BootParamBlockStart.new with
      sectorsPerCluster := sectorsPerClusterFor n
      reservedSectors := 32
      rootEntries := 0
      totalSectorsLarge := min n (2 ^ 32 - 1) }
  sectorsPerFatLarge := sectorsPerFat
  fsInfoSector := 1
  backupBootSector := 6
  fsType := fsTypeFat32

/-- The sectors per FAT `configure_for_volume_size` computes for `n` sectors. -/
def sectorsPerFatFor (n : Nat) : Nat :=
  let sectorsPerFat :=
    (((min n (2 ^ 32 - 1) - 32) / sectorsPerClusterFor n + 100) * 4 + 511) / 512
  sectorsPerFat + sectorsPerFat / 20

section Sized

variable (n spf : Nat)

@[simp] theorem sized_bytesPerSector : (sized n spf).bpbStart.bytesPerSector = 512 := rfl
@[simp] theorem sized_sectorsPerCluster :
    (sized n spf).bpbStart.sectorsPerCluster = sectorsPerClusterFor n := rfl
@[simp] theorem sized_reservedSectors : (sized n spf).bpbStart.reservedSectors = 32 := rfl
@[simp] theorem sized_fatCount : (sized n spf).bpbStart.fatCount = 2 := rfl
@[simp] theorem sized_rootEntries : (sized n spf).bpbStart.rootEntries = 0 := rfl
@[simp] theorem sized_totalSectors : (sized n spf).bpbStart.totalSectors = 0 := rfl
@[simp] theorem sized_totalSectorsLarge :
    (sized n spf).bpbStart.totalSectorsLarge = min n (2 ^ 32 - 1) := rfl
@[simp] theorem sized_sectorsPerFatLarge : (sized n spf).sectorsPerFatLarge = spf := rfl
@[simp] theorem sized_fsType : (sized n spf).fsType = fsTypeFat32 := rfl

@[simp] theorem totalSectors_sized : (sized n spf).totalSectors = min n (2 ^ 32 - 1) := rfl

end Sized

theorem sectorsPerClusterFor_pos (n : Nat) : 0 < sectorsPerClusterFor n := by
  rcases layout_cases n with h | h | h | h | h <;> obtain ⟨-, hspc⟩ := h <;> omega

/-- The data clusters the calculation counts stay far below `2 ^ 32`. -/
theorem clusters_lt (n : Nat) : (min n (2 ^ 32 - 1) - 32) / sectorsPerClusterFor n < 2 ^ 29 := by
  rcases layout_cases n with h | h | h | h | h <;> obtain ⟨hn, hspc⟩ := h <;> rw [hspc] <;> omega

/-- The calculation on a block laid out for `n` sectors from `new_fat32`: none of its steps
panics once the reserved area fits. -/
theorem calculateSectorsPerFat_of {b : ExtendedBootParamBlock} {n : Nat}
    (hbps : b.bpbStart.bytesPerSector = 512) (hres : b.bpbStart.reservedSectors = 32)
    (hspc : b.bpbStart.sectorsPerCluster = sectorsPerClusterFor n)
    (htot : b.totalSectors = min n (2 ^ 32 - 1)) (h32 : 32 ≤ n) :
    b.calculateSectorsPerFat = some (sectorsPerFatFor n) := by
  have hcl := clusters_lt n
  simp only [calculateSectorsPerFat, hbps, hres, hspc, htot, Option.bind_eq_bind, Option.bind_some,
    subChecked_of_le (show 32 ≤ min n (2 ^ 32 - 1) by omega),
    subChecked_of_le (Nat.zero_le (min n (2 ^ 32 - 1) - 32)), Nat.sub_zero,
    divChecked_of_pos (sectorsPerClusterFor_pos n), divCeilChecked_of_pos (show 0 < 512 by decide),
    sectorsPerFatFor]
  generalize (min n (2 ^ 32 - 1) - 32) / sectorsPerClusterFor n = c at hcl ⊢
  simp [addChecked_of_lt (show c + 100 < 2 ^ 32 by omega),
    mulChecked_of_lt (show (c + 100) * 4 < 2 ^ 32 by omega)]
  omega

/-- Below 32 sectors the reserved area does not fit and the subtraction underflows. -/
theorem calculateSectorsPerFat_eq_none {b : ExtendedBootParamBlock}
    (h : b.totalSectors < b.bpbStart.reservedSectors) : b.calculateSectorsPerFat = none := by
  simp only [calculateSectorsPerFat, subChecked_eq_none.2 h, Option.bind_eq_bind, Option.bind_none]

/-- Sizing `ExtendedBootParamBlock::new_fat32` panics below 32 sectors only. -/
theorem configureForVolumeSize_newFat32 {v : Nat} :
    newFat32.configureForVolumeSize v =
      if 32 ≤ v / 512 then some (sized (v / 512) (sectorsPerFatFor (v / 512))) else none := by
  simp only [configureForVolumeSize, newFat32, BootParamBlockStart.new,
    divChecked_of_pos (show 0 < 512 by decide), Option.bind_eq_bind, Option.bind_some,
    narrowChecked_getD_max]
  generalize v / 512 = n
  split_ifs with h32
  · rw [calculateSectorsPerFat_of rfl rfl rfl (by simp [totalSectors, BootParamBlockStart.sectorCount]) h32]
    rfl
  · rw [calculateSectorsPerFat_eq_none (by simp [totalSectors, BootParamBlockStart.sectorCount]; omega)]
    rfl

end ExtendedBootParamBlock

/-! ## §4 Boot Sectors -/

/-- `BootSector`: its parameter block and boot signature. -/
structure BootSector where
  bpb : BootParamBlock
  bootSignature : List UInt8
deriving DecidableEq, Repr

/-- `ExtendedBootSector`: its parameter block and boot signature. -/
structure ExtendedBootSector where
  bpb : ExtendedBootParamBlock
  bootSignature : List UInt8
deriving DecidableEq, Repr

namespace BootSector

/-- `BootSector::new`. -/
def new : BootSector := ⟨BootParamBlock.new, [0x55, 0xAA]⟩

/-- `BootSector::configure_for_volume_size`. -/
def configureForVolumeSize (bs : BootSector) (volumeSizeBytes : Nat) : Option BootSector := do
  let bpb ← bs.bpb.configureForVolumeSize volumeSizeBytes
  pure { bs with bpb := bpb }

/-- `BootSector::validate`. -/
def validate (bs : BootSector) : Bool :=
  if bs.bootSignature ≠ [0x55, 0xAA] then false else bs.bpb.validate

theorem configureForVolumeSize_new (v : Nat) :
    new.configureForVolumeSize v =
      (BootParamBlock.new.configureForVolumeSize v).map fun bpb => ⟨bpb, [0x55, 0xAA]⟩ := by
  simp only [configureForVolumeSize, new, Option.bind_eq_bind]
  cases BootParamBlock.new.configureForVolumeSize v <;> rfl

theorem validate_signed (bpb : BootParamBlock) :
    (⟨bpb, [0x55, 0xAA]⟩ : BootSector).validate = bpb.validate := rfl

end BootSector

namespace ExtendedBootSector

/-- `ExtendedBootSector::new`. -/
def new : ExtendedBootSector := ⟨ExtendedBootParamBlock.new, [0x55, 0xAA]⟩

/-- `ExtendedBootSector::new_fat32`. -/
def newFat32 : ExtendedBootSector := ⟨ExtendedBootParamBlock.newFat32, [0x55, 0xAA]⟩

/-- `ExtendedBootSector::configure_for_volume_size`. -/
def configureForVolumeSize (bs : ExtendedBootSector) (volumeSizeBytes : Nat) :
    Option ExtendedBootSector := do
  let bpb ← bs.bpb.configureForVolumeSize volumeSizeBytes
  pure { bs with bpb := bpb }

/-- `ExtendedBootSector::validate`. -/
def validate (bs : ExtendedBootSector) : Bool :=
  if bs.bootSignature ≠ [0x55, 0xAA] then false else bs.bpb.validate

theorem configureForVolumeSize_newFat32 (v : Nat) :
    newFat32.configureForVolumeSize v =
      (ExtendedBootParamBlock.newFat32.configureForVolumeSize v).map fun bpb =>
        ⟨bpb, [0x55, 0xAA]⟩ := by
  simp only [configureForVolumeSize, newFat32, Option.bind_eq_bind]
  cases ExtendedBootParamBlock.newFat32.configureForVolumeSize v <;> rfl

theorem validate_signed (bpb : ExtendedBootParamBlock) :
    (⟨bpb, [0x55, 0xAA]⟩ : ExtendedBootSector).validate = bpb.validate := rfl

end ExtendedBootSector

/-! ## §5 The Type a Cluster Count Calls For -/

namespace FatType

/-- The type of FAT a count of data clusters calls for. The type of a FAT volume is fixed
by this count alone: fewer than 4085 clusters is FAT12, fewer than 65525 FAT16, and FAT32
from there. -/
def ofClusterCount (clusters : Nat) : FatType :=
  if clusters < 4085 then .fat12 else if clusters < 65525 then .fat16 else .fat32

/-- The label `fs_type` gives each type. -/
def label : FatType → List UInt8
  | .fat12 => fsTypeFat12
  | .fat16 => fsTypeFat16
  | .fat32 => fsTypeFat32

theorem label_injective : Function.Injective label := by
  intro a b
  cases a <;> cases b <;> decide

theorem ofClusterCount_eq_fat12 {clusters : Nat} :
    ofClusterCount clusters = .fat12 ↔ clusters < 4085 := by
  unfold ofClusterCount; split_ifs <;> simp_all

theorem ofClusterCount_eq_fat16 {clusters : Nat} :
    ofClusterCount clusters = .fat16 ↔ 4085 ≤ clusters ∧ clusters < 65525 := by
  unfold ofClusterCount; split_ifs <;> simp_all

theorem ofClusterCount_eq_fat32 {clusters : Nat} :
    ofClusterCount clusters = .fat32 ↔ 65525 ≤ clusters := by
  unfold ofClusterCount
  split_ifs with h₁ h₂
  · simp only [false_iff, Nat.not_le]; omega
  · simpa using h₂
  · simpa using h₂

end FatType

namespace BootParamBlockStart

/-- The sectors of the root directory: `root_entries` records, in whole sectors. -/
def rootDirSectors (s : BootParamBlockStart) : Nat :=
  (s.rootEntries * dirEntrySize + s.bytesPerSector - 1) / s.bytesPerSector

/-- The sectors before the data area: the reserved area, the FATs and the root
directory. -/
def metadataSectors (s : BootParamBlockStart) (sectorsPerFat : Nat) : Nat :=
  s.reservedSectors + s.fatCount * sectorsPerFat + s.rootDirSectors

/-- The data clusters: the sectors after the reserved area, the FATs and the root
directory, in whole clusters. -/
def clusterCount (s : BootParamBlockStart) (sectorsPerFat : Nat) : Nat :=
  (s.sectorCount - s.metadataSectors sectorsPerFat) / s.sectorsPerCluster

end BootParamBlockStart

namespace BootParamBlock

/-- The data clusters of a FAT12/16 block. -/
def clusterCount (b : BootParamBlock) : Nat := b.bpbStart.clusterCount b.bpbStart.sectorsPerFat

/-- The volume holds the reserved area, the FATs and the root directory. -/
def AreasFit (b : BootParamBlock) : Prop :=
  b.bpbStart.metadataSectors b.bpbStart.sectorsPerFat ≤ b.totalSectors

/-- The label names the type the cluster count calls for. -/
def LabelAgrees (b : BootParamBlock) : Prop :=
  b.fsType = (FatType.ofClusterCount b.clusterCount).label

instance (b : BootParamBlock) : Decidable b.AreasFit := inferInstanceAs (Decidable (_ ≤ _))

instance (b : BootParamBlock) : Decidable b.LabelAgrees := inferInstanceAs (Decidable (_ = _))

end BootParamBlock

namespace ExtendedBootParamBlock

/-- The data clusters of a FAT32 block. -/
def clusterCount (b : ExtendedBootParamBlock) : Nat :=
  b.bpbStart.clusterCount b.sectorsPerFatLarge

/-- The volume holds the reserved area and the FATs. -/
def AreasFit (b : ExtendedBootParamBlock) : Prop :=
  b.bpbStart.metadataSectors b.sectorsPerFatLarge ≤ b.totalSectors

/-- The label names the type the cluster count calls for. -/
def LabelAgrees (b : ExtendedBootParamBlock) : Prop :=
  b.fsType = (FatType.ofClusterCount b.clusterCount).label

instance (b : ExtendedBootParamBlock) : Decidable b.AreasFit :=
  inferInstanceAs (Decidable (_ ≤ _))

instance (b : ExtendedBootParamBlock) : Decidable b.LabelAgrees :=
  inferInstanceAs (Decidable (_ = _))

end ExtendedBootParamBlock

/-! ## §6 What Sizing Makes: Validity and Labels -/

namespace BootParamBlock

theorem isPowerOfTwo_sectorsPerClusterFor (n : Nat) : (sectorsPerClusterFor n).isPowerOfTwo := by
  rcases layout_cases n with h | h | h | h | h | h | h <;> obtain ⟨-, hspc, -⟩ := h <;> rw [hspc]
  exacts [⟨0, rfl⟩, ⟨1, rfl⟩, ⟨0, rfl⟩, ⟨1, rfl⟩, ⟨2, rfl⟩, ⟨3, rfl⟩, ⟨4, rfl⟩]

theorem sectorsPerClusterFor_le (n : Nat) : sectorsPerClusterFor n ≤ 16 := by
  rcases layout_cases n with h | h | h | h | h | h | h <;> obtain ⟨-, hspc, -⟩ := h <;> omega

theorem validate_sized_iff {n spf : Nat} : (sized n spf).validate = true ↔ 0 < n ∧ 0 < spf := by
  have hpow := isPowerOfTwo_sectorsPerClusterFor n
  have hle := sectorsPerClusterFor_le n
  have hroot : rootEntriesFor n * dirEntrySize % 512 = 0 := by
    unfold rootEntriesFor; split_ifs <;> decide
  have h512 : Nat.isPowerOfTwo 512 := ⟨9, rfl⟩
  have hbpc : 512 * sectorsPerClusterFor n ≤ maxBytesPerCluster := by
    unfold maxBytesPerCluster; omega
  simp only [validate, sized_bytesPerSector, sized_sectorsPerCluster, sized_reservedSectors,
    sized_fatCount, sized_rootEntries, sized_sectorsPerFat]
  by_cases hspf : spf = 0
  · simp [hspf]
  · simp [sized, hpow, hroot, h512, hbpc, hspf, maxFatCount]
    omega

theorem sectorsPerFatFor_pos {n : Nat} (h16 : 16 ≤ n) : 0 < sectorsPerFatFor n := by
  rcases layout_cases n with h | h | h | h | h | h | h <;> obtain ⟨hn, hspc, hroot⟩ := h <;>
    simp only [sectorsPerFatFor, hspc, hroot] <;> split_ifs <;> omega

theorem rootDirSectors_sized (n spf : Nat) :
    (sized n spf).bpbStart.rootDirSectors = rootEntriesFor n * 32 / 512 := by
  simp only [BootParamBlockStart.rootDirSectors, sized_rootEntries, sized_bytesPerSector,
    dirEntrySize, rootEntriesFor]
  split_ifs <;> rfl

theorem clusterCount_sized (n spf : Nat) :
    (sized n spf).clusterCount =
      (n - (1 + 2 * spf + rootEntriesFor n * 32 / 512)) / sectorsPerClusterFor n := by
  have htot := totalSectors_sized n spf
  simp only [totalSectors] at htot
  simp only [clusterCount, BootParamBlockStart.clusterCount, BootParamBlockStart.metadataSectors,
    rootDirSectors_sized, htot, sized_reservedSectors, sized_fatCount, sized_sectorsPerFat,
    sized_sectorsPerCluster]

example : (sized 4085 (sectorsPerFatFor 4085)).clusterCount = 2027 := by decide

theorem areasFit_sized_iff (n : Nat) :
    (sized n (sectorsPerFatFor n)).AreasFit ↔ n = 15 ∨ 17 ≤ n := by
  simp only [AreasFit, BootParamBlockStart.metadataSectors, rootDirSectors_sized,
    totalSectors_sized, sized_reservedSectors, sized_fatCount, sized_sectorsPerFat]
  rcases layout_cases n with h | h | h | h | h | h | h <;> obtain ⟨hn, hspc, hroot⟩ := h <;>
    simp only [sectorsPerFatFor, hspc, hroot] <;> split_ifs <;> omega

theorem fsType_sized (n spf : Nat) :
    (sized n spf).fsType = (if n < 4085 then FatType.fat12 else .fat16).label := by
  rw [sized_fsType]; split_ifs <;> rfl

/-- The clusters of the layouts reach 4085 at 8190 sectors. -/
theorem clusterCount_sized_lt_iff (n : Nat) :
    (sized n (sectorsPerFatFor n)).clusterCount < 4085 ↔ n < 8190 := by
  rw [clusterCount_sized]
  rcases layout_cases n with h | h | h | h | h | h | h <;> obtain ⟨hn, hspc, hroot⟩ := h <;>
    simp only [sectorsPerFatFor, hspc, hroot] <;> split_ifs <;> omega

/-- The clusters of the layouts reach 65525 at 1048947 sectors. -/
theorem le_clusterCount_sized_iff (n : Nat) :
    65525 ≤ (sized n (sectorsPerFatFor n)).clusterCount ↔ 1048947 ≤ n := by
  rw [clusterCount_sized]
  rcases layout_cases n with h | h | h | h | h | h | h <;> obtain ⟨hn, hspc, hroot⟩ := h <;>
    simp only [sectorsPerFatFor, hspc, hroot] <;> split_ifs <;> omega

theorem labelAgrees_sized_iff (n : Nat) :
    (sized n (sectorsPerFatFor n)).LabelAgrees ↔ n < 4085 ∨ (8190 ≤ n ∧ n < 1048947) := by
  have h12 := clusterCount_sized_lt_iff n
  have h32 := le_clusterCount_sized_iff n
  rw [LabelAgrees, fsType_sized, FatType.label_injective.eq_iff, eq_comm]
  split_ifs with h
  · rw [FatType.ofClusterCount_eq_fat12]
    omega
  · rw [FatType.ofClusterCount_eq_fat16]
    omega

end BootParamBlock
namespace ExtendedBootParamBlock

theorem isPowerOfTwo_sectorsPerClusterFor (n : Nat) : (sectorsPerClusterFor n).isPowerOfTwo := by
  rcases layout_cases n with h | h | h | h | h <;> obtain ⟨-, hspc⟩ := h <;> rw [hspc]
  exacts [⟨0, rfl⟩, ⟨3, rfl⟩, ⟨4, rfl⟩, ⟨5, rfl⟩, ⟨6, rfl⟩]

theorem sectorsPerClusterFor_le (n : Nat) : sectorsPerClusterFor n ≤ 64 := by
  rcases layout_cases n with h | h | h | h | h <;> obtain ⟨-, hspc⟩ := h <;> omega

theorem validate_sized_iff {n spf : Nat} : (sized n spf).validate = true ↔ 0 < n ∧ 0 < spf := by
  have hpow := isPowerOfTwo_sectorsPerClusterFor n
  have hbpc : 512 * sectorsPerClusterFor n ≤ maxBytesPerCluster := by
    have := sectorsPerClusterFor_le n
    unfold maxBytesPerCluster; omega
  have h512 : Nat.isPowerOfTwo 512 := ⟨9, rfl⟩
  simp only [validate, sized_bytesPerSector, sized_sectorsPerCluster, sized_reservedSectors,
    sized_fatCount, sized_rootEntries, sized_totalSectors, sized_totalSectorsLarge,
    sized_sectorsPerFatLarge]
  by_cases hspf : spf = 0
  · simp [hspf]
  · simp [sized, hpow, h512, hbpc, hspf, maxFatCount]
    omega

theorem sectorsPerFatFor_pos (n : Nat) : 0 < sectorsPerFatFor n := by
  simp only [sectorsPerFatFor]
  generalize (min n (2 ^ 32 - 1) - 32) / sectorsPerClusterFor n = c
  omega

theorem clusterCount_sized (n spf : Nat) :
    (sized n spf).clusterCount = (min n (2 ^ 32 - 1) - (32 + 2 * spf)) / sectorsPerClusterFor n := by
  simp [clusterCount, BootParamBlockStart.clusterCount, BootParamBlockStart.metadataSectors,
    BootParamBlockStart.rootDirSectors, BootParamBlockStart.sectorCount, dirEntrySize]

theorem areasFit_sized_iff (n : Nat) : (sized n (sectorsPerFatFor n)).AreasFit ↔ 34 ≤ n := by
  simp only [AreasFit, BootParamBlockStart.metadataSectors, BootParamBlockStart.rootDirSectors,
    totalSectors_sized, sized_reservedSectors, sized_fatCount, sized_sectorsPerFatLarge,
    sized_rootEntries, sized_bytesPerSector, dirEntrySize]
  rcases layout_cases n with h | h | h | h | h <;> obtain ⟨hn, hspc⟩ := h <;> simp only [sectorsPerFatFor, hspc] <;> omega

/-- The clusters of the layouts reach 65525 at 66653 sectors. -/
theorem le_clusterCount_sized_iff (n : Nat) :
    65525 ≤ (sized n (sectorsPerFatFor n)).clusterCount ↔ 66653 ≤ n := by
  rw [clusterCount_sized]
  rcases layout_cases n with h | h | h | h | h <;> obtain ⟨hn, hspc⟩ := h <;> simp only [sectorsPerFatFor, hspc] <;> omega

theorem labelAgrees_sized_iff (n : Nat) :
    (sized n (sectorsPerFatFor n)).LabelAgrees ↔ 66653 ≤ n := by
  rw [LabelAgrees, sized_fsType, show fsTypeFat32 = FatType.fat32.label from rfl,
    FatType.label_injective.eq_iff, eq_comm, FatType.ofClusterCount_eq_fat32,
    le_clusterCount_sized_iff]

end ExtendedBootParamBlock

/-! ## §7 Sizing a Boot Sector -/

namespace BootSector

/-- Sizing `BootSector::new` for a volume of `v` bytes that it does not panic on makes the
layout `sized` for its sectors. -/
theorem configureForVolumeSize_new_eq_sized {v : Nat} (h15 : 15 ≤ v / 512)
    (hT : v / 512 < 268431377) :
    new.configureForVolumeSize v =
      some ⟨.sized (v / 512) (BootParamBlock.sectorsPerFatFor (v / 512)), [0x55, 0xAA]⟩ := by
  rw [configureForVolumeSize_new, BootParamBlock.configureForVolumeSize_new h15 (by omega),
    narrowChecked_of_lt ((BootParamBlock.sectorsPerFatFor_lt_iff h15).2 hT)]
  rfl

/-- From 17 sectors on the layout validates and holds its areas. -/
theorem sized_valid {n : Nat} (h : 17 ≤ n) :
    (⟨.sized n (BootParamBlock.sectorsPerFatFor n), [0x55, 0xAA]⟩ : BootSector).validate = true ∧
      (BootParamBlock.sized n (BootParamBlock.sectorsPerFatFor n)).AreasFit := by
  rw [validate_signed, BootParamBlock.validate_sized_iff, BootParamBlock.areasFit_sized_iff]
  exact ⟨⟨by omega, BootParamBlock.sectorsPerFatFor_pos (by omega)⟩, by omega⟩

/-- `BootSector::new().configure_for_volume_size(v)` gives a boot sector that validates,
holds its reserved area, FATs and root directory, and is labelled with the type its
cluster count calls for, exactly from 17 up to 4085 sectors and from 8190 up to 1048947
sectors. -/
theorem configureForVolumeSize_new_sound_iff (v : Nat) :
    (∃ bs, new.configureForVolumeSize v = some bs ∧ bs.validate = true ∧ bs.bpb.AreasFit ∧
        bs.bpb.LabelAgrees) ↔
      (17 ≤ v / 512 ∧ v / 512 < 4085) ∨ (8190 ≤ v / 512 ∧ v / 512 < 1048947) := by
  constructor
  · rintro ⟨bs, hcfg, hval, hfit, hlab⟩
    have hok : ¬ (v / 512 < 15 ∨ 268431377 ≤ v / 512) := by
      rw [← BootParamBlock.configureForVolumeSize_new_eq_none_iff]
      intro hnone
      simp [configureForVolumeSize_new, hnone] at hcfg
    rw [configureForVolumeSize_new_eq_sized (by omega) (by omega), Option.some.injEq] at hcfg
    subst hcfg
    rw [validate_signed, BootParamBlock.validate_sized_iff] at hval
    rw [BootParamBlock.areasFit_sized_iff] at hfit
    rw [BootParamBlock.labelAgrees_sized_iff] at hlab
    -- 15 sectors leave no cluster, and no sector for the FAT
    have h15 : v / 512 ≠ 15 := fun h => by simp [h] at hval; exact absurd hval (by decide)
    omega
  · intro h
    obtain ⟨hval, hfit⟩ := sized_valid (n := v / 512) (by omega)
    exact ⟨_, configureForVolumeSize_new_eq_sized (by omega) (by omega), hval, hfit,
      (BootParamBlock.labelAgrees_sized_iff _).2 (by omega)⟩

end BootSector

namespace ExtendedBootSector

theorem configureForVolumeSize_newFat32_eq_sized {v : Nat} (h32 : 32 ≤ v / 512) :
    newFat32.configureForVolumeSize v =
      some ⟨.sized (v / 512) (ExtendedBootParamBlock.sectorsPerFatFor (v / 512)), [0x55, 0xAA]⟩ := by
  rw [configureForVolumeSize_newFat32, ExtendedBootParamBlock.configureForVolumeSize_newFat32,
    if_pos h32]
  rfl

/-- From 34 sectors on the layout validates and holds its areas. -/
theorem sized_valid {n : Nat} (h : 34 ≤ n) :
    (⟨.sized n (ExtendedBootParamBlock.sectorsPerFatFor n), [0x55, 0xAA]⟩ :
        ExtendedBootSector).validate = true ∧
      (ExtendedBootParamBlock.sized n (ExtendedBootParamBlock.sectorsPerFatFor n)).AreasFit := by
  rw [validate_signed, ExtendedBootParamBlock.validate_sized_iff,
    ExtendedBootParamBlock.areasFit_sized_iff]
  exact ⟨⟨by omega, ExtendedBootParamBlock.sectorsPerFatFor_pos n⟩, h⟩

/-- `ExtendedBootSector::new_fat32().configure_for_volume_size(v)` gives a boot sector
that validates, holds its reserved area and FATs, and is labelled with the type its
cluster count calls for, exactly from 66653 sectors on. -/
theorem configureForVolumeSize_newFat32_sound_iff (v : Nat) :
    (∃ bs, newFat32.configureForVolumeSize v = some bs ∧ bs.validate = true ∧ bs.bpb.AreasFit ∧
        bs.bpb.LabelAgrees) ↔ 66653 ≤ v / 512 := by
  constructor
  · rintro ⟨bs, hcfg, -, -, hlab⟩
    by_cases h32 : 32 ≤ v / 512
    · rw [configureForVolumeSize_newFat32_eq_sized h32, Option.some.injEq] at hcfg
      subst hcfg
      exact (ExtendedBootParamBlock.labelAgrees_sized_iff _).1 hlab
    · simp [configureForVolumeSize_newFat32, ExtendedBootParamBlock.configureForVolumeSize_newFat32,
        h32] at hcfg
  · intro h
    obtain ⟨hval, hfit⟩ := sized_valid (n := v / 512) (by omega)
    exact ⟨_, configureForVolumeSize_newFat32_eq_sized (by omega), hval, hfit,
      (ExtendedBootParamBlock.labelAgrees_sized_iff _).2 h⟩

end ExtendedBootSector

/-- Sizing labels by the sector count what the count of clusters decides. From 4085
sectors `BootSector::new` writes a FAT16 label on a FAT12 count of clusters, from 1048947
sectors on a FAT32 count, and from 268431377 sectors it panics; below 66653 sectors
`ExtendedBootSector::new_fat32` writes a FAT32 label on a FAT12 or FAT16 count. Each of
these boot sectors passes its `validate` and holds its reserved area, FATs and root
directory. -/
theorem configureForVolumeSize_mislabels :
    (∀ v, 4085 * 512 ≤ v → v < 8190 * 512 →
      ∃ bs, BootSector.new.configureForVolumeSize v = some bs ∧ bs.validate = true ∧
        bs.bpb.AreasFit ∧ bs.bpb.fsType = FatType.fat16.label ∧
        FatType.ofClusterCount bs.bpb.clusterCount = .fat12) ∧
    (∀ v, 1048947 * 512 ≤ v → v < 268431377 * 512 →
      ∃ bs, BootSector.new.configureForVolumeSize v = some bs ∧ bs.validate = true ∧
        bs.bpb.AreasFit ∧ bs.bpb.fsType = FatType.fat16.label ∧
        FatType.ofClusterCount bs.bpb.clusterCount = .fat32) ∧
    (∀ v, 268431377 * 512 ≤ v → BootSector.new.configureForVolumeSize v = none) ∧
    (∀ v, 34 * 512 ≤ v → v < 66653 * 512 →
      ∃ bs, ExtendedBootSector.newFat32.configureForVolumeSize v = some bs ∧
        bs.validate = true ∧ bs.bpb.AreasFit ∧ bs.bpb.fsType = FatType.fat32.label ∧
        FatType.ofClusterCount bs.bpb.clusterCount ≠ .fat32) := by
  refine ⟨fun v h₁ h₂ => ?_, fun v h₁ h₂ => ?_, fun v h => ?_, fun v h₁ h₂ => ?_⟩
  case refine_1 =>
    obtain ⟨hval, hfit⟩ := BootSector.sized_valid (n := v / 512) (by omega)
    refine ⟨_, BootSector.configureForVolumeSize_new_eq_sized (by omega) (by omega), hval, hfit,
      ?_, ?_⟩
    · rw [BootParamBlock.fsType_sized, if_neg (by omega)]
    · rw [FatType.ofClusterCount_eq_fat12, BootParamBlock.clusterCount_sized_lt_iff]
      omega
  case refine_2 =>
    obtain ⟨hval, hfit⟩ := BootSector.sized_valid (n := v / 512) (by omega)
    refine ⟨_, BootSector.configureForVolumeSize_new_eq_sized (by omega) (by omega), hval, hfit,
      ?_, ?_⟩
    · rw [BootParamBlock.fsType_sized, if_neg (by omega)]
    · rw [FatType.ofClusterCount_eq_fat32, BootParamBlock.le_clusterCount_sized_iff]
      omega
  case refine_3 =>
    rw [BootSector.configureForVolumeSize_new,
      BootParamBlock.configureForVolumeSize_new_eq_none_iff.2 (.inr (by omega))]
    rfl
  case refine_4 =>
    obtain ⟨hval, hfit⟩ := ExtendedBootSector.sized_valid (n := v / 512) (by omega)
    refine ⟨_, ExtendedBootSector.configureForVolumeSize_newFat32_eq_sized (by omega), hval,
      hfit, rfl, ?_⟩
    rw [Ne, FatType.ofClusterCount_eq_fat32, ExtendedBootParamBlock.le_clusterCount_sized_iff]
    omega

/-- A volume of 4085 sectors, about 2 MiB: FAT16 by its label, 2027 clusters. -/
theorem configureForVolumeSize_mislabels_4085 :
    ∃ bs, BootSector.new.configureForVolumeSize (4085 * 512) = some bs ∧ bs.validate = true ∧
      bs.bpb.AreasFit ∧ bs.bpb.fsType = FatType.fat16.label ∧
      FatType.ofClusterCount bs.bpb.clusterCount = .fat12 :=
  configureForVolumeSize_mislabels.1 _ le_rfl (by decide)

end Beskar.Storage.Fat
