import Beskar.Lib.Bits
import Beskar.Lib.Slice

/-!
# FAT Entries in the Table's Bytes

The entry encodings of `fs/fat/fat.rs`: `read_fat_entry` and `write_fat_entry` for
FAT12, FAT16 and FAT32 over the bytes of a table. FAT12 packs two 12-bit entries into
three bytes, so a write shares a byte with a neighbouring entry. FAT32 keeps the high
nibble of an entry's last byte.

The three encodings share the raw values of the entries. Only the end-of-chain marker
`top` differs, being `0x0FFF`, `0xFFFF` or `0x0FFF_FFFF`; the bad and reserved markers
lie just below it (`decodeEntry`, `encodeEntry`).

## Main results
For each of the three types, and for the dispatch on the type (§5):
- `readFatEntry_eq_error`: a read fails only when out of bounds.
- `readFatEntry_outOfBounds_of_le`: a larger cluster is out of bounds too.
- `writeFatEntry_of_readFatEntry`: a write succeeds where a read does.
- `readFatEntry_writeFatEntry_self`: a write reads back as the raw value written.
- `readFatEntry_writeFatEntry_of_ne`: a write changes no other entry.

`decodeEntry_encodeEntry_eq_free_iff` says that an entry reads back free exactly when it
was written free, for a `Next` link to a valid cluster; `decodeEntry_encodeEntry` that a
representable entry reads back as itself, and `fat_entry_write_read` puts the round trip
together with the FAT32 reserved bits (`Fat32.highNibble_writeFatEntry`).
-/

namespace Beskar.Storage.Fat

open Beskar.Lib

/-! ## §1 Entries and Clusters -/

/-- `FatType`. -/
inductive FatType
  | fat12 | fat16 | fat32
deriving DecidableEq, Repr

/-! A cluster, `Cluster(u32)`, is its number. -/

namespace Cluster

/-- `Cluster::is_valid`: the data clusters `2..=max`. -/
def isValid (fatType : FatType) (c : Nat) : Bool :=
  match fatType with
  | .fat12 => 2 ≤ c && c ≤ 0xFF6
  | .fat16 => 2 ≤ c && c ≤ 0xFFF6
  | .fat32 => 2 ≤ c && c ≤ 0x0FFF_FFF6

end Cluster

/-- `FatEntry`. -/
inductive FatEntry
  | free
  | next (c : Nat)
  | endOfChain
  | bad
  | reserved
deriving DecidableEq, Repr

/-- `FatError`. -/
inductive FatError
  | invalidParameter | io | notFound | invalidFilesystem | invalidBootSector | invalidFat
  | invalidCluster | invalidDirEntry | outOfBounds | notSupported | unexpectedEOF
deriving DecidableEq, Repr

/-- The entry a raw value reads as: the `match value` of each `read_fat_entry`, where `top`
is the type's end-of-chain marker. -/
def decodeEntry (top value : Nat) : FatEntry :=
  if value = 0 then .free
  else if value = top - 8 then .bad
  else if top - 15 ≤ value ∧ value ≤ top - 9 then .reserved
  else if top - 7 ≤ value ∧ value ≤ top then .endOfChain
  else .next value

/-- The raw value of an entry: `value` in each `write_fat_entry`. A link keeps the low
bits of its target. -/
def encodeEntry (top : Nat) : FatEntry → Nat
  | .free => 0
  | .next c => c &&& top
  | .endOfChain => top
  | .bad => top - 8
  | .reserved => top - 9

/-- The link targets a caller may write: `Next` only to a valid cluster. -/
def FatEntry.LinksValid (fatType : FatType) : FatEntry → Prop
  | .next c => Cluster.isValid fatType c = true
  | _ => True

instance (fatType : FatType) : (e : FatEntry) → Decidable (e.LinksValid fatType)
  | .next _ => inferInstanceAs (Decidable (_ = true))
  | .free | .endOfChain | .bad | .reserved => inferInstanceAs (Decidable True)

theorem decodeEntry_eq_free_iff {top value : Nat} : decodeEntry top value = .free ↔ value = 0 := by
  unfold decodeEntry
  split_ifs <;> simp_all

/-- Every raw value fits the `k` bits of an entry. -/
theorem encodeEntry_lt {k : Nat} (e : FatEntry) : encodeEntry (2 ^ k - 1) e < 2 ^ k := by
  have hpos : 0 < 2 ^ k := Nat.two_pow_pos k
  cases e with
  | next c =>
    show c &&& 2 ^ k - 1 < 2 ^ k
    rw [Nat.and_two_pow_sub_one_eq_mod]
    exact Nat.mod_lt c hpos
  | free | endOfChain | bad | reserved =>
    simp only [encodeEntry]
    omega

/-- A valid link target keeps all its bits, so it is not the free value. -/
theorem encodeEntry_next_of_lt {k c : Nat} (hk : c < 2 ^ k) :
    encodeEntry (2 ^ k - 1) (.next c) = c := by
  show c &&& 2 ^ k - 1 = c
  rw [Nat.and_two_pow_sub_one_eq_mod, Nat.mod_eq_of_lt hk]

/-- An entry written with a valid link reads back free exactly when it was written free. -/
theorem decodeEntry_encodeEntry_eq_free_iff {k : Nat} (hk : 4 ≤ k) {e : FatEntry}
    (hlink : ∀ c, e = .next c → 2 ≤ c ∧ c < 2 ^ k) :
    decodeEntry (2 ^ k - 1) (encodeEntry (2 ^ k - 1) e) = .free ↔ e = .free := by
  have h16 : 16 ≤ 2 ^ k := by
    calc 16 = 2 ^ 4 := rfl
      _ ≤ 2 ^ k := Nat.pow_le_pow_right (by decide) hk
  rw [decodeEntry_eq_free_iff]
  cases e with
  | free => simp [encodeEntry]
  | next c =>
    obtain ⟨hc, hck⟩ := hlink c rfl
    rw [encodeEntry_next_of_lt hck]
    simp only [reduceCtorEq, iff_false]
    omega
  | endOfChain | bad | reserved =>
    simp only [encodeEntry, reduceCtorEq, iff_false]
    omega

/-- The entries a table holds and reads back: a `Next` link to a cluster above the free
value and below the reserved, bad and end-of-chain values. -/
def FatEntry.Representable (top : Nat) : FatEntry → Prop
  | .next n => 0 < n ∧ n + 15 < top
  | _ => True

instance (top : Nat) : (e : FatEntry) → Decidable (e.Representable top)
  | .next _ => inferInstanceAs (Decidable (_ ∧ _))
  | .free | .endOfChain | .bad | .reserved => inferInstanceAs (Decidable True)

/-- **A representable entry reads back as itself.** -/
theorem decodeEntry_encodeEntry {k : Nat} (hk : 4 ≤ k) {e : FatEntry}
    (he : e.Representable (2 ^ k - 1)) : decodeEntry (2 ^ k - 1) (encodeEntry (2 ^ k - 1) e) = e := by
  have h16 : 16 ≤ 2 ^ k := by
    calc 16 = 2 ^ 4 := rfl
      _ ≤ 2 ^ k := Nat.pow_le_pow_right (by decide) hk
  -- each marker lies in its own range of `match value`, and a link below all of them
  cases e with
  | free => rfl
  | next n =>
    obtain ⟨hpos, hlt⟩ := he
    rw [encodeEntry_next_of_lt (by omega), decodeEntry, if_neg (by omega), if_neg (by omega),
      if_neg (by omega), if_neg (by omega)]
  | endOfChain =>
    rw [encodeEntry, decodeEntry, if_neg (by omega), if_neg (by omega), if_neg (by omega),
      if_pos ⟨by omega, Nat.le_refl _⟩]
  | bad => rw [encodeEntry, decodeEntry, if_neg (by omega), if_pos rfl]
  | reserved =>
    rw [encodeEntry, decodeEntry, if_neg (by omega), if_neg (by omega),
      if_pos ⟨by omega, by omega⟩]

/-- **A link into the reserved range reads back as `Reserved`**: `0x?FF0..=0x?FF6` are data
clusters by `Cluster::is_valid`, but as raw values they are the reserved markers. -/
theorem decodeEntry_encodeEntry_next_reserved {k n : Nat} (hk : 5 ≤ k) (h₁ : 2 ^ k - 16 ≤ n)
    (h₂ : n ≤ 2 ^ k - 10) : decodeEntry (2 ^ k - 1) (encodeEntry (2 ^ k - 1) (.next n)) = .reserved := by
  have h32 : 32 ≤ 2 ^ k := by
    calc 32 = 2 ^ 5 := rfl
      _ ≤ 2 ^ k := Nat.pow_le_pow_right (by decide) hk
  have hn : n < 2 ^ k := by omega
  have hpos : n ≠ 0 := by omega
  have hbad : n ≠ 2 ^ k - 1 - 8 := by omega
  rw [encodeEntry_next_of_lt hn, decodeEntry, if_neg hpos, if_neg hbad,
    if_pos ⟨by omega, by omega⟩]

/-! Each `read_fat_entry` and `write_fat_entry` first checks that the last byte of the
entry lies within the table, and fails with `OutOfBounds` otherwise. -/

section BoundsCheck

variable {α : Type} {len last : Nat} {x : α}

theorem ite_outOfBounds_eq_error {e : FatError}
    (h : (if len ≤ last then .error .outOfBounds else .ok x : Except FatError α) = .error e) :
    len ≤ last ∧ e = .outOfBounds := by
  by_cases hle : len ≤ last
  · rw [if_pos hle] at h
    cases h
    exact ⟨hle, rfl⟩
  · rw [if_neg hle] at h
    cases h

theorem ite_outOfBounds_eq_ok {y : α}
    (h : (if len ≤ last then .error .outOfBounds else .ok x : Except FatError α) = .ok y) :
    ¬ len ≤ last ∧ x = y := by
  by_cases hle : len ≤ last
  · rw [if_pos hle] at h
    cases h
  · rw [if_neg hle] at h
    cases h
    exact ⟨hle, rfl⟩

end BoundsCheck

/-! ## §2 FAT12 -/

namespace Fat12

/-- `fat12::read_fat_entry`. -/
def readFatEntry (fat : List UInt8) (cluster : Nat) : Except FatError FatEntry :=
  -- 3 bytes per 2 entries
  let offset := cluster + cluster / 2
  if offset + 1 ≥ fat.length then .error .outOfBounds
  else
    let value := (fat.getD offset 0).toNat ||| (fat.getD (offset + 1) 0).toNat <<< 8
    -- an odd cluster takes the high 12 bits of the word, an even one the low 12 bits
    let value := if cluster &&& 1 ≠ 0 then value >>> 4 else value &&& 0x0FFF
    .ok (decodeEntry 0x0FFF value)

/-- `fat12::write_fat_entry`. -/
def writeFatEntry (fat : List UInt8) (cluster : Nat) (entry : FatEntry) :
    Except FatError (List UInt8) :=
  let offset := cluster + cluster / 2
  if offset + 1 ≥ fat.length then .error .outOfBounds
  else
    let value := encodeEntry 0x0FFF entry
    let word := (fat.getD offset 0).toNat ||| (fat.getD (offset + 1) 0).toNat <<< 8
    let newWord :=
      if cluster &&& 1 ≠ 0 then word &&& 0x000F ||| value <<< 4 else word &&& 0xF000 ||| value
    -- `new_word.to_le_bytes()`
    .ok ((fat.set offset newWord.toUInt8).set (offset + 1) (newWord >>> 8).toUInt8)

/-- The 12 bits of `cluster` in the table, as arithmetic on its two bytes. -/
def rawValue (fat : List UInt8) (cluster : Nat) : Nat :=
  let offset := cluster + cluster / 2
  let word := (fat.getD offset 0).toNat + 256 * (fat.getD (offset + 1) 0).toNat
  if cluster % 2 = 1 then word / 16 else word % 4096

/-- The little-endian word of two bytes. -/
theorem word_eq (b₀ b₁ : UInt8) : b₀.toNat ||| b₁.toNat <<< 8 = b₀.toNat + 256 * b₁.toNat :=
  or_shiftLeft_eq_add b₀.toNat_lt b₁.toNat

theorem and_one_ne_zero_iff (c : Nat) : c &&& 1 ≠ 0 ↔ c % 2 = 1 := by
  rw [Nat.and_one_is_mod]
  omega

theorem readFatEntry_eq (fat : List UInt8) (cluster : Nat) :
    readFatEntry fat cluster =
      if fat.length ≤ cluster + cluster / 2 + 1 then .error .outOfBounds
      else .ok (decodeEntry 0x0FFF (rawValue fat cluster)) := by
  simp only [readFatEntry, rawValue, word_eq, ge_iff_le, and_one_ne_zero_iff]
  congr 3
  split
  · exact Nat.shiftRight_eq_div_pow _ 4
  · exact Nat.and_two_pow_sub_one_eq_mod _ 12

/-- The word after a write, as arithmetic: the nibble the neighbour owns stays. -/
theorem newWord_eq (word value : Nat) (hv : value < 2 ^ 12) (odd : Bool) :
    (if odd then word &&& 0x000F ||| value <<< 4 else word &&& 0xF000 ||| value) =
      if odd then word % 16 + 16 * value else 4096 * (word / 4096 % 16) + value := by
  cases odd with
  | true =>
    have hlow : word &&& 0x000F = word % 16 := Nat.and_two_pow_sub_one_eq_mod word 4
    have hor : word % 16 ||| value <<< 4 = word % 16 + 16 * value :=
      or_shiftLeft_eq_add (n := 4) (Nat.mod_lt _ (by decide)) value
    rw [if_pos rfl, if_pos rfl, hlow, hor]
  | false =>
    have hhigh : word &&& 0xF000 = 4096 * (word / 4096 &&& 15) := and_two_pow_mul word 12 15
    have hmask : word / 4096 &&& 15 = word / 4096 % 16 := Nat.and_two_pow_sub_one_eq_mod _ 4
    have hor : 4096 * (word / 4096 % 16) ||| value = 4096 * (word / 4096 % 16) + value :=
      or_two_pow_mul_eq_add (n := 12) _ hv
    rw [if_neg Bool.false_ne_true, if_neg Bool.false_ne_true, hhigh, hmask, hor]

theorem writeFatEntry_eq (fat : List UInt8) (cluster : Nat) (entry : FatEntry) :
    writeFatEntry fat cluster entry =
      if fat.length ≤ cluster + cluster / 2 + 1 then .error .outOfBounds
      else
        let offset := cluster + cluster / 2
        let word := (fat.getD offset 0).toNat + 256 * (fat.getD (offset + 1) 0).toNat
        let value := encodeEntry 0x0FFF entry
        let newWord := if cluster % 2 = 1 then word % 16 + 16 * value
          else 4096 * (word / 4096 % 16) + value
        .ok ((fat.set offset newWord.toUInt8).set (offset + 1) (newWord / 256).toUInt8) := by
  have hv := encodeEntry_lt (k := 12) entry
  have hodd := newWord_eq ((fat.getD (cluster + cluster / 2) 0).toNat +
      256 * (fat.getD (cluster + cluster / 2 + 1) 0).toNat) (encodeEntry 0x0FFF entry) hv
      (decide (cluster % 2 = 1))
  have hs₈ (x : Nat) : x >>> 8 = x / 256 := Nat.shiftRight_eq_div_pow x 8
  simp only [decide_eq_true_eq] at hodd
  simp only [writeFatEntry, word_eq, ge_iff_le, and_one_ne_zero_iff, hodd, hs₈]

theorem readFatEntry_eq_error {fat : List UInt8} {cluster : Nat} {e : FatError}
    (h : readFatEntry fat cluster = .error e) : e = .outOfBounds := by
  rw [readFatEntry_eq] at h
  exact (ite_outOfBounds_eq_error h).2

theorem readFatEntry_outOfBounds_of_le {fat : List UInt8} {c d : Nat}
    (h : readFatEntry fat c = .error .outOfBounds) (hcd : c ≤ d) :
    readFatEntry fat d = .error .outOfBounds := by
  rw [readFatEntry_eq] at h ⊢
  have hc : fat.length ≤ c + c / 2 + 1 := (ite_outOfBounds_eq_error h).1
  rw [if_pos (by omega)]

theorem writeFatEntry_of_readFatEntry {fat : List UInt8} {cluster : Nat} {x : FatEntry}
    (h : readFatEntry fat cluster = .ok x) (entry : FatEntry) :
    ∃ fat', writeFatEntry fat cluster entry = .ok fat' := by
  rw [readFatEntry_eq] at h
  rw [writeFatEntry_eq, if_neg (ite_outOfBounds_eq_ok h).1]
  exact ⟨_, rfl⟩

theorem length_of_writeFatEntry {fat fat' : List UInt8} {cluster : Nat} {entry : FatEntry}
    (h : writeFatEntry fat cluster entry = .ok fat') : fat'.length = fat.length := by
  rw [writeFatEntry_eq] at h
  obtain ⟨-, rfl⟩ := ite_outOfBounds_eq_ok h
  simp only [List.length_set]

/-- The two bytes of `c` read back as written. -/
theorem rawValue_set_self (fat : List UInt8) {c : Nat} (n₀ n₁ : UInt8)
    (hlt : c + c / 2 + 1 < fat.length) :
    rawValue ((fat.set (c + c / 2) n₀).set (c + c / 2 + 1) n₁) c =
      if c % 2 = 1 then (n₀.toNat + 256 * n₁.toNat) / 16
      else (n₀.toNat + 256 * n₁.toNat) % 4096 := by
  have h₀ : c + c / 2 < fat.length := by omega
  simp only [rawValue, getD_set, List.length_set, h₀, hlt, and_true, Nat.succ_ne_self,
    if_false, if_true]

theorem readFatEntry_writeFatEntry_self {fat fat' : List UInt8} {c : Nat} {entry : FatEntry}
    (h : writeFatEntry fat c entry = .ok fat') :
    readFatEntry fat' c = .ok (decodeEntry 0x0FFF (encodeEntry 0x0FFF entry)) := by
  have hlen := length_of_writeFatEntry h
  rw [writeFatEntry_eq] at h
  obtain ⟨hlt, rfl⟩ := ite_outOfBounds_eq_ok h
  rw [readFatEntry_eq, hlen, if_neg hlt, rawValue_set_self fat _ _ (by omega)]
  have hv : encodeEntry 0x0FFF entry < 2 ^ 12 := encodeEntry_lt (k := 12) entry
  have hb₀ := (fat.getD (c + c / 2) 0).toNat_lt
  have hb₁ := (fat.getD (c + c / 2 + 1) 0).toNat_lt
  congr 2
  simp only [toNat_toUInt8]
  split_ifs <;> omega

/-- Rewriting the two bytes of `c` keeps every other entry, as long as the nibble that
the neighbour in the same 3-byte group owns stays. -/
theorem rawValue_set_of_ne (fat : List UInt8) {c d : Nat} (n₀ n₁ : UInt8) (hne : d ≠ c)
    (hodd : c % 2 = 1 → n₀.toNat % 16 = (fat.getD (c + c / 2) 0).toNat % 16)
    (heven : c % 2 = 0 → n₁.toNat / 16 = (fat.getD (c + c / 2 + 1) 0).toNat / 16) :
    rawValue ((fat.set (c + c / 2) n₀).set (c + c / 2 + 1) n₁) d = rawValue fat d := by
  have hn₀ : n₀.toNat < 256 := n₀.toNat_lt
  have hn₁ : n₁.toNat < 256 := n₁.toNat_lt
  unfold rawValue
  by_cases hfar : d + d / 2 + 1 < c + c / 2 ∨ c + c / 2 + 1 < d + d / 2
  · -- no byte of `d` is written
    simp (disch := omega) only [getD_set_ne]
  · -- `c` and `d` are the two halves of one 3-byte group
    rcases (by omega : (d = c + 1 ∧ c % 2 = 0) ∨ (c = d + 1 ∧ d % 2 = 0)) with
      ⟨rfl, hc⟩ | ⟨rfl, hd⟩
    · -- `d` reads the high nibble of the second byte of `c`
      have hidx : c + 1 + (c + 1) / 2 = c + c / 2 + 1 := by omega
      have hodd' : (c + 1) % 2 = 1 := by omega
      have hnib := heven hc
      have hb := (fat.getD (c + c / 2 + 2) 0).toNat_lt
      have hb₁ := (fat.getD (c + c / 2 + 1) 0).toNat_lt
      rw [hidx]
      simp (disch := omega) only [getD_set_ne, hodd', if_true]
      simp only [getD_set, List.length_set]
      split_ifs <;> omega
    · -- `d` reads the low nibble of the first byte of `c`
      have hidx : d + 1 + (d + 1) / 2 = d + d / 2 + 1 := by omega
      have hev : ¬ d % 2 = 1 := by omega
      have hnib := hodd (by omega)
      have hb := (fat.getD (d + d / 2) 0).toNat_lt
      have hb₁ := (fat.getD (d + d / 2 + 1) 0).toNat_lt
      rw [hidx] at hnib ⊢
      simp (disch := omega) only [getD_set_ne, hev, if_false]
      simp only [getD_set]
      split_ifs <;> omega

theorem readFatEntry_writeFatEntry_of_ne {fat fat' : List UInt8} {c d : Nat} {entry : FatEntry}
    (h : writeFatEntry fat c entry = .ok fat') (hne : d ≠ c) :
    readFatEntry fat' d = readFatEntry fat d := by
  have hlen := length_of_writeFatEntry h
  rw [writeFatEntry_eq] at h
  obtain ⟨-, rfl⟩ := ite_outOfBounds_eq_ok h
  rw [readFatEntry_eq, readFatEntry_eq, hlen, rawValue_set_of_ne fat _ _ hne]
  · -- an odd cluster keeps the low nibble of its first byte
    intro hc
    simp only [hc, if_true, toNat_toUInt8]
    omega
  · -- an even cluster keeps the high nibble of its second byte
    intro hc
    have hv : encodeEntry 0x0FFF entry < 2 ^ 12 := encodeEntry_lt (k := 12) entry
    have hb₀ := (fat.getD (c + c / 2) 0).toNat_lt
    have hb₁ := (fat.getD (c + c / 2 + 1) 0).toNat_lt
    simp only [hc, Nat.zero_ne_one, if_false, toNat_toUInt8]
    omega

end Fat12

/-! ## §3 FAT16 -/

namespace Fat16

/-- `fat16::read_fat_entry`. -/
def readFatEntry (fat : List UInt8) (cluster : Nat) : Except FatError FatEntry :=
  let offset := cluster * 2
  if offset + 1 ≥ fat.length then .error .outOfBounds
  else
    let value := fromLeBytes [fat.getD offset 0, fat.getD (offset + 1) 0]
    .ok (decodeEntry 0xFFFF value)

/-- `fat16::write_fat_entry`. -/
def writeFatEntry (fat : List UInt8) (cluster : Nat) (entry : FatEntry) :
    Except FatError (List UInt8) :=
  let offset := cluster * 2
  if offset + 1 ≥ fat.length then .error .outOfBounds
  else
    let value := encodeEntry 0xFFFF entry
    -- `value.to_le_bytes()`
    .ok ((fat.set offset value.toUInt8).set (offset + 1) (value >>> 8).toUInt8)

/-- The 16 bits of `cluster` in the table. -/
def rawValue (fat : List UInt8) (cluster : Nat) : Nat :=
  (fat.getD (cluster * 2) 0).toNat + 256 * (fat.getD (cluster * 2 + 1) 0).toNat

theorem readFatEntry_eq (fat : List UInt8) (cluster : Nat) :
    readFatEntry fat cluster =
      if fat.length ≤ cluster * 2 + 1 then .error .outOfBounds
      else .ok (decodeEntry 0xFFFF (rawValue fat cluster)) := by
  simp only [readFatEntry, rawValue, fromLeBytes, List.foldr, Nat.mul_zero, Nat.add_zero,
    ge_iff_le]

theorem writeFatEntry_eq (fat : List UInt8) (cluster : Nat) (entry : FatEntry) :
    writeFatEntry fat cluster entry =
      if fat.length ≤ cluster * 2 + 1 then .error .outOfBounds
      else .ok ((fat.set (cluster * 2) (encodeEntry 0xFFFF entry).toUInt8).set (cluster * 2 + 1)
        (encodeEntry 0xFFFF entry / 256).toUInt8) := by
  have hs₈ (x : Nat) : x >>> 8 = x / 256 := Nat.shiftRight_eq_div_pow x 8
  simp only [writeFatEntry, hs₈, ge_iff_le]

theorem readFatEntry_eq_error {fat : List UInt8} {cluster : Nat} {e : FatError}
    (h : readFatEntry fat cluster = .error e) : e = .outOfBounds := by
  rw [readFatEntry_eq] at h
  exact (ite_outOfBounds_eq_error h).2

theorem readFatEntry_outOfBounds_of_le {fat : List UInt8} {c d : Nat}
    (h : readFatEntry fat c = .error .outOfBounds) (hcd : c ≤ d) :
    readFatEntry fat d = .error .outOfBounds := by
  rw [readFatEntry_eq] at h ⊢
  have hc : fat.length ≤ c * 2 + 1 := (ite_outOfBounds_eq_error h).1
  rw [if_pos (by omega)]

theorem writeFatEntry_of_readFatEntry {fat : List UInt8} {cluster : Nat} {x : FatEntry}
    (h : readFatEntry fat cluster = .ok x) (entry : FatEntry) :
    ∃ fat', writeFatEntry fat cluster entry = .ok fat' := by
  rw [readFatEntry_eq] at h
  rw [writeFatEntry_eq, if_neg (ite_outOfBounds_eq_ok h).1]
  exact ⟨_, rfl⟩

theorem length_of_writeFatEntry {fat fat' : List UInt8} {cluster : Nat} {entry : FatEntry}
    (h : writeFatEntry fat cluster entry = .ok fat') : fat'.length = fat.length := by
  rw [writeFatEntry_eq] at h
  obtain ⟨-, rfl⟩ := ite_outOfBounds_eq_ok h
  simp only [List.length_set]

theorem readFatEntry_writeFatEntry_self {fat fat' : List UInt8} {c : Nat} {entry : FatEntry}
    (h : writeFatEntry fat c entry = .ok fat') :
    readFatEntry fat' c = .ok (decodeEntry 0xFFFF (encodeEntry 0xFFFF entry)) := by
  have hlen := length_of_writeFatEntry h
  rw [writeFatEntry_eq] at h
  obtain ⟨hlt, rfl⟩ := ite_outOfBounds_eq_ok h
  have h₀ : c * 2 < fat.length := by omega
  have h₁ : c * 2 + 1 < fat.length := by omega
  have hv : encodeEntry 0xFFFF entry < 2 ^ 16 := encodeEntry_lt (k := 16) entry
  rw [readFatEntry_eq, hlen, if_neg hlt]
  congr 2
  simp only [rawValue, getD_set, List.length_set, h₀, h₁, and_true, Nat.succ_ne_self,
    if_false, if_true, toNat_toUInt8]
  omega

theorem readFatEntry_writeFatEntry_of_ne {fat fat' : List UInt8} {c d : Nat} {entry : FatEntry}
    (h : writeFatEntry fat c entry = .ok fat') (hne : d ≠ c) :
    readFatEntry fat' d = readFatEntry fat d := by
  have hlen := length_of_writeFatEntry h
  rw [writeFatEntry_eq] at h
  obtain ⟨-, rfl⟩ := ite_outOfBounds_eq_ok h
  rw [readFatEntry_eq, readFatEntry_eq, hlen]
  -- the two bytes of `d` are not those of `c`
  simp (disch := omega) only [rawValue, getD_set_ne]

end Fat16

/-! ## §4 FAT32 -/

namespace Fat32

/-- `fat32::read_fat_entry`: the low 28 bits of four bytes. -/
def readFatEntry (fat : List UInt8) (cluster : Nat) : Except FatError FatEntry :=
  let offset := cluster * 4
  if offset + 3 ≥ fat.length then .error .outOfBounds
  else
    let value := fromLeBytes [fat.getD offset 0, fat.getD (offset + 1) 0,
      fat.getD (offset + 2) 0, fat.getD (offset + 3) 0 &&& (0x0F : UInt8)]
    .ok (decodeEntry 0x0FFF_FFFF value)

/-- `fat32::write_fat_entry`: the high 4 bits of the last byte stay. -/
def writeFatEntry (fat : List UInt8) (cluster : Nat) (entry : FatEntry) :
    Except FatError (List UInt8) :=
  let offset := cluster * 4
  if offset + 3 ≥ fat.length then .error .outOfBounds
  else
    let value := encodeEntry 0x0FFF_FFFF entry
    let lastByte := fat.getD (offset + 3) 0 &&& (0xF0 : UInt8) ||| (value >>> 24 &&& 0x0F).toUInt8
    .ok ((((fat.set offset (value &&& 0xFF).toUInt8).set (offset + 1)
      (value >>> 8 &&& 0xFF).toUInt8).set (offset + 2) (value >>> 16 &&& 0xFF).toUInt8).set
      (offset + 3) lastByte)

/-- The 28 bits of `cluster` in the table. -/
def rawValue (fat : List UInt8) (cluster : Nat) : Nat :=
  (fat.getD (cluster * 4) 0).toNat + 256 * (fat.getD (cluster * 4 + 1) 0).toNat +
    65536 * (fat.getD (cluster * 4 + 2) 0).toNat +
    16777216 * ((fat.getD (cluster * 4 + 3) 0).toNat % 16)

/-- The low nibble of a byte. -/
theorem toNat_and_low (b : UInt8) : (b &&& 0x0F).toNat = b.toNat % 16 := by
  rw [UInt8.toNat_and]
  exact Nat.and_two_pow_sub_one_eq_mod b.toNat 4

/-- A byte whose high nibble stays and whose low nibble is `n`. -/
theorem toNat_high_or {n : Nat} (b : UInt8) (hn : n < 16) :
    (b &&& 0xF0 ||| n.toUInt8).toNat = 16 * (b.toNat / 16) + n := by
  have hb : b.toNat < 256 := b.toNat_lt
  have hhigh : b.toNat &&& 0xF0 = 16 * (b.toNat / 16 &&& 15) := and_two_pow_mul b.toNat 4 15
  have hmask : b.toNat / 16 &&& 15 = b.toNat / 16 % 16 := Nat.and_two_pow_sub_one_eq_mod _ 4
  have hor : 16 * (b.toNat / 16 % 16) ||| n = 16 * (b.toNat / 16 % 16) + n :=
    or_two_pow_mul_eq_add (n := 4) _ hn
  have hlow : n.toUInt8.toNat = n := by
    rw [toNat_toUInt8]
    omega
  rw [UInt8.toNat_or, UInt8.toNat_and, hlow]
  change b.toNat &&& 0xF0 ||| n = _
  rw [hhigh, hmask, hor]
  omega

theorem readFatEntry_eq (fat : List UInt8) (cluster : Nat) :
    readFatEntry fat cluster =
      if fat.length ≤ cluster * 4 + 3 then .error .outOfBounds
      else .ok (decodeEntry 0x0FFF_FFFF (rawValue fat cluster)) := by
  simp only [readFatEntry, rawValue, fromLeBytes, List.foldr, toNat_and_low, Nat.mul_zero,
    Nat.add_zero, ge_iff_le]
  congr 3
  omega

theorem writeFatEntry_eq (fat : List UInt8) (cluster : Nat) (entry : FatEntry) :
    writeFatEntry fat cluster entry =
      if fat.length ≤ cluster * 4 + 3 then .error .outOfBounds
      else
        let offset := cluster * 4
        let value := encodeEntry 0x0FFF_FFFF entry
        .ok ((((fat.set offset (value % 256).toUInt8).set (offset + 1)
          (value / 256 % 256).toUInt8).set (offset + 2) (value / 65536 % 256).toUInt8).set
          (offset + 3) (fat.getD (offset + 3) 0 &&& 0xF0 ||| (value / 16777216 % 16).toUInt8)) := by
  have hff (x : Nat) : x &&& 0xFF = x % 256 := Nat.and_two_pow_sub_one_eq_mod x 8
  have hf (x : Nat) : x &&& 0x0F = x % 16 := Nat.and_two_pow_sub_one_eq_mod x 4
  have hs₈ (x : Nat) : x >>> 8 = x / 256 := Nat.shiftRight_eq_div_pow x 8
  have hs₁₆ (x : Nat) : x >>> 16 = x / 65536 := Nat.shiftRight_eq_div_pow x 16
  have hs₂₄ (x : Nat) : x >>> 24 = x / 16777216 := Nat.shiftRight_eq_div_pow x 24
  simp only [writeFatEntry, hff, hf, hs₈, hs₁₆, hs₂₄, ge_iff_le]

theorem readFatEntry_eq_error {fat : List UInt8} {cluster : Nat} {e : FatError}
    (h : readFatEntry fat cluster = .error e) : e = .outOfBounds := by
  rw [readFatEntry_eq] at h
  exact (ite_outOfBounds_eq_error h).2

theorem readFatEntry_outOfBounds_of_le {fat : List UInt8} {c d : Nat}
    (h : readFatEntry fat c = .error .outOfBounds) (hcd : c ≤ d) :
    readFatEntry fat d = .error .outOfBounds := by
  rw [readFatEntry_eq] at h ⊢
  have hc : fat.length ≤ c * 4 + 3 := (ite_outOfBounds_eq_error h).1
  rw [if_pos (by omega)]

theorem writeFatEntry_of_readFatEntry {fat : List UInt8} {cluster : Nat} {x : FatEntry}
    (h : readFatEntry fat cluster = .ok x) (entry : FatEntry) :
    ∃ fat', writeFatEntry fat cluster entry = .ok fat' := by
  rw [readFatEntry_eq] at h
  rw [writeFatEntry_eq, if_neg (ite_outOfBounds_eq_ok h).1]
  exact ⟨_, rfl⟩

theorem length_of_writeFatEntry {fat fat' : List UInt8} {cluster : Nat} {entry : FatEntry}
    (h : writeFatEntry fat cluster entry = .ok fat') : fat'.length = fat.length := by
  rw [writeFatEntry_eq] at h
  obtain ⟨-, rfl⟩ := ite_outOfBounds_eq_ok h
  simp only [List.length_set]

theorem readFatEntry_writeFatEntry_self {fat fat' : List UInt8} {c : Nat} {entry : FatEntry}
    (h : writeFatEntry fat c entry = .ok fat') :
    readFatEntry fat' c = .ok (decodeEntry 0x0FFF_FFFF (encodeEntry 0x0FFF_FFFF entry)) := by
  have hlen := length_of_writeFatEntry h
  rw [writeFatEntry_eq] at h
  obtain ⟨hlt, rfl⟩ := ite_outOfBounds_eq_ok h
  have hv : encodeEntry 0x0FFF_FFFF entry < 2 ^ 28 := encodeEntry_lt (k := 28) entry
  have hlast := toNat_high_or (fat.getD (c * 4 + 3) 0)
    (Nat.mod_lt (encodeEntry 0x0FFF_FFFF entry / 16777216) (by decide : 0 < 16))
  rw [readFatEntry_eq, hlen, if_neg hlt]
  congr 2
  -- each byte of `c` is read back at its own offset
  simp (disch := (try simp only [List.length_set]); omega) only [rawValue, getD_set_ne,
    getD_set_self, hlast, toNat_toUInt8]
  omega

theorem readFatEntry_writeFatEntry_of_ne {fat fat' : List UInt8} {c d : Nat} {entry : FatEntry}
    (h : writeFatEntry fat c entry = .ok fat') (hne : d ≠ c) :
    readFatEntry fat' d = readFatEntry fat d := by
  have hlen := length_of_writeFatEntry h
  rw [writeFatEntry_eq] at h
  obtain ⟨-, rfl⟩ := ite_outOfBounds_eq_ok h
  rw [readFatEntry_eq, readFatEntry_eq, hlen]
  -- the four bytes of `d` are not those of `c`
  simp (disch := omega) only [rawValue, getD_set_ne]

/-- **A write keeps the high nibble of every slot's last byte**: the four reserved bits of
each 32-bit entry, the written one included. -/
theorem highNibble_writeFatEntry {fat fat' : List UInt8} {c : Nat} {entry : FatEntry}
    (h : writeFatEntry fat c entry = .ok fat') (i : Nat) :
    (fat'.getD (i * 4 + 3) 0).toNat / 16 = (fat.getD (i * 4 + 3) 0).toNat / 16 := by
  rw [writeFatEntry_eq] at h
  obtain ⟨hlt, rfl⟩ := ite_outOfBounds_eq_ok h
  by_cases hi : i = c
  · -- the last byte of the written slot: its high nibble and the value's top nibble
    subst hi
    have hlast := toNat_high_or (fat.getD (i * 4 + 3) 0)
      (Nat.mod_lt (encodeEntry 0x0FFF_FFFF entry / 16777216) (by decide : 0 < 16))
    rw [getD_set_self _ _ (by simp only [List.length_set]; omega), hlast]
    omega
  · -- the last byte of another slot is none of the four bytes written
    simp (disch := omega) only [getD_set_ne]

end Fat32

/-! ## §5 By FAT Type -/

/-- The width of an entry's value. -/
def entryBits : FatType → Nat
  | .fat12 => 12
  | .fat16 => 16
  | .fat32 => 28

/-- The end-of-chain marker, `2 ^ entryBits - 1`. -/
def entryTop (fatType : FatType) : Nat := 2 ^ entryBits fatType - 1

/-- The offset of the last byte of a cluster's entry, which each read and write checks
against the table's length. -/
def entryLastByte : FatType → Nat → Nat
  | .fat12, c => c + c / 2 + 1
  | .fat16, c => c * 2 + 1
  | .fat32, c => c * 4 + 3

/-- `read_fat_entry` of the table's type, as `FatTable::get` dispatches it. -/
def readFatEntry : FatType → List UInt8 → Nat → Except FatError FatEntry
  | .fat12 => Fat12.readFatEntry
  | .fat16 => Fat16.readFatEntry
  | .fat32 => Fat32.readFatEntry

/-- `write_fat_entry` of the table's type, as `FatTable::set` dispatches it. -/
def writeFatEntry : FatType → List UInt8 → Nat → FatEntry → Except FatError (List UInt8)
  | .fat12 => Fat12.writeFatEntry
  | .fat16 => Fat16.writeFatEntry
  | .fat32 => Fat32.writeFatEntry

section

variable {fatType : FatType} {fat fat' : List UInt8} {c d : Nat} {entry : FatEntry}

/-- A valid cluster fits the bits of an entry, so a link to it is written whole. -/
theorem lt_of_isValid (h : Cluster.isValid fatType c = true) :
    2 ≤ c ∧ c < 2 ^ entryBits fatType := by
  cases fatType <;> simp only [Cluster.isValid, Bool.and_eq_true, decide_eq_true_eq] at h <;>
    exact ⟨h.1, by simp only [entryBits]; omega⟩

theorem readFatEntry_eq_error {e : FatError} (h : readFatEntry fatType fat c = .error e) :
    e = .outOfBounds := by
  cases fatType
  · exact Fat12.readFatEntry_eq_error h
  · exact Fat16.readFatEntry_eq_error h
  · exact Fat32.readFatEntry_eq_error h

theorem readFatEntry_outOfBounds_of_le (h : readFatEntry fatType fat c = .error .outOfBounds)
    (hcd : c ≤ d) : readFatEntry fatType fat d = .error .outOfBounds := by
  cases fatType
  · exact Fat12.readFatEntry_outOfBounds_of_le h hcd
  · exact Fat16.readFatEntry_outOfBounds_of_le h hcd
  · exact Fat32.readFatEntry_outOfBounds_of_le h hcd

theorem writeFatEntry_of_readFatEntry {x : FatEntry} (h : readFatEntry fatType fat c = .ok x)
    (entry : FatEntry) : ∃ fat', writeFatEntry fatType fat c entry = .ok fat' := by
  cases fatType
  · exact Fat12.writeFatEntry_of_readFatEntry h entry
  · exact Fat16.writeFatEntry_of_readFatEntry h entry
  · exact Fat32.writeFatEntry_of_readFatEntry h entry

theorem readFatEntry_writeFatEntry_self (h : writeFatEntry fatType fat c entry = .ok fat') :
    readFatEntry fatType fat' c =
      .ok (decodeEntry (entryTop fatType) (encodeEntry (entryTop fatType) entry)) := by
  cases fatType
  · exact Fat12.readFatEntry_writeFatEntry_self h
  · exact Fat16.readFatEntry_writeFatEntry_self h
  · exact Fat32.readFatEntry_writeFatEntry_self h

theorem readFatEntry_writeFatEntry_of_ne (h : writeFatEntry fatType fat c entry = .ok fat')
    (hne : d ≠ c) : readFatEntry fatType fat' d = readFatEntry fatType fat d := by
  cases fatType
  · exact Fat12.readFatEntry_writeFatEntry_of_ne h hne
  · exact Fat16.readFatEntry_writeFatEntry_of_ne h hne
  · exact Fat32.readFatEntry_writeFatEntry_of_ne h hne

/-- A write whose entry lies within the table succeeds. -/
theorem writeFatEntry_of_lt (h : entryLastByte fatType c < fat.length) (entry : FatEntry) :
    ∃ fat', writeFatEntry fatType fat c entry = .ok fat' := by
  cases fatType
  · rw [writeFatEntry, Fat12.writeFatEntry_eq, if_neg (Nat.not_le.mpr (by exact h))]
    exact ⟨_, rfl⟩
  · rw [writeFatEntry, Fat16.writeFatEntry_eq, if_neg (Nat.not_le.mpr (by exact h))]
    exact ⟨_, rfl⟩
  · rw [writeFatEntry, Fat32.writeFatEntry_eq, if_neg (Nat.not_le.mpr (by exact h))]
    exact ⟨_, rfl⟩

/-- **A representable entry written is read back.** -/
theorem readFatEntry_writeFatEntry_representable (h : writeFatEntry fatType fat c entry = .ok fat')
    (he : entry.Representable (entryTop fatType)) : readFatEntry fatType fat' c = .ok entry := by
  have hk : 4 ≤ entryBits fatType := by
    cases fatType <;> decide
  rw [readFatEntry_writeFatEntry_self h, entryTop, decodeEntry_encodeEntry hk he]

/-- An entry written with valid links reads back free exactly when it was written free. -/
theorem readFatEntry_writeFatEntry_eq_free_iff (h : writeFatEntry fatType fat c entry = .ok fat')
    (hlink : entry.LinksValid fatType) :
    readFatEntry fatType fat' c = .ok .free ↔ entry = .free := by
  have hk : 4 ≤ entryBits fatType := by
    cases fatType <;> decide
  rw [readFatEntry_writeFatEntry_self h, Except.ok.injEq]
  apply decodeEntry_encodeEntry_eq_free_iff hk
  intro c' hc'
  subst hc'
  exact lt_of_isValid hlink

end

/-- **FAT entries round trip.**  For each FAT type, a representable entry written to a
cluster whose entry lies within the table is read back; every other cluster reads as
before, a neighbour sharing a FAT12 byte included; and on FAT32 the top four bits of every
32-bit slot stay. -/
theorem fat_entry_write_read (fatType : FatType) (fat : List UInt8) (c : Nat) (entry : FatEntry)
    (hc : entryLastByte fatType c < fat.length) (he : entry.Representable (entryTop fatType)) :
    ∃ fat', writeFatEntry fatType fat c entry = .ok fat' ∧
      readFatEntry fatType fat' c = .ok entry ∧
      (∀ d, d ≠ c → readFatEntry fatType fat' d = readFatEntry fatType fat d) ∧
      (fatType = .fat32 →
        ∀ i, (fat'.getD (i * 4 + 3) 0).toNat / 16 = (fat.getD (i * 4 + 3) 0).toNat / 16) := by
  obtain ⟨fat', hw⟩ := writeFatEntry_of_lt hc entry
  refine ⟨fat', hw, readFatEntry_writeFatEntry_representable hw he,
    fun d hd => readFatEntry_writeFatEntry_of_ne hw hd, ?_⟩
  rintro rfl i
  exact Fat32.highNibble_writeFatEntry hw i

/-- The link `Next(5)` written to the odd cluster 1 of a three-byte FAT12 table, whose entry
shares the middle byte with cluster 0. -/
theorem fat_entry_write_read_fat12 :
    entryLastByte .fat12 1 < (List.replicate 3 (0 : UInt8)).length ∧
      (FatEntry.next 5).Representable (entryTop .fat12) ∧
      ∃ fat', writeFatEntry .fat12 (List.replicate 3 0) 1 (.next 5) = .ok fat' ∧
        readFatEntry .fat12 fat' 1 = .ok (.next 5) ∧
        (∀ d, d ≠ 1 → readFatEntry .fat12 fat' d = readFatEntry .fat12 (List.replicate 3 0) d) ∧
        (FatType.fat12 = .fat32 → ∀ i, (fat'.getD (i * 4 + 3) 0).toNat / 16 =
          ((List.replicate 3 (0 : UInt8)).getD (i * 4 + 3) 0).toNat / 16) :=
  ⟨by decide, by decide,
    fat_entry_write_read .fat12 (List.replicate 3 0) 1 (.next 5) (by decide) (by decide)⟩

end Beskar.Storage.Fat
