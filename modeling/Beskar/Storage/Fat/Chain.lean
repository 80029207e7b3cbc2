import Mathlib
import Beskar.Storage.Fat.Table

/-!
# FAT Cluster Chains

`FatChainIter` of `fs/fat/fat.rs`, the iterator over a chain of clusters, and the chains
`alloc_cluster_chain` builds.

`alloc_cluster` scans the data clusters `2..=max_clusters()`, and `max_clusters()` is
`0x?FF6`, the last data cluster `Cluster::is_valid` accepts.  As raw values, though,
`0x?FF0..=0x?FF6` are the reserved markers of `read_fat_entry`.  A `Next` link to one of
those clusters therefore reads back as `Reserved`: the iterator stops at the link, and
`free_cluster_chain` stops there with `InvalidCluster`.

## Main results

- `allocClusterLoop_append_of_used`: the scan of `alloc_cluster` passes over used clusters.
- `allocClusterChain_links_reserved`: on a table of any type whose first free clusters are
  the first two of the reserved range, `alloc_cluster_chain(2)` builds a chain that the
  iterator cuts after one cluster and that `free_cluster_chain` rejects.
- `allocClusterChain_reserved_fat12`: a FAT12 table of 6123 bytes that is such a table.
-/

namespace Beskar.Storage.Fat

open Beskar.Lib Beskar.Lib.Fallible

namespace FatTable

/-! ## §1 The Chain Iterator -/

/-- `FatEntries::chain_iter`: the clusters `FatChainIter` yields, at most `fuel` of them.
Each `next` yields the current cluster, and moves on only through a `Next` link. -/
def chainIter (t : FatTable) : Nat → Nat → List Nat
  | 0, _ => []
  | fuel + 1, current =>
    current :: match t.get current with
      | .ok (.next next) => t.chainIter fuel next
      | _ => []

/-- A cluster that is no link ends the chain at itself, whatever the fuel. -/
theorem chainIter_of_not_next {t : FatTable} {current : Nat} {x : FatEntry}
    (h : t.get current = .ok x) (hx : ∀ n, x ≠ .next n) (fuel : Nat) :
    t.chainIter (fuel + 1) current = [current] := by
  rw [chainIter, h]
  cases x with
  | next n => exact absurd rfl (hx n)
  | free | endOfChain | bad | reserved => rfl

/-! ## §2 The Data Clusters and the Markers -/

/-- The last data cluster is nine below the end-of-chain marker. -/
theorem isValid_iff {fatType : FatType} {c : Nat} :
    Cluster.isValid fatType c = true ↔ 2 ≤ c ∧ c ≤ entryTop fatType - 9 := by
  cases fatType <;> simp [Cluster.isValid, entryTop, entryBits]

theorem maxClusters_eq (fatType : FatType) : maxClusters fatType = entryTop fatType - 9 := by
  cases fatType <;> rfl

theorem entryTop_ge (fatType : FatType) : 4095 ≤ entryTop fatType := by
  cases fatType <;> decide

theorem entryBits_ge (fatType : FatType) : 12 ≤ entryBits fatType := by
  cases fatType <;> decide

/-- The scan of `alloc_cluster`, cut before the first cluster of the reserved range. -/
theorem scanRange_eq_reserved (fatType : FatType) :
    scanRange fatType = List.range' 2 (entryTop fatType - 17) ++
      (entryTop fatType - 15) :: (entryTop fatType - 14) :: List.range' (entryTop fatType - 13) 5 := by
  have htop := entryTop_ge fatType
  have hsplit := @List.range'_append 2 (entryTop fatType - 17) 7 1
  rw [show 2 + 1 * (entryTop fatType - 17) = entryTop fatType - 15 by omega,
    show entryTop fatType - 17 + 7 = entryTop fatType - 10 by omega] at hsplit
  rw [scanRange, maxClusters_eq, show entryTop fatType - 9 - 1 = entryTop fatType - 10 by omega,
    ← hsplit, List.range'_succ, List.range'_succ,
    show entryTop fatType - 15 + 1 = entryTop fatType - 14 by omega,
    show entryTop fatType - 14 + 1 = entryTop fatType - 13 by omega]

/-- The end-of-chain marker reads back as itself. -/
theorem decodeEntry_encodeEntry_endOfChain (fatType : FatType) :
    decodeEntry (entryTop fatType) (encodeEntry (entryTop fatType) .endOfChain) = .endOfChain :=
  decodeEntry_encodeEntry (e := .endOfChain) (by have := entryBits_ge fatType; omega) trivial

/-- A write at a data cluster is read back as its raw value. -/
theorem get_write_self {t : FatTable} {c n : Nat} {entry : FatEntry} {data : List UInt8}
    (hw : writeFatEntry t.fatType t.data c entry = .ok data) (hv : Cluster.isValid t.fatType c = true) :
    ({ t with freeCount := n, data := data } : FatTable).get c =
      .ok (decodeEntry (entryTop t.fatType) (encodeEntry (entryTop t.fatType) entry)) := by
  rw [get_of_isValid (t := { t with freeCount := n, data := data }) hv]
  exact readFatEntry_writeFatEntry_self hw

/-! ## §3 The Scan of `alloc_cluster` -/

/-- The loop of `alloc_cluster` passes over clusters that read as used. -/
theorem allocClusterLoop_append_of_used {t : FatTable} {rest : List Nat} :
    ∀ {l : List Nat}, (∀ i ∈ l, readsUsed (t.get i) = true) →
      (allocClusterLoop (l ++ rest)).run t = (allocClusterLoop rest).run t
  | [], _ => rfl
  | i :: is, hused => by
    obtain ⟨x, hx, hfree⟩ := readsUsed_eq_true_iff.mp (hused i List.mem_cons_self)
    simp only [List.cons_append, allocClusterLoop, run_bind, run_getThe]
    split
    · rename_i h
      rw [hx, Except.ok.injEq] at h
      exact absurd h hfree
    · rename_i h
      rw [hx] at h
      cases h
    · exact allocClusterLoop_append_of_used fun j hj => hused j (List.mem_cons_of_mem i hj)

/-- The loop of `alloc_cluster` takes a free cluster it reaches, and marks it as the end of
a chain. -/
theorem allocClusterLoop_cons_free {t : FatTable} {i : Nat} (is : List Nat)
    (h : t.get i = .ok .free) :
    ∃ data, writeFatEntry t.fatType t.data i .endOfChain = .ok data ∧
      (allocClusterLoop (i :: is)).run t =
        some (.ok i, { t with freeCount := t.freeCount - 1, data := data }) := by
  obtain ⟨data, hw, hset⟩ := set_run_of_get_ok .endOfChain h
  refine ⟨data, hw, ?_⟩
  simp only [allocClusterLoop, run_bind, run_getThe, h, hset, run_pure]
  simp

/-- `alloc_cluster` with a non-zero free count runs its scan. -/
theorem allocCluster_run {t : FatTable} (h : t.freeCount ≠ 0) :
    allocCluster.run t = (allocClusterLoop (scanRange t.fatType)).run t := by
  simp only [allocCluster, run_bind, run_getThe]
  rw [run_ite, if_neg h]

/-! ## §4 A Link into the Reserved Range -/

section Reserved

variable {t : FatTable}

/-- The first cluster `alloc_cluster` takes: the first of the reserved range. -/
theorem allocCluster_reserved_first (hcount : t.freeCount ≠ 0)
    (hused : ∀ i, 2 ≤ i → i < entryTop t.fatType - 15 → readsUsed (t.get i) = true)
    (hfree₀ : t.get (entryTop t.fatType - 15) = .ok .free) :
    ∃ data, writeFatEntry t.fatType t.data (entryTop t.fatType - 15) .endOfChain = .ok data ∧
      allocCluster.run t = some (.ok (entryTop t.fatType - 15),
        { t with freeCount := t.freeCount - 1, data := data }) := by
  have hused' : ∀ i ∈ List.range' 2 (entryTop t.fatType - 17), readsUsed (t.get i) = true := by
    intro i hi
    rw [List.mem_range'_1] at hi
    exact hused i hi.1 (by omega)
  obtain ⟨data, hw, hloop⟩ := allocClusterLoop_cons_free
    ((entryTop t.fatType - 14) :: List.range' (entryTop t.fatType - 13) 5) hfree₀
  refine ⟨data, hw, ?_⟩
  rw [allocCluster_run hcount, scanRange_eq_reserved, allocClusterLoop_append_of_used hused', hloop]

/-- The second cluster `alloc_cluster` takes: the one after it, as the first is now the end
of a chain. -/
theorem allocCluster_reserved_second {data : List UInt8} (hcount : t.freeCount - 1 ≠ 0)
    (hused : ∀ i, 2 ≤ i → i < entryTop t.fatType - 15 → readsUsed (t.get i) = true)
    (hfree₁ : t.get (entryTop t.fatType - 14) = .ok .free)
    (hw : writeFatEntry t.fatType t.data (entryTop t.fatType - 15) .endOfChain = .ok data) :
    ∃ data', writeFatEntry t.fatType data (entryTop t.fatType - 14) .endOfChain = .ok data' ∧
      allocCluster.run { t with freeCount := t.freeCount - 1, data := data } =
        some (.ok (entryTop t.fatType - 14),
          { t with freeCount := t.freeCount - 1 - 1, data := data' }) := by
  have htop := entryTop_ge t.fatType
  have hv₀ : Cluster.isValid t.fatType (entryTop t.fatType - 15) = true := isValid_iff.mpr ⟨by omega, by omega⟩
  -- below the first reserved cluster nothing changed, and that cluster is now in use
  have hused' : ∀ i ∈ List.range' 2 (entryTop t.fatType - 17) ++ [entryTop t.fatType - 15],
      readsUsed (({ t with freeCount := t.freeCount - 1, data := data } : FatTable).get i) = true := by
    intro i hi
    rcases List.mem_append.mp hi with hi | hi
    · rw [List.mem_range'_1] at hi
      rw [get_write_of_ne hw (by omega)]
      exact hused i hi.1 (by omega)
    · rw [List.mem_singleton.mp hi, get_write_self hw hv₀, readsUsed_eq_true_iff]
      exact ⟨_, rfl, by rw [decodeEntry_encodeEntry_endOfChain]; exact nofun⟩
  have hfree₁' : ({ t with freeCount := t.freeCount - 1, data := data } : FatTable).get
      (entryTop t.fatType - 14) = .ok .free := by
    rw [get_write_of_ne hw (by omega)]
    exact hfree₁
  obtain ⟨data', hw', hloop⟩ :=
    allocClusterLoop_cons_free (List.range' (entryTop t.fatType - 13) 5) hfree₁'
  refine ⟨data', hw', ?_⟩
  rw [allocCluster_run hcount, show ({ t with freeCount := t.freeCount - 1, data := data } :
      FatTable).fatType = t.fatType from rfl, scanRange_eq_reserved, ← List.singleton_append,
    ← List.append_assoc, allocClusterLoop_append_of_used hused', hloop]

/-- A link to the second reserved cluster reads as `Reserved`. -/
theorem decodeEntry_encodeEntry_next_second (fatType : FatType) :
    decodeEntry (entryTop fatType) (encodeEntry (entryTop fatType) (.next (entryTop fatType - 14))) =
      .reserved :=
  decodeEntry_encodeEntry_next_reserved (by have := entryBits_ge fatType; omega)
    (by unfold entryTop; omega) (by unfold entryTop; omega)

/-- `free_cluster_chain` at a data cluster that reads as `Reserved` rejects it, and changes
nothing. -/
theorem freeClusterChain_run_of_reserved {c : Nat} (hv : Cluster.isValid t.fatType c = true)
    (h : t.get c = .ok .reserved) :
    (freeClusterChain c).run t = some (.error .invalidCluster, t) := by
  have htop := entryTop_ge t.fatType
  have hc : c ≠ 0 := by
    have := (isValid_iff.mp hv).1
    omega
  simp only [freeClusterChain, run_bind, run_getThe, hv, Bool.not_true, Bool.false_eq_true,
    if_false]
  rw [maxClusters_eq, show entryTop t.fatType - 9 = entryTop t.fatType - 10 + 1 by omega,
    freeChainLoop, run_ite, if_neg hc]
  simp only [run_bind, run_getThe, h, run_throw]

/-- **`alloc_cluster_chain` links into the reserved range.**  On a table of any type whose
data clusters below `0x?FF0` are in use and whose clusters `0x?FF0` and `0x?FF1` are free,
`alloc_cluster_chain(2)` returns `0x?FF0` and takes two clusters off the free count.  But
the link it writes from `0x?FF0` to `0x?FF1` reads back as `Reserved`: the iterator yields
`0x?FF0` alone, and `free_cluster_chain(0x?FF0)` fails with `InvalidCluster`. -/
theorem allocClusterChain_links_reserved (hcount : 2 ≤ t.freeCount)
    (hused : ∀ i, 2 ≤ i → i < entryTop t.fatType - 15 → readsUsed (t.get i) = true)
    (hfree₀ : t.get (entryTop t.fatType - 15) = .ok .free)
    (hfree₁ : t.get (entryTop t.fatType - 14) = .ok .free) :
    ∃ t', (allocClusterChain 2).run t = some (.ok (entryTop t.fatType - 15), t') ∧
      t'.freeCount = t.freeCount - 2 ∧
      (∀ fuel, t'.chainIter (fuel + 1) (entryTop t.fatType - 15) = [entryTop t.fatType - 15]) ∧
      (freeClusterChain (entryTop t.fatType - 15)).run t' = some (.error .invalidCluster, t') := by
  have htop := entryTop_ge t.fatType
  have hv₀ : Cluster.isValid t.fatType (entryTop t.fatType - 15) = true :=
    isValid_iff.mpr ⟨by omega, by omega⟩
  obtain ⟨data₁, hw₁, hfirst⟩ := allocCluster_reserved_first (by omega) hused hfree₀
  obtain ⟨data₂, hw₂, hsecond⟩ := allocCluster_reserved_second (by omega) hused hfree₁ hw₁
  -- after the second write the first cluster still reads as the end of a chain
  have hget₂ : ({ t with freeCount := t.freeCount - 1 - 1, data := data₂ } : FatTable).get
      (entryTop t.fatType - 15) = .ok .endOfChain := by
    have hne := get_write_of_ne (t := { t with freeCount := t.freeCount - 1, data := data₁ })
      (n := t.freeCount - 1 - 1) hw₂ (d := entryTop t.fatType - 15) (by omega)
    have hself := get_write_self (n := t.freeCount - 1) hw₁ hv₀
    rw [decodeEntry_encodeEntry_endOfChain] at hself
    exact hne.trans hself
  -- the link from the first cluster to the second keeps the free count
  obtain ⟨data₃, hw₃, hset⟩ := set_run_of_get_ok (.next (entryTop t.fatType - 14)) hget₂
  simp only [reduceCtorEq, false_and, if_false, ne_eq, not_false_eq_true, true_and] at hset
  have hget₃ : ({ t with freeCount := t.freeCount - 1 - 1, data := data₃ } : FatTable).get
      (entryTop t.fatType - 15) = .ok .reserved := by
    have h := get_write_self (t := { t with freeCount := t.freeCount - 1 - 1, data := data₂ })
      (n := t.freeCount - 1 - 1) hw₃ hv₀
    rw [decodeEntry_encodeEntry_next_second] at h
    exact h
  refine ⟨{ t with freeCount := t.freeCount - 1 - 1, data := data₃ }, ?_, by simp; omega,
    fun fuel => chainIter_of_not_next hget₃ (fun _ => nofun) fuel,
    freeClusterChain_run_of_reserved hv₀ hget₃⟩
  -- the run: the two guards pass, two clusters are taken, and the first is linked
  simp only [allocClusterChain, if_neg (show (2 : Nat) ≠ 0 by decide), run_bind,
    run_getThe, if_neg (show ¬ t.freeCount < 2 by omega), hfirst]
  simp only [allocChainLoop, run_bind, hsecond, hset, run_pure]

end Reserved

/-! ## §5 A FAT12 Table That Hands Out a Reserved Value -/

/-- A FAT12 table of 6123 bytes: the clusters `2..=0xFEF` read as ends of chains, `0xFF0`
and `0xFF1` are free, and the table ends with them.  Its free count is the two free
clusters (`reservedTail_inv`). -/
def reservedTail : FatTable := ⟨.fat12, List.replicate 6120 0xFF ++ [0, 0, 0], 2⟩

theorem reservedTail_getD_of_lt {j : Nat} (hj : j < 6120) :
    reservedTail.data.getD j 0 = 0xFF := by
  rw [reservedTail, List.getD_append _ _ _ _ (by rw [List.length_replicate]; exact hj),
    List.getD_replicate _ hj]

theorem reservedTail_getD_of_le {j : Nat} (hj : 6120 ≤ j) :
    reservedTail.data.getD j 0 = [0, 0, 0].getD (j - 6120) 0 := by
  rw [reservedTail, List.getD_append_right _ _ _ _ (by rw [List.length_replicate]; exact hj),
    List.length_replicate]

theorem reservedTail_length : reservedTail.data.length = 6123 := by
  rw [reservedTail, List.length_append, List.length_replicate]
  rfl

theorem entryTop_fat12 : entryTop .fat12 = 0x0FFF := rfl

/-- A read of a data cluster of the table, by `read_fat_entry` of FAT12. -/
theorem reservedTail_get {i : Nat} (hi₁ : 2 ≤ i) (hi₂ : i ≤ 0xFF6) :
    reservedTail.get i =
      if 6123 ≤ i + i / 2 + 1 then .error .outOfBounds
      else .ok (decodeEntry 0x0FFF (Fat12.rawValue reservedTail.data i)) := by
  have hv : Cluster.isValid reservedTail.fatType i = true :=
    isValid_iff.mpr ⟨hi₁, by rw [show reservedTail.fatType = .fat12 from rfl, entryTop_fat12]; omega⟩
  rw [get_of_isValid hv]
  show Fat12.readFatEntry reservedTail.data i = _
  rw [Fat12.readFatEntry_eq, reservedTail_length]

/-- Below `0xFF0` both bytes of an entry are `0xFF`: the end-of-chain marker. -/
theorem reservedTail_get_used {i : Nat} (h₂ : 2 ≤ i) (h : i < 0xFF0) :
    reservedTail.get i = .ok .endOfChain := by
  rw [reservedTail_get h₂ (by omega), if_neg (by omega), Fat12.rawValue]
  simp only [reservedTail_getD_of_lt (show i + i / 2 < 6120 by omega),
    reservedTail_getD_of_lt (show i + i / 2 + 1 < 6120 by omega)]
  split_ifs <;> rfl

theorem reservedTail_get_free₀ : reservedTail.get 0xFF0 = .ok .free := by
  rw [reservedTail_get (by decide) (by decide), if_neg (by decide), Fat12.rawValue]
  simp only [reservedTail_getD_of_le (show 6120 ≤ 4080 + 4080 / 2 by decide),
    reservedTail_getD_of_le (show 6120 ≤ 4080 + 4080 / 2 + 1 by decide)]
  rfl

theorem reservedTail_get_free₁ : reservedTail.get 0xFF1 = .ok .free := by
  rw [reservedTail_get (by decide) (by decide), if_neg (by decide), Fat12.rawValue]
  simp only [reservedTail_getD_of_le (show 6120 ≤ 4081 + 4081 / 2 by decide),
    reservedTail_getD_of_le (show 6120 ≤ 4081 + 4081 / 2 + 1 by decide)]
  rfl

/-- From `0xFF2` on the entries lie past the end. -/
theorem reservedTail_get_past {i : Nat} (h₁ : 0xFF2 ≤ i) (h₂ : i ≤ 0xFF6) :
    reservedTail.get i = .error .outOfBounds := by
  rw [reservedTail_get (by omega) h₂, if_pos (by omega)]

/-- The table meets the free-count invariant: its two free clusters are all it counts. -/
theorem reservedTail_inv : Inv .fat12 reservedTail := by
  refine ⟨rfl, ?_⟩
  have hused : (List.range' 2 4078).countP (fun i => readsFree (reservedTail.get i)) = 0 := by
    apply List.countP_eq_zero.mpr
    intro i hi
    rw [List.mem_range'_1] at hi
    rw [reservedTail_get_used hi.1 (by omega)]
    exact Bool.false_ne_true
  have hpast : (List.range' 4082 5).countP (fun i => readsFree (reservedTail.get i)) = 0 := by
    apply List.countP_eq_zero.mpr
    intro i hi
    rw [List.mem_range'_1] at hi
    rw [reservedTail_get_past (by omega) (by omega)]
    exact Bool.false_ne_true
  show 2 = (scanRange .fat12).countP fun i => readsFree (reservedTail.get i)
  rw [scanRange_eq_reserved, entryTop_fat12, List.countP_append, List.countP_cons,
    List.countP_cons]
  simp only [Nat.reduceSub, hused, hpast, reservedTail_get_free₀, reservedTail_get_free₁]
  rfl

/-- **The FAT12 table `reservedTail`** meets the free-count invariant, and
`alloc_cluster_chain(2)` on it returns `0xFF0` with a chain the iterator ends after one
cluster and that `free_cluster_chain` rejects. -/
theorem allocClusterChain_reserved_fat12 :
    Inv .fat12 reservedTail ∧ 2 ≤ reservedTail.freeCount ∧
      ∃ t', (allocClusterChain 2).run reservedTail = some (.ok 0xFF0, t') ∧
        t'.freeCount = 0 ∧ (∀ fuel, t'.chainIter (fuel + 1) 0xFF0 = [0xFF0]) ∧
        (freeClusterChain 0xFF0).run t' = some (.error .invalidCluster, t') :=
  ⟨reservedTail_inv, Nat.le_refl 2,
    allocClusterChain_links_reserved (t := reservedTail) (Nat.le_refl 2)
      (fun _ h₂ h => by rw [reservedTail_get_used h₂ h]; rfl)
      reservedTail_get_free₀ reservedTail_get_free₁⟩

end FatTable

end Beskar.Storage.Fat
