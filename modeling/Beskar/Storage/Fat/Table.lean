import Beskar.Storage.Fat.Entry
import Beskar.Lib.Checked
import Beskar.Lib.Fallible
import Beskar.Lib.Transition

/-!
# The In-Memory FAT Table

`FatTable` of `fs/fat/fat.rs`: the bytes of a table, its type, and a `free_count` that
`set` keeps up to date by comparing the old entry with the new one. `count_free`
recounts by reading every data cluster.

The operations run in `Fallible FatError FatTable`. A failing operation keeps what it
has already done: `alloc_cluster_chain` may fail after allocating part of a chain, and
`free_cluster_chain` may fail partway along a broken chain. The `while` loop of
`free_cluster_chain` is run with fuel (`freeChainLoop`), and `freeChainLoop_total` shows
that the fuel it is given never runs out.

## Main results
- `countFree_eq`: `count_free` returns the number of data clusters that read as free.
- `set_keeps`, `allocCluster_keeps`, …: each operation keeps `free_count` equal to that
  number, whether it succeeds or fails, given links to valid clusters only.
- `FatCall.exec_total`: no operation panics, so the step relation has every run of the
  code.
-/

namespace Beskar.Storage.Fat

open Beskar.Lib Beskar.Lib.Fallible

/-! ## §1 The Table -/

/-- `FatTable`. -/
structure FatTable where
  fatType : FatType
  data : List UInt8
  /-- `free_count`, a `u32`. -/
  freeCount : Nat

/-- The table's operations, as `&mut self` methods returning `FatResult`. -/
abbrev FatM (α : Type) := Fallible FatError FatTable α

namespace FatTable

/-- `FatTable::max_clusters`. -/
def maxClusters : FatType → Nat
  | .fat12 => 0x0FF6
  | .fat16 => 0xFFF6
  | .fat32 => 0x0FFF_FFF6

/-- `2..=self.max_clusters()`, the clusters `alloc_cluster` and `count_free` scan. -/
def scanRange (fatType : FatType) : List Nat := List.range' 2 (maxClusters fatType - 1)

/-- `FatEntries::get`. -/
def get (t : FatTable) (cluster : Nat) : Except FatError FatEntry :=
  if !Cluster.isValid t.fatType cluster then .error .invalidCluster
  else readFatEntry t.fatType t.data cluster

/-- `FatEntries::set`. The free count is updated before the write. -/
def set (cluster : Nat) (entry : FatEntry) : FatM Unit := do
  let t ← getThe FatTable
  if !Cluster.isValid t.fatType cluster && cluster != 0 && cluster != 1 then
    throw .invalidCluster
  let oldEntry ← MonadExcept.ofExcept (t.get cluster)
  if oldEntry = .free ∧ entry ≠ .free then
    modifyThe FatTable fun t => { t with freeCount := t.freeCount - 1 }
  else if oldEntry ≠ .free ∧ entry = .free then
    modifyThe FatTable fun t => { t with freeCount := addSaturating 32 t.freeCount 1 }
  let data ← MonadExcept.ofExcept (writeFatEntry t.fatType t.data cluster entry)
  modifyThe FatTable fun t => { t with data := data }

/-- The `for` loop of `alloc_cluster`. -/
def allocClusterLoop : List Nat → FatM Nat
  | [] => throw .outOfBounds
  | i :: is => do
    match (← getThe FatTable).get i with
    | .ok .free =>
      -- mark as end of chain and return it
      set i .endOfChain
      pure i
    | .error e => throw e
    | .ok _ => allocClusterLoop is

/-- `FatEntries::alloc_cluster`. -/
def allocCluster : FatM Nat := do
  let t ← getThe FatTable
  if t.freeCount = 0 then throw .outOfBounds
  else allocClusterLoop (scanRange t.fatType)

/-- The `for _ in 1..count` loop of `alloc_cluster_chain`: link `prev` to a new cluster. -/
def allocChainLoop : Nat → Nat → FatM Unit
  | 0, _ => pure ()
  | n + 1, prev => do
    let next ← allocCluster
    set prev (.next next)
    allocChainLoop n next

/-- `FatEntries::alloc_cluster_chain`. -/
def allocClusterChain (count : Nat) : FatM Nat := do
  if count = 0 then throw .invalidParameter
  else do
    let t ← getThe FatTable
    if t.freeCount < count then throw .outOfBounds
    else do
      -- allocate the first cluster, then link each further one from the one before
      let first ← allocCluster
      allocChainLoop (count - 1) first
      pure first

/-- `FatEntries::free_cluster`. -/
def freeCluster (cluster : Nat) : FatM Unit := do
  let t ← getThe FatTable
  if !Cluster.isValid t.fatType cluster then throw .invalidCluster
  else set cluster .free

/-- The `while !current.is_free()` loop of `free_cluster_chain`, with fuel. -/
def freeChainLoop : Nat → Nat → FatM Unit
  | 0, _ => abort
  | fuel + 1, current =>
    if current = 0 then pure ()
    else do
      match (← getThe FatTable).get current with
      | .ok (.next next) =>
        set current .free
        freeChainLoop fuel next
      | .ok .endOfChain => set current .free
      | .ok _ => throw .invalidCluster
      | .error e => throw e

/-- `FatEntries::free_cluster_chain`. Each pass frees a cluster that was not free, so
`max_clusters` passes are enough. -/
def freeClusterChain (start : Nat) : FatM Unit := do
  let t ← getThe FatTable
  if !Cluster.isValid t.fatType start then throw .invalidCluster
  else freeChainLoop (maxClusters t.fatType) start

/-- The `for` loop of `count_free`, which stops at the end of the table. -/
def countFreeLoop (t : FatTable) : List Nat → Nat → Except FatError Nat
  | [], count => .ok count
  | i :: is, count =>
    match t.get i with
    | .ok .free => countFreeLoop t is (count + 1)
    | .error .outOfBounds => .ok count
    | .error e => .error e
    | .ok _ => countFreeLoop t is count

/-- `FatEntries::count_free`. -/
def countFree (t : FatTable) : Except FatError Nat :=
  countFreeLoop t (scanRange t.fatType) 0

/-- `FatTable::new`: the free count starts as `count_free().unwrap_or(0)`. -/
def new (fatType : FatType) (data : List UInt8) : FatTable :=
  let table : FatTable := ⟨fatType, data, 0⟩
  { table with
    freeCount := match table.countFree with
      | .ok n => n
      | .error _ => 0 }

/-! ## §2 What `count_free` Counts -/

/-- The read reports a free entry. -/
def readsFree : Except FatError FatEntry → Bool
  | .ok .free => true
  | _ => false

/-- The read reports an entry in use. -/
def readsUsed : Except FatError FatEntry → Bool
  | .ok .free => false
  | .ok _ => true
  | .error _ => false

/-- The data clusters whose entry reads as free. -/
def freeClusters (t : FatTable) : Nat :=
  (scanRange t.fatType).countP fun i => readsFree (t.get i)

/-- The data clusters whose entry reads as in use. -/
def usedClusters (t : FatTable) : Nat :=
  (scanRange t.fatType).countP fun i => readsUsed (t.get i)

theorem readsFree_eq_true_iff {r : Except FatError FatEntry} :
    readsFree r = true ↔ r = .ok .free := by
  rcases r with _ | _ | _ <;> simp [readsFree]

theorem readsUsed_eq_true_iff {r : Except FatError FatEntry} :
    readsUsed r = true ↔ ∃ x, r = .ok x ∧ x ≠ .free := by
  rcases r with _ | _ | _ <;> simp [readsUsed]

theorem mem_scanRange {fatType : FatType} {i : Nat} :
    i ∈ scanRange fatType ↔ Cluster.isValid fatType i = true := by
  cases fatType <;>
    simp only [scanRange, maxClusters, List.mem_range'_1, Cluster.isValid, Bool.and_eq_true,
      decide_eq_true_eq] <;> omega

/-- There are fewer data clusters than a `u32` counts, so a free count never saturates. -/
theorem countP_scanRange_lt (fatType : FatType) (p : Nat → Bool) :
    (scanRange fatType).countP p < 2 ^ 32 - 1 := by
  have hlen : (scanRange fatType).length = maxClusters fatType - 1 := List.length_range' ..
  have hle := List.countP_le_length (p := p) (l := scanRange fatType)
  cases fatType <;> simp only [maxClusters] at hlen <;> omega

theorem get_of_isValid {t : FatTable} {c : Nat} (hv : Cluster.isValid t.fatType c = true) :
    t.get c = readFatEntry t.fatType t.data c := by
  simp only [get, hv, Bool.not_true, Bool.false_eq_true, if_false]

theorem isValid_of_get_eq_ok {t : FatTable} {c : Nat} {x : FatEntry} (h : t.get c = .ok x) :
    Cluster.isValid t.fatType c = true := by
  cases hb : Cluster.isValid t.fatType c
  · simp only [get, hb, Bool.not_false, if_true, reduceCtorEq] at h
  · rfl

/-- On a data cluster, `get` fails only past the end of the table. -/
theorem get_eq_error_of_isValid {t : FatTable} {c : Nat} {e : FatError}
    (hv : Cluster.isValid t.fatType c = true) (h : t.get c = .error e) : e = .outOfBounds := by
  rw [get_of_isValid hv] at h
  exact readFatEntry_eq_error h

theorem get_outOfBounds_of_le {t : FatTable} {c d : Nat}
    (hv : Cluster.isValid t.fatType c = true) (h : t.get c = .error .outOfBounds) (hcd : c ≤ d)
    (hd : Cluster.isValid t.fatType d = true) : t.get d = .error .outOfBounds := by
  rw [get_of_isValid hv] at h
  rw [get_of_isValid hd]
  exact readFatEntry_outOfBounds_of_le h hcd

/-- The loop of `count_free` over data clusters: it stops at the first cluster past the
end of the table, and no later cluster reads as free. -/
theorem countFreeLoop_range' (t : FatTable) (k : Nat) :
    ∀ s n, (∀ i ∈ List.range' s k, Cluster.isValid t.fatType i = true) →
      countFreeLoop t (List.range' s k) n =
        .ok (n + (List.range' s k).countP fun i => readsFree (t.get i)) := by
  induction k with
  | zero => intro s n _; rfl
  | succ k ih =>
    intro s n hvalid
    rw [List.range'_succ] at hvalid ⊢
    have hv := hvalid s List.mem_cons_self
    have hrest : ∀ i ∈ List.range' (s + 1) k, Cluster.isValid t.fatType i = true :=
      fun i hi => hvalid i (List.mem_cons_of_mem s hi)
    rw [List.countP_cons]
    rcases hget : t.get s with e | x
    · -- the end of the table
      obtain rfl := get_eq_error_of_isValid hv hget
      have hzero : (List.range' (s + 1) k).countP (fun i => readsFree (t.get i)) = 0 := by
        rw [List.countP_eq_zero]
        intro i hi
        have hsi : s ≤ i := by
          have := List.mem_range'_1.mp hi
          omega
        rw [get_outOfBounds_of_le hv hget hsi (hrest i hi)]
        exact Bool.false_ne_true
      simp only [countFreeLoop, hget]
      rw [hzero]
      rfl
    · -- a cluster in the table is counted when it reads as free
      cases x
      case free =>
        simp only [countFreeLoop, hget, ih (s + 1) _ hrest, readsFree, if_true]
        congr 1
        omega
      all_goals simp only [countFreeLoop, hget, ih (s + 1) _ hrest, readsFree,
        Bool.false_eq_true, if_false, Nat.add_zero]

/-- `count_free` never fails: it counts the data clusters that read as free. -/
theorem countFree_eq (t : FatTable) : t.countFree = .ok (freeClusters t) := by
  unfold countFree freeClusters scanRange
  rw [countFreeLoop_range' t _ 2 0 fun i hi => mem_scanRange.mp hi, Nat.zero_add]

/-! ## §3 One `set` -/

/-- A failed `get` fails `set` the same way, before anything changes. -/
theorem set_run_of_get_error {t : FatTable} {c : Nat} {err : FatError} (entry : FatEntry)
    (h : t.get c = .error err) : (set c entry).run t = some (.error err, t) := by
  by_cases hv : Cluster.isValid t.fatType c = true
  · -- the guard passes, and `get` fails
    simp only [set, run_bind, run_getThe, hv, h, Bool.not_true, Bool.false_and,
      Bool.false_eq_true, if_false, run_ofExcept_error]
  · -- `get` fails on an invalid cluster as the guard does, clusters 0 and 1 included
    have herr : err = .invalidCluster := by
      simp only [get, hv, Bool.not_false, if_true, Except.error.injEq] at h
      exact h.symm
    subst herr
    simp only [set, run_bind, run_getThe, h]
    rw [run_ite]
    split
    · simp only [run_bind, run_throw]
    · simp only [run_bind, run_ofExcept_error]

/-- A successful `get` makes `set` succeed: the free count moves with the change from or
to free, and the entry is written. -/
theorem set_run_of_get_ok {t : FatTable} {c : Nat} {old : FatEntry} (entry : FatEntry)
    (h : t.get c = .ok old) :
    ∃ data, writeFatEntry t.fatType t.data c entry = .ok data ∧
      (set c entry).run t = some (.ok (), { t with
        freeCount := if old = .free ∧ entry ≠ .free then t.freeCount - 1
          else if old ≠ .free ∧ entry = .free then addSaturating 32 t.freeCount 1
          else t.freeCount
        data := data }) := by
  have hv := isValid_of_get_eq_ok h
  have hread : readFatEntry t.fatType t.data c = .ok old := by
    rw [← get_of_isValid hv]
    exact h
  obtain ⟨data, hw⟩ := writeFatEntry_of_readFatEntry hread entry
  refine ⟨data, hw, ?_⟩
  simp only [set, run_bind, run_getThe, hv, h, hw, Bool.not_true, Bool.false_and,
    Bool.false_eq_true, if_false, run_ofExcept_ok]
  split_ifs <;> simp only [run_bind, run_modifyThe, run_ofExcept_ok]

theorem set_total (c : Nat) (entry : FatEntry) : Total (set c entry) := by
  intro t
  rcases hget : t.get c with err | old
  · rw [set_run_of_get_error entry hget]
    rfl
  · obtain ⟨data, -, hset⟩ := set_run_of_get_ok entry hget
    rw [hset]
    rfl

section Write

variable {t : FatTable} {c : Nat} {entry : FatEntry} {data : List UInt8} {n : Nat}

/-- A write at `c` changes the read of no other cluster. -/
theorem get_write_of_ne (hw : writeFatEntry t.fatType t.data c entry = .ok data) {d : Nat}
    (hne : d ≠ c) : ({ t with freeCount := n, data := data } : FatTable).get d = t.get d := by
  unfold get
  rw [readFatEntry_writeFatEntry_of_ne hw hne]

/-- A write at `c` changes a count of clusters by what it does at `c`. -/
theorem countP_write (f : Except FatError FatEntry → Bool)
    (hw : writeFatEntry t.fatType t.data c entry = .ok data)
    (hv : Cluster.isValid t.fatType c = true) :
    ((scanRange t.fatType).countP fun i =>
        f (({ t with freeCount := n, data := data } : FatTable).get i)) +
      (if f (t.get c) then 1 else 0) =
    ((scanRange t.fatType).countP fun i => f (t.get i)) +
      (if f (({ t with freeCount := n, data := data } : FatTable).get c) then 1 else 0) := by
  apply countP_add_of_eq_off List.nodup_range' (mem_scanRange.mpr hv)
  intro i _ hi
  rw [get_write_of_ne hw hi]

/-- The written entry reads back free exactly when it is free. -/
theorem get_write_self_eq_free_iff (hw : writeFatEntry t.fatType t.data c entry = .ok data)
    (hv : Cluster.isValid t.fatType c = true) (hlink : entry.LinksValid t.fatType) :
    ({ t with freeCount := n, data := data } : FatTable).get c = .ok .free ↔ entry = .free := by
  show (if !Cluster.isValid t.fatType c then _ else readFatEntry t.fatType data c) = _ ↔ _
  rw [hv, Bool.not_true, if_neg Bool.false_ne_true]
  exact readFatEntry_writeFatEntry_eq_free_iff hw hlink

end Write

/-! ## §4 The Free Count -/

/-- The invariant: the table keeps its type, and `free_count` is what `count_free`
counts. -/
structure Inv (fatType : FatType) (t : FatTable) : Prop where
  fatType_eq : t.fatType = fatType
  freeCount_eq : t.freeCount = freeClusters t

/-- `set` keeps the free count, whether it succeeds or fails, when it links only to a
valid cluster. -/
theorem set_keeps {fatType : FatType} {c : Nat} {entry : FatEntry}
    (hlink : entry.LinksValid fatType) : Keeps (Inv fatType) (set c entry) := by
  intro t r t' hinv hrun
  rcases hget : t.get c with err | old
  · -- a failed `get` leaves the table as it was
    rw [set_run_of_get_error entry hget] at hrun
    cases hrun
    exact hinv
  · obtain ⟨data, hw, hset⟩ := set_run_of_get_ok entry hget
    rw [hset] at hrun
    cases hrun
    obtain ⟨hty, hcount⟩ := hinv
    subst hty
    have hv := isValid_of_get_eq_ok hget
    generalize hn : (if old = .free ∧ entry ≠ .free then t.freeCount - 1
      else if old ≠ .free ∧ entry = .free then addSaturating 32 t.freeCount 1
      else t.freeCount) = n
    refine ⟨rfl, ?_⟩
    -- the count moves by one exactly where the class of `c` changes
    have hchange := countP_write (n := n) readsFree hw hv
    simp only [readsFree_eq_true_iff, hget, Except.ok.injEq,
      get_write_self_eq_free_iff hw hv hlink] at hchange
    have hbound := countP_scanRange_lt t.fatType fun i =>
      readsFree (({ t with freeCount := n, data := data } : FatTable).get i)
    simp only [freeClusters] at hcount ⊢
    unfold addSaturating at hn
    by_cases ho : old = .free <;> by_cases he : entry = .free <;>
      simp only [ho, he, ne_eq, not_true_eq_false, not_false_eq_true, and_false, and_true,
        if_false, if_true] at hchange hn <;> omega

/-- The loop of `alloc_cluster` keeps the free count: it only marks a cluster as the end
of a chain. -/
theorem allocClusterLoop_keeps {fatType : FatType} :
    ∀ l, Keeps (Inv fatType) (allocClusterLoop l)
  | [] => Keeps.throw _
  | i :: is => by
    apply Keeps.getThe_bind
    intro t _
    split
    · exact Keeps.bind (set_keeps trivial) fun _ => Keeps.pure _
    · exact Keeps.throw _
    · exact allocClusterLoop_keeps is

theorem allocCluster_keeps {fatType : FatType} : Keeps (Inv fatType) allocCluster := by
  apply Keeps.getThe_bind
  intro t _
  exact Keeps.ite (Keeps.throw _) (allocClusterLoop_keeps _)

/-- The loop of `alloc_cluster` returns a cluster it scanned. -/
theorem allocClusterLoop_mem {t t' : FatTable} {c : Nat} :
    ∀ {l}, (allocClusterLoop l).run t = some (.ok c, t') → c ∈ l
  | [], h => by cases h
  | i :: is, h => by
    simp only [allocClusterLoop, run_bind, run_getThe] at h
    split at h
    · -- the free cluster found is the one returned
      obtain ⟨_, _, -, hpure⟩ := run_bind_eq_ok.mp h
      cases hpure
      exact List.mem_cons_self
    · cases h
    · exact List.mem_cons_of_mem i (allocClusterLoop_mem h)

/-- `alloc_cluster` returns a data cluster. -/
theorem allocCluster_isValid {fatType : FatType} {t t' : FatTable} {c : Nat}
    (hinv : Inv fatType t) (h : allocCluster.run t = some (.ok c, t')) :
    Cluster.isValid fatType c = true := by
  simp only [allocCluster, run_bind, run_getThe] at h
  rw [run_ite] at h
  split at h
  · cases h
  · rw [← hinv.fatType_eq]
    exact mem_scanRange.mp (allocClusterLoop_mem h)

/-- The loop of `alloc_cluster_chain` links each new cluster from the one before, and
both are data clusters. -/
theorem allocChainLoop_keeps {fatType : FatType} :
    ∀ n prev, Keeps (Inv fatType) (allocChainLoop n prev)
  | 0, _ => Keeps.pure _
  | n + 1, prev => by
    apply Keeps.bind_of_ok allocCluster_keeps
      (fun _ _ _ hinv h => allocCluster_isValid hinv h)
    intro next hnext
    exact Keeps.bind (set_keeps hnext) fun _ => allocChainLoop_keeps n next

theorem allocClusterChain_keeps {fatType : FatType} (count : Nat) :
    Keeps (Inv fatType) (allocClusterChain count) := by
  refine Keeps.ite (Keeps.throw _) ?_
  apply Keeps.getThe_bind
  intro t _
  refine Keeps.ite (Keeps.throw _) ?_
  exact Keeps.bind allocCluster_keeps fun first =>
    Keeps.bind (allocChainLoop_keeps _ first) fun _ => Keeps.pure _

theorem freeCluster_keeps {fatType : FatType} (cluster : Nat) :
    Keeps (Inv fatType) (freeCluster cluster) := by
  apply Keeps.getThe_bind
  intro t _
  exact Keeps.ite (Keeps.throw _) (set_keeps trivial)

/-- The loop of `free_cluster_chain` keeps the free count on every pass, so also when it
stops at a broken link. -/
theorem freeChainLoop_keeps {fatType : FatType} :
    ∀ fuel current, Keeps (Inv fatType) (freeChainLoop fuel current)
  | 0, _ => Keeps.abort
  | fuel + 1, current => by
    refine Keeps.ite (Keeps.pure _) ?_
    apply Keeps.getThe_bind
    intro t _
    split
    · exact Keeps.bind (set_keeps trivial) fun _ => freeChainLoop_keeps fuel _
    · exact set_keeps trivial
    · exact Keeps.throw _
    · exact Keeps.throw _

theorem freeClusterChain_keeps {fatType : FatType} (start : Nat) :
    Keeps (Inv fatType) (freeClusterChain start) := by
  apply Keeps.getThe_bind
  intro t _
  exact Keeps.ite (Keeps.throw _) (freeChainLoop_keeps _ _)

/-- `FatTable::new` starts with the count `count_free` returns. -/
theorem inv_new (fatType : FatType) (data : List UInt8) : Inv fatType (new fatType data) := by
  refine ⟨rfl, ?_⟩
  show (match countFree ⟨fatType, data, 0⟩ with
    | .ok n => n
    | .error _ => 0) = freeClusters ⟨fatType, data, 0⟩
  rw [countFree_eq]

/-! ## §5 No Panics -/

theorem allocClusterLoop_total : ∀ l, Total (allocClusterLoop l)
  | [] => Total.throw _
  | i :: is => by
    apply Total.getThe_bind
    intro t
    split
    · exact Total.bind (set_total _ _) (fun _ => Total.pure _) t
    · exact Total.throw _ t
    · exact allocClusterLoop_total is t

theorem allocCluster_total : Total allocCluster := by
  apply Total.getThe_bind
  intro t
  exact Total.ite (Total.throw _) (allocClusterLoop_total _) t

theorem allocChainLoop_total : ∀ n prev, Total (allocChainLoop n prev)
  | 0, _ => Total.pure _
  | n + 1, _ => Total.bind allocCluster_total fun next =>
      Total.bind (set_total _ _) fun _ => allocChainLoop_total n next

theorem allocClusterChain_total (count : Nat) : Total (allocClusterChain count) := by
  refine Total.ite (Total.throw _) ?_
  apply Total.getThe_bind
  intro t
  refine Total.ite (Total.throw _) ?_ t
  exact Total.bind allocCluster_total fun first =>
    Total.bind (allocChainLoop_total _ first) fun _ => Total.pure _

theorem freeCluster_total (cluster : Nat) : Total (freeCluster cluster) := by
  apply Total.getThe_bind
  intro t
  exact Total.ite (Total.throw _) (set_total _ _) t

/-- Freeing a cluster in use takes it off the count of clusters in use. -/
theorem usedClusters_set_free {t t' : FatTable} {c : Nat} {next : Nat}
    (hget : t.get c = .ok (.next next) ∨ t.get c = .ok .endOfChain)
    (hrun : (set c .free).run t = some (.ok (), t')) : usedClusters t' + 1 = usedClusters t := by
  have hget' : ∃ old, t.get c = .ok old ∧ old ≠ .free := by
    rcases hget with h | h
    · exact ⟨_, h, fun h' => by cases h'⟩
    · exact ⟨_, h, fun h' => by cases h'⟩
  obtain ⟨old, hold, hne⟩ := hget'
  obtain ⟨data, hw, hset⟩ := set_run_of_get_ok .free hold
  rw [hset] at hrun
  cases hrun
  have hv := isValid_of_get_eq_ok hold
  generalize (if old = .free ∧ FatEntry.free ≠ .free then t.freeCount - 1
    else if old ≠ .free ∧ FatEntry.free = .free then addSaturating 32 t.freeCount 1
    else t.freeCount) = n
  have hchange := countP_write (n := n) readsUsed hw hv
  have hfree := (get_write_self_eq_free_iff (n := n) hw hv trivial).mpr rfl
  have hused : readsUsed (t.get c) = true := readsUsed_eq_true_iff.mpr ⟨old, hold, hne⟩
  have hfree' : readsUsed (Except.ok FatEntry.free : Except FatError FatEntry) = false := rfl
  rw [hused, hfree, hfree'] at hchange
  simp only [if_true, Bool.false_eq_true, if_false, Nat.add_zero] at hchange
  exact hchange

/-- Each pass of the loop of `free_cluster_chain` frees a cluster in use, so it stops
within one more pass than there are clusters in use. -/
theorem freeChainLoop_total : ∀ fuel current (t : FatTable), usedClusters t < fuel →
    ((freeChainLoop fuel current).run t).isSome
  | 0, _, _, h => absurd h (Nat.not_lt_zero _)
  | fuel + 1, current, t, h => by
    unfold freeChainLoop
    rw [run_ite]
    split
    · rfl
    · simp only [run_bind, run_getThe]
      split
      · rename_i next hget
        obtain ⟨data, -, hset⟩ := set_run_of_get_ok .free hget
        rw [run_bind, hset]
        apply freeChainLoop_total fuel next
        have := usedClusters_set_free (.inl hget) hset
        omega
      · exact set_total _ _ t
      · rfl
      · rfl

theorem freeClusterChain_total (start : Nat) : Total (freeClusterChain start) := by
  apply Total.getThe_bind
  intro t
  rw [run_ite]
  split
  · rfl
  · apply freeChainLoop_total
    -- there are fewer clusters in use than data clusters, and fewer of those than the fuel
    have hlen : (scanRange t.fatType).length = maxClusters t.fatType - 1 :=
      List.length_range' ..
    have hle := List.countP_le_length (p := fun i => readsUsed (t.get i))
      (l := scanRange t.fatType)
    have hpos : 0 < maxClusters t.fatType := by
      cases t.fatType <;> decide
    unfold usedClusters
    omega

end FatTable

/-! ## §6 Runs of Calls -/

/-- A call on the table, as the file and directory code makes them. -/
inductive FatCall
  | set (cluster : Nat) (entry : FatEntry)
  | allocCluster
  | allocClusterChain (count : Nat)
  | freeCluster (cluster : Nat)
  | freeClusterChain (start : Nat)

namespace FatCall

/-- The call, with its result dropped. -/
def exec : FatCall → FatM Unit
  | .set c e => FatTable.set c e
  | .allocCluster => (fun _ => ()) <$> FatTable.allocCluster
  | .allocClusterChain n => (fun _ => ()) <$> FatTable.allocClusterChain n
  | .freeCluster c => FatTable.freeCluster c
  | .freeClusterChain c => FatTable.freeClusterChain c

/-- The calls callers make: `set` links only to valid clusters. -/
def Allowed (fatType : FatType) : FatCall → Prop
  | .set _ e => e.LinksValid fatType
  | _ => True

theorem exec_keeps {fatType : FatType} :
    ∀ call : FatCall, call.Allowed fatType → Keeps (FatTable.Inv fatType) call.exec
  | .set _ _, h => FatTable.set_keeps h
  | .allocCluster, _ => Keeps.map _ FatTable.allocCluster_keeps
  | .allocClusterChain n, _ => Keeps.map _ (FatTable.allocClusterChain_keeps n)
  | .freeCluster c, _ => FatTable.freeCluster_keeps c
  | .freeClusterChain c, _ => FatTable.freeClusterChain_keeps c

/-- No call panics: every call from every table has an outcome. -/
theorem exec_total : ∀ call : FatCall, Total call.exec
  | .set c e => FatTable.set_total c e
  | .allocCluster => Total.map _ FatTable.allocCluster_total
  | .allocClusterChain n => Total.map _ (FatTable.allocClusterChain_total n)
  | .freeCluster c => FatTable.freeCluster_total c
  | .freeClusterChain c => FatTable.freeClusterChain_total c

end FatCall

namespace FatTable

/-- One allowed call, successful or failing. -/
def Step (t : FatTable) (call : FatCall) (t' : FatTable) : Prop :=
  call.Allowed t.fatType ∧ ∃ r, call.exec.run t = some (r, t')

/-- A table just made by `FatTable::new`, for any type and any bytes. -/
def Initial (t : FatTable) : Prop :=
  ∃ fatType data, t = new fatType data

theorem step_inv {t t' : FatTable} {call : FatCall} (hinv : Inv t.fatType t)
    (h : Step t call t') : Inv t'.fatType t' := by
  obtain ⟨hallowed, r, hrun⟩ := h
  have hinv' := FatCall.exec_keeps call hallowed t r t' hinv hrun
  rw [hinv'.fatType_eq]
  exact hinv'

theorem reachable_inv {t : FatTable} (h : Reachable Step Initial t) : Inv t.fatType t := by
  apply Reachable.invariant (fun t => Inv t.fatType t) _ _ h
  · rintro _ ⟨fatType, data, rfl⟩
    exact inv_new fatType data
  · intro t _ t' hinv hstep
    exact step_inv hinv hstep

theorem countFree_eq_freeCount {t : FatTable} (h : Reachable Step Initial t) :
    t.countFree = .ok t.freeCount := by
  rw [countFree_eq, (reachable_inv h).freeCount_eq]

/-- A FAT16 table of four entries after one `alloc_cluster`, which marks cluster 2 as the
end of a chain. -/
theorem countFree_eq_freeCount_after_alloc :
    Reachable Step Initial ⟨.fat16, [0, 0, 0, 0, 0xFF, 0xFF, 0, 0], 1⟩ ∧
      countFree ⟨.fat16, [0, 0, 0, 0, 0xFF, 0xFF, 0, 0], 1⟩ = .ok 1 := by
  have hreach : Reachable Step Initial ⟨.fat16, [0, 0, 0, 0, 0xFF, 0xFF, 0, 0], 1⟩ :=
    Reachable.tail (Reachable.of_init ⟨.fat16, List.replicate 8 0, rfl⟩)
      (a := FatCall.allocCluster) ⟨trivial, .ok (), rfl⟩
  exact ⟨hreach, countFree_eq_freeCount hreach⟩

end FatTable

end Beskar.Storage.Fat
