import Beskar.Storage.Fat.File

/-!
# The Cursor of a FAT File

A `FatFile` keeps its position twice: as `position`, and as the pair `current_cluster`
and `cluster_offset` on the chain from `first_cluster`. `FatFile.Consistent` (§2) says
that the two agree. The cursor is `k = position / bytes_per_cluster` clusters down the
chain at offset `position - k * bytes_per_cluster`. On a non-zero multiple of the cluster
size it may instead sit at the end of cluster `k - 1`.

A chain is a list of clusters, each linking to the next, the last the end of the chain
(`IsChain`, §1). §3 says what one pass of the loop of `seek` does, and follows `seek`
down a chain from a file fresh from `FatFile::new`. A pass over a whole cluster lands on
the first byte of the next one. A pass that stops inside a cluster keeps the cursor
consistent, so does a seek to any byte before the end of the chain
(`seek_new_consistent`). At the end of the chain `seek` sets `cluster_offset` to
`size % bytes_per_cluster`, which is `0` when the size is a multiple of the cluster size.
`seek_to_end_breaks_cursor` (§4) is that seek, and `truncate_keeps_boundary_cluster` is
the truncation to a multiple of the cluster size. It seeks onto the first byte of the
cluster after the new end and cuts the chain after that cluster, so it frees one cluster
too few.

This module complements `File.lean`, whose `file_diverges_from_byte_model` is a write
after the same seek.
-/

namespace Beskar.Storage.Fat

open Beskar.Lib Beskar.Lib.Fallible

variable {τ δ : Type} {fat : FatEntries τ} {t : τ}

/-! ## §1 Chains -/

/-- `cs` is a chain of the table: each cluster but the last links to the one after it,
and the last is the end of the chain. -/
def IsChain (fat : FatEntries τ) (t : τ) : List Nat → Prop
  | [] => False
  | [c] => fat.get t c = .ok .endOfChain
  | c :: n :: cs => fat.get t c = .ok (.next n) ∧ IsChain fat t (n :: cs)

/-- The cluster `k` links down from `cluster`, if the links go that far. -/
def nthCluster (fat : FatEntries τ) (t : τ) (cluster : Nat) : Nat → Option Nat
  | 0 => some cluster
  | k + 1 =>
    match fat.get t cluster with
    | .ok (.next next) => nthCluster fat t next k
    | _ => none

theorem IsChain.get_next : ∀ {cs : List Nat}, IsChain fat t cs → ∀ i (hi : i + 1 < cs.length),
    fat.get t cs[i] = .ok (.next cs[i + 1])
  | [], h, _, _ => h.elim
  | [_], _, i, hi => by simp at hi
  | _ :: _ :: _, h, 0, _ => h.1
  | _ :: n :: cs, h, i + 1, hi =>
    IsChain.get_next h.2 i (by simp only [List.length_cons] at hi ⊢; omega)

theorem IsChain.get_last : ∀ {cs : List Nat}, IsChain fat t cs → ∀ i (hi : i + 1 = cs.length),
    fat.get t cs[i] = .ok .endOfChain
  | [], h, _, _ => h.elim
  | [_], h, 0, _ => h
  | _ :: _ :: _, _, 0, hi => by simp at hi
  | _ :: n :: cs, h, i + 1, hi =>
    IsChain.get_last h.2 i (by simp only [List.length_cons] at hi ⊢; omega)

/-- Down a chain, the cluster `i` links away is its `i`-th element, and there is none past
its end. -/
theorem nthCluster_of_isChain : ∀ {c : Nat} {cs : List Nat}, IsChain fat t (c :: cs) →
    ∀ i, nthCluster fat t c i = (c :: cs)[i]?
  | _, [], _, 0 => rfl
  | _, [], h, i + 1 => by
    -- the last cluster ends the chain, so no link leads on
    simp only [IsChain] at h
    simp [nthCluster, h]
  | _, _ :: _, _, 0 => rfl
  | _, n :: cs, h, i + 1 => by
    rw [nthCluster, h.1]
    exact nthCluster_of_isChain h.2 i

/-- A FAT16 table whose cluster 2 links to cluster 3, the end of its chain. -/
def twoClusters : FatTable := FatTable.new .fat16 [0xF8, 0xFF, 0xFF, 0xFF, 3, 0, 0xFF, 0xFF]

namespace FatFile

/-! ## §2 A Consistent Cursor -/

/-- The cursor agrees with the position: `current_cluster` is cluster `k = position /
bytes_per_cluster` of the chain from `first_cluster`, at offset `position - k *
bytes_per_cluster`; or, on a non-zero multiple of the cluster size, it is cluster `k - 1`
at offset `bytes_per_cluster`. -/
def Consistent (fat : FatEntries τ) (t : τ) (f : FatFile) : Prop :=
  f.position ≤ f.size ∧
    ((nthCluster fat t f.firstCluster (f.position / f.bytesPerCluster) = some f.currentCluster ∧
        f.clusterOffset = f.position - f.position / f.bytesPerCluster * f.bytesPerCluster) ∨
      (0 < f.position ∧ f.position % f.bytesPerCluster = 0 ∧
        nthCluster fat t f.firstCluster (f.position / f.bytesPerCluster - 1) =
          some f.currentCluster ∧
        f.clusterOffset = f.bytesPerCluster))

instance (fat : FatEntries τ) (t : τ) (f : FatFile) : Decidable (f.Consistent fat t) :=
  inferInstanceAs (Decidable (_ ∧ _))

theorem consistent_new {firstCluster size bytesPerCluster : Nat} {f : FatFile}
    (h : new fat t firstCluster size bytesPerCluster = .ok f) : f.Consistent fat t := by
  rw [new_eq_ok h]
  simp [Consistent, nthCluster]

/-- A cursor `r < bytes_per_cluster` bytes into cluster `k` is consistent. -/
theorem consistent_of_offset_lt {f : FatFile} {k r : Nat} (hr : r < f.bytesPerCluster)
    (hpos : f.position = k * f.bytesPerCluster + r) (hsize : f.position ≤ f.size)
    (hnth : nthCluster fat t f.firstCluster k = some f.currentCluster) (hoff : f.clusterOffset = r) :
    f.Consistent fat t := by
  have hb : 0 < f.bytesPerCluster := by omega
  -- `position / bytes_per_cluster` is `k`, since `r` is short of a cluster
  have hdiv : f.position / f.bytesPerCluster = k := by
    rw [hpos, Nat.mul_comm, Nat.add_comm, Nat.add_mul_div_left _ _ hb, Nat.div_eq_of_lt hr,
      Nat.zero_add]
  refine ⟨hsize, .inl ⟨by rw [hdiv]; exact hnth, ?_⟩⟩
  rw [hdiv, hoff, hpos]
  omega

/-! ## §3 Seeking Down a Chain -/

variable {s : FileSys τ δ} {target fuel : Nat}

/-- The loop stops once the position reaches the target. -/
theorem seekLoop_done (h : ¬ s.file.position < target) :
    (seekLoop fat target (fuel + 1)).run s = some (.ok (), s) := by
  simp [seekLoop, h]

/-- A pass that reaches the end of the current cluster follows its link to the first byte
of the next. -/
theorem seekLoop_skip {next : Nat} (hlt : s.file.position < target)
    (hoff : s.file.clusterOffset ≤ s.file.bytesPerCluster)
    (hle : s.file.position + (s.file.bytesPerCluster - s.file.clusterOffset) ≤ target)
    (hget : fat.get s.fat s.file.currentCluster = .ok (.next next)) :
    (seekLoop fat target (fuel + 1)).run s =
      (seekLoop fat target fuel).run { s with file := { s.file with
        currentCluster := next, clusterOffset := 0,
        position := s.file.position + (s.file.bytesPerCluster - s.file.clusterOffset) } } := by
  simp [seekLoop, subChecked, hlt, hoff, hle, hget]

/-- A pass that reaches the end of the last cluster jumps to the end of the file, with
the offset `size % bytes_per_cluster`, and stays on that cluster. -/
theorem seekLoop_end (hlt : s.file.position < target)
    (hoff : s.file.clusterOffset ≤ s.file.bytesPerCluster)
    (hle : s.file.position + (s.file.bytesPerCluster - s.file.clusterOffset) ≤ target)
    (hget : fat.get s.fat s.file.currentCluster = .ok .endOfChain)
    (hb : 0 < s.file.bytesPerCluster) :
    (seekLoop fat target (fuel + 1)).run s =
      some (.ok (), { s with file := { s.file with
        clusterOffset := s.file.size % s.file.bytesPerCluster, position := s.file.size } }) := by
  simp [seekLoop, subChecked, hlt, hoff, hle, hget, Nat.pos_iff_ne_zero.mp hb]

/-- A pass whose target is inside the current cluster moves the offset to it. -/
theorem seekLoop_inside (hlt : s.file.position < target)
    (hoff : s.file.clusterOffset ≤ s.file.bytesPerCluster)
    (hgt : target < s.file.position + (s.file.bytesPerCluster - s.file.clusterOffset)) :
    (seekLoop fat target (fuel + 1)).run s =
      some (.ok (), { s with file := { s.file with
        clusterOffset := s.file.clusterOffset + (target - s.file.position),
        position := s.file.position + (target - s.file.position) } }) := by
  simp [seekLoop, subChecked, hlt, hoff, Nat.not_le.mpr hgt]

section Chain

variable {cs : List Nat} {d : δ} {f : FatFile}

/-- Whole clusters: from the first byte of cluster `j` of a chain, a seek to at least the
first byte of cluster `j + n` follows `n` links, one pass each. -/
theorem seekLoop_along_chain (hc : IsChain fat t cs) (hb : 0 < f.bytesPerCluster) {j : Nat}
    (hj : j < cs.length) (hcur : f.currentCluster = cs[j]) (hoff : f.clusterOffset = 0)
    (hpos : f.position = j * f.bytesPerCluster) :
    ∀ n (h : j + n < cs.length), (j + n) * f.bytesPerCluster ≤ target → ∀ fuel,
      (seekLoop fat target (fuel + n)).run ⟨t, f, d⟩ =
        (seekLoop fat target fuel).run ⟨t, { f with
          currentCluster := cs[j + n], clusterOffset := 0,
          position := (j + n) * f.bytesPerCluster }, d⟩
  | 0, _, _, _ => by
    obtain ⟨_, _, _, _, _, _⟩ := f
    simp only at hcur hoff hpos
    subst hcur hoff hpos
    rfl
  | n + 1, h, hle, fuel => by
    have hstep : (j + (n + 1)) * f.bytesPerCluster =
        (j + n) * f.bytesPerCluster + f.bytesPerCluster := Nat.succ_mul _ _
    -- the first `n` links, then the pass from cluster `j + n` to the next
    rw [show fuel + (n + 1) = fuel + 1 + n by omega,
      seekLoop_along_chain hc hb hj hcur hoff hpos n (by omega) (by omega) (fuel + 1),
      seekLoop_skip (by simp; omega) (by simp) (by simp; omega) (hc.get_next (j + n) h), hstep]
    rfl

/-- From a fresh file, the loop of a seek to at least the first byte of cluster `k`
follows `k` links with the fuel `seek` gives it, and keeps a pass of fuel. -/
theorem seekLoop_new_along_chain {first size bpc k : Nat} {rest : List Nat}
    (hc : IsChain fat t (first :: rest)) (hb : 0 < bpc) (hk : k < rest.length + 1)
    (hle : k * bpc ≤ target) :
    (seekLoop fat target (target + 2)).run ⟨t, ⟨first, 0, size, bpc, first, 0⟩, d⟩ =
      (seekLoop fat target (target + 1 - k + 1)).run
        ⟨t, ⟨first, k * bpc, size, bpc, (first :: rest)[k], 0⟩, d⟩ := by
  -- each link costs one unit of fuel and moves the position a whole cluster, so `k` links
  -- leave at least one unit
  have hfuel : target + 2 = (target + 1 - k + 1) + k := by
    have := Nat.le_mul_of_pos_right k hb
    omega
  rw [hfuel, seekLoop_along_chain hc hb (j := 0) (by simp) rfl rfl (by simp) k (by simpa using hk)
    (by simpa using hle)]
  simp

/-- A seek that does not move back is its loop, run with the target's fuel. -/
theorem seek_run_of_le {r : FileSys τ δ} (h : s.file.position ≤ target)
    (hle : target ≤ s.file.size) (hloop : (seekLoop fat target (target + 2)).run s = some (.ok (), r)) :
    (seek fat target).run s = some (.ok r.file.position, r) := by
  have hlt : ¬ target < s.file.position := Nat.not_lt.mpr h
  simp only [seek, run_bind, run_getFile, Nat.min_eq_left hle, hlt, if_false, run_pure, hloop]

/-- From a file fresh from `FatFile::new`, a seek to the first byte of cluster `n` of its
chain lands there. -/
theorem seek_new_boundary {first size bpc n : Nat} {rest : List Nat}
    (hc : IsChain fat t (first :: rest)) (hb : 0 < bpc)
    (hnew : new fat t first size bpc = .ok f) (hn : n < (first :: rest).length)
    (hsize : n * bpc ≤ size) :
    (seek fat (n * bpc)).run ⟨t, f, d⟩ = some (.ok (n * bpc), ⟨t, { f with
      currentCluster := (first :: rest)[n], position := n * bpc }, d⟩) := by
  obtain rfl := new_eq_ok hnew
  -- the whole clusters up to cluster `n`, then the pass that finds the target reached
  have hloop : (seekLoop fat (n * bpc) (n * bpc + 2)).run
      ⟨t, ⟨first, 0, size, bpc, first, 0⟩, d⟩ =
        some (.ok (), ⟨t, ⟨first, n * bpc, size, bpc, (first :: rest)[n], 0⟩, d⟩) := by
    rw [seekLoop_new_along_chain hc hb (by simpa using hn) le_rfl, seekLoop_done (by simp)]
  rw [seek_run_of_le (by simp) hsize hloop]

/-- From a file fresh from `FatFile::new` whose size is its chain in whole clusters, a
seek to the end lands on the last cluster, at offset `size % bytes_per_cluster`, which is
the offset `0` the file started with. -/
theorem seek_new_end {first bpc : Nat} {rest : List Nat} (hc : IsChain fat t (first :: rest))
    (hb : 0 < bpc) (hnew : new fat t first ((rest.length + 1) * bpc) bpc = .ok f) :
    (seek fat ((rest.length + 1) * bpc)).run ⟨t, f, d⟩ =
      some (.ok ((rest.length + 1) * bpc), ⟨t, { f with
        currentCluster := (first :: rest)[rest.length], position := (rest.length + 1) * bpc }, d⟩) := by
  obtain rfl := new_eq_ok hnew
  have hstep : (rest.length + 1) * bpc = rest.length * bpc + bpc := Nat.succ_mul _ _
  -- the whole clusters up to the last, then the pass that finds the end of the chain
  have hloop : (seekLoop fat ((rest.length + 1) * bpc) ((rest.length + 1) * bpc + 2)).run
      ⟨t, ⟨first, 0, (rest.length + 1) * bpc, bpc, first, 0⟩, d⟩ =
        some (.ok (), ⟨t, ⟨first, (rest.length + 1) * bpc, (rest.length + 1) * bpc, bpc,
          (first :: rest)[rest.length], 0⟩, d⟩) := by
    rw [seekLoop_new_along_chain (k := rest.length) hc hb (by simp) (by omega),
      seekLoop_end (by simp; omega) (by simp) (by simp; omega) (hc.get_last _ (by simp)) hb]
    simp
  rw [seek_run_of_le (by simp) (by simp) hloop]

/-- Everywhere before the end of the chain, a seek from the start of a fresh file leaves
a consistent cursor. -/
theorem seek_new_consistent {first size bpc p : Nat} {rest : List Nat}
    (hc : IsChain fat t (first :: rest)) (hb : 0 < bpc) (hnew : new fat t first size bpc = .ok f)
    (hp : p ≤ size) (hlt : p < (rest.length + 1) * bpc) :
    ∃ f', (seek fat p).run ⟨t, f, d⟩ = some (.ok p, ⟨t, f', d⟩) ∧ f'.Consistent fat t := by
  obtain rfl := new_eq_ok hnew
  -- `p` is `k` whole clusters and `r` bytes of cluster `k`
  obtain ⟨k, r, rfl, hr⟩ : ∃ k r, p = k * bpc + r ∧ r < bpc :=
    ⟨p / bpc, p % bpc, (Nat.div_add_mod' p bpc).symm, Nat.mod_lt _ hb⟩
  have hk : k < (first :: rest).length := by
    have : k * bpc < (rest.length + 1) * bpc := by omega
    simpa using Nat.lt_of_mul_lt_mul_right this
  -- the whole clusters up to cluster `k`, then a pass that stops inside it
  have hloop : (seekLoop fat (k * bpc + r) (k * bpc + r + 2)).run
      ⟨t, ⟨first, 0, size, bpc, first, 0⟩, d⟩ =
        some (.ok (), ⟨t, ⟨first, k * bpc + r, size, bpc, (first :: rest)[k], r⟩, d⟩) := by
    rw [seekLoop_new_along_chain hc hb (by simpa using hk) (by omega)]
    rcases Nat.eq_zero_or_pos r with rfl | hr₀
    · rw [seekLoop_done (by simp)]
      rfl
    · rw [seekLoop_inside (by simp; omega) (by simp) (by simp; omega)]
      simp
  refine ⟨_, seek_run_of_le (by simp) hp hloop, ?_⟩
  exact consistent_of_offset_lt (k := k) hr rfl hp (by simp [nthCluster_of_isChain hc]) rfl

/-- A truncation to a non-zero size below the file's, whose seek lands on the end of the
chain, changes no entry: it only sets the size. -/
theorem truncate_run_of_end {newSize p : Nat} {s r : FileSys τ δ} (hlt : newSize < s.file.size)
    (hpos : 0 < newSize) (hseek : (seek fat newSize).run s = some (.ok p, r))
    (hget : fat.get r.fat r.file.currentCluster = .ok .endOfChain) :
    (truncate fat newSize).run s = some (.ok (), { r with file := { r.file with
      size := newSize,
      position := if r.file.position > newSize then newSize else r.file.position } }) := by
  simp [truncate, Nat.not_le.mpr hlt, Nat.pos_iff_ne_zero.mp hpos, hseek, hget]

end Chain

/-- A file of two clusters of four bytes, seeked to byte `5`, inside its second cluster. -/
theorem seek_new_consistent_two_clusters :
    ∃ f', (seek FatTable.entries 5).run ⟨twoClusters, ⟨2, 0, 8, 4, 2, 0⟩, ()⟩ =
        some (.ok 5, ⟨twoClusters, f', ()⟩) ∧ f'.Consistent FatTable.entries twoClusters :=
  seek_new_consistent (show IsChain FatTable.entries twoClusters [2, 3] from ⟨rfl, rfl⟩)
    (show 0 < 4 by decide) rfl (show 5 ≤ 8 by decide) (show 5 < ([3].length + 1) * 4 by decide)

/-! ## §4 The Boundary of the Last Cluster -/

theorem seek_to_end_breaks_cursor {first bpc : Nat} {rest : List Nat} {f : FatFile} {d : δ}
    (hc : IsChain fat t (first :: rest)) (hb : 0 < bpc)
    (hnew : new fat t first ((rest.length + 1) * bpc) bpc = .ok f) :
    ∃ f', (seek fat ((rest.length + 1) * bpc)).run ⟨t, f, d⟩ =
        some (.ok ((rest.length + 1) * bpc), ⟨t, f', d⟩) ∧
      f.Consistent fat t ∧ ¬ f'.Consistent fat t := by
  refine ⟨_, seek_new_end hc hb hnew, consistent_new hnew, ?_⟩
  obtain rfl := new_eq_ok hnew
  -- the position is `rest.length + 1` whole clusters, one past the last cluster
  have hdiv : (rest.length + 1) * bpc / bpc = rest.length + 1 := Nat.mul_div_cancel _ hb
  rintro ⟨-, ⟨hnth, -⟩ | ⟨-, -, -, hoff⟩⟩
  · simp [hdiv, nthCluster_of_isChain hc] at hnth
  · simp at hoff
    omega

/-- A file of two clusters of four bytes, seeked to its end. -/
theorem seek_to_end_breaks_cursor_two_clusters :
    ∃ f', (seek FatTable.entries 8).run ⟨twoClusters, ⟨2, 0, 8, 4, 2, 0⟩, ()⟩ =
        some (.ok 8, ⟨twoClusters, f', ()⟩) ∧
      (⟨2, 0, 8, 4, 2, 0⟩ : FatFile).Consistent FatTable.entries twoClusters ∧
      ¬ f'.Consistent FatTable.entries twoClusters :=
  seek_to_end_breaks_cursor (show IsChain FatTable.entries twoClusters [2, 3] from ⟨rfl, rfl⟩)
    (show 0 < 4 by decide) rfl

theorem truncate_keeps_boundary_cluster {first c bpc : Nat} {rest : List Nat} {f : FatFile}
    {d : δ} (hc : IsChain fat t (first :: c :: rest)) (hb : 0 < bpc)
    (hnew : new fat t first ((rest.length + 2) * bpc) bpc = .ok f) :
    ∃ f', (truncate fat ((rest.length + 1) * bpc)).run ⟨t, f, d⟩ = some (.ok (), ⟨t, f', d⟩) ∧
      f'.firstCluster = first ∧ f'.size = (rest.length + 1) * bpc ∧
      (f'.size + bpc - 1) / bpc + 1 = (first :: c :: rest).length := by
  have hstep : (rest.length + 2) * bpc = (rest.length + 1) * bpc + bpc := Nat.succ_mul _ _
  -- the new end is the first byte of the last cluster, where the seek lands
  have hseek := seek_new_boundary (d := d) hc hb hnew (n := rest.length + 1) (by simp)
    (by omega)
  obtain rfl := new_eq_ok hnew
  refine ⟨_, truncate_run_of_end (by simp; omega) ?_ hseek (hc.get_last _ (by simp)), rfl, rfl, ?_⟩
  · exact Nat.mul_pos (Nat.succ_pos _) hb
  · -- the claimed count, the new size in clusters rounded up, is one short of the chain
    have hround : (rest.length + 1) * bpc + bpc - 1 = (bpc - 1) + bpc * (rest.length + 1) := by
      rw [Nat.mul_comm]
      omega
    show ((rest.length + 1) * bpc + bpc - 1) / bpc + 1 = rest.length + 2
    rw [hround, Nat.add_mul_div_left _ _ hb, Nat.div_eq_of_lt (by omega)]
    omega

/-- The file of two clusters of four bytes, truncated to four bytes. -/
theorem truncate_keeps_boundary_cluster_two_clusters :
    ∃ f', (truncate FatTable.entries 4).run ⟨twoClusters, ⟨2, 0, 8, 4, 2, 0⟩, ()⟩ =
        some (.ok (), ⟨twoClusters, f', ()⟩) ∧
      f'.firstCluster = 2 ∧ f'.size = 4 ∧ (f'.size + 4 - 1) / 4 + 1 = [2, 3].length :=
  truncate_keeps_boundary_cluster
    (show IsChain FatTable.entries twoClusters [2, 3] from ⟨rfl, rfl⟩) (show 0 < 4 by decide) rfl

end FatFile

end Beskar.Storage.Fat
