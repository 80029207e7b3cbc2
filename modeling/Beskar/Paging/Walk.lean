import Beskar.Lib.TableTree
import Beskar.Paging.PageTable

/-!
# Paging: the Tree of a Page Table

The tables of a `PageTable` form a tree in the sense of `Lib.TableTree`: an entry of a
table of level 4 to 2 leads to the table in its frame when it is present and not a huge
page (`Entry.child?`), and the walk of `translate_addr` stops at the entry that maps the
address (`Entry.leaf?`).  This module says what a well-formed page table is and connects
the walks of the mappers to the tree.

## Contents

- §1 the indices of canonical addresses: two canonical addresses with the same indices
  from the level of a page up lie in the same page of that size.
- §2 `PageTable.Wf`: no frame holds two tables, and every leaf entry that is not null is
  present; `PageTable.Fresh`: the frames of an allocator are distinct and hold no table.
- §3 `translateAddr_eq`: `translate_addr` is the lookup of the tree; `walk_eq_ok_iff`:
  the walks of `unmap`, `update_flags` and `translate` follow paths of the tree.
- §4 a write that keeps where an entry leads keeps the tree; a write at the leaf slot of a
  page changes the translation of no address outside the page.
- §5 pointing an entry at a new, cleared table adds one table to the tree and changes no
  translation.
-/

namespace Beskar.Paging

open Beskar.Lib

/-! ## §1 Indices of Canonical Addresses -/

/-- An address at level `ℓ`: its index there, and what lies above. -/
theorem div_levelSize_eq (x : Nat) {ℓ : Nat} (hℓ : 1 ≤ ℓ) :
    x / levelSize ℓ = (index ℓ x).val + 512 * (x / levelSize (ℓ + 1)) := by
  have hsucc : levelSize (ℓ + 1) = levelSize ℓ * 512 := by
    unfold levelSize
    rw [show 12 + 9 * (ℓ + 1 - 1) = 12 + 9 * (ℓ - 1) + 9 by omega, pow_add]
    rfl
  rw [hsucc, ← Nat.div_div_eq_div_mul]
  exact (Nat.mod_add_div _ 512).symm

/-- Above bit 48 a canonical address copies bit 47, the top bit of its level-4 index. -/
theorem canonical_div_levelSize_five {x : Nat} (hx : Arch.canonicalize x = x) :
    x / levelSize 5 = if (index 4 x).val < 256 then 0 else 2 ^ 16 - 1 := by
  have hlt := Arch.canonicalize_lt x
  show x / 2 ^ 48 = if x / 2 ^ 39 % 512 < 256 then 0 else 2 ^ 16 - 1
  unfold Arch.canonicalize at hx hlt
  split_ifs at hx hlt <;> split_ifs <;> omega

/-- Canonical addresses with the same indices from level `L` up agree above level `L`. -/
theorem div_levelSize_eq_of_index_eq {x y L : Nat} (hx : Arch.canonicalize x = x)
    (hy : Arch.canonicalize y = y) (hL : 1 ≤ L) (hL4 : L ≤ 4)
    (h : ∀ ℓ, L ≤ ℓ → ℓ ≤ 4 → index ℓ x = index ℓ y) : x / levelSize L = y / levelSize L := by
  -- From level 5 down to `L`, one index at a time.
  suffices hm : ∀ m, L + m ≤ 5 → x / levelSize (5 - m) = y / levelSize (5 - m) by
    have := hm (5 - L) (by omega)
    rwa [show 5 - (5 - L) = L by omega] at this
  intro m hm
  induction m with
  | zero =>
    rw [Nat.sub_zero, canonical_div_levelSize_five hx, canonical_div_levelSize_five hy,
      h 4 hL4 le_rfl]
  | succ m ih =>
    have hℓ : 5 - (m + 1) + 1 = 5 - m := by omega
    rw [div_levelSize_eq x (by omega), div_levelSize_eq y (by omega), hℓ, ih (by omega),
      h (5 - (m + 1)) (by omega) (by omega)]

/-- An address lies in a page when it agrees with the page's start above the page's size. -/
theorem mem_page_iff {S : PageSize} (page : Page S) (a : Nat) :
    (page.start ≤ a ∧ a < page.start + S.size) ↔ a / S.size = page.start / S.size := by
  obtain ⟨q, hq⟩ := Nat.dvd_of_mod_eq_zero page.aligned
  have hpos : 0 < S.size := levelSize_pos _
  rw [hq, Nat.mul_div_cancel_left q hpos, Nat.mul_comm]
  constructor
  · rintro ⟨h₁, h₂⟩
    have hle : q ≤ a / S.size := (Nat.le_div_iff_mul_le hpos).mpr h₁
    have hlt : a / S.size < q + 1 :=
      (Nat.div_lt_iff_lt_mul hpos).mpr (by rw [Nat.add_mul, one_mul]; exact h₂)
    omega
  · intro h
    have hle := Nat.div_mul_le_self a S.size
    have hlt : a < (a / S.size + 1) * S.size :=
      (Nat.div_lt_iff_lt_mul hpos).mp (Nat.lt_succ_self _)
    rw [h, Nat.add_mul, one_mul] at hlt
    rw [h] at hle
    exact ⟨hle, hlt⟩

namespace PageTable

/-! ## §2 The Tree, and Well-Formed Page Tables -/

/-- The tables of the page table with their levels: the tree below the level-4 table. -/
def tables (pt : PageTable) : List (Nat × Nat) := TableTree.tables Entry.child? pt.mem 4 pt.root

/-- The frames that hold the tables. -/
def frames (pt : PageTable) : List Nat := TableTree.frames Entry.child? pt.mem 4 pt.root

/-- What the walk of `translate_addr` finds for an address: the leaf entry and its level. -/
def lookup (pt : PageTable) (a : Nat) : Option (Nat × Entry) :=
  TableTree.lookup Entry.child? Entry.leaf? pt.mem index a 4 pt.root

/-- `pt.PathTo v L t`: the indices of `v` lead from the level-4 table to the table `t` of
level `L`. -/
def PathTo (pt : PageTable) (v L t : Nat) : Prop :=
  TableTree.PathTo Entry.child? pt.mem index v L (4 - L) pt.root t

/-- A well-formed page table. -/
structure Wf (pt : PageTable) : Prop where
  /-- Every leaf entry of the tree is null or present. -/
  leaves : ∀ q ∈ pt.tables, ∀ i, (pt.mem q.2 i).LeafOk q.1
  /-- No frame holds two tables. -/
  nodup : pt.frames.Nodup

instance (pt : PageTable) : Decidable pt.Wf :=
  decidable_of_iff ((∀ q ∈ pt.tables, ∀ i, (pt.mem q.2 i).LeafOk q.1) ∧ pt.frames.Nodup)
    ⟨fun ⟨h₁, h₂⟩ => ⟨h₁, h₂⟩, fun ⟨h₁, h₂⟩ => ⟨h₁, h₂⟩⟩

/-- A frame allocator that returns fresh frames: distinct, and none holds a table. -/
structure Fresh (pt : PageTable) (alloc : FrameAllocator) : Prop where
  nodup : (alloc.map Frame.start).Nodup
  not_mem : ∀ f ∈ alloc, f.start ∉ pt.frames

theorem write_mem (pt : PageTable) (t : Nat) (i : Fin 512) (e : Entry) :
    (pt.write t i e).mem = TableTree.write pt.mem t i e := rfl

theorem frames_eq (pt : PageTable) : pt.frames = pt.tables.map Prod.snd := rfl

/-- The page table whose level-4 table, like every frame, holds `Entries::EMPTY`. -/
def empty (root : Nat) : PageTable := ⟨root, fun _ _ => Entry.empty⟩

theorem tables_empty (root : Nat) : (empty root).tables = [(4, root)] :=
  TableTree.tables_of_forall_child_none fun _ => Entry.empty_child? _

/-- The empty page table is well formed. -/
theorem wf_empty (root : Nat) : (empty root).Wf where
  leaves _ _ _ := Entry.empty_leafOk _
  nodup := by
    rw [frames_eq, tables_empty]
    exact List.nodup_singleton _

/-- The frames of an allocator are fresh for the empty page table when they are distinct
and none is its level-4 table. -/
theorem fresh_empty_iff (root : Nat) (alloc : FrameAllocator) :
    (empty root).Fresh alloc ↔ (alloc.map Frame.start).Nodup ∧ ∀ f ∈ alloc, f.start ≠ root := by
  have hframes : (empty root).frames = [root] := by rw [frames_eq, tables_empty]; rfl
  constructor
  · rintro ⟨hnd, hnot⟩
    exact ⟨hnd, fun f hf h => hnot f hf (by rw [hframes, h]; exact List.mem_singleton_self _)⟩
  · rintro ⟨hnd, hne⟩
    exact ⟨hnd, fun f hf h => hne f hf (by rw [hframes] at h; exact List.mem_singleton.mp h)⟩

variable {pt : PageTable}

theorem Wf.level_eq (hw : pt.Wf) {L L' s : Nat} (h : (L, s) ∈ pt.tables)
    (h' : (L', s) ∈ pt.tables) : L = L' :=
  TableTree.Nodup.level_eq hw.nodup h h'

/-- The table a path from the level-4 table ends at is in the tree, at its level. -/
theorem PathTo.mem_tables {v L t : Nat} (h : pt.PathTo v L t) (hL : 1 ≤ L) (hL4 : L ≤ 4) :
    (L, t) ∈ pt.tables := by
  obtain ⟨L, rfl⟩ : ∃ L', L = L' + 1 := ⟨L - 1, by omega⟩
  have := TableTree.PathTo.mem_tables h
  rwa [show L + 1 + (4 - (L + 1)) = 4 by omega] at this

/-- Going on from the end of a path through an entry that leads to a table. -/
theorem PathTo.snoc {v L t u : Nat} (h : pt.PathTo v (L + 1) t) (hL4 : L + 1 ≤ 4)
    (hu : (pt.mem t (index (L + 1) v)).child? (L + 1) = some u) : pt.PathTo v L u := by
  have := TableTree.PathTo.snoc h hu
  unfold PathTo
  rwa [show 4 - L = 4 - (L + 1) + 1 by omega]

/-! ## §3 Translations and Walks -/

section Walks

variable (pt : PageTable) (a : Nat)

/-- The level-4 table: go on through `next`. -/
theorem through_four (x : Entry) :
    TableTree.through Entry.child? Entry.leaf? pt.mem index a 3 x =
      match x.next with
      | .ok u => TableTree.lookup Entry.child? Entry.leaf? pt.mem index a 3 u
      | .error _ => none := by
  cases hp : x.isPresent <;> cases hl : x.isLarge <;>
    simp [TableTree.through, Entry.child?, Entry.leaf?, Entry.next, hp, hl]

/-- The tables of level 3 and 2: a present huge page is the leaf, otherwise go on through
`next`. -/
theorem through_huge {ℓ : Nat} (hℓ : ℓ = 1 ∨ ℓ = 2) (x : Entry) :
    TableTree.through Entry.child? Entry.leaf? pt.mem index a ℓ x =
      if x.isPresent && x.isLarge then some (ℓ + 1, x)
      else match x.next with
        | .ok u => TableTree.lookup Entry.child? Entry.leaf? pt.mem index a ℓ u
        | .error _ => none := by
  have h₁ : 2 ≤ ℓ + 1 := by omega
  have h₂ : ℓ + 1 ≤ 3 := by omega
  cases hp : x.isPresent <;> cases hl : x.isLarge <;>
    simp [TableTree.through, Entry.child?, Entry.leaf?, Entry.next, hp, hl, h₁, h₂]

/-- The level-1 table: a present entry is the leaf. -/
theorem through_one (x : Entry) :
    TableTree.through Entry.child? Entry.leaf? pt.mem index a 0 x =
      if x.isPresent then some (1, x) else none := by
  simp [TableTree.through, Entry.leaf?]

end Walks

/-- `translate_addr` is the lookup of the tree, with the offset in the page added to the
leaf's frame and the sum truncated to 52 bits. -/
theorem translateAddr_eq (pt : PageTable) (addr : Arch.VirtAddr) :
    pt.translateAddr addr = (pt.lookup addr.raw).map fun x =>
      ((x.2.addr + addr.raw % levelSize x.1) % 2 ^ 52, x.2.flags) := by
  unfold translateAddr lookup
  dsimp only
  rw [TableTree.lookup_succ, through_four]
  rcases (pt.mem pt.root (index 4 addr.raw)).next with _ | p3
  · rfl
  dsimp only
  rw [TableTree.lookup_succ, through_huge _ _ (Or.inr rfl)]
  by_cases h3 : ((pt.mem p3 (index 3 addr.raw)).isPresent && (pt.mem p3 (index 3 addr.raw)).isLarge) = true
  · simp [h3]
  rw [if_neg h3, if_neg h3]
  rcases (pt.mem p3 (index 3 addr.raw)).next with _ | p2
  · rfl
  dsimp only
  rw [TableTree.lookup_succ, through_huge _ _ (Or.inl rfl)]
  by_cases h2 : ((pt.mem p2 (index 2 addr.raw)).isPresent && (pt.mem p2 (index 2 addr.raw)).isLarge) = true
  · simp [h2]
  rw [if_neg h2, if_neg h2]
  rcases (pt.mem p2 (index 2 addr.raw)).next with _ | p1
  · rfl
  dsimp only
  rw [TableTree.lookup_succ, through_one]
  cases (pt.mem p1 (index 1 addr.raw)).isPresent <;> rfl

/-- The walks of `unmap`, `update_flags` and `translate` follow the paths of the tree. -/
theorem walk_eq_ok_iff (pt : PageTable) {v L : Nat} (hL : 1 ≤ L) {k t u : Nat} :
    pt.walk v L k t = .ok u ↔ TableTree.PathTo Entry.child? pt.mem index v L k t u := by
  induction k generalizing t with
  | zero => simp [walk, TableTree.pathTo_zero]
  | succ k ih =>
    rw [TableTree.pathTo_succ]
    unfold walk
    rcases hn : (pt.mem t (index (L + k + 1) v)).next with e | w
    · simp only [reduceCtorEq, false_iff, not_exists, not_and]
      intro w hw
      rw [← Entry.next_eq_ok_iff (by omega), hn] at hw
      cases hw
    · dsimp only
      rw [ih]
      constructor
      · exact fun h => ⟨w, (Entry.next_eq_ok_iff (by omega)).mp hn, h⟩
      · rintro ⟨w', hw', h⟩
        rw [← Entry.next_eq_ok_iff (by omega), hn] at hw'
        cases hw'
        exact h

/-- What `translate` gives for a page whose path ends at the table `t`. -/
theorem translateWith_of_pathTo {S : PageSize} {page : Page S} {t : Nat}
    (h : pt.PathTo page.start S.level t) :
    translateWith S pt page =
      if (pt.mem t (index S.level page.start)).isPresent then
        some (Frame.containingAddress S (pt.mem t (index S.level page.start)).addr,
          (pt.mem t (index S.level page.start)).flags)
      else none := by
  unfold translateWith
  rw [(walk_eq_ok_iff pt S.level_pos).mpr h]

/-! ## §4 Writes -/

/-- A write that keeps where the entry leads keeps the tree. -/
theorem tables_write (hw : pt.Wf) {L s : Nat} {i : Fin 512} {e : Entry}
    (hs : (L, s) ∈ pt.tables) (hc : e.child? L = (pt.mem s i).child? L) :
    (pt.write s i e).tables = pt.tables :=
  TableTree.tables_write fun L' hL' => by rw [← hw.level_eq hs hL']; exact hc

theorem frames_write (hw : pt.Wf) {L s : Nat} {i : Fin 512} {e : Entry}
    (hs : (L, s) ∈ pt.tables) (hc : e.child? L = (pt.mem s i).child? L) :
    (pt.write s i e).frames = pt.frames := by
  rw [frames_eq, frames_eq, tables_write hw hs hc]

/-- A write that keeps where the entry leads, and writes a good leaf, keeps the page table
well formed. -/
theorem Wf.write (hw : pt.Wf) {L s : Nat} {i : Fin 512} {e : Entry}
    (hs : (L, s) ∈ pt.tables) (hc : e.child? L = (pt.mem s i).child? L) (hleaf : e.LeafOk L) :
    (pt.write s i e).Wf where
  leaves q hq j := by
    rw [tables_write hw hs hc] at hq
    by_cases hsj : q.2 = s ∧ j = i
    · obtain ⟨hq2, rfl⟩ := hsj
      have hL : q.1 = L := hw.level_eq (by rw [← hq2]; exact hq) hs
      rw [write_mem, hq2, hL, TableTree.write_self]
      exact hleaf
    · rw [write_mem, TableTree.write_of_ne hsj]
      exact hw.leaves q hq j
  nodup := by
    rw [frames_write hw hs hc]
    exact hw.nodup

theorem Fresh.of_frames_eq {pt' : PageTable} {alloc : FrameAllocator} (hf : pt.Fresh alloc)
    (h : pt'.frames = pt.frames) : pt'.Fresh alloc :=
  ⟨hf.nodup, fun f hfa => by rw [h]; exact hf.not_mem f hfa⟩

/-- A write in the last table of a path keeps the path. -/
theorem PathTo.write (hw : pt.Wf) {v L t : Nat} (h : pt.PathTo v L t) (hL : 1 ≤ L)
    (hL4 : L ≤ 4) (i : Fin 512) (e : Entry) : (pt.write t i e).PathTo v L t := by
  obtain ⟨L, rfl⟩ : ∃ L', L = L' + 1 := ⟨L - 1, by omega⟩
  have hnd : (TableTree.frames Entry.child? pt.mem (L + 1 + (4 - (L + 1))) pt.root).Nodup := by
    rw [show L + 1 + (4 - (L + 1)) = 4 by omega]
    exact hw.nodup
  exact TableTree.PathTo.write_last hnd h

/-- A write that keeps where the entry leads and what it is as a leaf leaves every
lookup. -/
theorem lookup_write_of_view_eq (hw : pt.Wf) {L s : Nat} {i : Fin 512} {e : Entry}
    (hs : (L, s) ∈ pt.tables) (hc : e.child? L = (pt.mem s i).child? L)
    (hl : e.leaf? L = (pt.mem s i).leaf? L) (a : Nat) : (pt.write s i e).lookup a = pt.lookup a :=
  TableTree.lookup_write_of_view_eq fun L' hL' => by
    rw [← hw.level_eq hs hL']
    exact ⟨hc, hl⟩

/-- A write at the leaf slot of a page changes the lookup of no canonical address outside
the page: an address whose path reads the slot has the page's indices down to the page's
level, and so lies in the page. -/
theorem lookup_write_outside (hw : pt.Wf) {S : PageSize} {page : Page S} {t : Nat}
    (hp : pt.PathTo page.start S.level t) {a : Nat} (ha : Arch.canonicalize a = a)
    (hout : ¬ (page.start ≤ a ∧ a < page.start + S.size)) (e : Entry) :
    (pt.write t (index S.level page.start) e).lookup a = pt.lookup a := by
  refine TableTree.lookup_write_of_not_pathTo fun L k hLk hpa hidx => hout ?_
  have hS1 := S.level_pos
  have hS3 := S.level_le
  -- The address reaches `t` at its level, which is the page's level.
  have htL : (L + 1, t) ∈ pt.tables := by
    have := TableTree.PathTo.mem_tables hpa
    rwa [hLk] at this
  have hL : L + 1 = S.level := hw.level_eq htL (hp.mem_tables hS1 (by omega))
  obtain rfl : k = 4 - S.level := by omega
  have hpa' : TableTree.PathTo Entry.child? pt.mem index a (L + 1) (4 - S.level) pt.root t := hpa
  have hp' : TableTree.PathTo Entry.child? pt.mem index page.start (L + 1) (4 - S.level) pt.root t := by
    rw [hL]
    exact hp
  have hnd : (TableTree.frames Entry.child? pt.mem (L + 1 + (4 - S.level)) pt.root).Nodup := by
    rw [hLk]
    exact hw.nodup
  -- Both paths go through the same tables, so the indices agree above the page's level.
  have hidx' := TableTree.PathTo.idx_eq hnd hpa' hp'
  refine (mem_page_iff page a).mpr (div_levelSize_eq_of_index_eq ha page.canonical hS1
    (by omega) fun ℓ h₁ h₂ => ?_)
  rcases Nat.lt_or_ge S.level ℓ with hlt | hge
  · exact hidx' ℓ (by omega) (by omega)
  · obtain rfl : ℓ = S.level := by omega
    rw [← hL] at hidx ⊢
    exact hidx

/-! ## §5 New Tables -/

theorem clear_write_comm {s u : Nat} (h : u ≠ s) (i : Fin 512) (e : Entry) :
    (pt.write s i e).clear u = (pt.clear u).write s i e := by
  unfold write clear
  congr 1
  funext x j
  by_cases hxu : x = u
  · subst hxu
    simp [Function.update_of_ne h]
  · by_cases hxs : x = s
    · subst hxs
      simp [Function.update_of_ne hxu]
    · simp [Function.update_of_ne hxu, Function.update_of_ne hxs]

section Clear

variable {u : Nat} (hu : u ∉ pt.frames)
include hu

theorem clear_agree : ∀ s ∈ pt.frames, (pt.clear u).mem s = pt.mem s := fun s hs =>
  Function.update_of_ne (fun h : s = u => hu (by rw [← h]; exact hs)) _ _

theorem tables_clear : (pt.clear u).tables = pt.tables :=
  TableTree.tables_congr_of_eq (clear_agree hu)

theorem frames_clear : (pt.clear u).frames = pt.frames := by
  rw [frames_eq, frames_eq, tables_clear hu]

theorem lookup_clear (a : Nat) : (pt.clear u).lookup a = pt.lookup a :=
  TableTree.lookup_congr (clear_agree hu)

theorem Wf.clear (hw : pt.Wf) : (pt.clear u).Wf where
  leaves q hq i := by
    rw [tables_clear hu] at hq
    rw [clear_agree hu q.2 (TableTree.mem_frames_of_mem_tables hq)]
    exact hw.leaves q hq i
  nodup := by
    rw [frames_clear hu]
    exact hw.nodup

theorem PathTo.clear {v L t : Nat} (h : pt.PathTo v L t) (hL4 : L ≤ 4) :
    (pt.clear u).PathTo v L t := by
  refine TableTree.PathTo.congr ?_ h
  rw [show L + (4 - L) = 4 by omega]
  exact clear_agree hu

end Clear

/-! Pointing the entry `i` of the table `s` of level `L + 1`, which led nowhere, at a new
table in a frame `u` that holds no table, and clearing that table, as `next_or_create`
does. -/

section Create

variable {L s u : Nat} {i : Fin 512} {e : Entry}

theorem ne_of_not_mem_frames (hs : (L, s) ∈ pt.tables) (hu : u ∉ pt.frames) : u ≠ s :=
  fun h => hu (h ▸ TableTree.mem_frames_of_mem_tables hs)

/-- The tree gains the new table. -/
theorem tables_create (hw : pt.Wf) (hL : 1 ≤ L) (hs : (L + 1, s) ∈ pt.tables)
    (hi : (pt.mem s i).child? (L + 1) = none) (he : e.child? (L + 1) = some u)
    (hu : u ∉ pt.frames) : ((pt.write s i e).clear u).tables.Perm ((L, u) :: pt.tables) := by
  have hus := ne_of_not_mem_frames hs hu
  rw [clear_write_comm hus]
  have hs₀ : (L + 1, s) ∈ (pt.clear u).tables := by
    rw [tables_clear hu]
    exact hs
  have hi₀ : ((pt.clear u).mem s i).child? (L + 1) = none := by
    rw [clear_agree hu s (TableTree.mem_frames_of_mem_tables hs)]
    exact hi
  obtain ⟨L, rfl⟩ : ∃ L', L = L' + 1 := ⟨L - 1, by omega⟩
  -- The new table is cleared: a tree of one table.
  have hnew : TableTree.tables Entry.child? (TableTree.write (pt.clear u).mem s i e) (L + 1) u =
      [(L + 1, u)] :=
    TableTree.tables_of_forall_child_none fun j => by
      rw [TableTree.write_of_ne_table hus]
      simp [PageTable.clear]
  have hperm : ((pt.clear u).write s i e).tables.Perm
      (TableTree.tables Entry.child? (TableTree.write (pt.clear u).mem s i e) (L + 1) u ++
        (pt.clear u).tables) :=
    TableTree.tables_write_perm (hw.clear hu).nodup hs₀ hi₀ he
  rwa [hnew, tables_clear hu] at hperm

theorem frames_create (hw : pt.Wf) (hL : 1 ≤ L) (hs : (L + 1, s) ∈ pt.tables)
    (hi : (pt.mem s i).child? (L + 1) = none) (he : e.child? (L + 1) = some u)
    (hu : u ∉ pt.frames) : ((pt.write s i e).clear u).frames.Perm (u :: pt.frames) :=
  (tables_create hw hL hs hi he hu).map Prod.snd

theorem mem_create_new : ((pt.write s i e).clear u).mem u = fun _ => Entry.empty := by
  simp [PageTable.clear]

theorem mem_create_of_ne {x : Nat} (hx : x ≠ u) :
    ((pt.write s i e).clear u).mem x = (pt.write s i e).mem x :=
  Function.update_of_ne hx _ _

/-- The tree stays well formed when the written entry is a good leaf. -/
theorem Wf.create (hw : pt.Wf) (hL : 1 ≤ L) (hs : (L + 1, s) ∈ pt.tables)
    (hi : (pt.mem s i).child? (L + 1) = none) (he : e.child? (L + 1) = some u)
    (hu : u ∉ pt.frames) (hleaf : e.LeafOk (L + 1)) : ((pt.write s i e).clear u).Wf where
  leaves := fun ⟨L', t⟩ hq j => by
    rcases List.mem_cons.mp ((tables_create hw hL hs hi he hu).mem_iff.mp hq) with h | hold
    · obtain ⟨rfl, rfl⟩ := Prod.mk.inj h
      rw [mem_create_new]
      exact Entry.empty_leafOk _
    · have htu : t ≠ u := fun h => hu (h ▸ TableTree.mem_frames_of_mem_tables hold)
      dsimp only
      rw [mem_create_of_ne htu, write_mem]
      by_cases hsj : t = s ∧ j = i
      · obtain ⟨rfl, rfl⟩ := hsj
        rw [hw.level_eq hold hs, TableTree.write_self]
        exact hleaf
      · rw [TableTree.write_of_ne hsj]
        exact hw.leaves _ hold j
  nodup := by
    rw [(frames_create hw hL hs hi he hu).nodup_iff, List.nodup_cons]
    exact ⟨hu, hw.nodup⟩

/-- No translation changes: the new table maps nothing. -/
theorem lookup_create (hw : pt.Wf) (hL : 1 ≤ L) (hs : (L + 1, s) ∈ pt.tables)
    (hi : (pt.mem s i).child? (L + 1) = none) (hi' : (pt.mem s i).leaf? (L + 1) = none)
    (he : e.child? (L + 1) = some u) (hu : u ∉ pt.frames) (a : Nat) :
    ((pt.write s i e).clear u).lookup a = pt.lookup a := by
  obtain ⟨L, rfl⟩ : ∃ L', L = L' + 1 := ⟨L - 1, by omega⟩
  have hus := ne_of_not_mem_frames hs hu
  have hsf := TableTree.mem_frames_of_mem_tables hs
  have hs₀ : (L + 1 + 1, s) ∈ (pt.clear u).tables := by
    rw [tables_clear hu]
    exact hs
  rw [clear_write_comm hus, ← lookup_clear hu a]
  refine TableTree.lookup_write fun L' hL' _ => ?_
  have hLL : L' = L + 1 := Nat.succ.inj ((hw.clear hu).level_eq hL' hs₀)
  subst hLL
  -- Through the entry both answer nothing: before it led nowhere and was no leaf, now it
  -- leads to the cleared table.
  unfold TableTree.through
  rw [he, clear_agree hu s hsf, hi, hi']
  refine TableTree.lookup_of_forall_none fun j => ?_
  rw [TableTree.write_of_ne_table hus]
  simp [PageTable.clear]

/-- Paths to the written table are kept. -/
theorem PathTo.create (hw : pt.Wf) {v : Nat} (hs : (L + 1, s) ∈ pt.tables) (hu : u ∉ pt.frames)
    (h : pt.PathTo v (L + 1) s) (hL4 : L + 1 ≤ 4) :
    ((pt.write s i e).clear u).PathTo v (L + 1) s := by
  rw [clear_write_comm (ne_of_not_mem_frames hs hu)]
  exact (h.clear hu hL4).write (hw.clear hu) (by omega) hL4 i e

end Create

end PageTable

end Beskar.Paging
