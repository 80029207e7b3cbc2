import Mathlib

/-!
# Trees of Tables in Memory

A radix tree kept in memory as tables of `n` entries: `mem t i` is entry `i` of the table
stored at `t`.  An entry of a table of level `ℓ + 1` may lead to a table of level `ℓ`
(`child (ℓ + 1) e`).  A key `v` is looked up from a table of level `ℓ` by following, at
each level, the entry its index `idx ℓ v` of that level selects, down to an entry that
leads nowhere, whose `leaf` view is the answer.

Stored this way the structure is a tree only when no location holds two of its tables,
i.e. when `frames` has no duplicates.  Under that condition a write at one entry changes
nothing but what goes through that entry (`lookup_write_of_not_pathTo`), two keys that
reach one table agree on every index above it (`PathTo.idx_eq`), and pointing an entry
at a new table adds that table's tree and nothing else (`tables_write_perm`).

## Contents

- `tables`, `frames`: the tables of the tree below a table, with their levels, and
  where they are stored.
- `PathTo`: the tables a key goes through; `lookup`, `through`: what a key finds.
- locality (`tables_congr`, `lookup_congr`, `PathTo.congr`), single writes
  (`tables_write`, `lookup_write`, `PathTo.write_last`, `tables_write_perm`), and what
  the absence of duplicates gives (`Nodup.not_mem_child`, `Nodup.disjoint`, ...).

Nothing here mentions a particular tree; the page tables instantiate it.
-/

namespace Beskar.Lib.TableTree

/-! ## §1 A Lemma on Lists -/

/-- Replacing one block `f i` of a concatenation over a list without duplicates by a
permutation of `X ++ f i` puts `X` in front of the concatenation, up to permutation. -/
theorem flatMap_perm_of_update {ι γ : Type} {l : List ι} {f g : ι → List γ} {i : ι}
    {X : List γ} (hl : l.Nodup) (hi : i ∈ l) (hgi : (g i).Perm (X ++ f i))
    (hfg : ∀ j ∈ l, j ≠ i → g j = f j) : (l.flatMap g).Perm (X ++ l.flatMap f) := by
  induction l with
  | nil => exact absurd hi List.not_mem_nil
  | cons a l ih =>
    obtain ⟨ha, hl⟩ := List.nodup_cons.mp hl
    rw [List.flatMap_cons, List.flatMap_cons]
    by_cases hai : a = i
    · subst hai
      have hrest : l.flatMap g = l.flatMap f :=
        List.flatMap_congr fun j hj => hfg j (List.mem_cons_of_mem _ hj) fun h => ha (h ▸ hj)
      rw [hrest, ← List.append_assoc]
      exact hgi.append_right _
    · have hi' : i ∈ l := (List.mem_cons.mp hi).resolve_left (Ne.symm hai)
      rw [hfg a List.mem_cons_self hai]
      exact ((ih hl hi' fun j hj => hfg j (List.mem_cons_of_mem _ hj)).append_left _).trans
        (List.perm_append_comm_assoc _ _ _)

/-! ## §2 Tables, Paths and Lookups -/

section Defs

variable {α E β κ : Type} {n : Nat}
variable (child : Nat → E → Option α) (leaf : Nat → E → Option β) (mem : α → Fin n → E)

/-- The tables below the table `t` of level `ℓ`, with their levels: `t` itself, then the
tables below each entry of `t` that leads to a table. -/
def tables : Nat → α → List (Nat × α)
  | 0, _ => []
  | ℓ + 1, t => (ℓ + 1, t) :: (List.finRange n).flatMap fun i =>
      match child (ℓ + 1) (mem t i) with
      | some u => tables ℓ u
      | none => []

/-- Where the tables below `t` are stored. -/
def frames (ℓ : Nat) (t : α) : List α := (tables child mem ℓ t).map Prod.snd

variable (idx : Nat → κ → Fin n) (v : κ)

/-- `PathTo child mem idx v L k t u`: following the indices of `v` for `k` levels from the
table `t` of level `L + k` leads to the table `u` of level `L`. -/
def PathTo (L : Nat) : Nat → α → α → Prop
  | 0, t, u => t = u
  | k + 1, t, u => ∃ w, child (L + k + 1) (mem t (idx (L + k + 1) v)) = some w ∧ PathTo L k w u

/-- What the key `v` finds from the table `t` of level `ℓ`. -/
def lookup : Nat → α → Option β
  | 0, _ => none
  | ℓ + 1, t =>
    match child (ℓ + 1) (mem t (idx (ℓ + 1) v)) with
    | some u => lookup ℓ u
    | none => leaf (ℓ + 1) (mem t (idx (ℓ + 1) v))

/-- What the key `v` finds through an entry `x` of a table of level `ℓ + 1`. -/
def through (ℓ : Nat) (x : E) : Option β :=
  match child (ℓ + 1) x with
  | some u => lookup child leaf mem idx v ℓ u
  | none => leaf (ℓ + 1) x

/-- Entry `i` of the table at `s` replaced by `e`. -/
def write [DecidableEq α] (s : α) (i : Fin n) (e : E) : α → Fin n → E :=
  Function.update mem s (Function.update (mem s) i e)

end Defs

variable {α E : Type} {n : Nat} {child : Nat → E → Option α} {mem mem' : α → Fin n → E}

/-! ## §3 The Tables of a Tree -/

section Tables

variable {ℓ : Nat} {t u s : α} {i : Fin n}

theorem mem_tables_succ {q : Nat × α} :
    q ∈ tables child mem (ℓ + 1) t ↔
      q = (ℓ + 1, t) ∨ ∃ i u, child (ℓ + 1) (mem t i) = some u ∧ q ∈ tables child mem ℓ u := by
  simp only [tables, List.mem_cons, List.mem_flatMap, List.mem_finRange, true_and]
  refine or_congr Iff.rfl (exists_congr fun i => ?_)
  cases child (ℓ + 1) (mem t i) <;> simp

theorem self_mem_tables : (ℓ + 1, t) ∈ tables child mem (ℓ + 1) t :=
  mem_tables_succ.mpr (Or.inl rfl)

/-- The tables below an entry are tables below its table. -/
theorem mem_tables_of_child {q : Nat × α} (hu : child (ℓ + 1) (mem t i) = some u)
    (hq : q ∈ tables child mem ℓ u) : q ∈ tables child mem (ℓ + 1) t :=
  mem_tables_succ.mpr (Or.inr ⟨i, u, hu, hq⟩)

theorem mem_frames_of_mem_tables {q : Nat × α} (hq : q ∈ tables child mem ℓ t) :
    q.2 ∈ frames child mem ℓ t :=
  List.mem_map_of_mem hq

theorem mem_frames : s ∈ frames child mem ℓ t ↔ ∃ L, (L, s) ∈ tables child mem ℓ t := by
  simp [frames]

theorem self_mem_frames : t ∈ frames child mem (ℓ + 1) t :=
  mem_frames_of_mem_tables self_mem_tables

theorem mem_frames_of_child (hu : child (ℓ + 1) (mem t i) = some u)
    (hs : s ∈ frames child mem ℓ u) : s ∈ frames child mem (ℓ + 1) t := by
  obtain ⟨L, hL⟩ := mem_frames.mp hs
  exact mem_frames_of_mem_tables (mem_tables_of_child hu hL)

/-- A table whose entries all lead nowhere is a tree of one table. -/
theorem tables_of_forall_child_none (h : ∀ j, child (ℓ + 1) (mem u j) = none) :
    tables child mem (ℓ + 1) u = [(ℓ + 1, u)] := by
  simp [tables, h]

/-- The tables of a tree depend only on which entries of its tables lead to tables, and
where. -/
theorem tables_congr
    (h : ∀ q ∈ tables child mem ℓ t, ∀ i, child q.1 (mem' q.2 i) = child q.1 (mem q.2 i)) :
    tables child mem' ℓ t = tables child mem ℓ t := by
  induction ℓ generalizing t with
  | zero => rfl
  | succ ℓ ih =>
    simp only [tables]
    congr 1
    refine List.flatMap_congr fun i _ => ?_
    rw [h (ℓ + 1, t) self_mem_tables i]
    rcases hc : child (ℓ + 1) (mem t i) with _ | u
    · rfl
    · exact ih fun q hq j => h q (mem_tables_of_child hc hq) j

/-- Locality: writes outside the tables of a tree leave the tree as it is. -/
theorem tables_congr_of_eq (h : ∀ s ∈ frames child mem ℓ t, mem' s = mem s) :
    tables child mem' ℓ t = tables child mem ℓ t :=
  tables_congr fun q hq i => by rw [h q.2 (mem_frames_of_mem_tables hq)]

theorem frames_succ : frames child mem (ℓ + 1) t = t :: (List.finRange n).flatMap fun i =>
    match child (ℓ + 1) (mem t i) with
    | some u => frames child mem ℓ u
    | none => [] := by
  simp only [frames, tables, List.map_cons, List.map_flatMap]
  congr 1
  refine List.flatMap_congr fun i _ => ?_
  cases child (ℓ + 1) (mem t i) <;> rfl

end Tables

/-! ## §4 Single Writes -/

section Write

variable [DecidableEq α] {ℓ : Nat} {t u s : α} {i j : Fin n} {e : E}

theorem write_of_ne_table (h : t ≠ s) : write mem s i e t = mem t :=
  Function.update_of_ne h _ _

@[simp] theorem write_self : write mem s i e s i = e := by
  simp [write]

theorem write_of_ne (h : ¬ (t = s ∧ j = i)) : write mem s i e t j = mem t j := by
  by_cases hts : t = s
  · subst hts
    have hj : j ≠ i := fun hj => h ⟨rfl, hj⟩
    simp [write, hj]
  · rw [write_of_ne_table hts]

/-- A write that keeps where the entry leads, at every level its table has in the tree,
keeps the tree. -/
theorem tables_write (h : ∀ L, (L, s) ∈ tables child mem ℓ t → child L e = child L (mem s i)) :
    tables child (write mem s i e) ℓ t = tables child mem ℓ t :=
  tables_congr fun ⟨L, s'⟩ hq j => by
    by_cases hsj : s' = s ∧ j = i
    · obtain ⟨rfl, rfl⟩ := hsj
      rw [write_self]
      exact h L hq
    · rw [write_of_ne hsj]

end Write

/-! ## §5 Trees Without Shared Tables -/

section Nodup

variable {ℓ : Nat} {t u w s : α} {i j : Fin n}

/-- A table is not below its own entries. -/
theorem Nodup.not_mem_child (hnd : (frames child mem (ℓ + 1) t).Nodup)
    (hu : child (ℓ + 1) (mem t i) = some u) : t ∉ frames child mem ℓ u := by
  rw [frames_succ] at hnd
  intro ht
  apply (List.nodup_cons.mp hnd).1
  exact List.mem_flatMap.mpr ⟨i, List.mem_finRange i, by simpa [hu] using ht⟩

theorem Nodup.subtree (hnd : (frames child mem (ℓ + 1) t).Nodup)
    (hu : child (ℓ + 1) (mem t i) = some u) : (frames child mem ℓ u).Nodup := by
  rw [frames_succ] at hnd
  have := (List.nodup_flatMap.mp (List.nodup_cons.mp hnd).2).1 i (List.mem_finRange i)
  simpa [hu] using this

/-- The trees below two entries of one table share no location. -/
theorem Nodup.disjoint (hnd : (frames child mem (ℓ + 1) t).Nodup) (hij : i ≠ j)
    (hu : child (ℓ + 1) (mem t i) = some u) (hw : child (ℓ + 1) (mem t j) = some w) :
    (frames child mem ℓ u).Disjoint (frames child mem ℓ w) := by
  rw [frames_succ] at hnd
  have hpw := (List.nodup_flatMap.mp (List.nodup_cons.mp hnd).2).2
  have : Std.Symm (Function.onFun List.Disjoint fun i =>
      match child (ℓ + 1) (mem t i) with
      | some u => frames child mem ℓ u
      | none => []) := ⟨fun _ _ h => List.disjoint_comm.mp h⟩
  have := hpw.forall (List.mem_finRange i) (List.mem_finRange j) hij
  simpa [Function.onFun, hu, hw] using this

/-- A location holds a table of one level only. -/
theorem Nodup.level_eq {L L' : Nat} (hnd : (frames child mem ℓ t).Nodup)
    (h : (L, s) ∈ tables child mem ℓ t) (h' : (L', s) ∈ tables child mem ℓ t) : L = L' :=
  congrArg Prod.fst (List.inj_on_of_nodup_map hnd h h' rfl)

end Nodup

/-! ## §6 Paths -/

section Paths

variable {κ : Type} {idx : Nat → κ → Fin n} {v w : κ} {L k : Nat} {t u s : α}

@[simp] theorem pathTo_zero : PathTo child mem idx v L 0 t u ↔ t = u := Iff.rfl

theorem pathTo_succ : PathTo child mem idx v L (k + 1) t u ↔
    ∃ w, child (L + k + 1) (mem t (idx (L + k + 1) v)) = some w ∧
      PathTo child mem idx v L k w u := Iff.rfl

/-- The end of a path is a table of the tree, at its level. -/
theorem PathTo.mem_tables (h : PathTo child mem idx v (L + 1) k t s) :
    (L + 1, s) ∈ tables child mem (L + 1 + k) t := by
  induction k generalizing t with
  | zero =>
    rw [pathTo_zero] at h
    subst h
    exact self_mem_tables
  | succ k ih =>
    obtain ⟨w, hw, hrest⟩ := pathTo_succ.mp h
    exact mem_tables_of_child hw (ih hrest)

/-- Going one level further from the end of a path. -/
theorem PathTo.snoc (h : PathTo child mem idx v (L + 1) k t s)
    (hs : child (L + 1) (mem s (idx (L + 1) v)) = some u) :
    PathTo child mem idx v L (k + 1) t u := by
  induction k generalizing t with
  | zero =>
    rw [pathTo_zero] at h
    subst h
    exact pathTo_succ.mpr ⟨u, hs, rfl⟩
  | succ k ih =>
    obtain ⟨w, hw, hrest⟩ := pathTo_succ.mp h
    refine pathTo_succ.mpr ⟨w, ?_, ih hrest⟩
    rw [show L + (k + 1) + 1 = L + 1 + k + 1 by omega]
    exact hw

/-- Locality: a path reads only the tables of the tree. -/
theorem PathTo.congr (hm : ∀ s ∈ frames child mem (L + k) t, mem' s = mem s)
    (h : PathTo child mem idx v L k t u) : PathTo child mem' idx v L k t u := by
  induction k generalizing t with
  | zero => exact h
  | succ k ih =>
    obtain ⟨w, hw, hrest⟩ := pathTo_succ.mp h
    refine pathTo_succ.mpr ⟨w, ?_, ih (fun s hs => hm s (mem_frames_of_child hw hs)) hrest⟩
    rw [hm t self_mem_frames]
    exact hw

/-- Two keys that reach one table of a tree agree on the indices above it. -/
theorem PathTo.idx_eq (hnd : (frames child mem (L + 1 + k) t).Nodup)
    (hv : PathTo child mem idx v (L + 1) k t s) (hw : PathTo child mem idx w (L + 1) k t s) :
    ∀ ℓ, L + 1 < ℓ → ℓ ≤ L + 1 + k → idx ℓ v = idx ℓ w := by
  induction k generalizing t with
  | zero => intro ℓ h₁ h₂; omega
  | succ k ih =>
    rw [← Nat.add_assoc] at hnd
    obtain ⟨u, hu, hvrest⟩ := pathTo_succ.mp hv
    obtain ⟨u', hu', hwrest⟩ := pathTo_succ.mp hw
    -- Both paths go on into trees that hold `s`: the same tree, by disjointness.
    have heq : idx (L + 1 + k + 1) v = idx (L + 1 + k + 1) w := by
      by_contra hne
      exact Nodup.disjoint hnd hne hu hu' (mem_frames_of_mem_tables hvrest.mem_tables)
        (mem_frames_of_mem_tables hwrest.mem_tables)
    rw [heq, hu'] at hu
    obtain rfl := Option.some.inj hu
    intro ℓ h₁ h₂
    rcases Nat.lt_or_ge ℓ (L + 1 + k + 1) with hlt | hge
    · exact ih (Nodup.subtree hnd hu') hvrest hwrest ℓ h₁ (by omega)
    · obtain rfl : ℓ = L + 1 + k + 1 := by omega
      exact heq

variable [DecidableEq α] {i : Fin n} {e : E}

/-- A write in the last table of a path keeps the path: in a tree, a path does not come
back to a table it has left. -/
theorem PathTo.write_last (hnd : (frames child mem (L + 1 + k) t).Nodup)
    (h : PathTo child mem idx v (L + 1) k t s) :
    PathTo child (write mem s i e) idx v (L + 1) k t s := by
  induction k generalizing t with
  | zero => exact h
  | succ k ih =>
    rw [← Nat.add_assoc] at hnd
    obtain ⟨w, hw, hrest⟩ := pathTo_succ.mp h
    have hne : t ≠ s := by
      rintro rfl
      exact Nodup.not_mem_child hnd hw (mem_frames_of_mem_tables hrest.mem_tables)
    refine pathTo_succ.mpr ⟨w, ?_, ih (Nodup.subtree hnd hw) hrest⟩
    rw [write_of_ne_table hne]
    exact hw

end Paths

/-! ## §7 Lookups -/

section Lookup

variable {β κ : Type} {leaf : Nat → E → Option β} {idx : Nat → κ → Fin n} {v : κ}
  {ℓ : Nat} {t u s : α}

/-- One level of a lookup. -/
theorem lookup_succ :
    lookup child leaf mem idx v (ℓ + 1) t =
      through child leaf mem idx v ℓ (mem t (idx (ℓ + 1) v)) := rfl

/-- A lookup follows the paths of its key. -/
theorem PathTo.lookup {L k : Nat} (h : PathTo child mem idx v L k t u) :
    lookup child leaf mem idx v (L + k) t = lookup child leaf mem idx v L u := by
  induction k generalizing t with
  | zero =>
    rw [pathTo_zero] at h
    subst h
    rfl
  | succ k ih =>
    obtain ⟨w, hw, hrest⟩ := pathTo_succ.mp h
    rw [← Nat.add_assoc, lookup_succ, through, hw]
    exact ih hrest

/-- A table whose entries all lead nowhere and are no leaf answers nothing. -/
theorem lookup_of_forall_none
    (h : ∀ j, child (ℓ + 1) (mem u j) = none ∧ leaf (ℓ + 1) (mem u j) = none) :
    lookup child leaf mem idx v (ℓ + 1) u = none := by
  rw [lookup_succ, through, (h _).1]
  exact (h _).2

/-- Locality: a lookup reads only the tables of the tree. -/
theorem lookup_congr (hm : ∀ s ∈ frames child mem ℓ t, mem' s = mem s) :
    lookup child leaf mem' idx v ℓ t = lookup child leaf mem idx v ℓ t := by
  induction ℓ generalizing t with
  | zero => rfl
  | succ ℓ ih =>
    rw [lookup_succ, lookup_succ, hm t self_mem_frames]
    unfold through
    rcases hc : child (ℓ + 1) (mem t (idx (ℓ + 1) v)) with _ | u
    · rfl
    · exact ih fun s hs => hm s (mem_frames_of_child hc hs)

variable [DecidableEq α] {i : Fin n} {e : E}

/-- A write that no path of the key reads leaves what the key finds. -/
theorem lookup_write_of_not_pathTo
    (h : ∀ L k, L + 1 + k = ℓ → PathTo child mem idx v (L + 1) k t s → idx (L + 1) v ≠ i) :
    lookup child leaf (write mem s i e) idx v ℓ t = lookup child leaf mem idx v ℓ t := by
  induction ℓ generalizing t with
  | zero => rfl
  | succ ℓ ih =>
    have hread : write mem s i e t (idx (ℓ + 1) v) = mem t (idx (ℓ + 1) v) := by
      apply write_of_ne
      rintro ⟨rfl, hi⟩
      exact h ℓ 0 rfl (pathTo_zero.mpr rfl) hi
    rw [lookup_succ, lookup_succ, hread]
    unfold through
    rcases hc : child (ℓ + 1) (mem t (idx (ℓ + 1) v)) with _ | u
    · rfl
    · refine ih fun L k hLk hp => h L (k + 1) (by omega) (pathTo_succ.mpr ⟨u, ?_, hp⟩)
      subst hLk
      exact hc

/-- A write that keeps where the entry leads and what it is as a leaf, at every level the
entry's table has in the tree, leaves every lookup. -/
theorem lookup_write_of_view_eq
    (h : ∀ L, (L, s) ∈ tables child mem ℓ t →
      child L e = child L (mem s i) ∧ leaf L e = leaf L (mem s i)) :
    lookup child leaf (write mem s i e) idx v ℓ t = lookup child leaf mem idx v ℓ t := by
  induction ℓ generalizing t with
  | zero => rfl
  | succ ℓ ih =>
    have hview : child (ℓ + 1) (write mem s i e t (idx (ℓ + 1) v)) =
          child (ℓ + 1) (mem t (idx (ℓ + 1) v)) ∧
        leaf (ℓ + 1) (write mem s i e t (idx (ℓ + 1) v)) = leaf (ℓ + 1) (mem t (idx (ℓ + 1) v)) := by
      by_cases hti : t = s ∧ idx (ℓ + 1) v = i
      · obtain ⟨rfl, hi⟩ := hti
        rw [hi, write_self]
        exact h (ℓ + 1) self_mem_tables
      · rw [write_of_ne hti]
        exact ⟨rfl, rfl⟩
    rw [lookup_succ, lookup_succ]
    unfold through
    rw [hview.1, hview.2]
    rcases hc : child (ℓ + 1) (mem t (idx (ℓ + 1) v)) with _ | u
    · rfl
    · exact ih fun L hL => h L (mem_tables_of_child hc hL)

/-- A write that gives the key the same answer through the written entry, at every level
the entry's table has in the tree, leaves what the key finds. -/
theorem lookup_write
    (h : ∀ L, (L + 1, s) ∈ tables child mem ℓ t → idx (L + 1) v = i →
      through child leaf (write mem s i e) idx v L e = through child leaf mem idx v L (mem s i)) :
    lookup child leaf (write mem s i e) idx v ℓ t = lookup child leaf mem idx v ℓ t := by
  induction ℓ generalizing t with
  | zero => rfl
  | succ ℓ ih =>
    rw [lookup_succ, lookup_succ]
    by_cases hti : t = s ∧ idx (ℓ + 1) v = i
    · obtain ⟨rfl, hi⟩ := hti
      rw [hi, write_self]
      exact h ℓ self_mem_tables hi
    · rw [write_of_ne hti]
      unfold through
      rcases hc : child (ℓ + 1) (mem t (idx (ℓ + 1) v)) with _ | u
      · rfl
      · exact ih fun L hL => h L (mem_tables_of_child hc hL)

end Lookup

/-! ## §8 Adding a Table -/

section Add

variable [DecidableEq α] {ℓ L : Nat} {t u s : α} {i : Fin n} {e : E}

/-- Pointing an entry that led nowhere at a table adds that table's tree to the tree. -/
theorem tables_write_perm (hnd : (frames child mem ℓ t).Nodup)
    (hs : (L + 1, s) ∈ tables child mem ℓ t) (hold : child (L + 1) (mem s i) = none)
    (hnew : child (L + 1) e = some u) :
    (tables child (write mem s i e) ℓ t).Perm
      (tables child (write mem s i e) L u ++ tables child mem ℓ t) := by
  induction ℓ generalizing t with
  | zero => simp [tables] at hs
  | succ ℓ ih =>
    simp only [tables]
    refine (List.Perm.cons _ ?_).trans List.perm_middle.symm
    by_cases hts : t = s
    · subst hts
      obtain rfl : L = ℓ := Nat.succ.inj (Nodup.level_eq hnd hs self_mem_tables)
      -- The written table: its entry `i` now brings the new tree, the others are as before.
      refine flatMap_perm_of_update (List.nodup_finRange n) (List.mem_finRange i) ?_ ?_
      · simp [hnew, hold]
      · intro j _ hji
        rw [write_of_ne (fun h => hji h.2)]
        rcases hc : child (L + 1) (mem t j) with _ | w
        · rfl
        · exact tables_congr_of_eq fun x hx =>
            write_of_ne_table fun hxt => Nodup.not_mem_child hnd hc (hxt ▸ hx)
    · -- A table above: the new tree arrives below the one entry whose tree holds `s`.
      obtain ⟨j₀, w₀, hw₀, hsw₀⟩ : ∃ j w, child (ℓ + 1) (mem t j) = some w ∧
          (L + 1, s) ∈ tables child mem ℓ w := by
        rcases mem_tables_succ.mp hs with h | h
        · exact absurd (congrArg Prod.snd h).symm hts
        · exact h
      simp only [write_of_ne_table hts]
      refine flatMap_perm_of_update (List.nodup_finRange n) (List.mem_finRange j₀) ?_ ?_
      · simp only [hw₀]
        exact ih (Nodup.subtree hnd hw₀) hsw₀
      · intro j _ hj
        rcases hc : child (ℓ + 1) (mem t j) with _ | w
        · rfl
        · exact tables_congr_of_eq fun x hx => write_of_ne_table fun hxs =>
            Nodup.disjoint hnd hj hc hw₀ (hxs ▸ hx) (mem_frames_of_mem_tables hsw₀)

end Add

end Beskar.Lib.TableTree
