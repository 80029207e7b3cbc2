import Beskar.Lib.Transition
import Beskar.Paging.Walk

/-!
# Paging: What the Mappers Keep

The mappers of `PageTable` over any run of calls, with a frame allocator that returns
fresh frames.

## Contents

- §1 `next_or_create`, and the `next_or_create` walk of `map` (`createPath`), keep the page
  table well formed and the allocator fresh; when they reach the page's table they have
  changed no translation.
- §2 the mappers: `map` writes the page's leaf at the end of its path, `unmap` clears it,
  `update_flags` replaces its flags.
- §2a a `map` that fails changes no translation, unless it fails on a huge page: then
  `next_or_create` has already widened that page's flags with the parent flags.
- §3 the kernel's use of the mappers as a state machine over the page table and the frame
  allocator.  `update_flags` replaces the whole flag set, `PRESENT` and `HUGE_PAGE`
  included: a run of calls keeps the page table well formed when its `update_flags` keep
  `PRESENT` (and `HUGE_PAGE` on a huge page), and a single `update_flags` with
  `Flags::EMPTY` on a mapped page breaks it.
- §4 `translate_addr` after a failed `map`: unchanged, unless the map failed on a huge
  page, whose flags then carry the failed call's `USER_ACCESSIBLE`.
-/

namespace Beskar.Paging

open Beskar.Lib

namespace PageTable

variable {pt pt' : PageTable} {alloc alloc' : FrameAllocator}

/-! ## §1 The Path of a Page -/

/-- `parent_flags` never asks for a huge page. -/
theorem parentFlags_not_huge (flags : Flags) :
    (parentFlags flags).contains Flags.hugePage = false := by
  unfold parentFlags
  split <;> decide

/-- The allocator stays fresh when its first frame becomes a new table. -/
theorem Fresh.create {L s : Nat} {i : Fin 512} {e : Entry} {f : Frame .size4KiB}
    {rest : FrameAllocator} (hw : pt.Wf) (hf : pt.Fresh (f :: rest)) (hL : 1 ≤ L)
    (hs : (L + 1, s) ∈ pt.tables) (hi : (pt.mem s i).child? (L + 1) = none)
    (he : e.child? (L + 1) = some f.start) : ((pt.write s i e).clear f.start).Fresh rest := by
  have hnd := hf.nodup
  rw [List.map_cons, List.nodup_cons] at hnd
  refine ⟨hnd.2, fun g hg hgf => ?_⟩
  have hperm := frames_create hw hL hs hi he (hf.not_mem f List.mem_cons_self)
  rcases List.mem_cons.mp (hperm.mem_iff.mp hgf) with h | h
  · exact hnd.1 (by rw [← h]; exact List.mem_map_of_mem hg)
  · exact hf.not_mem g (List.mem_cons_of_mem _ hg) h

/-- `next_or_create` at entry `i` of the table `t` of level `L + 1`: the page table stays
well formed and the allocator fresh, and paths to `t` are kept; when it returns a table,
the entry leads to it and no translation has changed. -/
theorem nextOrCreate_spec (hw : pt.Wf) (hf : pt.Fresh alloc) {L t : Nat} {i : Fin 512}
    {flags : Flags} {r : Except MappingError Nat} (hL : 1 ≤ L) (hL4 : L + 1 ≤ 4)
    (ht : (L + 1, t) ∈ pt.tables) (hflags : flags.contains Flags.hugePage = false)
    (h : nextOrCreate pt alloc t i flags = (pt', alloc', r)) :
    pt'.Wf ∧ pt'.Fresh alloc' ∧ pt'.root = pt.root ∧
      (∀ v, pt.PathTo v (L + 1) t → pt'.PathTo v (L + 1) t) ∧
      ∀ u, r = .ok u → (pt'.mem t i).child? (L + 1) = some u ∧ ∀ a, pt'.lookup a = pt.lookup a := by
  unfold nextOrCreate at h
  rw [if_neg (by simp [hflags])] at h
  dsimp only at h
  by_cases hp : (pt.mem t i).isPresent = true
  · -- A present entry: its flags are widened, and it leads where it led.
    rw [if_pos hp] at h
    simp only [Prod.mk.injEq] at h
    obtain ⟨rfl, rfl, rfl⟩ := h
    have hc : ((pt.mem t i).addFlags flags).child? (L + 1) = (pt.mem t i).child? (L + 1) :=
      Entry.child?_addFlags hp hflags
    refine ⟨hw.write ht hc (Entry.leafOk_of_isPresent (Entry.isPresent_addFlags hp flags)),
      hf.of_frames_eq (frames_write hw ht hc), rfl, fun v hv => hv.write hw (by omega) hL4 i _,
      fun u hu => ?_⟩
    have hcu : ((pt.mem t i).addFlags flags).child? (L + 1) = some u :=
      (Entry.next_eq_ok_iff (by omega)).mp hu
    refine ⟨by rw [write_mem, TableTree.write_self]; exact hcu,
      lookup_write_of_view_eq hw ht hc ?_⟩
    rw [Entry.leaf?_eq_none_of_child?_eq_some hcu,
      Entry.leaf?_eq_none_of_child?_eq_some (hc ▸ hcu)]
  · rw [if_neg hp] at h
    have hp' : (pt.mem t i).isPresent = false := by simpa using hp
    have hi : (pt.mem t i).child? (L + 1) = none := Entry.child?_eq_none_of_not_present hp'
    cases alloc with
    | nil =>
      simp only [Prod.mk.injEq] at h
      obtain ⟨rfl, rfl, rfl⟩ := h
      exact ⟨hw, hf, rfl, fun _ hv => hv, fun _ hu => by cases hu⟩
    | cons f rest =>
      -- A new table in the allocator's first frame.
      simp only [Entry.next_set_union_present _ hflags, frameBits_start, Prod.mk.injEq] at h
      obtain ⟨rfl, rfl, rfl⟩ := h
      have he : (Entry.set f.start (flags.union Flags.present)).child? (L + 1) = some f.start := by
        rw [Entry.child?_set_union_present (by omega) _ hflags, frameBits_start]
      have hu := hf.not_mem f List.mem_cons_self
      refine ⟨hw.create hL ht hi he hu (Entry.leafOk_of_isPresent
          (Flags.contains_present_union_present flags)), hf.create hw hL ht hi he, rfl,
        fun v hv => hv.create hw ht hu hL4, fun u hu' => ?_⟩
      cases hu'
      refine ⟨?_, lookup_create hw hL ht hi (Entry.leaf?_eq_none_of_not_present hp') he hu⟩
      rw [mem_create_of_ne (ne_of_not_mem_frames ht hu).symm, write_mem, TableTree.write_self]
      exact he

/-- The `next_or_create` walk of `map`, `k` levels down from the table `t` of level `L + k`
on the page's path: the page table stays well formed and the allocator fresh; when it
reaches the page's table, the page's path leads there and no translation has changed. -/
theorem createPath_spec {v L : Nat} {flags : Flags} (hL : 1 ≤ L)
    (hflags : flags.contains Flags.hugePage = false) :
    ∀ k (pt : PageTable) (alloc : FrameAllocator) (t : Nat), L + k ≤ 4 → pt.Wf →
      pt.Fresh alloc → pt.PathTo v (L + k) t →
      ∀ pt' alloc' r, createPath v L flags k pt alloc t = (pt', alloc', r) →
      pt'.Wf ∧ pt'.Fresh alloc' ∧ pt'.root = pt.root ∧
        ∀ u, r = .ok u → pt'.PathTo v L u ∧ ∀ a, pt'.lookup a = pt.lookup a := by
  intro k
  induction k with
  | zero =>
    intro pt alloc t _ hw hf hp pt' alloc' r h
    simp only [createPath, Prod.mk.injEq] at h
    obtain ⟨rfl, rfl, rfl⟩ := h
    exact ⟨hw, hf, rfl, fun u hu => by cases hu; exact ⟨hp, fun _ => rfl⟩⟩
  | succ k ih =>
    intro pt alloc t hk hw hf hp pt' alloc' r h
    rw [← Nat.add_assoc] at hk hp
    rcases hn : nextOrCreate pt alloc t (index (L + k + 1) v) flags with ⟨pt₁, alloc₁, r₁⟩
    obtain ⟨hw₁, hf₁, hroot₁, hpath₁, hok₁⟩ :=
      nextOrCreate_spec hw hf (by omega) hk (hp.mem_tables (by omega) hk) hflags hn
    rcases r₁ with e | next
    · simp only [createPath, hn, Prod.mk.injEq] at h
      obtain ⟨rfl, rfl, rfl⟩ := h
      exact ⟨hw₁, hf₁, hroot₁, fun u hu => by cases hu⟩
    · simp only [createPath, hn] at h
      obtain ⟨hchild, hlook⟩ := hok₁ next rfl
      obtain ⟨hw', hf', hroot', hok'⟩ :=
        ih pt₁ alloc₁ next (by omega) hw₁ hf₁ ((hpath₁ v hp).snoc hk hchild) pt' alloc' r h
      refine ⟨hw', hf', hroot'.trans hroot₁, fun u hu => ?_⟩
      obtain ⟨hpu, hlu⟩ := hok' u hu
      exact ⟨hpu, fun a => (hlu a).trans (hlook a)⟩

/-! ## §2 The Mappers -/

/-- Every walk of a mapper starts at the root, `4 - S.level` levels above the leaf. -/
theorem pathTo_root (pt : PageTable) (S : PageSize) (v : Nat) :
    pt.PathTo v (S.level + (4 - S.level)) pt.root := by
  rw [show S.level + (4 - S.level) = 4 by have := S.level_le; omega]
  exact TableTree.pathTo_zero.mpr rfl

/-- The body of the three `map`s: the page table stays well formed and the allocator
fresh; when `map` returns `Ok`, `translate` gives the frame and the leaf's flags, and the
translation of no canonical address outside the page has changed. -/
theorem mapWith_spec (hw : pt.Wf) (hf : pt.Fresh alloc) {S : PageSize} {leafFlags flags : Flags}
    {page : Page S} {frame : Frame S} {r : Except MappingError Unit}
    (hpresent : leafFlags.contains Flags.present = true)
    (hchild : (Entry.set frame.start leafFlags).child? S.level = none)
    (h : mapWith S leafFlags pt alloc page frame flags = (pt', alloc', r)) :
    pt'.Wf ∧ pt'.Fresh alloc' ∧
      (r = .ok () → translateWith S pt' page = some (frame, leafFlags) ∧
        ∀ a, Arch.canonicalize a = a → ¬ (page.start ≤ a ∧ a < page.start + S.size) →
          pt'.lookup a = pt.lookup a) := by
  have hS1 := S.level_pos
  have hS3 := S.level_le
  have hroot := pathTo_root pt S page.start
  have hspec := createPath_spec hS1 (parentFlags_not_huge flags) (4 - S.level) pt alloc pt.root
    (by omega) hw hf hroot
  unfold mapWith at h
  rcases hc : createPath page.start S.level (parentFlags flags) (4 - S.level) pt alloc pt.root
    with ⟨pt₁, alloc₁, _ | t⟩
  · obtain ⟨hw₁, hf₁, -, -⟩ := hspec _ _ _ hc
    simp only [hc, Prod.mk.injEq] at h
    obtain ⟨rfl, rfl, rfl⟩ := h
    exact ⟨hw₁, hf₁, fun h => by cases h⟩
  · obtain ⟨hw₁, hf₁, -, hok⟩ := hspec _ _ _ hc
    obtain ⟨hp₁, hlook⟩ := hok t rfl
    simp only [hc] at h
    split_ifs at h with hnull
    · -- The slot is in use: `AlreadyMapped`, after the tables made on the way.
      simp only [Prod.mk.injEq] at h
      obtain ⟨rfl, rfl, rfl⟩ := h
      exact ⟨hw₁, hf₁, fun h => by cases h⟩
    · simp only [Prod.mk.injEq] at h
      obtain ⟨rfl, rfl, rfl⟩ := h
      have hts := hp₁.mem_tables hS1 (by omega)
      have hold : (pt₁.mem t (index S.level page.start)).child? S.level = none :=
        Entry.child?_eq_none_of_not_present (Entry.isPresent_eq_false_of_isNull (by simpa using hnull))
      have hc' : (Entry.set frame.start leafFlags).child? S.level =
          (pt₁.mem t (index S.level page.start)).child? S.level := by
        rw [hchild, hold]
      refine ⟨hw₁.write hts hc' (Entry.leafOk_of_isPresent hpresent),
        hf₁.of_frames_eq (frames_write hw₁ hts hc'), fun _ => ⟨?_, fun a ha hout => ?_⟩⟩
      · rw [translateWith_of_pathTo (hp₁.write hw₁ hS1 (by omega) _ _), write_mem,
          TableTree.write_self, Entry.isPresent_set, if_pos hpresent, Entry.set_addr,
          frameBits_start, Frame.containingAddress_start]
        rfl
      · rw [lookup_write_outside hw₁ hp₁ ha hout, hlook]

/-- The flags `map` gives a page: the caller's, with `PRESENT` set, and `HUGE_PAGE`
cleared for a 4 KiB page and set for a huge page. -/
def mappedFlags (S : PageSize) (flags : Flags) : Flags :=
  match S with
  | .size4KiB => (flags.union Flags.present).without Flags.hugePage
  | _ => (flags.union Flags.present).union Flags.hugePage

theorem mappedFlags_present (S : PageSize) (flags : Flags) :
    (mappedFlags S flags).contains Flags.present = true := by
  cases S <;> simp [mappedFlags, Flags.contains_present_iff]

theorem mappedFlags_hugePage {S : PageSize} (hS : S ≠ .size4KiB) (flags : Flags) :
    (mappedFlags S flags).contains Flags.hugePage = true := by
  cases S
  · exact absurd rfl hS
  all_goals simp [mappedFlags, Flags.contains_hugePage_iff]

/-- The three `map`s are `mapWith` at the flags `map` gives the leaf. -/
theorem map_eq_mapWith (S : PageSize) (pt : PageTable) (alloc : FrameAllocator) (page : Page S)
    (frame : Frame S) (flags : Flags) :
    map S pt alloc page frame flags = mapWith S (mappedFlags S flags) pt alloc page frame flags := by
  cases S <;> rfl

theorem translate_eq (S : PageSize) : translate S = translateWith S := by
  cases S <;> rfl

/-- `Mapper<S>::map`: the page table stays well formed and the allocator fresh; when it
returns `Ok`, `translate` gives the frame with the mapped flags, and the translation of no
canonical address outside the page has changed. -/
theorem map_spec (hw : pt.Wf) (hf : pt.Fresh alloc) {S : PageSize} {page : Page S}
    {frame : Frame S} {flags : Flags} {r : Except MappingError Unit}
    (h : map S pt alloc page frame flags = (pt', alloc', r)) :
    pt'.Wf ∧ pt'.Fresh alloc' ∧
      (r = .ok () → translate S pt' page = some (frame, mappedFlags S flags) ∧
        ∀ a, Arch.canonicalize a = a → ¬ (page.start ≤ a ∧ a < page.start + S.size) →
          pt'.lookup a = pt.lookup a) := by
  rw [map_eq_mapWith] at h
  rw [translate_eq]
  -- the leaf points to a table only at level 1, and a huge page's leaf to none
  have hleaf : (Entry.set frame.start (mappedFlags S flags)).child? S.level = none := by
    cases S with
    | size4KiB => exact Entry.child?_one _
    | size2MiB | size1GiB => exact Entry.child?_eq_none_of_large (mappedFlags_hugePage (by decide) _)
  exact mapWith_spec hw hf (mappedFlags_present _ _) hleaf h

/-- Clearing the page's leaf at the end of its path, as the `unmap`s do: the page table
stays well formed with the same tables, the page is no longer translated, and no other
canonical address changes its translation. -/
theorem clear_leaf_spec (hw : pt.Wf) {S : PageSize} {page : Page S} {t : Nat}
    (hp : pt.PathTo page.start S.level t)
    (hleaf : (pt.mem t (index S.level page.start)).child? S.level = none) :
    (pt.write t (index S.level page.start) (Entry.set 0 Flags.empty)).Wf ∧
      (pt.write t (index S.level page.start) (Entry.set 0 Flags.empty)).frames = pt.frames ∧
      translateWith S (pt.write t (index S.level page.start) (Entry.set 0 Flags.empty)) page =
        none ∧
      ∀ a, Arch.canonicalize a = a → ¬ (page.start ≤ a ∧ a < page.start + S.size) →
        (pt.write t (index S.level page.start) (Entry.set 0 Flags.empty)).lookup a =
          pt.lookup a := by
  have hS1 := S.level_pos
  have hS3 := S.level_le
  have hts := hp.mem_tables hS1 (by omega)
  have hc : (Entry.set 0 Flags.empty).child? S.level =
      (pt.mem t (index S.level page.start)).child? S.level := by
    rw [hleaf, Entry.set_zero_empty, Entry.empty_child?]
  refine ⟨hw.write hts hc (by rw [Entry.set_zero_empty]; exact Entry.empty_leafOk _),
    frames_write hw hts hc, ?_, fun a ha hout => lookup_write_outside hw hp ha hout _⟩
  rw [translateWith_of_pathTo (hp.write hw hS1 (by omega) _ _), write_mem, TableTree.write_self,
    Entry.set_zero_empty, Entry.empty_isPresent]
  rfl

/-- What an `unmap` that returns `Ok` read: the page's path, ending at a present leaf. -/
theorem unmap_read {S : PageSize} {page : Page S} {addr : Nat} {t : Nat}
    (hwk : pt.walk page.start S.level (4 - S.level) pt.root = .ok t)
    (ha : (pt.mem t (index S.level page.start)).presentAddr = some addr) :
    pt.PathTo page.start S.level t ∧
      translateWith S pt page = some (Frame.containingAddress S addr,
        (pt.mem t (index S.level page.start)).flags) := by
  have hp : pt.PathTo page.start S.level t := (walk_eq_ok_iff pt S.level_pos).mp hwk
  unfold Entry.presentAddr at ha
  split_ifs at ha with hpres
  cases ha
  exact ⟨hp, by rw [translateWith_of_pathTo hp, if_pos hpres]⟩

/-- What a successful `unmap` finds and does, from its walk and the present leaf it read:
`translate` gave the leaf's frame, and clearing the leaf is `clear_leaf_spec`. -/
theorem unmap_of_read (hw : pt.Wf) {S : PageSize} {page : Page S} {addr t : Nat}
    (hwk : pt.walk page.start S.level (4 - S.level) pt.root = .ok t)
    (ha : (pt.mem t (index S.level page.start)).presentAddr = some addr)
    (hleaf : (pt.mem t (index S.level page.start)).child? S.level = none) :
    (∃ flags, translateWith S pt page = some (Frame.containingAddress S addr, flags)) ∧
      (pt.write t (index S.level page.start) (Entry.set 0 Flags.empty)).Wf ∧
      (pt.write t (index S.level page.start) (Entry.set 0 Flags.empty)).frames = pt.frames ∧
      translateWith S (pt.write t (index S.level page.start) (Entry.set 0 Flags.empty)) page =
        none ∧
      ∀ a, Arch.canonicalize a = a → ¬ (page.start ≤ a ∧ a < page.start + S.size) →
        (pt.write t (index S.level page.start) (Entry.set 0 Flags.empty)).lookup a =
          pt.lookup a := by
  have hp : pt.PathTo page.start S.level t := (walk_eq_ok_iff pt S.level_pos).mp hwk
  unfold Entry.presentAddr at ha
  split_ifs at ha with hpres
  cases ha
  exact ⟨⟨_, by rw [translateWith_of_pathTo hp, if_pos hpres]⟩, clear_leaf_spec hw hp hleaf⟩

/-- What `Mapper<M4KiB>::unmap` read and wrote when it returns `Ok`. -/
theorem unmap4KiB_eq_ok {page : Page .size4KiB} {f : Frame .size4KiB}
    (h : unmap4KiB pt page = .ok (f, pt')) :
    ∃ t addr, pt.walk page.start 1 3 pt.root = .ok t ∧
      (pt.mem t (index 1 page.start)).presentAddr = some addr ∧
      (pt.mem t (index 1 page.start)).child? 1 = none ∧
      Frame.containingAddress .size4KiB addr = f ∧
      pt.write t (index 1 page.start) (Entry.set 0 Flags.empty) = pt' := by
  unfold unmap4KiB at h
  rcases hwk : pt.walk page.start 1 3 pt.root with e | t
  · rw [hwk] at h
    cases h
  rw [hwk] at h
  dsimp only [bind, Except.bind] at h
  rcases ha : (pt.mem t (index 1 page.start)).presentAddr with _ | addr
  · rw [ha] at h
    cases h
  rw [ha] at h
  simp only [Except.ok.injEq, Prod.mk.injEq] at h
  exact ⟨t, addr, rfl, ha, Entry.child?_one _, h⟩

/-- What the huge `unmap`s read and wrote when they return `Ok`: the leaf they clear is a
huge page. -/
theorem unmapHuge_eq_ok {S : PageSize} {page : Page S} {f : Frame S}
    (h : unmapHuge S pt page = .ok (f, pt')) :
    ∃ t addr, pt.walk page.start S.level (4 - S.level) pt.root = .ok t ∧
      (pt.mem t (index S.level page.start)).presentAddr = some addr ∧
      (pt.mem t (index S.level page.start)).child? S.level = none ∧
      Frame.containingAddress S addr = f ∧
      pt.write t (index S.level page.start) (Entry.set 0 Flags.empty) = pt' := by
  unfold unmapHuge at h
  rcases hwk : pt.walk page.start S.level (4 - S.level) pt.root with e | t
  · rw [hwk] at h
    cases h
  rw [hwk] at h
  dsimp only [bind, Except.bind] at h
  rcases ha : (pt.mem t (index S.level page.start)).presentAddr with _ | addr
  · rw [ha] at h
    cases h
  rw [ha] at h
  dsimp only at h
  split_ifs at h with hhuge
  simp only [Except.ok.injEq, Prod.mk.injEq] at h
  exact ⟨t, addr, rfl, ha, Entry.child?_eq_none_of_large (by simpa [Entry.isLarge] using hhuge), h⟩

/-- `Mapper<S>::unmap`: when it returns `Ok (f, pt')`, `translate` gave `f` before and
gives nothing after, the page table stays well formed with the same tables, and no other
canonical address changes its translation. -/
theorem unmap_spec (hw : pt.Wf) {S : PageSize} {page : Page S} {f : Frame S}
    (h : unmap S pt page = .ok (f, pt')) :
    (∃ flags, translate S pt page = some (f, flags)) ∧ pt'.Wf ∧ pt'.frames = pt.frames ∧
      translate S pt' page = none ∧
      ∀ a, Arch.canonicalize a = a → ¬ (page.start ≤ a ∧ a < page.start + S.size) →
        pt'.lookup a = pt.lookup a := by
  obtain ⟨t, addr, hwk, ha, hleaf, rfl, rfl⟩ : ∃ t addr,
      pt.walk page.start S.level (4 - S.level) pt.root = .ok t ∧
      (pt.mem t (index S.level page.start)).presentAddr = some addr ∧
      (pt.mem t (index S.level page.start)).child? S.level = none ∧
      Frame.containingAddress S addr = f ∧
      pt.write t (index S.level page.start) (Entry.set 0 Flags.empty) = pt' := by
    cases S with
    | size4KiB => exact unmap4KiB_eq_ok h
    | size2MiB => exact unmapHuge_eq_ok h
    | size1GiB => exact unmapHuge_eq_ok h
  rw [translate_eq]
  exact unmap_of_read hw hwk ha hleaf

/-- Replacing the flags of the page's leaf, as the `update_flags` do: with flags that keep
the leaf present and leading nowhere, the page table stays well formed with the same
tables. -/
theorem setFlags_leaf_spec (hw : pt.Wf) {S : PageSize} {page : Page S} {t : Nat}
    {flags : Flags} (hp : pt.PathTo page.start S.level t)
    (hold : (pt.mem t (index S.level page.start)).child? S.level = none)
    (hnew : ((pt.mem t (index S.level page.start)).setFlags flags).child? S.level = none)
    (hflags : flags.contains Flags.present = true) :
    (pt.write t (index S.level page.start) ((pt.mem t (index S.level page.start)).setFlags flags)).Wf ∧
      (pt.write t (index S.level page.start)
        ((pt.mem t (index S.level page.start)).setFlags flags)).frames = pt.frames := by
  have hts := hp.mem_tables S.level_pos (by have := S.level_le; omega)
  have hc : ((pt.mem t (index S.level page.start)).setFlags flags).child? S.level =
      (pt.mem t (index S.level page.start)).child? S.level := by
    rw [hnew, hold]
  exact ⟨hw.write hts hc (Entry.leafOk_of_isPresent hflags), frames_write hw hts hc⟩

/-- What `Mapper<M4KiB>::update_flags` read and wrote when it returns `Ok`: it only checks
that the leaf is present. -/
theorem updateFlags4KiB_eq_ok {page : Page .size4KiB} {flags : Flags}
    (h : updateFlags4KiB pt page flags = .ok pt') :
    ∃ t, pt.walk page.start 1 3 pt.root = .ok t ∧
      (pt.mem t (index 1 page.start)).isPresent = true ∧
      pt.write t (index 1 page.start) ((pt.mem t (index 1 page.start)).setFlags flags) = pt' := by
  unfold updateFlags4KiB at h
  rcases hwk : pt.walk page.start 1 3 pt.root with e | t
  · rw [hwk] at h
    cases h
  rw [hwk] at h
  dsimp only [bind, Except.bind] at h
  split_ifs at h with hpres
  cases h
  exact ⟨t, rfl, by simpa using hpres, rfl⟩

/-- What the huge `update_flags` read and wrote when they return `Ok`: the leaf is a
present huge page. -/
theorem updateFlagsHuge_eq_ok {S : PageSize} {page : Page S} {flags : Flags}
    (h : updateFlagsHuge S pt page flags = .ok pt') :
    ∃ t, pt.walk page.start S.level (4 - S.level) pt.root = .ok t ∧
      (pt.mem t (index S.level page.start)).isLarge = true ∧
      pt.write t (index S.level page.start)
        ((pt.mem t (index S.level page.start)).setFlags flags) = pt' := by
  unfold updateFlagsHuge at h
  rcases hwk : pt.walk page.start S.level (4 - S.level) pt.root with e | t
  · rw [hwk] at h
    cases h
  rw [hwk] at h
  dsimp only [bind, Except.bind] at h
  split_ifs at h with hpres hlarge
  cases h
  exact ⟨t, rfl, by simpa using hlarge, rfl⟩

/-- `Mapper<S>::update_flags` with flags that keep `PRESENT`, and `HUGE_PAGE` on a huge
page: the page table stays well formed with the same tables. -/
theorem updateFlags_spec (hw : pt.Wf) {S : PageSize} {page : Page S} {flags : Flags}
    (hpresent : flags.contains Flags.present = true)
    (hhuge : S ≠ .size4KiB → flags.contains Flags.hugePage = true)
    (h : updateFlags S pt page flags = .ok pt') : pt'.Wf ∧ pt'.frames = pt.frames := by
  cases S with
  | size4KiB =>
    obtain ⟨t, hwk, -, rfl⟩ := updateFlags4KiB_eq_ok h
    exact setFlags_leaf_spec hw ((walk_eq_ok_iff pt le_rfl).mp hwk) (Entry.child?_one _)
      (Entry.child?_one _) hpresent
  | size2MiB =>
    obtain ⟨t, hwk, hlarge, rfl⟩ := updateFlagsHuge_eq_ok h
    exact setFlags_leaf_spec hw ((walk_eq_ok_iff pt (by decide)).mp hwk)
      (Entry.child?_eq_none_of_large hlarge)
      (Entry.child?_eq_none_of_large (hhuge (by decide))) hpresent
  | size1GiB =>
    obtain ⟨t, hwk, hlarge, rfl⟩ := updateFlagsHuge_eq_ok h
    exact setFlags_leaf_spec hw ((walk_eq_ok_iff pt (by decide)).mp hwk)
      (Entry.child?_eq_none_of_large hlarge)
      (Entry.child?_eq_none_of_large (hhuge (by decide))) hpresent

/-- What a `translate` that gives a frame read: the page's path, ending at a present leaf
in that frame. -/
theorem translateWith_eq_some {S : PageSize} {page : Page S} {f : Frame S} {flags : Flags}
    (h : translateWith S pt page = some (f, flags)) :
    ∃ t, pt.walk page.start S.level (4 - S.level) pt.root = .ok t ∧
      (pt.mem t (index S.level page.start)).isPresent = true ∧
      Frame.containingAddress S (pt.mem t (index S.level page.start)).addr = f := by
  unfold translateWith at h
  rcases hwk : pt.walk page.start S.level (4 - S.level) pt.root with e | t
  · rw [hwk] at h
    cases h
  rw [hwk] at h
  dsimp only at h
  split_ifs at h with hpres
  cases h
  exact ⟨t, rfl, hpres, rfl⟩

/-- `update_flags` of a mapped 4 KiB page with flags that lack `PRESENT` leaves its leaf
not null and not present: the page table is no longer well formed. -/
theorem updateFlags4KiB_breaks_wf (hw : pt.Wf) (hf : pt.Fresh alloc) {page : Page .size4KiB}
    {frame : Frame .size4KiB} {fl flags : Flags}
    (hmap : map4KiB pt alloc page frame fl = (pt', alloc', .ok ())) (hframe : frame.start ≠ 0)
    (hflags : flags.contains Flags.present = false) :
    ∃ pt'', updateFlags4KiB pt' page flags = .ok pt'' ∧ ¬ pt''.Wf := by
  obtain ⟨hw', -, hok⟩ := map_spec (S := .size4KiB) hw hf hmap
  obtain ⟨t, hwk, hpres, hfr⟩ := translateWith_eq_some (hok rfl).1
  rw [show PageSize.size4KiB.level = 1 from rfl] at hwk hpres hfr
  have hp : pt'.PathTo page.start 1 t := (walk_eq_ok_iff pt' le_rfl).mp hwk
  have hts := hp.mem_tables le_rfl (by decide)
  -- The leaf keeps the frame's address, which is not zero.
  have haddr : (pt'.mem t (index 1 page.start)).addr ≠ 0 := fun h0 =>
    hframe (by rw [← hfr, h0]; rfl)
  refine ⟨pt'.write t (index 1 page.start) ((pt'.mem t (index 1 page.start)).setFlags flags), ?_,
    fun hw'' => ?_⟩
  · unfold updateFlags4KiB
    rw [hwk]
    dsimp only [bind, Except.bind]
    rw [if_neg (by simpa using hpres)]
  · have hc : ((pt'.mem t (index 1 page.start)).setFlags flags).child? 1 =
        (pt'.mem t (index 1 page.start)).child? 1 := by
      rw [Entry.child?_one, Entry.child?_one]
    have hleaf := hw''.leaves _ (by rw [tables_write hw' hts hc]; exact hts) (index 1 page.start)
    rw [write_mem, TableTree.write_self] at hleaf
    have := hleaf (Or.inl rfl) (by simp [Entry.isNull, haddr])
    rw [Entry.isPresent, Entry.setFlags_flags] at this
    rw [this] at hflags
    cases hflags

/-! ## §2a A Failed Map -/

/-- **The two ways `next_or_create` fails** when asked for no huge page: a missing entry
with the allocator empty, which writes nothing, or a present huge page, whose flags it has
widened before `next_mut` refuses it. -/
theorem nextOrCreate_error {t : Nat} {i : Fin 512} {flags : Flags} {e : MappingError}
    (hflags : flags.contains Flags.hugePage = false)
    (h : nextOrCreate pt alloc t i flags = (pt', alloc', .error e)) :
    (e = .frameAllocationFailed ∧ pt' = pt) ∨
      (e = .unexpectedLargePage ∧ (pt.mem t i).isLarge = true ∧
        pt' = pt.write t i ((pt.mem t i).addFlags flags)) := by
  unfold nextOrCreate at h
  rw [if_neg (by simp [hflags])] at h
  dsimp only at h
  by_cases hp : (pt.mem t i).isPresent = true
  · -- a present entry: `next_mut` fails only on a huge page
    rw [if_pos hp] at h
    simp only [Prod.mk.injEq] at h
    obtain ⟨rfl, -, hnext⟩ := h
    have hp' := Entry.isPresent_addFlags hp flags
    have hl := Entry.isLarge_addFlags (pt.mem t i) hflags
    unfold Entry.next at hnext
    rw [hp', hl] at hnext
    cases hlarge : (pt.mem t i).isLarge
    · simp [hlarge] at hnext
    · simp only [hlarge, Bool.not_true, Bool.and_false, Bool.false_eq_true, if_false,
        Bool.and_self, if_true, Except.error.injEq] at hnext
      exact .inr ⟨hnext.symm, rfl, rfl⟩
  · rw [if_neg hp] at h
    cases alloc with
    | nil =>
      simp only [Prod.mk.injEq, Except.error.injEq] at h
      exact .inl ⟨h.2.2.symm, h.1.symm⟩
    | cons f rest =>
      -- a new table is always reached
      simp only [Entry.next_set_union_present _ hflags, Prod.mk.injEq, reduceCtorEq,
        and_false] at h

/-- **A failed walk of `map` changes no translation**, unless it failed on a huge page:
the steps before the failure kept every lookup, and a step that fails for want of a
frame writes nothing. -/
theorem createPath_error_lookup {v L : Nat} {flags : Flags} (hL : 1 ≤ L)
    (hflags : flags.contains Flags.hugePage = false) :
    ∀ k (pt : PageTable) (alloc : FrameAllocator) (t : Nat), L + k ≤ 4 → pt.Wf →
      pt.Fresh alloc → pt.PathTo v (L + k) t →
      ∀ pt' alloc' e, createPath v L flags k pt alloc t = (pt', alloc', .error e) →
      e ≠ .unexpectedLargePage → ∀ a, pt'.lookup a = pt.lookup a := by
  intro k
  induction k with
  | zero =>
    intro pt alloc t _ _ _ _ pt' alloc' e h
    simp only [createPath, Prod.mk.injEq, reduceCtorEq, and_false] at h
  | succ k ih =>
    intro pt alloc t hk hw hf hp pt' alloc' e h hne a
    rw [← Nat.add_assoc] at hk hp
    rcases hn : nextOrCreate pt alloc t (index (L + k + 1) v) flags with ⟨pt₁, alloc₁, r₁⟩
    rcases r₁ with e₁ | next
    · -- the failing step: it wrote nothing, being no huge page
      simp only [createPath, hn, Prod.mk.injEq, Except.error.injEq] at h
      obtain ⟨rfl, -, rfl⟩ := h
      rcases nextOrCreate_error hflags hn with ⟨-, rfl⟩ | ⟨he, -⟩
      · rfl
      · exact absurd he hne
    · simp only [createPath, hn] at h
      obtain ⟨hw₁, hf₁, -, hpath₁, hok₁⟩ :=
        nextOrCreate_spec hw hf (by omega) hk (hp.mem_tables (by omega) hk) hflags hn
      obtain ⟨hchild, hlook⟩ := hok₁ next rfl
      rw [ih pt₁ alloc₁ next (by omega) hw₁ hf₁ ((hpath₁ v hp).snoc hk hchild) pt' alloc' e h
        hne a, hlook a]

/-- **A map that fails other than on a huge page changes no translation.** -/
theorem map_error_lookup (hw : pt.Wf) (hf : pt.Fresh alloc) {S : PageSize} {page : Page S}
    {frame : Frame S} {flags : Flags} {e : MappingError}
    (h : map S pt alloc page frame flags = (pt', alloc', .error e))
    (hne : e ≠ .unexpectedLargePage) : ∀ a, pt'.lookup a = pt.lookup a := by
  have hS1 := S.level_pos
  have hS3 := S.level_le
  have hroot := pathTo_root pt S page.start
  rw [map_eq_mapWith] at h
  unfold mapWith at h
  rcases hc : createPath page.start S.level (parentFlags flags) (4 - S.level) pt alloc pt.root
    with ⟨pt₁, alloc₁, e₁ | t⟩
  · simp only [hc, Prod.mk.injEq, Except.error.injEq] at h
    obtain ⟨rfl, rfl, rfl⟩ := h
    exact createPath_error_lookup hS1 (parentFlags_not_huge flags) (4 - S.level) pt alloc
      pt.root (by omega) hw hf hroot _ _ _ hc hne
  · -- the walk reached the page's table; `AlreadyMapped` writes nothing more
    obtain ⟨-, -, -, hok⟩ := createPath_spec hS1 (parentFlags_not_huge flags) (4 - S.level) pt
      alloc pt.root (by omega) hw hf hroot _ _ _ hc
    simp only [hc] at h
    split_ifs at h
    · simp only [Prod.mk.injEq] at h
      obtain ⟨rfl, -, -⟩ := h
      exact (hok t rfl).2
    · simp only [Prod.mk.injEq, reduceCtorEq, and_false] at h

end PageTable

/-! ## §3 The Kernel's Calls -/

/-- A call of the kernel on the mappers of its page table. -/
inductive MapperCall
  | map (S : PageSize) (page : Page S) (frame : Frame S) (flags : Flags)
  | unmap (S : PageSize) (page : Page S)
  | updateFlags (S : PageSize) (page : Page S) (flags : Flags)

namespace MapperCall

/-- The page table and the frame allocator after a call; a failed `unmap` or
`update_flags` changes neither. -/
def run : MapperCall → PageTable × FrameAllocator → PageTable × FrameAllocator
  | .map S page frame flags, (pt, alloc) =>
    ((PageTable.map S pt alloc page frame flags).1, (PageTable.map S pt alloc page frame flags).2.1)
  | .unmap S page, (pt, alloc) =>
    match PageTable.unmap S pt page with
    | .ok (_, pt') => (pt', alloc)
    | .error _ => (pt, alloc)
  | .updateFlags S page flags, (pt, alloc) =>
    match PageTable.updateFlags S pt page flags with
    | .ok pt' => (pt', alloc)
    | .error _ => (pt, alloc)

/-- The calls whose `update_flags` keep the leaf present, and a huge page huge. -/
def KeepsLeaves : MapperCall → Prop
  | .updateFlags S _ flags =>
    flags.contains Flags.present = true ∧ (S ≠ .size4KiB → flags.contains Flags.hugePage = true)
  | _ => True

end MapperCall

/-- Where the kernel starts: a well-formed page table, and a frame allocator that returns
fresh frames. -/
def MapperInit (s : PageTable × FrameAllocator) : Prop := s.1.Wf ∧ s.1.Fresh s.2

/-- A call, any call. -/
def MapperStep (s : PageTable × FrameAllocator) (c : MapperCall)
    (s' : PageTable × FrameAllocator) : Prop :=
  s' = c.run s

/-- A call whose `update_flags` keep the leaves present. -/
def KeepingStep (s : PageTable × FrameAllocator) (c : MapperCall)
    (s' : PageTable × FrameAllocator) : Prop :=
  c.KeepsLeaves ∧ s' = c.run s

/-- From the empty page table at `0x1000`, with an allocator of the frames `0x2000`,
`0x3000` and `0x4000`, mapping page 0 to the frame `0x5000` and then updating its flags to
`Flags::EMPTY` reaches a page table that is not well formed. -/
theorem update_flags_empty_breaks_wf : ∃ s, Reachable MapperStep MapperInit s ∧ ¬ s.1.Wf := by
  obtain ⟨alloc, halloc⟩ : ∃ alloc : FrameAllocator, alloc =
      [⟨0x2000, by decide, by decide⟩, ⟨0x3000, by decide, by decide⟩, ⟨0x4000, by decide, by decide⟩] :=
    ⟨_, rfl⟩
  obtain ⟨pt', alloc', hmap⟩ : ∃ pt' alloc', PageTable.map4KiB (PageTable.empty 0x1000) alloc
      ⟨0, by decide, by decide⟩ ⟨0x5000, by decide, by decide⟩ Flags.writable =
        (pt', alloc', .ok ()) := by
    subst halloc
    exact ⟨_, _, rfl⟩
  have hinit : MapperInit (PageTable.empty 0x1000, alloc) := by
    refine ⟨PageTable.wf_empty _, (PageTable.fresh_empty_iff _ _).mpr ?_⟩
    subst halloc
    decide
  have hempty : Flags.empty.contains Flags.present = false := by decide
  obtain ⟨pt'', hupd, hbad⟩ :=
    PageTable.updateFlags4KiB_breaks_wf hinit.1 hinit.2 hmap (by decide) hempty
  have h₁ : MapperStep (PageTable.empty 0x1000, alloc)
      (.map .size4KiB ⟨0, by decide, by decide⟩ ⟨0x5000, by decide, by decide⟩ Flags.writable)
      (pt', alloc') := by
    simp only [MapperStep, MapperCall.run, PageTable.map, hmap]
  have h₂ : MapperStep (pt', alloc') (.updateFlags .size4KiB ⟨0, by decide, by decide⟩ Flags.empty)
      (pt'', alloc') := by
    simp only [MapperStep, MapperCall.run, PageTable.updateFlags, hupd]
  exact ⟨(pt'', alloc'), ⟨_, _, hinit, .cons h₁ (.cons h₂ (.nil _))⟩, hbad⟩

/-- One call whose `update_flags` keep the leaves present keeps the page table well formed
and the allocator fresh. -/
theorem MapperCall.run_init {s : PageTable × FrameAllocator} {c : MapperCall}
    (hs : MapperInit s) (hc : c.KeepsLeaves) : MapperInit (c.run s) := by
  obtain ⟨pt, alloc⟩ := s
  obtain ⟨hw, hf⟩ := hs
  cases c with
  | map S page frame flags =>
    rcases hm : PageTable.map S pt alloc page frame flags with ⟨pt', alloc', r⟩
    obtain ⟨hw', hf', -⟩ := PageTable.map_spec hw hf hm
    simp only [MapperCall.run, hm]
    exact ⟨hw', hf'⟩
  | unmap S page =>
    rcases hu : PageTable.unmap S pt page with e | ⟨f, pt'⟩
    · simp only [MapperCall.run, hu]
      exact ⟨hw, hf⟩
    · obtain ⟨-, hw', hfr, -⟩ := PageTable.unmap_spec hw hu
      simp only [MapperCall.run, hu]
      exact ⟨hw', hf.of_frames_eq hfr⟩
  | updateFlags S page flags =>
    rcases hu : PageTable.updateFlags S pt page flags with e | pt'
    · simp only [MapperCall.run, hu]
      exact ⟨hw, hf⟩
    · obtain ⟨hw', hfr⟩ := PageTable.updateFlags_spec hw hc.1 hc.2 hu
      simp only [MapperCall.run, hu]
      exact ⟨hw', hf.of_frames_eq hfr⟩

/-- `translate_addr` of an address whose lookup a call did not change. -/
theorem translateAddr_eq_of_lookup {pt pt' : PageTable} {a : Arch.VirtAddr}
    (h : pt'.lookup a.raw = pt.lookup a.raw) : pt'.translateAddr a = pt.translateAddr a := by
  rw [PageTable.translateAddr_eq, PageTable.translateAddr_eq, h]

/-- The mappers keep the page table a well-formed tree over every run of calls whose
`update_flags` keep `PRESENT`, and `HUGE_PAGE` on a huge page, with an allocator of fresh
frames; after `map(p, f, fl)` returns `Ok`, `translate(p)` gives `f` with the mapped
flags and no canonical address outside `p` changes its translation; and after a
following `unmap(p)` returns `Ok(f')`, `f' = f`, `translate(p)` gives nothing, and again
no canonical address outside `p` changes its translation. -/
theorem mappers_keep_wf_and_translations :
    (∀ s, Reachable KeepingStep MapperInit s → s.1.Wf ∧ s.1.Fresh s.2) ∧
    (∀ (S : PageSize) (pt pt' : PageTable) (alloc alloc' : FrameAllocator) (page : Page S)
        (frame : Frame S) (flags : Flags),
      pt.Wf → pt.Fresh alloc →
      PageTable.map S pt alloc page frame flags = (pt', alloc', .ok ()) →
      PageTable.translate S pt' page = some (frame, PageTable.mappedFlags S flags) ∧
      ∀ a : Arch.VirtAddr, Arch.canonicalize a.raw = a.raw →
        ¬ (page.start ≤ a.raw ∧ a.raw < page.start + S.size) →
        pt'.translateAddr a = pt.translateAddr a) ∧
    (∀ (S : PageSize) (pt pt' pt'' : PageTable) (alloc alloc' : FrameAllocator) (page : Page S)
        (frame f' : Frame S) (flags : Flags),
      pt.Wf → pt.Fresh alloc →
      PageTable.map S pt alloc page frame flags = (pt', alloc', .ok ()) →
      PageTable.unmap S pt' page = .ok (f', pt'') →
      f' = frame ∧ PageTable.translate S pt'' page = none ∧
      ∀ a : Arch.VirtAddr, Arch.canonicalize a.raw = a.raw →
        ¬ (page.start ≤ a.raw ∧ a.raw < page.start + S.size) →
        pt''.translateAddr a = pt'.translateAddr a) := by
  refine ⟨fun s hs => ?_, ?_, ?_⟩
  · -- The invariant of every run: `run_init` at each step.
    refine Reachable.invariant MapperInit (fun _ h => h) (fun s c s' hs hstep => ?_) hs
    obtain ⟨hc, rfl⟩ := hstep
    exact MapperCall.run_init hs hc
  · intro S pt pt' alloc alloc' page frame flags hw hf hmap
    obtain ⟨htr, hlook⟩ := (PageTable.map_spec hw hf hmap).2.2 rfl
    exact ⟨htr, fun a ha hout => translateAddr_eq_of_lookup (hlook a.raw ha hout)⟩
  · intro S pt pt' pt'' alloc alloc' page frame f' flags hw hf hmap hunmap
    obtain ⟨hw', -, hok⟩ := PageTable.map_spec hw hf hmap
    obtain ⟨⟨fl, htr'⟩, -, -, hnone, hlook⟩ := PageTable.unmap_spec hw' hunmap
    -- `unmap` read the frame `translate` gives, which is `map`'s.
    rw [(hok rfl).1] at htr'
    obtain ⟨hframe, -⟩ := Prod.mk.inj (Option.some.inj htr')
    exact ⟨hframe.symm, hnone, fun a ha hout => translateAddr_eq_of_lookup (hlook a.raw ha hout)⟩

/-- The empty page table at `0x1000` with an allocator of the frames `0x2000`, `0x3000` and
`0x4000`: mapping page 0 to the frame `0x5000` and unmapping it again is a run that keeps
the table well formed; after the map `translate` gives the frame with the mapped flags, and
the unmap returns that frame and leaves page 0 unmapped. -/
theorem mappers_keep_wf_and_translations_mapUnmap :
    ∃ pt' alloc' f' pt'', PageTable.map .size4KiB (PageTable.empty 0x1000)
        [⟨0x2000, by decide, by decide⟩, ⟨0x3000, by decide, by decide⟩, ⟨0x4000, by decide, by decide⟩]
        ⟨0, by decide, by decide⟩ ⟨0x5000, by decide, by decide⟩ Flags.writable = (pt', alloc', .ok ()) ∧
      PageTable.unmap .size4KiB pt' ⟨0, by decide, by decide⟩ = .ok (f', pt'') ∧
      (pt''.Wf ∧ pt''.Fresh alloc') ∧
      PageTable.translate .size4KiB pt' ⟨0, by decide, by decide⟩ =
        some (⟨0x5000, by decide, by decide⟩, PageTable.mappedFlags .size4KiB Flags.writable) ∧
      f' = ⟨0x5000, by decide, by decide⟩ ∧ PageTable.translate .size4KiB pt'' ⟨0, by decide, by decide⟩ = none := by
  generalize halloc : [(⟨0x2000, by decide, by decide⟩ : Frame .size4KiB), ⟨0x3000, by decide, by decide⟩,
    ⟨0x4000, by decide, by decide⟩] = alloc
  have hfresh : (PageTable.empty 0x1000).Fresh alloc := by
    refine (PageTable.fresh_empty_iff _ _).mpr ?_
    subst halloc
    decide
  obtain ⟨pt', alloc', f', pt'', hmap, hunmap⟩ : ∃ pt' alloc' f' pt'',
      PageTable.map .size4KiB (PageTable.empty 0x1000) alloc
        ⟨0, by decide, by decide⟩ ⟨0x5000, by decide, by decide⟩ Flags.writable = (pt', alloc', .ok ()) ∧
      PageTable.unmap .size4KiB pt' ⟨0, by decide, by decide⟩ = .ok (f', pt'') := by
    subst halloc
    exact ⟨_, _, _, _, rfl, rfl⟩
  -- the two calls are a run of the mappers from the empty table
  have hrun : Run KeepingStep (PageTable.empty 0x1000, alloc)
      [.map .size4KiB ⟨0, by decide, by decide⟩ ⟨0x5000, by decide, by decide⟩ Flags.writable,
        .unmap .size4KiB ⟨0, by decide, by decide⟩] (pt'', alloc') := by
    refine .cons ⟨trivial, rfl⟩ (.single ⟨trivial, ?_⟩)
    simp only [MapperCall.run, hmap, hunmap]
  have hinv := mappers_keep_wf_and_translations.1 _ ⟨_, _, ⟨PageTable.wf_empty _, hfresh⟩, hrun⟩
  have hmapped := (mappers_keep_wf_and_translations.2.1 .size4KiB _ pt' _ alloc' _ _ _
    (PageTable.wf_empty _) hfresh hmap).1
  obtain ⟨hframe, hnone, -⟩ := mappers_keep_wf_and_translations.2.2 .size4KiB _ pt' pt'' _ alloc' _ _ f' _
    (PageTable.wf_empty _) hfresh hmap hunmap
  subst halloc
  exact ⟨pt', alloc', f', pt'', hmap, hunmap, hinv, hmapped, hframe, hnone⟩

/-! ## §4 A Failed Map on a Huge Page -/

/-- A `map` that fails with `AlreadyMapped`, `NotMapped` or `FrameAllocationFailed` leaves
`translate_addr` of every address as it was. -/
theorem map_error_translateAddr {pt pt' : PageTable} {alloc alloc' : FrameAllocator}
    (hw : pt.Wf) (hf : pt.Fresh alloc) {S : PageSize} {page : Page S} {frame : Frame S}
    {flags : Flags} {e : MappingError}
    (h : PageTable.map S pt alloc page frame flags = (pt', alloc', .error e))
    (hne : e ≠ .unexpectedLargePage) (a : Arch.VirtAddr) :
    pt'.translateAddr a = pt.translateAddr a :=
  translateAddr_eq_of_lookup (PageTable.map_error_lookup hw hf h hne a.raw)

/-- From the empty page table at `0x1000` with the frames `0x2000` and `0x3000`, a kernel
2 MiB page at `0` mapped to `0x200000` with no flags; then a user 4 KiB page at `0` is
mapped over it, which fails with `UnexpectedLargePage`, and after that failure
`translate_addr(0)` gives the huge page with `USER_ACCESSIBLE` set. -/
theorem failed_map_widens_huge_page :
    ∃ pt₁ pt₂ : PageTable, ∃ alloc₁ alloc₂ : FrameAllocator,
      PageTable.map2MiB (PageTable.empty 0x1000)
          [⟨0x2000, by decide, by decide⟩, ⟨0x3000, by decide, by decide⟩]
          ⟨0, by decide, by decide⟩ ⟨0x200000, by decide, by decide⟩ Flags.empty =
        (pt₁, alloc₁, .ok ()) ∧
      PageTable.map4KiB pt₁ alloc₁ ⟨0, by decide, by decide⟩ ⟨0x5000, by decide, by decide⟩
          Flags.userAccessible = (pt₂, alloc₂, .error .unexpectedLargePage) ∧
      (pt₁.translateAddr ⟨0, by decide⟩).map (·.2.contains Flags.userAccessible) = some false ∧
      (pt₂.translateAddr ⟨0, by decide⟩).map (·.2.contains Flags.userAccessible) =
        some true := by
  refine ⟨_, _, _, _, rfl, rfl, by decide, by decide⟩

end Beskar.Paging
