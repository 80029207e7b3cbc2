import Beskar.Paging.Entry
import Beskar.Lib.Blocks

/-!
# Page and Frame Ranges

`PageRangeInclusive`, `FrameRangeInclusive` and their iterators `PageIterator` and
`FrameIterator` of `beskar-core/src/arch/paging/{page,frame}.rs`. A range and its iterator
hold the same two fields, `start` and `end` (`RangeIter`, §2). `next` yields `start` and
steps it by `+ 1`, `next_back` yields `end` and steps it by `- 1`, and `len` is
`end - start + 1`. The steps are `Page + u64` and `Frame + u64` (§1). A page steps
through `VirtAddr + u64`, which sign-extends bit 47 and panics on `u64` overflow. A frame
steps through `PhysAddr + u64`, which truncates to 52 bits.

§3 is what an iteration does at the top of the address space. Every frame is at most the
last frame below `2 ^ 52`, and the frame after that one is frame `0`. So an iterator whose
end is the last frame never returns `None`. Every page is at most the page of
`VirtAddr::MAX`, and the step past that page overflows. So an iterator whose end is that
page, as in the range of the kernel's page allocator, panics instead of returning `None`
(`range_to_top_never_ends`). Across the canonical hole the iterator steps from the last
lower page to the first higher one, while `len` counts the hole
(`len_counts_canonical_hole`). `next_back` of a page range has no guard for page `0`
(`PageIterator.nextBack_zero`).

Short of those ends, the iterators yield exactly `Page.rangeInclusive` and
`Frame.rangeInclusive`, the lists that `Boot.KernelElf` walks, and `len` is their length
(§4).
-/

namespace Beskar.Paging

open Beskar.Lib

variable {S : PageSize}

/-! ## §1 Steps of a Page or a Frame -/

/-- The derived order of `Page` and `Frame`: by start address. -/
instance : LE (Page S) := ⟨fun p q => p.start ≤ q.start⟩
instance : LT (Page S) := ⟨fun p q => p.start < q.start⟩
instance (p q : Page S) : Decidable (p ≤ q) := inferInstanceAs (Decidable (p.start ≤ q.start))
instance (p q : Page S) : Decidable (p < q) := inferInstanceAs (Decidable (p.start < q.start))
instance : LE (Frame S) := ⟨fun f g => f.start ≤ g.start⟩
instance : LT (Frame S) := ⟨fun f g => f.start < g.start⟩
instance (f g : Frame S) : Decidable (f ≤ g) := inferInstanceAs (Decidable (f.start ≤ g.start))
instance (f g : Frame S) : Decidable (f < g) := inferInstanceAs (Decidable (f.start < g.start))

/-- `page - n`: `containing_address(start - n * SIZE)`, where the `u64` product and the
`VirtAddr` difference panic. -/
def Page.sub (p : Page S) (n : Nat) : Option (Page S) :=
  ((mulChecked 64 n S.size).bind (subChecked p.start)).map fun a =>
    Page.containingAddress S (Arch.VirtAddr.newExtend a)

/-- `page - other`: the `u64` difference of the start addresses, in pages. -/
def Page.diff (p q : Page S) : Option Nat := (subChecked p.start q.start).map (· / S.size)

/-- `frame + n`: `containing_address(start + n * SIZE)`. The `PhysAddr` sum truncates to
52 bits, after a `u64` sum that panics on overflow. -/
def Frame.add (f : Frame S) (n : Nat) : Option (Frame S) :=
  ((mulChecked 64 n S.size).bind (addChecked 64 f.start)).map (Frame.containingAddress S)

/-- `frame - n`. -/
def Frame.sub (f : Frame S) (n : Nat) : Option (Frame S) :=
  ((mulChecked 64 n S.size).bind (subChecked f.start)).map (Frame.containingAddress S)

/-- `frame - other`, in frames. -/
def Frame.diff (f g : Frame S) : Option Nat := (subChecked f.start g.start).map (· / S.size)

/-- The frame of `PhysAddr::MAX`, the last below `2 ^ 52`. -/
def Frame.last (S : PageSize) : Frame S := Frame.containingAddress S (2 ^ 52 - 1)

/-- The page of `VirtAddr::MAX`. -/
def Page.last (S : PageSize) : Page S := Page.containingAddress S ⟨2 ^ 64 - 1, by norm_num⟩

/-- Page `0`, the page of `VirtAddr::ZERO`. -/
def Page.zero (S : PageSize) : Page S := Page.containingAddress S Arch.VirtAddr.zero

theorem PageSize.size_dvd_two_pow_52 (S : PageSize) : S.size ∣ 2 ^ 52 := by
  cases S <;> decide

theorem PageSize.size_le (S : PageSize) : S.size ≤ 2 ^ 30 := by
  cases S <;> decide

/-- `1 * SIZE` never overflows. -/
theorem PageSize.mulChecked_one (S : PageSize) : mulChecked 64 1 S.size = some S.size :=
  mulChecked_eq_some.mpr ⟨by have := S.size_le; omega, Nat.one_mul _⟩

theorem Frame.last_start : (Frame.last S).start = 2 ^ 52 - S.size := by
  cases S <;> rfl

theorem Page.last_start : (Page.last S).start = 2 ^ 64 - S.size := by
  cases S <;> decide

theorem Page.start_lt (p : Page S) : p.start < 2 ^ 64 := by
  rw [← p.canonical]
  exact Arch.canonicalize_lt _

theorem Page.ext_start {p q : Page S} (h : p.start = q.start) : p = q := by
  cases p
  cases q
  cases h
  rfl

/-- Every frame is at most the last one. -/
theorem Frame.le_last (f : Frame S) : f ≤ Frame.last S := by
  have h := add_le_of_dvd (Nat.dvd_of_mod_eq_zero f.aligned) S.size_dvd_two_pow_52 f.lt
  show f.start ≤ (Frame.last S).start
  rw [Frame.last_start]
  omega

/-- Every page is at most the last one. -/
theorem Page.le_last (p : Page S) : p ≤ Page.last S := by
  have hd : S.size ∣ 2 ^ 64 := Nat.dvd_trans S.size_dvd (by decide)
  have h := add_le_of_dvd (Nat.dvd_of_mod_eq_zero p.aligned) hd p.start_lt
  show p.start ≤ (Page.last S).start
  rw [Page.last_start]
  omega

/-- `frame + 1` never panics: a frame is far below `2 ^ 64`. -/
theorem Frame.add_one (f : Frame S) :
    f.add 1 = some (Frame.containingAddress S (f.start + S.size)) := by
  have hadd : addChecked 64 f.start S.size = some (f.start + S.size) :=
    addChecked_eq_some.mpr ⟨by have := S.size_le; have := f.lt; omega, rfl⟩
  simp only [Frame.add, S.mulChecked_one, Option.bind_some, hadd, Option.map_some]

theorem Page.add_one_of_lt (p : Page S) (h : p.start + S.size < 2 ^ 64) :
    p.add 1 = some (Page.containingAddress S (Arch.VirtAddr.newExtend (p.start + S.size))) := by
  have hadd : addChecked 64 p.start S.size = some (p.start + S.size) :=
    addChecked_eq_some.mpr ⟨h, rfl⟩
  simp only [Page.add, S.mulChecked_one, Option.bind_some, hadd, Option.map_some]

/-- The step past the last page overflows the `u64` sum. -/
theorem Page.add_one_last : (Page.last S).add 1 = none := by
  have hadd : addChecked 64 (Page.last S).start S.size = none := by
    rw [addChecked_eq_none, Page.last_start]
    have : 0 < S.size := levelSize_pos _
    omega
  simp only [Page.add, S.mulChecked_one, Option.bind_some, hadd, Option.map_none]

/-- `page - 1` from page `0` underflows the `u64` difference. -/
theorem Page.sub_one_zero : (Page.zero S).sub 1 = none := by
  have hz : (Page.zero S).start = 0 := by cases S <;> rfl
  have hsub : subChecked (Page.zero S).start S.size = none :=
    subChecked_eq_none.mpr (by rw [hz]; exact levelSize_pos _)
  simp only [Page.sub, S.mulChecked_one, Option.bind_some, hsub, Option.map_none]

/-! ## §2 The Iterators -/

/-- `PageIterator` and `FrameIterator`, and the ranges they come from: the next item from
the front, `start`, and from the back, `end`. -/
structure RangeIter (α : Type) where
  start : α
  stop : α

namespace RangeIter

variable {α : Type}

section Order

variable [LE α] [LT α] [DecidableLE α] [DecidableLT α]

/-- `Iterator::next` of both iterators: the front item, and the front stepped on by `succ`
(`+ 1`, which may panic); `None` once the front is past the back. -/
def next (succ : α → Option α) (it : RangeIter α) : Option (Option α × RangeIter α) :=
  if it.start ≤ it.stop then (succ it.start).map fun s => (some it.start, { it with start := s })
  else some (none, it)

/-- `DoubleEndedIterator::next_back` of `PageIterator`: the back item, and the back stepped
down by `pred` (`- 1`, which may panic). -/
def nextBack (pred : α → Option α) (it : RangeIter α) : Option (Option α × RangeIter α) :=
  if it.start ≤ it.stop then (pred it.stop).map fun e => (some it.stop, { it with stop := e })
  else some (none, it)

/-- `len` of the ranges and `ExactSizeIterator::len`: `end - start + 1`, or `0` once the
front is past the back. -/
def len (diff : α → α → Option Nat) (it : RangeIter α) : Option Nat :=
  if it.stop < it.start then some 0 else (diff it.stop it.start).map (· + 1)

end Order

/-- `for x in it`, with fuel: the items up to the first `None`; `none` if a step panics or
the fuel runs out. -/
def drain (step : RangeIter α → Option (Option α × RangeIter α)) :
    Nat → RangeIter α → Option (List α)
  | 0, _ => none
  | fuel + 1, it =>
    match step it with
    | none => none
    | some (none, _) => some []
    | some (some a, it') => (drain step fuel it').map (a :: ·)

variable {step : RangeIter α → Option (Option α × RangeIter α)}

theorem drain_of_none {it : RangeIter α} (h : step it = none) (fuel : Nat) :
    drain step (fuel + 1) it = none := by
  simp [drain, h]

theorem drain_of_some {it it' : RangeIter α} {a : α} (h : step it = some (some a, it'))
    (fuel : Nat) : drain step (fuel + 1) it = (drain step fuel it').map (a :: ·) := by
  simp [drain, h]

/-- A drain never finishes if, from every iterator of an invariant `P`, a step either
panics or yields an item and keeps `P`. -/
theorem drain_eq_none_of_forever (P : RangeIter α → Prop)
    (hstep : ∀ it, P it → step it = none ∨ ∃ a it', step it = some (some a, it') ∧ P it') :
    ∀ fuel it, P it → drain step fuel it = none := by
  intro fuel
  induction fuel with
  | zero => intro _ _; rfl
  | succ fuel ih =>
    intro it hP
    rcases hstep it hP with h | ⟨a, it', h, hP'⟩
    · exact drain_of_none h fuel
    · rw [drain_of_some h, ih it' hP', Option.map_none]

/-- A drain along a run of steps: if the steps from `its 0`, …, `its n` yield `xs 0`, …,
`xs n` and the step from `its (n + 1)` yields nothing, the drain from `its j` yields the
items from `j` on. -/
theorem drain_of_steps (its : Nat → RangeIter α) (xs : Nat → α) {n : Nat}
    (hstep : ∀ k ≤ n, step (its k) = some (some (xs k), its (k + 1)))
    (hend : ∃ it', step (its (n + 1)) = some (none, it')) :
    ∀ m j fuel, j + m = n + 1 →
      drain step (fuel + m + 1) (its j) = some ((List.range' j m).map xs) := by
  intro m
  induction m with
  | zero =>
    intro j fuel hj
    obtain ⟨it', h⟩ := hend
    rw [Nat.add_zero] at hj
    subst hj
    simp [drain, h]
  | succ m ih =>
    intro j fuel hj
    rw [show fuel + (m + 1) + 1 = (fuel + m + 1) + 1 by omega, drain_of_some (hstep j (by omega)),
      ih (j + 1) fuel (by omega), List.range'_succ]
    rfl

section Order

variable [LE α] [DecidableLE α]

/-- A drain of `next` along items `nth 0`, …, `nth n` that are at most the back and each
step by `succ` to the next, with `nth (n + 1)` past the back, yields those items. -/
theorem drain_next_of_nth (succ : α → Option α) (nth : Nat → α) {b : α} {n : Nat}
    (hle : ∀ k ≤ n, nth k ≤ b) (hsucc : ∀ k ≤ n, succ (nth k) = some (nth (k + 1)))
    (hpast : ¬ nth (n + 1) ≤ b) (fuel : Nat) :
    drain (next succ) (fuel + (n + 1) + 1) ⟨nth 0, b⟩ = some ((List.range (n + 1)).map nth) := by
  have hsteps : ∀ k ≤ n, next succ ⟨nth k, b⟩ = some (some (nth k), ⟨nth (k + 1), b⟩) := by
    intro k hk
    simp only [next, if_pos (hle k hk), hsucc k hk, Option.map_some]
  have hend : ∃ it', next succ ⟨nth (n + 1), b⟩ = some (none, it') :=
    ⟨⟨nth (n + 1), b⟩, by simp only [next, if_neg hpast]⟩
  rw [drain_of_steps (fun k => ⟨nth k, b⟩) nth hsteps hend (n + 1) 0 fuel (by omega),
    List.range_eq_range']

end Order

end RangeIter

/-- `PageIterator<S>`. -/
abbrev PageIterator (S : PageSize) := RangeIter (Page S)

/-- `FrameIterator<S>`. -/
abbrev FrameIterator (S : PageSize) := RangeIter (Frame S)

/-- `PageIterator::next`. -/
def PageIterator.next (it : PageIterator S) : Option (Option (Page S) × PageIterator S) :=
  RangeIter.next (·.add 1) it

/-- `PageIterator::next_back`: it relies on page `0` never being the end. -/
def PageIterator.nextBack (it : PageIterator S) : Option (Option (Page S) × PageIterator S) :=
  RangeIter.nextBack (·.sub 1) it

/-- `PageIterator::len`. -/
def PageIterator.len (it : PageIterator S) : Option Nat := RangeIter.len Page.diff it

/-- `FrameIterator::next`. -/
def FrameIterator.next (it : FrameIterator S) : Option (Option (Frame S) × FrameIterator S) :=
  RangeIter.next (·.add 1) it

/-- `FrameIterator::next_back`: at frame `0` it steps the front past the back instead of
stepping the back below `0`. -/
def FrameIterator.nextBack (it : FrameIterator S) :
    Option (Option (Frame S) × FrameIterator S) :=
  if it.start ≤ it.stop then
    -- avoid underflow
    if it.stop.start = 0 then (it.stop.add 1).map fun s => (some it.stop, { it with start := s })
    else (it.stop.sub 1).map fun e => (some it.stop, { it with stop := e })
  else some (none, it)

/-- `FrameIterator::len`. -/
def FrameIterator.len (it : FrameIterator S) : Option Nat := RangeIter.len Frame.diff it

/-! ## §3 The Top of the Address Space -/

theorem range_to_top_never_ends (S : PageSize) :
    (∀ (it : FrameIterator S), it.stop = Frame.last S →
      ∀ fuel, RangeIter.drain FrameIterator.next fuel it = none) ∧
    (∀ (it : PageIterator S), it.stop = Page.last S →
      ∀ fuel, RangeIter.drain PageIterator.next fuel it = none) ∧
    PageIterator.next ⟨Page.last S, Page.last S⟩ = none := by
  refine ⟨fun it h fuel => ?_, fun it h fuel => ?_, ?_⟩
  · -- every frame is at most the last, and `+ 1` never panics: each step yields a frame
    refine RangeIter.drain_eq_none_of_forever (fun it => it.stop = Frame.last S)
      (fun it h => ?_) fuel it h
    right
    refine ⟨it.start, { it with start := Frame.containingAddress S (it.start.start + S.size) },
      ?_, h⟩
    have hle : it.start ≤ it.stop := h ▸ it.start.le_last
    simp [FrameIterator.next, RangeIter.next, hle, Frame.add_one]
  · -- every page is at most the last: each step yields a page, until the step past the last
    refine RangeIter.drain_eq_none_of_forever (fun it => it.stop = Page.last S)
      (fun it h => ?_) fuel it h
    have hle : it.start ≤ it.stop := h ▸ it.start.le_last
    cases hs : it.start.add 1 with
    | none =>
      left
      simp [PageIterator.next, RangeIter.next, hle, hs]
    | some q =>
      right
      exact ⟨it.start, { it with start := q },
        by simp [PageIterator.next, RangeIter.next, hle, hs], h⟩
  · have hle : Page.last S ≤ Page.last S := Nat.le_refl _
    simp [PageIterator.next, RangeIter.next, hle, Page.add_one_last]

/-- All of physical memory in 4 KiB frames, drained. -/
theorem range_to_top_never_ends_4KiB :
    RangeIter.drain FrameIterator.next 4096
      ⟨Frame.containingAddress .size4KiB 0, Frame.last .size4KiB⟩ = none :=
  (range_to_top_never_ends .size4KiB).1 _ rfl 4096

/-- The last page of the lower half. -/
def lowerTop (S : PageSize) : Page S := Page.containingAddress S ⟨2 ^ 47 - 1, by norm_num⟩

/-- The first page of the higher half. -/
def higherBottom (S : PageSize) : Page S :=
  Page.containingAddress S ⟨2 ^ 64 - 2 ^ 47, by norm_num⟩

/-- From the last lower page to the first higher one the iterator yields the two pages,
while `len` counts every page of the hole between them. -/
theorem len_counts_canonical_hole (S : PageSize) :
    (RangeIter.drain PageIterator.next 3 ⟨lowerTop S, higherBottom S⟩).map (·.map Page.start) =
      some [2 ^ 47 - S.size, 2 ^ 64 - 2 ^ 47] ∧
    PageIterator.len ⟨lowerTop S, higherBottom S⟩ = some ((2 ^ 64 - 2 ^ 48) / S.size + 2) := by
  cases S <;> decide

/-- The range of page `0` alone panics from the back. -/
theorem PageIterator.nextBack_zero : PageIterator.nextBack ⟨Page.zero S, Page.zero S⟩ = none := by
  have hle : Page.zero S ≤ Page.zero S := Nat.le_refl _
  simp only [PageIterator.nextBack, RangeIter.nextBack, if_pos hle, Page.sub_one_zero,
    Option.map_none]

/-! ## §4 Short of the Top: the Ranges as Lists -/

/-- The page `k` pages after `a`, as `Page.rangeInclusive` steps to it. -/
def Page.nth (a : Page S) (k : Nat) : Page S :=
  Page.containingAddress S (Arch.VirtAddr.newExtend (a.start + k * S.size))

/-- The frame `k` frames after `a`, as `Frame.rangeInclusive` steps to it. -/
def Frame.nth (a : Frame S) (k : Nat) : Frame S := Frame.containingAddress S (a.start + k * S.size)

theorem Page.rangeInclusive_eq (a b : Page S) :
    Page.rangeInclusive a b =
      if a.start ≤ b.start then (List.range ((b.start - a.start) / S.size + 1)).map a.nth
      else [] :=
  rfl

theorem Frame.rangeInclusive_eq (a b : Frame S) :
    Frame.rangeInclusive a b =
      if a.start ≤ b.start then (List.range ((b.start - a.start) / S.size + 1)).map a.nth
      else [] :=
  rfl

/-- An aligned canonical address is the start of its own page. -/
theorem Page.containingAddress_start_of_canonical {x : Nat} (hc : Arch.canonicalize x = x)
    (hal : x % S.size = 0) : (Page.containingAddress S (Arch.VirtAddr.newExtend x)).start = x := by
  show Arch.canonicalize (Arch.canonicalize x - Arch.canonicalize x % S.size) = x
  rw [hc, hal, Nat.sub_zero, hc]

/-- The address after the lower half has its page at the start of the higher half. -/
theorem Page.containingAddress_two_pow_47 :
    (Page.containingAddress S (Arch.VirtAddr.newExtend (2 ^ 47))).start = 2 ^ 64 - 2 ^ 47 := by
  cases S <;> decide

/-- An aligned address below `2 ^ 52` is the start of its own frame. -/
theorem Frame.containingAddress_start_of_lt {x : Nat} (hx : x < 2 ^ 52) (hal : x % S.size = 0) :
    (Frame.containingAddress S x).start = x := by
  show x % 2 ^ 52 - x % 2 ^ 52 % S.size = x
  rw [Nat.mod_eq_of_lt hx, hal, Nat.sub_zero]

/-- The difference of two starts is a whole number of pages or frames. -/
theorem div_mul_eq_sub {x y : Nat} (hx : x % S.size = 0) (hy : y % S.size = 0) :
    (y - x) / S.size * S.size = y - x :=
  Nat.div_mul_cancel (Nat.dvd_of_mod_eq_zero (Nat.sub_mod_eq_zero_of_mod_eq (hy.trans hx.symm)))

/-- Within one half of the address space and short of its last page, the iterator yields
exactly `Page.rangeInclusive`. -/
theorem PageIterator.drain_next_eq_rangeInclusive {a b : Page S} (hab : a ≤ b)
    (hhalf : b.start + S.size ≤ 2 ^ 47 ∨ (2 ^ 64 - 2 ^ 47 ≤ a.start ∧ b.start + S.size < 2 ^ 64))
    (fuel : Nat) :
    RangeIter.drain PageIterator.next (fuel + ((b.start - a.start) / S.size + 1) + 1) ⟨a, b⟩ =
      some (Page.rangeInclusive a b) := by
  have hab' : a.start ≤ b.start := hab
  have hsize : 0 < S.size := levelSize_pos _
  have hb := b.start_lt
  -- the range is `n + 1` whole pages
  obtain ⟨n, hn⟩ : ∃ n, (b.start - a.start) / S.size = n := ⟨_, rfl⟩
  have hdiff : n * S.size = b.start - a.start := hn ▸ div_mul_eq_sub a.aligned b.aligned
  have hsucc : ∀ k, (k + 1) * S.size = k * S.size + S.size := fun k => Nat.succ_mul _ _
  -- every page up to `n` starts where the range says, in the half the range is in
  have hstart : ∀ k ≤ n, (a.nth k).start = a.start + k * S.size := by
    intro k hk
    have hk' : k * S.size ≤ n * S.size := Nat.mul_le_mul_right _ hk
    apply Page.containingAddress_start_of_canonical
    · rcases hhalf with h | ⟨h₁, h₂⟩
      · exact Arch.canonicalize_of_lt (by omega)
      · exact Arch.canonicalize_of_high (by omega) (by omega)
    · rw [Nat.add_mul_mod_self_right]
      exact a.aligned
  have hle : ∀ k ≤ n, a.nth k ≤ b := by
    intro k hk
    have hk' : k * S.size ≤ n * S.size := Nat.mul_le_mul_right _ hk
    show (a.nth k).start ≤ b.start
    rw [hstart k hk]
    omega
  -- one step from page `k ≤ n` moves to page `k + 1`, short of the end of the half
  have hadd : ∀ k ≤ n, (a.nth k).add 1 = some (a.nth (k + 1)) := by
    intro k hk
    have hk' : k * S.size ≤ n * S.size := Nat.mul_le_mul_right _ hk
    have h := (a.nth k).add_one_of_lt (by rw [hstart k hk]; rcases hhalf with h | h <;> omega)
    rw [hstart k hk, Nat.add_assoc, ← hsucc] at h
    exact h
  -- the page after `n` is past `b`, in the same half or at the start of the higher one
  have hnot : ¬ a.nth (n + 1) ≤ b := by
    show ¬ (a.nth (n + 1)).start ≤ b.start
    have hx : a.start + (n + 1) * S.size = b.start + S.size := by rw [hsucc]; omega
    have hal : (b.start + S.size) % S.size = 0 := by rw [Nat.add_mod_right]; exact b.aligned
    unfold Page.nth
    rw [hx]
    rcases hhalf with h | ⟨h₁, h₂⟩
    · rcases Nat.lt_or_eq_of_le h with h | h
      · rw [Page.containingAddress_start_of_canonical (Arch.canonicalize_of_lt h) hal]
        omega
      · rw [h, Page.containingAddress_two_pow_47]
        omega
    · rw [Page.containingAddress_start_of_canonical (Arch.canonicalize_of_high h₂ (by omega)) hal]
      omega
  have hdrain := RangeIter.drain_next_of_nth (·.add 1) a.nth hle hadd hnot fuel
  have ha : a.nth 0 = a := Page.ext_start (by
    rw [hstart 0 (Nat.zero_le _), Nat.zero_mul, Nat.add_zero])
  rw [ha] at hdrain
  rw [hn, Page.rangeInclusive_eq, if_pos hab', hn]
  exact hdrain

/-- Short of the last frame, the iterator yields exactly `Frame.rangeInclusive`. -/
theorem FrameIterator.drain_next_eq_rangeInclusive {a b : Frame S} (hab : a ≤ b)
    (hlast : b.start + S.size < 2 ^ 52) (fuel : Nat) :
    RangeIter.drain FrameIterator.next (fuel + ((b.start - a.start) / S.size + 1) + 1) ⟨a, b⟩ =
      some (Frame.rangeInclusive a b) := by
  have hab' : a.start ≤ b.start := hab
  -- the range is `n + 1` whole frames
  obtain ⟨n, hn⟩ : ∃ n, (b.start - a.start) / S.size = n := ⟨_, rfl⟩
  have hdiff : n * S.size = b.start - a.start := hn ▸ div_mul_eq_sub a.aligned b.aligned
  have hsucc : ∀ k, (k + 1) * S.size = k * S.size + S.size := fun k => Nat.succ_mul _ _
  -- every frame up to `n + 1` starts where the range says: nothing reaches `2 ^ 52`
  have hstart : ∀ k ≤ n + 1, (a.nth k).start = a.start + k * S.size := by
    intro k hk
    have hk' : k * S.size ≤ (n + 1) * S.size := Nat.mul_le_mul_right _ hk
    apply Frame.containingAddress_start_of_lt
    · rw [hsucc] at hk'
      omega
    · rw [Nat.add_mul_mod_self_right]
      exact a.aligned
  have hle : ∀ k ≤ n, a.nth k ≤ b := by
    intro k hk
    have hk' : k * S.size ≤ n * S.size := Nat.mul_le_mul_right _ hk
    show (a.nth k).start ≤ b.start
    rw [hstart k (by omega)]
    omega
  -- one step from frame `k ≤ n` moves to frame `k + 1`
  have hadd : ∀ k ≤ n, (a.nth k).add 1 = some (a.nth (k + 1)) := by
    intro k hk
    have h := (a.nth k).add_one
    rw [hstart k (by omega), Nat.add_assoc, ← hsucc] at h
    exact h
  -- the frame after `n` is past `b`
  have hnot : ¬ a.nth (n + 1) ≤ b := by
    show ¬ (a.nth (n + 1)).start ≤ b.start
    rw [hstart (n + 1) (Nat.le_refl _), hsucc]
    have : 0 < S.size := levelSize_pos _
    omega
  have hdrain := RangeIter.drain_next_of_nth (·.add 1) a.nth hle hadd hnot fuel
  have ha : a.nth 0 = a := Frame.ext_start (by
    rw [hstart 0 (Nat.zero_le _), Nat.zero_mul, Nat.add_zero])
  rw [ha] at hdrain
  rw [hn, Frame.rangeInclusive_eq, if_pos hab', hn]
  exact hdrain

/-- `len` counts the pages of `Page.rangeInclusive`. -/
theorem PageIterator.len_eq_length {a b : Page S} (hab : a ≤ b) :
    PageIterator.len ⟨a, b⟩ = some (Page.rangeInclusive a b).length := by
  have hab' : a.start ≤ b.start := hab
  have hlt : ¬ b < a := Nat.not_lt.mpr hab
  simp [PageIterator.len, RangeIter.len, hlt, Page.diff, subChecked, hab', Page.rangeInclusive_eq]

/-- `len` counts the frames of `Frame.rangeInclusive`. -/
theorem FrameIterator.len_eq_length {a b : Frame S} (hab : a ≤ b) :
    FrameIterator.len ⟨a, b⟩ = some (Frame.rangeInclusive a b).length := by
  have hab' : a.start ≤ b.start := hab
  have hlt : ¬ b < a := Nat.not_lt.mpr hab
  simp [FrameIterator.len, RangeIter.len, hlt, Frame.diff, subChecked, hab',
    Frame.rangeInclusive_eq]

end Beskar.Paging
