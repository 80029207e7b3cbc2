import Mathlib

/-!
# Aligned Power-of-Two Blocks

The arithmetic of a binary buddy system.  A block `x : Nat × Nat` is the range of
`2 ^ x.2` addresses from `x.1`.  Inside an arena `[base, base + 2 ^ m)` a block is aligned
to its own size relative to `base`, so that the two halves of a block are blocks again
and every block has one buddy, found by flipping bit `x.2` of its offset, with which it
makes up the block of the next order.

`BlocksOk base m l` says that the blocks of `l` lie in the arena and are pairwise
disjoint.  It survives permuting `l`, splitting a block into its halves and merging a
block with its buddy: the three things a buddy allocator does to its blocks.

Section 4 flattens a family of lists indexed by order, as a buddy allocator keeps its free
lists, into one list of tagged entries, and says how that list changes when one of the
lists does.

The last two sections are about what a buddy allocator gives back.  `Coalesced` says that
no block of a list has its buddy in the list too, which is what merging on every free
keeps; `Covers` says that the blocks of a list cover a block.  The drain theorem
`Tiles.eq_single_of_coalesced` puts them together: disjoint aligned blocks that cover a
block and are coalesced are that one block.
-/

namespace Beskar.Lib

universe u

/-! ## §1 Disjoint Blocks -/

/-- Two blocks are disjoint when one ends before the other starts. -/
def BlockDisjoint (x y : Nat × Nat) : Prop :=
  x.1 + 2 ^ x.2 ≤ y.1 ∨ y.1 + 2 ^ y.2 ≤ x.1

theorem BlockDisjoint.symm {x y : Nat × Nat} (h : BlockDisjoint x y) : BlockDisjoint y x :=
  Or.symm h

/-- Whatever is disjoint from a block is disjoint from both its halves. -/
theorem BlockDisjoint.halves {c o : Nat} {y : Nat × Nat} (h : BlockDisjoint (c, o + 1) y) :
    BlockDisjoint (c, o) y ∧ BlockDisjoint (c + 2 ^ o, o) y := by
  unfold BlockDisjoint at *
  dsimp only at *
  have := Nat.one_le_two_pow (n := o)
  simp only [Nat.pow_succ] at h
  constructor <;> omega

/-- Whatever is disjoint from both halves of a block is disjoint from the block. -/
theorem BlockDisjoint.of_halves {c o : Nat} {y : Nat × Nat} (h₁ : BlockDisjoint (c, o) y)
    (h₂ : BlockDisjoint (c + 2 ^ o, o) y) : BlockDisjoint (c, o + 1) y := by
  unfold BlockDisjoint at *
  dsimp only at *
  have := Nat.one_le_two_pow (n := y.2)
  simp only [Nat.pow_succ]
  omega

/-- The two halves of a block are disjoint. -/
theorem blockDisjoint_halves (c o : Nat) : BlockDisjoint (c, o) (c + 2 ^ o, o) :=
  .inl (Nat.le_refl _)

/-! ## §2 Buddies -/

/-- A block aligned at order `o` and its buddy, whose offset differs in bit `o`, are the
two halves of a block aligned at order `o + 1`. -/
theorem buddy_halves {off o : Nat} (h : 2 ^ o ∣ off) :
    ∃ c, 2 ^ (o + 1) ∣ c ∧
      ((off = c ∧ off ^^^ 2 ^ o = c + 2 ^ o) ∨ (off = c + 2 ^ o ∧ off ^^^ 2 ^ o = c)) := by
  obtain ⟨q, rfl⟩ := h
  -- flipping bit `o` of `2 ^ o * q` flips bit `0` of `q`
  have hxor : 2 ^ o * q ^^^ 2 ^ o = (q ^^^ 1) * 2 ^ o := by
    rw [← Nat.shiftLeft_eq, Nat.shiftLeft_xor_distrib, Nat.shiftLeft_eq, Nat.shiftLeft_eq,
      Nat.one_mul, Nat.mul_comm]
  rcases Nat.even_or_odd q with ⟨r, hr⟩ | ⟨r, hr⟩
  · refine ⟨2 ^ o * q, ⟨r, ?_⟩, .inl ⟨rfl, ?_⟩⟩
    · rw [hr, Nat.pow_succ]
      ring
    · rw [hxor, Nat.xor_one_of_even ⟨r, hr⟩]
      ring
  · refine ⟨2 ^ o * (2 * r), ⟨r, ?_⟩, .inr ⟨?_, ?_⟩⟩
    · rw [Nat.pow_succ]
      ring
    · rw [hr]
      ring
    · rw [hxor, Nat.xor_one_of_odd ⟨r, hr⟩, hr]
      simp only [Nat.add_sub_cancel]
      ring

/-- A block and its buddy are the two halves of the block of the next order, which starts
at the lower of the two. -/
theorem merge_halves {base a o b : Nat} (ha : base ≤ a) (halign : 2 ^ o ∣ a - base)
    (hb : b = base + ((a - base) ^^^ 2 ^ o)) :
    ∃ c, 2 ^ (o + 1) ∣ c ∧ (if a < b then a else b) = base + c ∧
      ((a = base + c ∧ b = base + c + 2 ^ o) ∨ (a = base + c + 2 ^ o ∧ b = base + c)) := by
  have hpos := Nat.one_le_two_pow (n := o)
  obtain ⟨c, hc, hcase⟩ := buddy_halves halign
  have hpair : (a = base + c ∧ b = base + c + 2 ^ o) ∨ (a = base + c + 2 ^ o ∧ b = base + c) := by
    rcases hcase with ⟨h₁, h₂⟩ | ⟨h₁, h₂⟩
    · rw [h₂] at hb
      left
      omega
    · rw [h₂] at hb
      right
      omega
  refine ⟨c, hc, ?_, hpair⟩
  rcases hpair with ⟨rfl, rfl⟩ | ⟨rfl, rfl⟩
  · rw [if_pos (by omega)]
  · rw [if_neg (by omega)]

/-! ## §3 Blocks of an Arena -/

/-- A block of the arena `[base, base + 2 ^ m)`: aligned to its size relative to `base`. -/
structure InArena (base m : Nat) (x : Nat × Nat) : Prop where
  base_le : base ≤ x.1
  aligned : 2 ^ x.2 ∣ x.1 - base
  fits : x.1 - base + 2 ^ x.2 ≤ 2 ^ m

/-- Blocks of an arena, pairwise disjoint. -/
structure BlocksOk (base m : Nat) (l : List (Nat × Nat)) : Prop where
  inArena : ∀ x ∈ l, InArena base m x
  disjoint : l.Pairwise BlockDisjoint

section Arena

variable {base m : Nat} {l l' : List (Nat × Nat)}

theorem InArena.end_le {x : Nat × Nat} (h : InArena base m x) : x.1 + 2 ^ x.2 ≤ base + 2 ^ m := by
  have := h.base_le
  have := h.fits
  omega

theorem BlocksOk.nil : BlocksOk base m [] :=
  ⟨fun _ h => absurd h List.not_mem_nil, .nil⟩

theorem BlocksOk.single {x : Nat × Nat} (h : InArena base m x) : BlocksOk base m [x] :=
  ⟨fun y hy => by rw [List.mem_singleton.mp hy]; exact h, List.pairwise_singleton _ _⟩

theorem BlocksOk.perm (h : BlocksOk base m l) (hp : l.Perm l') : BlocksOk base m l' :=
  ⟨fun x hx => h.inArena x (hp.mem_iff.mpr hx), (hp.pairwise_iff BlockDisjoint.symm).mp h.disjoint⟩

theorem BlocksOk.tail {x : Nat × Nat} (h : BlocksOk base m (x :: l)) : BlocksOk base m l :=
  ⟨fun y hy => h.inArena y (List.mem_cons_of_mem x hy), (List.pairwise_cons.mp h.disjoint).2⟩

/-- A block of the list is disjoint from every other. -/
theorem BlocksOk.head_disjoint {x : Nat × Nat} (h : BlocksOk base m (x :: l)) :
    ∀ y ∈ l, BlockDisjoint x y :=
  (List.pairwise_cons.mp h.disjoint).1

/-- A block is not disjoint from itself, so a list of disjoint blocks holds each once. -/
theorem BlocksOk.not_mem_tail {x : Nat × Nat} (h : BlocksOk base m (x :: l)) : x ∉ l := by
  intro hx
  have hdis := h.head_disjoint x hx
  have := Nat.one_le_two_pow (n := x.2)
  unfold BlockDisjoint at hdis
  omega

/-- A block is split into its two halves. -/
theorem BlocksOk.split {c o : Nat} (h : BlocksOk base m ((c, o + 1) :: l)) :
    BlocksOk base m ((c, o) :: (c + 2 ^ o, o) :: l) := by
  have hc := h.inArena _ List.mem_cons_self
  obtain ⟨hle, ⟨k, hk⟩, hfits⟩ := hc
  simp only [Nat.pow_succ] at hk hfits
  have hhalf : ∀ y ∈ l, BlockDisjoint (c, o) y ∧ BlockDisjoint (c + 2 ^ o, o) y :=
    fun y hy => (h.head_disjoint y hy).halves
  refine ⟨?_, ?_⟩
  · intro x hx
    simp only [List.mem_cons] at hx
    rcases hx with rfl | rfl | hx
    · exact ⟨hle, ⟨2 * k, by rw [hk]; ring⟩, by simp only; omega⟩
    · refine ⟨by simp only; omega, ⟨2 * k + 1, ?_⟩, by simp only; omega⟩
      have hoff : c + 2 ^ o - base = (c - base) + 2 ^ o := by omega
      simp only
      rw [hoff, hk]
      ring
    · exact h.inArena x (List.mem_cons_of_mem _ hx)
  · refine List.Pairwise.cons ?_ (List.Pairwise.cons ?_ h.tail.disjoint)
    · intro y hy
      rcases List.mem_cons.mp hy with rfl | hy
      · exact blockDisjoint_halves c o
      · exact (hhalf y hy).1
    · exact fun y hy => (hhalf y hy).2

/-- A block is merged with its buddy into the block of the next order, which starts at the
lower of the two. -/
theorem BlocksOk.merge {a b o : Nat} (h : BlocksOk base m ((a, o) :: (b, o) :: l))
    (hb : b = base + ((a - base) ^^^ 2 ^ o)) :
    BlocksOk base m ((if a < b then a else b, o + 1) :: l) := by
  obtain ⟨hale, halign, hafit⟩ := h.inArena _ List.mem_cons_self
  obtain ⟨hble, -, hbfit⟩ := h.inArena _ (List.mem_cons_of_mem _ List.mem_cons_self)
  dsimp only at hale halign hafit hble hbfit
  have hpos := Nat.one_le_two_pow (n := o)
  -- the two blocks are the halves of `(base + c, o + 1)`, in one order or the other
  obtain ⟨c, ⟨k, hk⟩, hmin, hpair⟩ := merge_halves hale halign hb
  -- the upper half fits, so the whole block does
  have hfit : c + 2 ^ (o + 1) ≤ 2 ^ m := by
    rw [Nat.pow_succ]
    rcases hpair with ⟨rfl, rfl⟩ | ⟨rfl, rfl⟩ <;> omega
  refine ⟨?_, List.Pairwise.cons ?_ h.tail.tail.disjoint⟩
  · intro x hx
    rcases List.mem_cons.mp hx with rfl | hx
    · rw [hmin]
      refine ⟨?_, ?_, ?_⟩ <;> dsimp only
      · omega
      · rw [Nat.add_sub_cancel_left]
        exact ⟨k, hk⟩
      · rw [Nat.add_sub_cancel_left]
        exact hfit
    · exact h.inArena x (List.mem_cons_of_mem _ (List.mem_cons_of_mem _ hx))
  · intro y hy
    rw [hmin]
    have h₁ := h.head_disjoint y (List.mem_cons_of_mem _ hy)
    have h₂ := h.tail.head_disjoint y hy
    rcases hpair with ⟨rfl, rfl⟩ | ⟨rfl, rfl⟩
    · exact BlockDisjoint.of_halves h₁ h₂
    · exact BlockDisjoint.of_halves h₂ h₁

end Arena

/-! ## §4 Lists Indexed by Order -/

section Tagged

variable {α : Type u}

/-- The entries of the lists `f 0, …, f (n - 1)`, each tagged with its index. -/
def tagged (f : Nat → List α) (n : Nat) : List (α × Nat) :=
  (List.range n).flatMap fun o => (f o).map fun x => (x, o)

theorem tagged_succ (f : Nat → List α) (n : Nat) :
    tagged f (n + 1) = tagged f n ++ (f n).map fun x => (x, n) := by
  simp [tagged, List.range_succ, List.flatMap_append]

/-- Indices at or past `n` are not listed. -/
theorem tagged_update_of_le (f : Nat → List α) {n o : Nat} (ho : n ≤ o) (l : List α) :
    tagged (Function.update f o l) n = tagged f n := by
  induction n with
  | zero => rfl
  | succ n ih =>
    rw [tagged_succ, tagged_succ, ih (by omega), Function.update_of_ne (by omega)]

/-- Taking one entry out of list `o` takes its tagged entry out of the flattened list. -/
theorem tagged_perm_of_perm (f : Nat → List α) {n o : Nat} (ho : o < n) {x : α} {l : List α}
    (hf : (f o).Perm (x :: l)) :
    (tagged f n).Perm ((x, o) :: tagged (Function.update f o l) n) := by
  induction n with
  | zero => omega
  | succ n ih =>
    rw [tagged_succ, tagged_succ]
    by_cases hon : o = n
    · subst hon
      rw [tagged_update_of_le f (Nat.le_refl o), Function.update_self]
      have hmap := hf.map fun x => (x, o)
      simp only [List.map_cons] at hmap
      exact (List.Perm.append_left _ hmap).trans List.perm_middle
    · rw [Function.update_of_ne (Ne.symm hon)]
      exact (ih (by omega)).append_right _

theorem mem_tagged (f : Nat → List α) {n o : Nat} {x : α} :
    (x, o) ∈ tagged f n ↔ o < n ∧ x ∈ f o := by
  simp only [tagged, List.mem_flatMap, List.mem_range, List.mem_map, Prod.mk.injEq]
  constructor
  · rintro ⟨j, hj, y, hy, rfl, rfl⟩
    exact ⟨hj, hy⟩
  · rintro ⟨ho, hx⟩
    exact ⟨o, ho, x, hx, rfl, rfl⟩

/-- The flattened lists hold one entry, tagged with the last index: the last list is that
entry, and every other list is empty. -/
theorem tagged_succ_eq_single (f : Nat → List α) {n : Nat} {x : α}
    (h : tagged f (n + 1) = [(x, n)]) : f n = [x] ∧ ∀ o < n, f o = [] := by
  rw [tagged_succ, List.append_eq_singleton_iff] at h
  rcases h with ⟨hnil, hlast⟩ | ⟨hfirst, -⟩
  · obtain ⟨y, hy, hyx⟩ := List.map_eq_singleton_iff.mp hlast
    simp only [Prod.mk.injEq] at hyx
    refine ⟨hyx.1 ▸ hy, fun o ho => List.eq_nil_iff_forall_not_mem.mpr fun y hy => ?_⟩
    have hmem : (y, o) ∈ tagged f n := (mem_tagged f).mpr ⟨ho, hy⟩
    rw [hnil] at hmem
    exact List.not_mem_nil hmem
  · -- an entry tagged `n` is not among the first `n` lists
    have hmem : (x, n) ∈ tagged f n := by
      rw [hfirst]
      exact List.mem_singleton_self _
    exact absurd ((mem_tagged f).mp hmem).1 (Nat.lt_irrefl n)

end Tagged

/-! ## §5 Coalesced Blocks -/

section Coalesce

variable {base m k c o : Nat} {l l' : List (Nat × Nat)} {x z : Nat × Nat}

/-- The buddy of a block of the arena at `base`: bit `x.2` of its offset flipped. -/
def buddy (base : Nat) (x : Nat × Nat) : Nat × Nat :=
  (base + ((x.1 - base) ^^^ 2 ^ x.2), x.2)

@[simp] theorem buddy_snd (base : Nat) (x : Nat × Nat) : (buddy base x).2 = x.2 := rfl

theorem buddy_buddy (h : base ≤ x.1) : buddy base (buddy base x) = x := by
  obtain ⟨a, o⟩ := x
  simp only [buddy, Nat.add_sub_cancel_left, Nat.xor_xor_cancel_right, Nat.add_sub_cancel' h]

theorem buddy_ne (h : base ≤ x.1) : buddy base x ≠ x := by
  obtain ⟨a, o⟩ := x
  intro heq
  simp only [buddy, Prod.mk.injEq] at heq
  -- flipping a bit changes the offset
  have hoff : (a - base) ^^^ 2 ^ o = (a - base) ^^^ 0 := by
    rw [Nat.xor_zero]
    dsimp only at h
    omega
  exact absurd (Nat.xor_right_injective hoff) (Nat.two_pow_pos o).ne'

/-- The lower half of a block of order `o + 1` has the upper half as its buddy. -/
theorem xor_two_pow_of_dvd {off : Nat} (h : 2 ^ (o + 1) ∣ off) : off ^^^ 2 ^ o = off + 2 ^ o := by
  have hdvd : 2 ^ o ∣ off := (Nat.pow_dvd_pow 2 (Nat.le_succ o)).trans h
  obtain ⟨c, hc, ⟨hoc, hx⟩ | ⟨rfl, -⟩⟩ := buddy_halves hdvd
  · rw [hx, hoc]
  · -- `c + 2 ^ o` is not a multiple of `2 ^ (o + 1)`
    have hle := Nat.le_of_dvd (Nat.two_pow_pos o) ((Nat.dvd_add_right hc).mp h)
    have := Nat.two_pow_pos o
    rw [Nat.pow_succ] at hle
    omega

theorem buddy_of_dvd (hc : base ≤ c) (h : 2 ^ (o + 1) ∣ c - base) :
    buddy base (c, o) = (c + 2 ^ o, o) := by
  simp only [buddy, xor_two_pow_of_dvd h, Prod.mk.injEq, and_true]
  omega

/-- No block of `l` below order `m` has its buddy in `l`. -/
def Coalesced (base m : Nat) (l : List (Nat × Nat)) : Prop :=
  ∀ x ∈ l, x.2 < m → buddy base x ∉ l

/-- As `Coalesced`, but for the pair of `z` and its buddy. -/
def CoalescedExcept (base m : Nat) (l : List (Nat × Nat)) (z : Nat × Nat) : Prop :=
  ∀ x ∈ l, x.2 < m → buddy base x ∈ l → x = z ∨ buddy base x = z

theorem Coalesced.mono (h : Coalesced base m l) (hk : k ≤ m) (hsub : l' ⊆ l) :
    Coalesced base k l' :=
  fun x hx hlt hb => h x (hsub hx) (Nat.lt_of_lt_of_le hlt hk) (hsub hb)

theorem Coalesced.except (h : Coalesced base m l) (z : Nat × Nat) : CoalescedExcept base m l z :=
  fun x hx hlt hb => absurd hb (h x hx hlt)

theorem CoalescedExcept.mono (h : CoalescedExcept base m l z) (hsub : l' ⊆ l) :
    CoalescedExcept base m l' z :=
  fun x hx hlt hb => h x (hsub hx) hlt (hsub hb)

/-- Taking out the block that was let off leaves the list coalesced. -/
theorem CoalescedExcept.pop (h : CoalescedExcept base m (z :: l) z) (hz : z ∉ l) :
    Coalesced base m l := by
  intro x hx hlt hb
  rcases h x (List.mem_cons_of_mem _ hx) hlt (List.mem_cons_of_mem _ hb) with rfl | hbz
  · exact hz hx
  · exact hz (hbz ▸ hb)

/-- Splitting a block of a coalesced list leaves a list coalesced but for the two halves,
which are buddies; the upper half is let off. -/
theorem Coalesced.split (h : Coalesced base m l) (hl : ∀ y ∈ l, base ≤ y.1) (hc : base ≤ c)
    (hdvd : 2 ^ (o + 1) ∣ c - base) :
    CoalescedExcept base m ((c, o) :: (c + 2 ^ o, o) :: l) (c + 2 ^ o, o) := by
  have hlow := buddy_of_dvd hc hdvd
  have hhigh : buddy base (c + 2 ^ o, o) = (c, o) := by
    rw [← hlow, buddy_buddy hc]
  intro x hx hlt hb
  rcases List.mem_cons.mp hx with rfl | hx
  · exact .inr hlow
  rcases List.mem_cons.mp hx with rfl | hx
  · exact .inl rfl
  -- a block of `l`: its buddy can only be one of the halves
  rcases List.mem_cons.mp hb with hb | hb
  · left
    rw [← buddy_buddy (hl x hx), hb, hlow]
  rcases List.mem_cons.mp hb with hb | hb
  · exact .inr hb
  · exact absurd hb (h x hx hlt)

/-- Pushing a block whose buddy is not in a coalesced list keeps it coalesced. -/
theorem Coalesced.push (h : Coalesced base m l) (hl : ∀ y ∈ l, base ≤ y.1) (hx : base ≤ x.1)
    (hfree : x.2 < m → buddy base x ∉ l) : Coalesced base m (x :: l) := by
  intro y hy hlt hb
  rcases List.mem_cons.mp hy with rfl | hy
  · rcases List.mem_cons.mp hb with hb | hb
    · exact buddy_ne hx hb
    · exact hfree hlt hb
  · rcases List.mem_cons.mp hb with hb | hb
    · -- `y` would be the buddy of `x`
      have hyx : y = buddy base x := by rw [← hb, buddy_buddy (hl y hy)]
      have hlt' : x.2 < m := by rw [← hb, buddy_snd]; exact hlt
      exact hfree hlt' (hyx ▸ hy)
    · exact h y hy hlt hb

end Coalesce

/-! ## §6 Covering and the Drain -/

section Cover

variable {base m k c o a : Nat} {l l' : List (Nat × Nat)}

/-- Every address of the block `(c, k)` lies in a block of `l`. -/
def Covers (c k : Nat) (l : List (Nat × Nat)) : Prop :=
  ∀ a, c ≤ a → a < c + 2 ^ k → ∃ x ∈ l, x.1 ≤ a ∧ a < x.1 + 2 ^ x.2

theorem Covers.mono (h : Covers c k l) (hsub : l ⊆ l') : Covers c k l' := by
  intro a h₁ h₂
  obtain ⟨x, hx, hx₁, hx₂⟩ := h a h₁ h₂
  exact ⟨x, hsub hx, hx₁, hx₂⟩

/-- The two halves of a block cover what it covered. -/
theorem Covers.split {d : Nat} (h : Covers c k ((d, o + 1) :: l)) :
    Covers c k ((d, o) :: (d + 2 ^ o, o) :: l) := by
  intro a h₁ h₂
  obtain ⟨x, hx, hx₁, hx₂⟩ := h a h₁ h₂
  rcases List.mem_cons.mp hx with rfl | hx
  · -- the address is in one half or the other
    rw [Nat.pow_succ] at hx₂
    by_cases hlow : a < d + 2 ^ o
    · exact ⟨(d, o), List.mem_cons_self, hx₁, hlow⟩
    · exact ⟨(d + 2 ^ o, o), List.mem_cons_of_mem _ List.mem_cons_self, by dsimp only; omega,
        by dsimp only; omega⟩
  · exact ⟨x, List.mem_cons_of_mem _ (List.mem_cons_of_mem _ hx), hx₁, hx₂⟩

/-- A block and its buddy merged cover what the two covered. -/
theorem Covers.merge {a' b : Nat} (h : Covers c k ((a', o) :: (b, o) :: l)) (ha : base ≤ a')
    (halign : 2 ^ o ∣ a' - base) (hb : b = base + ((a' - base) ^^^ 2 ^ o)) :
    Covers c k ((if a' < b then a' else b, o + 1) :: l) := by
  obtain ⟨d, -, hmin, hpair⟩ := merge_halves ha halign hb
  have hsucc : 2 ^ (o + 1) = 2 ^ o + 2 ^ o := by rw [Nat.pow_succ]; omega
  intro t h₁ h₂
  obtain ⟨x, hx, hx₁, hx₂⟩ := h t h₁ h₂
  rcases List.mem_cons.mp hx with rfl | hx
  · refine ⟨_, List.mem_cons_self, ?_, ?_⟩ <;> dsimp only at hx₁ hx₂ ⊢ <;> rw [hmin] <;>
      rcases hpair with ⟨h₃, h₄⟩ | ⟨h₃, h₄⟩ <;> omega
  rcases List.mem_cons.mp hx with rfl | hx
  · refine ⟨_, List.mem_cons_self, ?_, ?_⟩ <;> dsimp only at hx₁ hx₂ ⊢ <;> rw [hmin] <;>
      rcases hpair with ⟨h₃, h₄⟩ | ⟨h₃, h₄⟩ <;> omega
  · exact ⟨x, List.mem_cons_of_mem _ hx, hx₁, hx₂⟩

/-- The blocks of `l`, aligned in the arena at `base`, lie inside its block `(c, k)` and
cover it. -/
structure Tiles (base c k : Nat) (l : List (Nat × Nat)) : Prop where
  aligned : ∀ x ∈ l, base ≤ x.1 ∧ 2 ^ x.2 ∣ x.1 - base
  inside : ∀ x ∈ l, c ≤ x.1 ∧ x.1 + 2 ^ x.2 ≤ c + 2 ^ k
  covers : Covers c k l

/-- A multiple of `d` below a multiple `n` of `d` is at least `d` below it. -/
theorem add_le_of_dvd {d x n : Nat} (hx : d ∣ x) (hn : d ∣ n) (hlt : x < n) : x + d ≤ n := by
  obtain ⟨q, rfl⟩ := hx
  obtain ⟨r, rfl⟩ := hn
  have hqr : q < r := Nat.lt_of_mul_lt_mul_left hlt
  calc d * q + d = d * (q + 1) := by rw [Nat.mul_succ]
    _ ≤ d * r := Nat.mul_le_mul_left d hqr

/-- Without the block `(c, k + 1)` itself, a tiling of it has blocks of order at most `k`. -/
theorem Tiles.order_le (ht : Tiles base c (k + 1) l) (hnot : (c, k + 1) ∉ l) :
    ∀ x ∈ l, x.2 ≤ k := by
  intro x hx
  obtain ⟨h₁, h₂⟩ := ht.inside x hx
  have hle : x.2 ≤ k + 1 :=
    (Nat.pow_le_pow_iff_right (show 1 < 2 by decide)).mp (by omega)
  rcases Nat.lt_or_eq_of_le hle with hlt | heq
  · omega
  · -- a block of order `k + 1` inside `(c, k + 1)` is `(c, k + 1)`
    rw [heq] at h₂
    have hxe : x = (c, k + 1) := Prod.ext (by dsimp only; omega) heq
    exact absurd (hxe ▸ hx) hnot

/-- The blocks in the lower half of a tiled block tile the lower half. -/
theorem Tiles.lower (ht : Tiles base c (k + 1) l) (hc : base ≤ c) (hck : 2 ^ (k + 1) ∣ c - base)
    (hle : ∀ x ∈ l, x.2 ≤ k) : Tiles base c k (l.filter fun x => x.1 < c + 2 ^ k) := by
  have hpow : 2 ^ (k + 1) = 2 ^ k + 2 ^ k := by rw [Nat.pow_succ]; omega
  refine ⟨fun x hx => ht.aligned x (List.mem_filter.mp hx).1, fun x hx => ?_, fun a h₁ h₂ => ?_⟩
  · obtain ⟨hx, hlt⟩ := List.mem_filter.mp hx
    have hlt : x.1 < c + 2 ^ k := by simpa using hlt
    obtain ⟨hbase, hal⟩ := ht.aligned x hx
    have hcx := (ht.inside x hx).1
    -- the block is aligned relative to `c`, so it ends by the end of the half
    have hsub : 2 ^ x.2 ∣ x.1 - c := by
      have hdc : 2 ^ x.2 ∣ c - base :=
        (Nat.pow_dvd_pow 2 (Nat.le_succ_of_le (hle x hx))).trans hck
      have := Nat.dvd_sub hal hdc
      rwa [show x.1 - base - (c - base) = x.1 - c by omega] at this
    have hend := add_le_of_dvd hsub (Nat.pow_dvd_pow 2 (hle x hx)) (by omega)
    exact ⟨hcx, by omega⟩
  · obtain ⟨x, hx, hx₁, hx₂⟩ := ht.covers a h₁ (by omega)
    exact ⟨x, List.mem_filter.mpr ⟨hx, by simpa using (show x.1 < c + 2 ^ k by omega)⟩, hx₁, hx₂⟩

/-- The blocks in the upper half of a tiled block tile the upper half. -/
theorem Tiles.upper (ht : Tiles base c (k + 1) l) (hc : base ≤ c) (hck : 2 ^ (k + 1) ∣ c - base)
    (hle : ∀ x ∈ l, x.2 ≤ k) :
    Tiles base (c + 2 ^ k) k (l.filter fun x => ¬ x.1 < c + 2 ^ k) := by
  have hpow : 2 ^ (k + 1) = 2 ^ k + 2 ^ k := by rw [Nat.pow_succ]; omega
  refine ⟨fun x hx => ht.aligned x (List.mem_filter.mp hx).1, fun x hx => ?_, fun a h₁ h₂ => ?_⟩
  · obtain ⟨hx, hge⟩ := List.mem_filter.mp hx
    have hge : ¬ x.1 < c + 2 ^ k := by simpa using hge
    have := (ht.inside x hx).2
    exact ⟨by omega, by omega⟩
  · obtain ⟨x, hx, hx₁, hx₂⟩ := ht.covers a (by omega) (by omega)
    by_cases hlow : x.1 < c + 2 ^ k
    · -- a block starting in the lower half ends there, before the address
      have := ((ht.lower hc hck hle).inside x (List.mem_filter.mpr ⟨hx, by simpa using hlow⟩)).2
      omega
    · exact ⟨x, List.mem_filter.mpr ⟨hx, by simpa using hlow⟩, hx₁, hx₂⟩

/-- **A coalesced tiling holds the tiled block.**  Below order `k` no block of the tiling
has its buddy in it; then the block `(c, k)` is one of its blocks.  By induction on `k`:
both halves are tiled by the blocks inside them, so both halves are blocks of the
tiling, and they are buddies. -/
theorem Tiles.mem_of_coalesced {k c : Nat} {l : List (Nat × Nat)} (ht : Tiles base c k l)
    (hc : base ≤ c) (hck : 2 ^ k ∣ c - base) (hco : Coalesced base k l) : (c, k) ∈ l := by
  induction k generalizing c l with
  | zero =>
    -- the one address `c` lies in a block of order `0` at `c`
    obtain ⟨x, hx, hx₁, hx₂⟩ := ht.covers c (Nat.le_refl c) (by simp)
    obtain ⟨h₁, h₂⟩ := ht.inside x hx
    have hord : x.2 = 0 := by
      have hle : 2 ^ x.2 ≤ 2 ^ 0 := by simp only [Nat.pow_zero] at h₂ ⊢; omega
      exact Nat.le_zero.mp ((Nat.pow_le_pow_iff_right (show 1 < 2 by decide)).mp hle)
    have hxe : x = (c, 0) := Prod.ext (by dsimp only; omega) hord
    exact hxe ▸ hx
  | succ k ih =>
    by_contra hnot
    have hle := ht.order_le hnot
    have hck' : 2 ^ k ∣ c - base := (Nat.pow_dvd_pow 2 (Nat.le_succ k)).trans hck
    have hlo := ih (ht.lower hc hck hle) hc hck'
      (hco.mono (Nat.le_succ k) fun _ hx => List.mem_of_mem_filter hx)
    have hhi := ih (ht.upper hc hck hle) (by omega)
      (by rw [show c + 2 ^ k - base = (c - base) + 2 ^ k by omega]; exact Nat.dvd_add hck' dvd_rfl)
      (hco.mono (Nat.le_succ k) fun _ hx => List.mem_of_mem_filter hx)
    -- the two halves are buddies, and both are in the tiling
    have hbuddy := buddy_of_dvd hc hck
    exact hco (c, k) (List.mem_of_mem_filter hlo) (Nat.lt_succ_self k)
      (hbuddy ▸ List.mem_of_mem_filter hhi)

/-- Disjoint blocks inside `(c, k)`, one of which is `(c, k)`, are that block alone. -/
theorem Tiles.eq_single_of_mem (ht : Tiles base c k l) (hd : l.Pairwise BlockDisjoint)
    (hmem : (c, k) ∈ l) : l = [(c, k)] := by
  -- every block inside `(c, k)` overlaps it
  have hover : ∀ x ∈ l, ¬ BlockDisjoint x (c, k) := by
    intro x hx hdis
    obtain ⟨h₁, h₂⟩ := ht.inside x hx
    have := Nat.one_le_two_pow (n := x.2)
    unfold BlockDisjoint at hdis
    dsimp only at hdis
    omega
  cases l with
  | nil => cases hmem
  | cons x rest =>
    obtain ⟨hhead, -⟩ := List.pairwise_cons.mp hd
    have hx : x = (c, k) := by
      rcases List.mem_cons.mp hmem with h | h
      · exact h.symm
      · exact absurd (hhead _ h) (hover x List.mem_cons_self)
    subst hx
    have hrest : rest = [] := List.eq_nil_iff_forall_not_mem.mpr fun y hy =>
      hover y (List.mem_cons_of_mem _ hy) (hhead y hy).symm
    rw [hrest]

/-- **The drain theorem.**  Disjoint aligned blocks that cover the block `(c, k)`, with no
two buddies among them, are the block `(c, k)` alone. -/
theorem Tiles.eq_single_of_coalesced (ht : Tiles base c k l) (hd : l.Pairwise BlockDisjoint)
    (hc : base ≤ c) (hck : 2 ^ k ∣ c - base) (hco : Coalesced base k l) : l = [(c, k)] :=
  ht.eq_single_of_mem hd (ht.mem_of_coalesced hc hck hco)

end Cover

end Beskar.Lib
