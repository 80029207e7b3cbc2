import Mathlib

/-!
# Runs of Labelled Transition Systems

A component that evolves by atomic steps (threads sharing a lock, producers and a
consumer sharing a queue, cores sharing a run queue) is modelled as a labelled step
relation `step s l s'`, where the label `l` names who moves.  A *run* is the list of
labels taken from one state to another, so a property of every run is a property of
every interleaving of the parties' atomic steps.

## Contents

- `Run step s ls t` — the labels `ls` lead from `s` to `t`.
- `Run.invariant` — an invariant kept by every step holds along every run.
- `Run.simulate` — a step-wise simulation of one system by another holds over every run.
- `Reachable step init s` — some run from an initial state ends in `s`,
  with `Reachable.invariant` as its induction rule.
- `exec f s ls` — the run of a step *function* `f : σ → α → Option σ`
  (`none` when the label cannot move), which evaluates a concrete schedule;
  `exec_run` connects it to `Run`.
- `countParties p f` — how many of finitely many parties are in a local state
  satisfying `p`; `countParties_update` says how one party's move changes it.
- `sum_add_eq_of_update` — how one party's move changes a sum over the parties.

Nothing here mentions a particular system; the kernel models instantiate it.
-/

namespace Beskar.Lib

universe u v

variable {σ : Type u} {α : Type v}

/-! ## §1 Runs -/

/-- `Run step s ls t`: taking the labels `ls` one after the other leads from `s` to `t`. -/
inductive Run (step : σ → α → σ → Prop) : σ → List α → σ → Prop where
  /-- The empty run stays in place. -/
  | nil (s : σ) : Run step s [] s
  /-- One step, then the rest of the run. -/
  | cons {s t u : σ} {a : α} {as : List α} :
      step s a t → Run step t as u → Run step s (a :: as) u

namespace Run

variable {step : σ → α → σ → Prop}

/-- A single step is a run of length one. -/
theorem single {s t : σ} {a : α} (h : step s a t) : Run step s [a] t :=
  .cons h (.nil t)

/-- Runs compose. -/
theorem append {s t u : σ} {as bs : List α} (h₁ : Run step s as t) (h₂ : Run step t bs u) :
    Run step s (as ++ bs) u := by
  induction h₁ with
  | nil => exact h₂
  | cons hst _ ih => exact .cons hst (ih h₂)

/-- A run extended by one step at its end. -/
theorem snoc {s t u : σ} {as : List α} {a : α} (h : Run step s as t) (hstep : step t a u) :
    Run step s (as ++ [a]) u :=
  h.append (single hstep)

/-- **Invariant rule**: a predicate kept by every step holds at the end of every run
that starts in it. -/
theorem invariant (P : σ → Prop) (hstep : ∀ s a t, P s → step s a t → P t)
    {s t : σ} {as : List α} (h : Run step s as t) (hs : P s) : P t := by
  induction h with
  | nil => exact hs
  | cons hst _ ih => exact ih (hstep _ _ _ hs hst)

/-- A run splits at any point of its label list. -/
theorem split {s u : σ} {as bs : List α} (h : Run step s (as ++ bs) u) :
    ∃ t, Run step s as t ∧ Run step t bs u := by
  induction as generalizing s with
  | nil => exact ⟨s, .nil s, h⟩
  | cons a as ih =>
    cases h with
    | cons hst hrest =>
      obtain ⟨t, h₁, h₂⟩ := ih hrest
      exact ⟨t, .cons hst h₁, h₂⟩

end Run

/-! ## §2 Reachable States -/

/-- A state is reachable when some run from an initial state ends in it. -/
def Reachable (step : σ → α → σ → Prop) (init : σ → Prop) (s : σ) : Prop :=
  ∃ s₀ ls, init s₀ ∧ Run step s₀ ls s

namespace Reachable

variable {step : σ → α → σ → Prop} {init : σ → Prop}

/-- Initial states are reachable. -/
theorem of_init {s : σ} (h : init s) : Reachable step init s :=
  ⟨s, [], h, .nil s⟩

/-- A step from a reachable state reaches a reachable state. -/
theorem tail {s t : σ} {a : α} (h : Reachable step init s) (hst : step s a t) :
    Reachable step init t := by
  obtain ⟨s₀, ls, h₀, hrun⟩ := h
  exact ⟨s₀, ls ++ [a], h₀, hrun.snoc hst⟩

/-- **Induction rule for reachable states**: a predicate that holds initially and is kept
by every step holds in every reachable state. -/
theorem invariant (P : σ → Prop) (h₀ : ∀ s, init s → P s)
    (hstep : ∀ s a t, P s → step s a t → P t) {s : σ} (h : Reachable step init s) : P s := by
  obtain ⟨s₀, ls, hinit, hrun⟩ := h
  exact hrun.invariant P hstep (h₀ s₀ hinit)

end Reachable

/-! ## §3 Deterministic Steps -/

/-- The step relation of a step function: `a` moves `s` to `t` when `f s a = some t`. -/
def Det (f : σ → α → Option σ) (s : σ) (a : α) (t : σ) : Prop :=
  f s a = some t

/-- Run a schedule through a step function; `none` as soon as a label cannot move. -/
def exec (f : σ → α → Option σ) : σ → List α → Option σ
  | s, [] => some s
  | s, a :: as => (f s a).bind fun t => exec f t as

@[simp] theorem exec_nil (f : σ → α → Option σ) (s : σ) : exec f s [] = some s := rfl

@[simp] theorem exec_cons (f : σ → α → Option σ) (s : σ) (a : α) (as : List α) :
    exec f s (a :: as) = (f s a).bind fun t => exec f t as := rfl

/-- A schedule runs in two parts. -/
theorem exec_append (f : σ → α → Option σ) (s : σ) (as bs : List α) :
    exec f s (as ++ bs) = (exec f s as).bind fun t => exec f t bs := by
  induction as generalizing s with
  | nil => rfl
  | cons a as ih =>
    rw [List.cons_append, exec_cons, exec_cons, Option.bind_assoc]
    congr 1
    funext t
    exact ih t

/-- An executed schedule is a run of the step relation. -/
theorem exec_run {f : σ → α → Option σ} {s t : σ} {as : List α} (h : exec f s as = some t) :
    Run (Det f) s as t := by
  induction as generalizing s with
  | nil =>
    simp only [exec_nil, Option.some.injEq] at h
    subst h
    exact .nil s
  | cons a as ih =>
    simp only [exec_cons, Option.bind_eq_some_iff] at h
    obtain ⟨u, hsu, hrest⟩ := h
    exact .cons hsu (ih hrest)

/-! ## §4 Counting Parties

A shared counter is often meant to count the parties in some local state, such as the
readers inside a lock.  Moving one party changes that number by at most one. -/

section Count

variable {τ : Type u} {π : Type v} [Fintype τ]

/-- How many parties are in a local state satisfying `p`. -/
def countParties (p : π → Bool) (f : τ → π) : Nat :=
  (Finset.univ.filter fun x => p (f x) = true).card

theorem countParties_le_card (p : π → Bool) (f : τ → π) :
    countParties p f ≤ Fintype.card τ :=
  Finset.card_filter_le _ _

theorem countParties_eq_zero_iff {p : π → Bool} {f : τ → π} :
    countParties p f = 0 ↔ ∀ x, p (f x) = false := by
  unfold countParties
  rw [Finset.card_eq_zero, Finset.filter_eq_empty_iff]
  simp

theorem countParties_pos {p : π → Bool} {f : τ → π} {x : τ} (hx : p (f x) = true) :
    0 < countParties p f := by
  apply Finset.card_pos.mpr
  exact ⟨x, Finset.mem_filter.mpr ⟨Finset.mem_univ x, hx⟩⟩

/-- A count above zero has a party in the class. -/
theorem exists_of_countParties_pos {p : π → Bool} {f : τ → π} (h : 0 < countParties p f) :
    ∃ x, p (f x) = true := by
  obtain ⟨x, hx⟩ := Finset.card_pos.mp h
  exact ⟨x, (Finset.mem_filter.mp hx).2⟩

/-- Two distinct parties in a `p` state make a count above one. -/
theorem one_lt_countParties {p : π → Bool} {f : τ → π} {x y : τ} (hne : x ≠ y)
    (hx : p (f x) = true) (hy : p (f y) = true) : 1 < countParties p f := by
  apply Finset.one_lt_card.mpr
  exact ⟨x, Finset.mem_filter.mpr ⟨Finset.mem_univ x, hx⟩,
    y, Finset.mem_filter.mpr ⟨Finset.mem_univ y, hy⟩, hne⟩

/-- Counts of two classes agree when every party is in both or in neither. -/
theorem countParties_congr {p q : π → Bool} {f g : τ → π} (h : ∀ x, p (f x) = q (g x)) :
    countParties p f = countParties q g := by
  unfold countParties
  congr 1
  ext x
  simp [h x]

/-- A party outside the class leaves the count below the number of parties. -/
theorem countParties_lt_card {p : π → Bool} {f : τ → π} {x : τ} (hx : p (f x) = false) :
    countParties p f < Fintype.card τ := by
  apply Finset.card_lt_univ_of_notMem (x := x)
  simp [hx]

/-- Two classes of local states with no state in common are counted apart. -/
theorem countParties_add {p q : π → Bool} (f : τ → π) (h : ∀ v, p v = true → q v = false) :
    countParties p f + countParties q f = countParties (fun v => p v || q v) f := by
  classical
  unfold countParties
  rw [← Finset.card_union_of_disjoint]
  · congr 1
    ext x
    simp [Bool.or_eq_true]
  · rw [Finset.disjoint_filter]
    intro x _ hp hq
    rw [h _ hp] at hq
    cases hq

/-- The count of a class made of finitely many local states is the sum of their counts. -/
theorem countParties_eq_sum [DecidableEq π] {p : π → Bool} (f : τ → π) {l : List π}
    (hl : l.Nodup) (hp : ∀ v, p v = true ↔ v ∈ l) :
    countParties p f = (l.map fun v => countParties (fun x => decide (x = v)) f).sum := by
  induction l generalizing p with
  | nil =>
    refine countParties_eq_zero_iff.mpr fun x => ?_
    simpa using hp (f x)
  | cons v l ih =>
    rw [List.nodup_cons] at hl
    -- split off the first state; the rest is a class of its own
    have hsplit := countParties_add f (p := fun x => decide (x = v))
      (q := fun x => decide (x ∈ l)) fun x hx => by
        rw [decide_eq_true_eq] at hx
        subst hx
        exact decide_eq_false hl.1
    rw [List.map_cons, List.sum_cons, ← ih hl.2 fun w => decide_eq_true_iff, hsplit]
    refine countParties_congr fun x => Bool.eq_iff_iff.mpr ?_
    simpa using hp (f x)

variable [DecidableEq τ]

/-- A list without repetition of exactly the parties in a `p` state has their number as its
length. -/
theorem length_eq_countParties {p : π → Bool} {f : τ → π} {w : List τ} (hw : w.Nodup)
    (hmem : ∀ x, x ∈ w ↔ p (f x) = true) : w.length = countParties p f := by
  unfold countParties
  rw [← List.toFinset_card_of_nodup hw]
  congr 1
  ext x
  simp [hmem]

/-- A list that holds every party in a `p` state is at least as long as their number. -/
theorem countParties_le_length {p : π → Bool} {f : τ → π} {w : List τ}
    (hmem : ∀ x, p (f x) = true → x ∈ w) : countParties p f ≤ w.length :=
  calc countParties p f ≤ w.toFinset.card :=
        Finset.card_le_card fun x hx => List.mem_toFinset.mpr (hmem x (Finset.mem_filter.mp hx).2)
    _ ≤ w.length := List.toFinset_card_le w

/-- The count split into party `t` and the others. -/
theorem countParties_eq_erase (p : π → Bool) (f : τ → π) (t : τ) :
    countParties p f =
      ((Finset.univ.erase t).filter fun x => p (f x) = true).card + (if p (f t) then 1 else 0) := by
  unfold countParties
  rw [← Finset.insert_erase (Finset.mem_univ t), Finset.filter_insert, Finset.erase_insert (by simp)]
  split_ifs with h
  · exact Finset.card_insert_of_notMem (by simp)
  · rfl

/-- **Count after a move**: when party `t` moves to `v`, the count loses `t`'s old state
and gains its new one. -/
theorem countParties_update (p : π → Bool) (f : τ → π) (t : τ) (v : π) :
    countParties p (Function.update f t v) + (if p (f t) then 1 else 0) =
      countParties p f + (if p v then 1 else 0) := by
  rw [countParties_eq_erase p (Function.update f t v) t, countParties_eq_erase p f t,
    Function.update_self]
  -- the other parties keep their states
  have hrest : ((Finset.univ.erase t).filter fun x => p (Function.update f t v x) = true) =
      ((Finset.univ.erase t).filter fun x => p (f x) = true) := by
    apply Finset.filter_congr
    intro x hx
    rw [Function.update_of_ne (Finset.ne_of_mem_erase hx)]
  rw [hrest]
  omega

/-- A move within the class, or within its complement, leaves the count. -/
theorem countParties_update_same {p : π → Bool} {f : τ → π} {t : τ} {v : π}
    (hv : p v = p (f t)) : countParties p (Function.update f t v) = countParties p f := by
  have h := countParties_update p f t v
  rw [hv] at h
  omega

/-- A move into the class adds one. -/
theorem countParties_update_into {p : π → Bool} {f : τ → π} {t : τ} {v : π}
    (hold : p (f t) = false) (hv : p v = true) :
    countParties p (Function.update f t v) = countParties p f + 1 := by
  have h := countParties_update p f t v
  rw [hold, hv] at h
  simpa using h

/-- A move out of the class takes one away. -/
theorem countParties_update_out {p : π → Bool} {f : τ → π} {t : τ} {v : π}
    (hold : p (f t) = true) (hv : p v = false) :
    countParties p (Function.update f t v) + 1 = countParties p f := by
  have h := countParties_update p f t v
  rw [hold, hv] at h
  simpa using h

/-- **A sum after one party moves**: when only party `t`'s summand changes, from one
that gains `e` to one that gains `d`, the sums gain the same. -/
theorem sum_add_eq_of_update {M : Type*} [AddCancelCommMonoid M] {f g : τ → M} {d e : M}
    (t : τ) (hoff : ∀ x, x ≠ t → g x = f x) (ht : g t + d = f t + e) :
    ∑ x, g x + d = ∑ x, f x + e := by
  -- the other parties' summands sum alike
  have hrest : ∑ x ∈ Finset.univ.erase t, g x = ∑ x ∈ Finset.univ.erase t, f x :=
    Finset.sum_congr rfl fun x hx => hoff x (Finset.ne_of_mem_erase hx)
  rw [← Finset.add_sum_erase _ g (Finset.mem_univ t),
    ← Finset.add_sum_erase _ f (Finset.mem_univ t), hrest]
  calc g t + ∑ x ∈ Finset.univ.erase t, f x + d
      = g t + d + ∑ x ∈ Finset.univ.erase t, f x := add_right_comm _ _ _
    _ = f t + e + ∑ x ∈ Finset.univ.erase t, f x := by rw [ht]
    _ = f t + ∑ x ∈ Finset.univ.erase t, f x + e := add_right_comm _ _ _

end Count

end Beskar.Lib
