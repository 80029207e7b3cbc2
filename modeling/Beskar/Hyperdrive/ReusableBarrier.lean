import Beskar.Lib.Transition

/-!
# Reusable Barrier

Model of `ReusableBarrier::wait` (`hyperdrive/src/sync/barrier.rs`) as a transition system:
finitely many agents call `wait` in any interleaving of their atomic steps (sequentially
consistent memory).  The counters are the source's `AtomicU16`s, whose `fetch_add` wraps;
`count` is never written after `new`, so its `Relaxed` load is part of the call.  A ghost
list logs the agents that added themselves to `current` since the rank was last released.

Each atomic access is one step:

- the outer loop: `rank.fetch_add(1)`, and after a rank at or above `count` the inner spin
  of loads until the rank reads below `count` again;
- `current.fetch_add(1)`, then the spin of loads while `current < count`;
- `out.fetch_add(1)`, and for the agent that finds `count - 1` there the three stores of the
  reset: `current`, `out`, and last `rank`.

## Main results

- `Inv`: in every reachable state the counters are determined by where the agents are
  (`Reach.inv`), as long as `count` and the number of agents fit in a `u16` together.
- `rbarrier_no_early_release`: an agent past the spin has `count` distinct agents, itself
  among them, arrived in its round, and every agent holding a rank of the round has arrived.
- `rbarrier_capacity`: at most `count` agents are between taking a rank and leaving.
- `rbarrier_no_wrap`: none of the three `fetch_add`s wraps around.
- `rbarrier_release_resets`: whenever `rank` reads `0`, the barrier is as `new` left it.
- `rbarrier_blocked_waits`: where no agent can move, every agent inside `wait` spins on
  `current` below `count`, and the rank is free for a new caller.
-/

namespace Beskar.Hyperdrive.ReusableBarrier

open Beskar.Lib

/-- Where an agent is in `wait`. -/
inductive Pc where
  | idle
  /-- `self.rank.fetch_add(1, Ordering::Acquire)`, the outer loop's condition. -/
  | fetchRank
  /-- `while self.rank.load(Ordering::Acquire) >= count`. -/
  | spinRank
  /-- `self.current.fetch_add(1, Ordering::AcqRel)`. -/
  | addCurrent
  /-- `while self.current.load(Ordering::Acquire) < count`. -/
  | spinCurrent
  /-- `let out = self.out.fetch_add(1, Ordering::AcqRel)`. -/
  | addOut
  /-- `self.current.store(0, Ordering::Release)`. -/
  | storeCurrent
  /-- `self.out.store(0, Ordering::Release)`. -/
  | storeOut
  /-- `self.rank.store(0, Ordering::Release)`. -/
  | storeRank
deriving DecidableEq, Repr

namespace Pc

/-- Added to `current` in this round and not gone yet. -/
def arrived : Pc → Bool
  | spinCurrent | addOut | storeCurrent | storeOut | storeRank => true
  | _ => false

/-- Past the spin on `current`. -/
def passed : Pc → Bool
  | addOut | storeCurrent | storeOut | storeRank => true
  | _ => false

/-- Holding a rank of this round. -/
def ranked : Pc → Bool
  | addCurrent => true
  | p => p.arrived

/-- The agent that found `count - 1` in `out`, resetting the barrier. -/
def resetting : Pc → Bool
  | storeCurrent | storeOut | storeRank => true
  | _ => false

end Pc

/-- The barrier's counters, each agent's position, and the ghost log of arrivals. -/
structure State (τ : Type) where
  count : UInt16
  rank : UInt16
  current : UInt16
  out : UInt16
  pc : τ → Pc
  /-- Ghost: the agents that added themselves to `current` since the last release. -/
  arrivals : List τ

/-- Who moves: an agent calling `wait`, or an agent taking its next step. -/
inductive Label (τ : Type) where
  | wait (t : τ)
  | step (t : τ)

variable {τ : Type}

/-! ## §1 Steps -/

section Steps

variable [DecidableEq τ]

namespace State

/-- A call, or a load: only the agent's position changes. -/
def setPc (s : State τ) (t : τ) (p : Pc) : State τ :=
  { s with pc := Function.update s.pc t p }

/-- `self.rank.fetch_add(1, Ordering::Acquire)`. -/
def bumpRank (s : State τ) (t : τ) (p : Pc) : State τ :=
  { s with rank := s.rank + 1, pc := Function.update s.pc t p }

/-- `self.current.fetch_add(1, Ordering::AcqRel)`, logged. -/
def arrive (s : State τ) (t : τ) : State τ :=
  { s with
    current := s.current + 1
    arrivals := s.arrivals ++ [t]
    pc := Function.update s.pc t .spinCurrent }

/-- `self.out.fetch_add(1, Ordering::AcqRel)`. -/
def bumpOut (s : State τ) (t : τ) (p : Pc) : State τ :=
  { s with out := s.out + 1, pc := Function.update s.pc t p }

/-- `self.current.store(0, Ordering::Release)`. -/
def clearCurrent (s : State τ) (t : τ) : State τ :=
  { s with current := 0, pc := Function.update s.pc t .storeOut }

/-- `self.out.store(0, Ordering::Release)`. -/
def clearOut (s : State τ) (t : τ) : State τ :=
  { s with out := 0, pc := Function.update s.pc t .storeRank }

/-- `self.rank.store(0, Ordering::Release)`: the next round begins. -/
def release (s : State τ) (t : τ) : State τ :=
  { s with rank := 0, arrivals := [], pc := Function.update s.pc t .idle }

end State

/-- One atomic step; `none` when the label cannot move: a call from inside `wait`, or an
agent spinning on a load that would send it round again. -/
def step (s : State τ) : Label τ → Option (State τ)
  | .wait t => if s.pc t = .idle then some (s.setPc t .fetchRank) else none
  | .step t =>
    match s.pc t with
    | .idle => none
    | .fetchRank =>
      -- the loop compares the value `fetch_add` returns, the rank before the add
      if s.rank ≥ s.count then some (s.bumpRank t .spinRank) else some (s.bumpRank t .addCurrent)
    | .spinRank => if s.rank ≥ s.count then none else some (s.setPc t .fetchRank)
    | .addCurrent => some (s.arrive t)
    | .spinCurrent => if s.current < s.count then none else some (s.setPc t .addOut)
    | .addOut =>
      if s.out = s.count - 1 then some (s.bumpOut t .storeCurrent) else some (s.bumpOut t .idle)
    | .storeCurrent => some (s.clearCurrent t)
    | .storeOut => some (s.clearOut t)
    | .storeRank => some (s.release t)

/-- `ReusableBarrier::new(count)`, past its `assert!(count > 0)`, with every agent outside. -/
def IsInit (s : State τ) : Prop :=
  0 < s.count ∧ s.rank = 0 ∧ s.current = 0 ∧ s.out = 0 ∧ (∀ t, s.pc t = .idle) ∧
    s.arrivals = []

/-- The states some interleaving reaches. -/
def Reach (s : State τ) : Prop := Reachable (Det step) IsInit s

/-- What one step can do, with the comparisons of the source read on the counters'
values. -/
inductive Move (s : State τ) : State τ → Prop where
  | call (t : τ) (h : s.pc t = .idle) : Move s (s.setPc t .fetchRank)
  | retry (t : τ) (h : s.pc t = .spinRank) (hr : s.rank.toNat < s.count.toNat) :
      Move s (s.setPc t .fetchRank)
  | take (t : τ) (h : s.pc t = .fetchRank) (hr : s.rank.toNat < s.count.toNat) :
      Move s (s.bumpRank t .addCurrent)
  | miss (t : τ) (h : s.pc t = .fetchRank) (hr : s.count.toNat ≤ s.rank.toNat) :
      Move s (s.bumpRank t .spinRank)
  | arrive (t : τ) (h : s.pc t = .addCurrent) : Move s (s.arrive t)
  | pass (t : τ) (h : s.pc t = .spinCurrent) (hc : s.count.toNat ≤ s.current.toNat) :
      Move s (s.setPc t .addOut)
  | leave (t : τ) (h : s.pc t = .addOut) (ho : s.out ≠ s.count - 1) :
      Move s (s.bumpOut t .idle)
  | last (t : τ) (h : s.pc t = .addOut) (ho : s.out = s.count - 1) :
      Move s (s.bumpOut t .storeCurrent)
  | clearCurrent (t : τ) (h : s.pc t = .storeCurrent) : Move s (s.clearCurrent t)
  | clearOut (t : τ) (h : s.pc t = .storeOut) : Move s (s.clearOut t)
  | release (t : τ) (h : s.pc t = .storeRank) : Move s (s.release t)

variable {s s' : State τ}

/-- **Inversion of `step`**: every step is a `Move`. -/
theorem step_move {a : Label τ} (h : step s a = some s') : Move s s' := by
  cases a with
  | wait t =>
    simp only [step] at h
    split at h <;> rename_i hidle
    · cases h
      exact .call t hidle
    · cases h
  | step t =>
    simp only [step] at h
    split at h <;> rename_i hpc
    · cases h
    · -- the rank's `fetch_add`
      split at h <;> rename_i hr <;> cases h
      · exact .miss t hpc (UInt16.le_iff_toNat_le.mp hr)
      · exact .take t hpc (UInt16.lt_iff_toNat_lt.mp (UInt16.not_le.mp hr))
    · split at h <;> rename_i hr <;> cases h
      exact .retry t hpc (UInt16.lt_iff_toNat_lt.mp (UInt16.not_le.mp hr))
    · cases h
      exact .arrive t hpc
    · split at h <;> rename_i hc <;> cases h
      exact .pass t hpc (UInt16.le_iff_toNat_le.mp (UInt16.not_lt.mp hc))
    · split at h <;> rename_i ho <;> cases h
      · exact .last t hpc ho
      · exact .leave t hpc ho
    · cases h
      exact .clearCurrent t hpc
    · cases h
      exact .clearOut t hpc
    · cases h
      exact .release t hpc

/-- No step writes `count`. -/
theorem Move.count_eq (hm : Move s s') : s'.count = s.count := by
  cases hm <;> rfl

end Steps

/-! ## §2 The Counters' Arithmetic

The counters are a function of a census of the positions, whatever the interleaving.
`NumOk` states that function over an arbitrary census, and each move of an agent from one
position to another keeps it; the lemmas here are pure arithmetic. -/

/-- The census after one agent moves from `p` to `q`. -/
def shift (n : Pc → Nat) (p q : Pc) (r : Pc) : Nat :=
  n r + (if q = r then 1 else 0) - (if p = r then 1 else 0)

/-- The counters' arithmetic over a census `n`: `c` is `count`, `len` the number of
arrivals in the round. -/
structure NumOk (c rank cur out len : Nat) (n : Pc → Nat) : Prop where
  count_pos : 0 < c
  /-- Every agent on the spin or past it has arrived in this round. -/
  arrived_le : n .spinCurrent + n .addOut + n .storeCurrent + n .storeOut + n .storeRank ≤ len
  /-- The ranks handed out in this round are the agents about to arrive and the arrivals. -/
  ranked : n .addCurrent + len = min rank c
  /-- Past `count`, the rank counts the agents sent to the inner spin. -/
  rank_le : c ≤ rank → rank ≤ c + n .spinRank
  current_eq : n .storeOut + n .storeRank = 0 → cur = len
  current_zero : 0 < n .storeOut + n .storeRank → cur = 0
  out_eq : n .storeRank = 0 → out + n .spinCurrent + n .addOut = len
  out_zero : 0 < n .storeRank → out = 0
  out_lt : n .storeCurrent + n .storeOut + n .storeRank = 0 → out < c
  /-- Once an arrival is past the spin, all `count` have arrived. -/
  full : n .spinCurrent < len → len = c
  /-- The resetting agent is alone in the round. -/
  resetting : 0 < n .storeCurrent + n .storeOut + n .storeRank →
    n .storeCurrent + n .storeOut + n .storeRank = 1 ∧ n .spinCurrent = 0 ∧ n .addOut = 0

namespace NumOk

variable {c rank cur out len : Nat} {n : Pc → Nat}

/-- An agent about to arrive finds `current` below `count`. -/
theorem cur_lt_of_adding (h : NumOk c rank cur out len n) (hA : 0 < n .addCurrent) :
    cur < c := by
  have := h.arrived_le
  have := h.ranked
  have := h.current_eq
  have := h.full
  have := h.resetting
  omega

/-- An agent past the spin finds `out` below `count`. -/
theorem out_lt_of_passed (h : NumOk c rank cur out len n) (hO : 0 < n .addOut) : out < c := by
  have := h.arrived_le
  have := h.ranked
  have := h.out_eq
  have := h.resetting
  omega

/-- The call and the retry of the inner spin move between positions no counter sees. -/
theorem call (h : NumOk c rank cur out len n) : NumOk c rank cur out len (shift n .idle .fetchRank) := by
  obtain ⟨h1, h2, h3, h4, h5, h6, h7, h8, h9, h10, h11⟩ := h
  constructor <;> (try simp only [shift, reduceCtorEq, ↓reduceIte]) <;> omega

theorem retry (h : NumOk c rank cur out len n) (hr : rank < c) :
    NumOk c rank cur out len (shift n .spinRank .fetchRank) := by
  obtain ⟨h1, h2, h3, h4, h5, h6, h7, h8, h9, h10, h11⟩ := h
  constructor <;> (try simp only [shift, reduceCtorEq, ↓reduceIte]) <;> omega

/-- A rank below `count` joins the round. -/
theorem take (h : NumOk c rank cur out len n) (hr : rank < c) :
    NumOk c (rank + 1) cur out len (shift n .fetchRank .addCurrent) := by
  obtain ⟨h1, h2, h3, h4, h5, h6, h7, h8, h9, h10, h11⟩ := h
  constructor <;> (try simp only [shift, reduceCtorEq, ↓reduceIte]) <;> omega

/-- A rank at or past `count` sends the agent to the inner spin. -/
theorem miss (h : NumOk c rank cur out len n) (hr : c ≤ rank) :
    NumOk c (rank + 1) cur out len (shift n .fetchRank .spinRank) := by
  obtain ⟨h1, h2, h3, h4, h5, h6, h7, h8, h9, h10, h11⟩ := h
  constructor <;> (try simp only [shift, reduceCtorEq, ↓reduceIte]) <;> omega

/-- An arrival: the round is not full, so nobody has passed and nobody resets. -/
theorem arrive (h : NumOk c rank cur out len n) (hA : 0 < n .addCurrent) :
    NumOk c rank (cur + 1) out (len + 1) (shift n .addCurrent .spinCurrent) := by
  obtain ⟨h1, h2, h3, h4, h5, h6, h7, h8, h9, h10, h11⟩ := h
  constructor <;> (try simp only [shift, reduceCtorEq, ↓reduceIte]) <;> omega

/-- Passing the spin: `current` reads `count`, so every rank of the round has arrived. -/
theorem pass (h : NumOk c rank cur out len n) (hS : 0 < n .spinCurrent) (hc : c ≤ cur) :
    NumOk c rank cur out len (shift n .spinCurrent .addOut) := by
  obtain ⟨h1, h2, h3, h4, h5, h6, h7, h8, h9, h10, h11⟩ := h
  constructor <;> (try simp only [shift, reduceCtorEq, ↓reduceIte]) <;> omega

/-- An agent that is not the last out leaves. -/
theorem leave (h : NumOk c rank cur out len n) (hO : 0 < n .addOut) (ho : out ≠ c - 1) :
    NumOk c rank cur (out + 1) len (shift n .addOut .idle) := by
  obtain ⟨h1, h2, h3, h4, h5, h6, h7, h8, h9, h10, h11⟩ := h
  constructor <;> (try simp only [shift, reduceCtorEq, ↓reduceIte]) <;> omega

/-- The last out finds every other agent of the round gone, and resets. -/
theorem last (h : NumOk c rank cur out len n) (hO : 0 < n .addOut) (ho : out = c - 1) :
    NumOk c rank cur (out + 1) len (shift n .addOut .storeCurrent) := by
  obtain ⟨h1, h2, h3, h4, h5, h6, h7, h8, h9, h10, h11⟩ := h
  constructor <;> (try simp only [shift, reduceCtorEq, ↓reduceIte]) <;> omega

theorem clearCurrent (h : NumOk c rank cur out len n) (hR : 0 < n .storeCurrent) :
    NumOk c rank 0 out len (shift n .storeCurrent .storeOut) := by
  obtain ⟨h1, h2, h3, h4, h5, h6, h7, h8, h9, h10, h11⟩ := h
  constructor <;> (try simp only [shift, reduceCtorEq, ↓reduceIte, implies_true]) <;> omega

theorem clearOut (h : NumOk c rank cur out len n) (hR : 0 < n .storeOut) :
    NumOk c rank cur 0 len (shift n .storeOut .storeRank) := by
  obtain ⟨h1, h2, h3, h4, h5, h6, h7, h8, h9, h10, h11⟩ := h
  constructor <;> (try simp only [shift, reduceCtorEq, ↓reduceIte, implies_true, false_implies]) <;> omega

/-- The release of the rank starts an empty round. -/
theorem release (h : NumOk c rank cur out len n) (hR : 0 < n .storeRank) :
    NumOk c 0 cur out 0 (shift n .storeRank .idle) := by
  obtain ⟨h1, h2, h3, h4, h5, h6, h7, h8, h9, h10, h11⟩ := h
  constructor <;> (try simp only [shift, reduceCtorEq, ↓reduceIte]) <;> omega

end NumOk

/-! ## §3 The Invariant -/

/-- A `fetch_add` of one that stays below the wrap is exact. -/
theorem toNat_add_one {a : UInt16} (h : a.toNat + 1 < 2 ^ 16) : (a + 1).toNat = a.toNat + 1 := by
  rw [UInt16.toNat_add, UInt16.toNat_one]
  exact Nat.mod_eq_of_lt h

/-- `count - 1` for a positive `count`. -/
theorem toNat_sub_one {a : UInt16} (h : 0 < a.toNat) : (a - 1).toNat = a.toNat - 1 := by
  rw [UInt16.toNat_sub_of_le a 1 (UInt16.le_iff_toNat_le.mpr (by rw [UInt16.toNat_one]; omega)),
    UInt16.toNat_one]

section Invariant

variable [Fintype τ] {s s' : State τ}

/-- How many agents are at `r`. -/
def State.census (s : State τ) (r : Pc) : Nat := countParties (fun q => decide (q = r)) s.pc

theorem census_pos {u : τ} {r : Pc} (hu : s.pc u = r) : 0 < s.census r :=
  countParties_pos (x := u) (by simp [hu])

/-- The agents resetting the barrier, by position. -/
theorem count_resetting (s : State τ) :
    countParties Pc.resetting s.pc =
      s.census .storeCurrent + s.census .storeOut + s.census .storeRank := by
  rw [countParties_eq_sum s.pc (l := [.storeCurrent, .storeOut, .storeRank]) (by decide)
    fun v => by cases v <;> decide]
  simp only [List.map_cons, List.map_nil, List.sum_cons, List.sum_nil, State.census]
  omega

/-- The agents holding a rank, by position. -/
theorem count_ranked (s : State τ) :
    countParties Pc.ranked s.pc = s.census .addCurrent + countParties Pc.arrived s.pc := by
  rw [countParties_eq_sum s.pc (l := [.addCurrent, .spinCurrent, .addOut, .storeCurrent,
      .storeOut, .storeRank]) (by decide) fun v => by cases v <;> decide,
    countParties_eq_sum s.pc (p := Pc.arrived) (l := [.spinCurrent, .addOut, .storeCurrent,
      .storeOut, .storeRank]) (by decide) fun v => by cases v <;> decide]
  simp only [List.map_cons, List.map_nil, List.sum_cons, List.sum_nil, State.census]

/-- What the ghost log records. -/
structure Log (s : State τ) : Prop where
  nodup : s.arrivals.Nodup
  mem_arrived : ∀ u, (s.pc u).arrived = true → u ∈ s.arrivals
  not_mem_adding : ∀ u, s.pc u = .addCurrent → u ∉ s.arrivals
  /-- An arrival that is gone again left a full round. -/
  left_full : ∀ u ∈ s.arrivals, (s.pc u).arrived = false → s.arrivals.length = s.count.toNat

/-- The invariant of every reachable state. -/
structure Inv (s : State τ) : Prop where
  log : Log s
  num : NumOk s.count.toNat s.rank.toNat s.current.toNat s.out.toNat s.arrivals.length s.census

/-- While an agent resets, every other agent is outside the round. -/
theorem Inv.alone (h : Inv s) {t u : τ} (ht : (s.pc t).resetting = true) (hut : u ≠ t) :
    (s.pc u).ranked = false := by
  have hnum := h.num
  have hR : countParties Pc.resetting s.pc = 1 := by
    rw [count_resetting]
    exact (hnum.resetting (by rw [← count_resetting]; exact countParties_pos ht)).1
  have hS := (hnum.resetting (by rw [← count_resetting]; omega)).2
  have hlen := hnum.arrived_le
  have hA : s.census .addCurrent = 0 := by
    have := hnum.ranked
    have := hnum.full (by rw [count_resetting] at hR; omega)
    omega
  cases hu : s.pc u
  case addCurrent | spinCurrent | addOut =>
    have := census_pos hu
    omega
  case storeCurrent | storeOut | storeRank =>
    have := one_lt_countParties hut (by rw [hu]; rfl) ht
    omega
  all_goals rfl

/-- An agent past the spin left a full round behind. -/
theorem Inv.full_of_passed (h : Inv s) {t : τ} (ht : (s.pc t).passed = true) :
    s.arrivals.length = s.count.toNat := by
  have hle := h.num.arrived_le
  refine h.num.full ?_
  cases hpc : s.pc t <;> rw [hpc] at ht <;> try cases ht
  all_goals have := census_pos hpc
  all_goals omega

variable [DecidableEq τ]

/-- **Census after a move**: where only `t` moved, from `p` to `q`, the census shifts. -/
theorem census_eq_shift (s' : State τ) {t : τ} {p q : Pc} (hpc : s.pc t = p)
    (hs' : s'.pc = Function.update s.pc t q) : s'.census = shift s.census p q := by
  funext r
  have h := countParties_update (fun x => decide (x = r)) s.pc t q
  rw [hpc] at h
  unfold State.census shift
  rw [hs']
  by_cases hp : p = r <;> by_cases hq : q = r <;> simp only [hp, hq, decide_true,
    decide_false, Bool.false_eq_true, ↓reduceIte] at h ⊢ <;> omega

omit [Fintype τ] in
/-- A move of `t` alone, with the log as it was. -/
theorem Log.of_setPc (h : Log s) {t : τ} {q : Pc} (hs' : s'.pc = Function.update s.pc t q)
    (ha : s'.arrivals = s.arrivals) (hc : s'.count = s.count)
    (hmem : q.arrived = true → t ∈ s.arrivals) (hadd : q = .addCurrent → t ∉ s.arrivals)
    (hleft : t ∈ s.arrivals → q.arrived = false → s.arrivals.length = s.count.toNat) :
    Log s' := by
  obtain ⟨_, _, _, _, pc', arrivals'⟩ := s'
  simp only at hs' ha hc
  subst hs' ha hc
  refine ⟨h.nodup, fun u hu => ?_, fun u hu => ?_, fun u hmemu hu => ?_⟩
  all_goals dsimp only at hu ⊢
  all_goals rcases eq_or_ne u t with rfl | hut
  · rw [Function.update_self] at hu
    exact hmem hu
  · rw [Function.update_of_ne hut] at hu
    exact h.mem_arrived u hu
  · rw [Function.update_self] at hu
    exact hadd hu
  · rw [Function.update_of_ne hut] at hu
    exact h.not_mem_adding u hu
  · rw [Function.update_self] at hu
    exact hleft hmemu hu
  · rw [Function.update_of_ne hut] at hu
    exact h.left_full u hmemu hu

/-- **The moves keep the invariant.** -/
theorem Inv.of_call (h : Inv s) {t : τ} (hpc : s.pc t = .idle) : Inv (s.setPc t .fetchRank) :=
  ⟨h.log.of_setPc rfl rfl rfl (fun he => by cases he) (fun he => by cases he)
      (fun hm _ => h.log.left_full t hm (by rw [hpc]; rfl)),
    by rw [census_eq_shift _ hpc rfl]; exact h.num.call⟩

theorem Inv.of_retry (h : Inv s) {t : τ} (hpc : s.pc t = .spinRank)
    (hr : s.rank.toNat < s.count.toNat) : Inv (s.setPc t .fetchRank) :=
  ⟨h.log.of_setPc rfl rfl rfl (fun he => by cases he) (fun he => by cases he)
      (fun hm _ => h.log.left_full t hm (by rw [hpc]; rfl)),
    by rw [census_eq_shift _ hpc rfl]; exact h.num.retry hr⟩

/-- A rank below `count` goes to an agent that is not yet in the round. -/
theorem Inv.of_take (h : Inv s) {t : τ} (hpc : s.pc t = .fetchRank)
    (hr : s.rank.toNat < s.count.toNat) : Inv (s.bumpRank t .addCurrent) := by
  have hfresh : t ∉ s.arrivals := fun hm => by
    have := h.log.left_full t hm (by rw [hpc]; rfl)
    have := h.num.ranked
    omega
  refine ⟨h.log.of_setPc rfl rfl rfl (fun he => by cases he) (fun _ => hfresh)
    (fun hm => absurd hm hfresh), ?_⟩
  have hwrap : s.rank.toNat + 1 < 2 ^ 16 := by have := UInt16.toNat_lt s.count; omega
  show NumOk _ (s.rank + 1).toNat _ _ _ _
  rw [toNat_add_one hwrap, census_eq_shift _ hpc rfl]
  exact h.num.take hr

/-- A rank past `count` cannot wrap: the agents sent to the inner spin are fewer than all. -/
theorem Inv.of_miss (hcap : s.count.toNat + Fintype.card τ < 2 ^ 16) (h : Inv s) {t : τ}
    (hpc : s.pc t = .fetchRank) (hr : s.count.toNat ≤ s.rank.toNat) :
    Inv (s.bumpRank t .spinRank) := by
  refine ⟨h.log.of_setPc rfl rfl rfl (fun he => by cases he) (fun he => by cases he)
    (fun hm _ => h.log.left_full t hm (by rw [hpc]; rfl)), ?_⟩
  have hW : s.census .spinRank < Fintype.card τ := countParties_lt_card (x := t) (by simp [hpc])
  have hwrap : s.rank.toNat + 1 < 2 ^ 16 := by have := h.num.rank_le hr; omega
  show NumOk _ (s.rank + 1).toNat _ _ _ _
  rw [toNat_add_one hwrap, census_eq_shift _ hpc rfl]
  exact h.num.miss hr

/-- An arrival joins the log: it was not in it, and nobody had left. -/
theorem Inv.of_arrive (h : Inv s) {t : τ} (hpc : s.pc t = .addCurrent) : Inv (s.arrive t) := by
  have hA := census_pos hpc
  have hnum := h.num
  have hcur := hnum.cur_lt_of_adding hA
  have hnot := h.log.not_mem_adding t hpc
  refine ⟨⟨?_, fun u hu => ?_, fun u hu => ?_, fun u hmem hu => ?_⟩, ?_⟩
  · refine List.nodup_append.mpr ⟨h.log.nodup, List.nodup_singleton t, fun x hx y hy => ?_⟩
    rw [List.mem_singleton] at hy
    rintro rfl
    exact hnot (hy ▸ hx)
  · rcases eq_or_ne u t with rfl | hut
    · exact List.mem_append_right _ (List.mem_singleton_self u)
    · simp only [State.arrive, Function.update_of_ne hut] at hu
      exact List.mem_append_left _ (h.log.mem_arrived u hu)
  · rcases eq_or_ne u t with rfl | hut
    · simp [State.arrive] at hu
    · simp only [State.arrive, Function.update_of_ne hut] at hu ⊢
      simpa [hut] using h.log.not_mem_adding u hu
  · rcases eq_or_ne u t with rfl | hut
    · simp [State.arrive, Pc.arrived] at hu
    · -- a gone arrival would mean a full round, with no rank left for `t`
      simp only [State.arrive, Function.update_of_ne hut, List.mem_append, List.mem_singleton,
        hut, or_false] at hu hmem
      have := h.log.left_full u hmem hu
      have := hnum.ranked
      omega
  · show NumOk _ _ (s.current + 1).toNat _ (s.arrivals ++ [t]).length _
    rw [toNat_add_one (by have := UInt16.toNat_lt s.count; omega), List.length_append,
      List.length_singleton, census_eq_shift _ hpc rfl]
    exact hnum.arrive hA

theorem Inv.of_pass (h : Inv s) {t : τ} (hpc : s.pc t = .spinCurrent)
    (hc : s.count.toNat ≤ s.current.toNat) : Inv (s.setPc t .addOut) :=
  ⟨h.log.of_setPc rfl rfl rfl (fun _ => h.log.mem_arrived t (by rw [hpc]; rfl))
      (fun he => by cases he) (fun _ he => by cases he),
    by rw [census_eq_shift _ hpc rfl]; exact h.num.pass (census_pos hpc) hc⟩

theorem Inv.of_leave (h : Inv s) {t : τ} (hpc : s.pc t = .addOut) (ho : s.out ≠ s.count - 1) :
    Inv (s.bumpOut t .idle) := by
  have hfull := h.full_of_passed (t := t) (by rw [hpc]; rfl)
  have hout := h.num.out_lt_of_passed (census_pos hpc)
  refine ⟨h.log.of_setPc rfl rfl rfl (fun he => by cases he) (fun he => by cases he)
    (fun _ _ => hfull), ?_⟩
  have ho' : s.out.toNat ≠ s.count.toNat - 1 := fun he =>
    ho (UInt16.toNat_inj.mp (by rw [toNat_sub_one h.num.count_pos]; exact he))
  show NumOk _ _ _ (s.out + 1).toNat _ _
  rw [toNat_add_one (by have := UInt16.toNat_lt s.count; omega), census_eq_shift _ hpc rfl]
  exact h.num.leave (census_pos hpc) ho'

theorem Inv.of_last (h : Inv s) {t : τ} (hpc : s.pc t = .addOut) (ho : s.out = s.count - 1) :
    Inv (s.bumpOut t .storeCurrent) := by
  have hout := h.num.out_lt_of_passed (census_pos hpc)
  refine ⟨h.log.of_setPc rfl rfl rfl (fun _ => h.log.mem_arrived t (by rw [hpc]; rfl))
    (fun he => by cases he) (fun _ he => by cases he), ?_⟩
  have ho' : s.out.toNat = s.count.toNat - 1 := by rw [ho, toNat_sub_one h.num.count_pos]
  show NumOk _ _ _ (s.out + 1).toNat _ _
  rw [toNat_add_one (by have := UInt16.toNat_lt s.count; omega), census_eq_shift _ hpc rfl]
  exact h.num.last (census_pos hpc) ho'

theorem Inv.of_clearCurrent (h : Inv s) {t : τ} (hpc : s.pc t = .storeCurrent) :
    Inv (s.clearCurrent t) :=
  ⟨h.log.of_setPc rfl rfl rfl (fun _ => h.log.mem_arrived t (by rw [hpc]; rfl))
      (fun he => by cases he) (fun _ he => by cases he),
    by
      show NumOk _ _ (0 : UInt16).toNat _ _ _
      rw [UInt16.toNat_zero, census_eq_shift _ hpc rfl]
      exact h.num.clearCurrent (census_pos hpc)⟩

theorem Inv.of_clearOut (h : Inv s) {t : τ} (hpc : s.pc t = .storeOut) :
    Inv (s.clearOut t) :=
  ⟨h.log.of_setPc rfl rfl rfl (fun _ => h.log.mem_arrived t (by rw [hpc]; rfl))
      (fun he => by cases he) (fun _ he => by cases he),
    by
      show NumOk _ _ _ (0 : UInt16).toNat _ _
      rw [UInt16.toNat_zero, census_eq_shift _ hpc rfl]
      exact h.num.clearOut (census_pos hpc)⟩

/-- The release empties the log: the resetting agent was alone in the round. -/
theorem Inv.of_release (h : Inv s) {t : τ} (hpc : s.pc t = .storeRank) : Inv (s.release t) := by
  refine ⟨⟨List.nodup_nil, fun u hu => ?_, fun _ _ => List.not_mem_nil, fun _ hu => absurd hu List.not_mem_nil⟩, ?_⟩
  · rcases eq_or_ne u t with rfl | hut
    · simp [State.release, Pc.arrived] at hu
    · simp only [State.release, Function.update_of_ne hut] at hu
      have := h.alone (by rw [hpc]; rfl) hut
      revert hu this
      cases s.pc u <;> simp [Pc.arrived, Pc.ranked]
  · show NumOk _ (0 : UInt16).toNat _ _ ([] : List τ).length _
    rw [UInt16.toNat_zero, List.length_nil, census_eq_shift _ hpc rfl]
    exact h.num.release (census_pos hpc)

/-- **Step lemma**: every move keeps the invariant. -/
theorem Inv.of_move (hcap : s.count.toNat + Fintype.card τ < 2 ^ 16) (h : Inv s)
    (hm : Move s s') : Inv s' := by
  cases hm with
  | call t hpc => exact h.of_call hpc
  | retry t hpc hr => exact h.of_retry hpc hr
  | take t hpc hr => exact h.of_take hpc hr
  | miss t hpc hr => exact h.of_miss hcap hpc hr
  | arrive t hpc => exact h.of_arrive hpc
  | pass t hpc hc => exact h.of_pass hpc hc
  | leave t hpc ho => exact h.of_leave hpc ho
  | last t hpc ho => exact h.of_last hpc ho
  | clearCurrent t hpc => exact h.of_clearCurrent hpc
  | clearOut t hpc => exact h.of_clearOut hpc
  | release t hpc => exact h.of_release hpc

omit [DecidableEq τ] in
/-- `ReusableBarrier::new(count)` meets the invariant. -/
theorem Inv.of_init (h0 : IsInit s) : Inv s := by
  obtain ⟨hpos, hrank, hcur, hout, hidle, harr⟩ := h0
  have hzero : ∀ r, r ≠ .idle → s.census r = 0 := fun r hr =>
    countParties_eq_zero_iff.mpr fun u => by simp [hidle u, Ne.symm hr]
  refine ⟨⟨by simp [harr], fun u hu => ?_, fun _ _ => by simp [harr],
    fun u hu => by simp [harr] at hu⟩, ?_⟩
  · rw [hidle u] at hu
    cases hu
  · rw [hrank, hcur, hout, harr, UInt16.toNat_zero, List.length_nil]
    have hc := UInt16.lt_iff_toNat_lt.mp hpos
    rw [UInt16.toNat_zero] at hc
    -- nobody is anywhere but outside
    have := hzero .addCurrent (by decide)
    have := hzero .spinCurrent (by decide)
    have := hzero .addOut (by decide)
    have := hzero .storeCurrent (by decide)
    have := hzero .storeOut (by decide)
    have := hzero .storeRank (by decide)
    constructor <;> omega

/-- **Run lemma**: with `count` and the agents fitting in a `u16` together, every reachable
state meets the invariant. -/
theorem Reach.inv (hcap : s.count.toNat + Fintype.card τ < 2 ^ 16) (h : Reach s) : Inv s := by
  -- `count` is the same all along the run
  have key := Reachable.invariant (fun x : State τ => x.count = s.count → Inv x)
    (fun _ h0 _ => Inv.of_init h0)
    (fun x _ y hx hs hy => by
      have hm := step_move hs
      have hxc : x.count = s.count := hm.count_eq ▸ hy
      exact (hx hxc).of_move (hxc ▸ hcap) hm) h
  exact key rfl

end Invariant

/-! ## §4 Release, Capacity and Progress -/

/-- `ReusableBarrier::new(2)` shared by two agents. -/
def fresh : State Bool := ⟨2, 0, 0, 0, fun _ => .idle, []⟩

/-- Both agents take a rank, arrive, and pass the spin. -/
def bothPass : List (Label Bool) :=
  [.wait false, .wait true, .step false, .step true, .step false, .step true, .step false, .step true]

/-- Then agent `false` leaves, and agent `true`, the last out, resets the barrier. -/
def oneRound : List (Label Bool) :=
  bothPass ++ [.step false, .step true, .step true, .step true, .step true]

/-- Agent `false` calls `wait` alone and arrives. -/
def aloneWaits : List (Label Bool) := [.wait false, .step false, .step false]

/-- A schedule run from the fresh barrier reaches a reachable state. -/
theorem reach_of_exec {l : List (Label Bool)} {s : State Bool}
    (h : exec step fresh l = some s) : Reach s :=
  ⟨fresh, l, ⟨by decide, rfl, rfl, rfl, fun _ => rfl, rfl⟩, exec_run h⟩

section Results

variable [Fintype τ] [DecidableEq τ] {s : State τ}

/-- **No early release**: in every reachable state, an agent past the spin on `current`
has `count` distinct agents, itself among them, arrived in its round, and no agent holding
a rank of the round is still about to arrive. -/
theorem rbarrier_no_early_release (hcap : s.count.toNat + Fintype.card τ < 2 ^ 16)
    (h : Reach s) {t : τ} (ht : (s.pc t).passed = true) :
    s.arrivals.Nodup ∧ s.arrivals.length = s.count.toNat ∧ t ∈ s.arrivals ∧
      ∀ u, s.pc u ≠ .addCurrent := by
  have hi := h.inv hcap
  have hfull := hi.full_of_passed ht
  have hA : s.census .addCurrent = 0 := by
    have := hi.num.ranked
    omega
  refine ⟨hi.log.nodup, hfull, hi.log.mem_arrived t ?_, fun u hu => ?_⟩
  · revert ht
    cases s.pc t <;> simp [Pc.passed, Pc.arrived]
  · have := census_pos hu
    omega

/-- With both agents past the spin, both arrived, in the order they added to `current`. -/
theorem rbarrier_no_early_release_bothPass :
    ∃ s, exec step fresh bothPass = some s ∧ s.pc false = .addOut ∧ s.arrivals = [false, true] ∧
      (s.arrivals.Nodup ∧ s.arrivals.length = s.count.toNat ∧ false ∈ s.arrivals ∧
        ∀ u, s.pc u ≠ .addCurrent) := by
  refine ⟨_, rfl, rfl, rfl, ?_⟩
  exact rbarrier_no_early_release (by decide) (reach_of_exec (l := bothPass) rfl) (t := false) rfl

/-- **Capacity**: in every reachable state at most `count` agents are between taking a
rank and leaving the barrier. -/
theorem rbarrier_capacity (hcap : s.count.toNat + Fintype.card τ < 2 ^ 16) (h : Reach s) :
    countParties Pc.ranked s.pc ≤ s.count.toNat := by
  have hi := h.inv hcap
  have harr : countParties Pc.arrived s.pc ≤ s.arrivals.length :=
    countParties_le_length hi.log.mem_arrived
  have := hi.num.ranked
  rw [count_ranked]
  omega

/-- Both agents on the spin hold the two ranks of the round. -/
theorem rbarrier_capacity_bothSpin :
    ∃ s, exec step fresh (bothPass.take 6) = some s ∧ countParties Pc.ranked s.pc = 2 ∧
      countParties Pc.ranked s.pc ≤ s.count.toNat := by
  refine ⟨_, rfl, by decide, ?_⟩
  exact rbarrier_capacity (by decide) (reach_of_exec (l := bothPass.take 6) rfl)

/-- **No wrap-around**: in every reachable state, the `fetch_add` an agent is about to do
on `rank`, `current` or `out` stays below the wrap of the `u16`, so the wrapping
arithmetic of `AtomicU16` is exact along every run. -/
theorem rbarrier_no_wrap (hcap : s.count.toNat + Fintype.card τ < 2 ^ 16) (h : Reach s)
    (t : τ) :
    (s.pc t = .fetchRank → s.rank.toNat + 1 < 2 ^ 16) ∧
      (s.pc t = .addCurrent → s.current.toNat < s.count.toNat) ∧
      (s.pc t = .addOut → s.out.toNat < s.count.toNat) := by
  have hi := h.inv hcap
  refine ⟨fun hpc => ?_, fun hpc => hi.num.cur_lt_of_adding (census_pos hpc),
    fun hpc => hi.num.out_lt_of_passed (census_pos hpc)⟩
  -- below `count` the rank is small; past it, it counts the agents on the inner spin
  have hW : s.census .spinRank < Fintype.card τ := countParties_lt_card (x := t) (by simp [hpc])
  have := hi.num.rank_le
  have := UInt16.toNat_lt s.count
  omega

/-- With both agents about to take a rank, the rank is far from the wrap. -/
theorem rbarrier_no_wrap_bothCall :
    ∃ s, exec step fresh (bothPass.take 2) = some s ∧ s.pc false = .fetchRank ∧
      ((s.pc false = .fetchRank → s.rank.toNat + 1 < 2 ^ 16) ∧
        (s.pc false = .addCurrent → s.current.toNat < s.count.toNat) ∧
        (s.pc false = .addOut → s.out.toNat < s.count.toNat)) := by
  refine ⟨_, rfl, rfl, ?_⟩
  exact rbarrier_no_wrap (by decide) (reach_of_exec (l := bothPass.take 2) rfl) false

/-- **The release resets the barrier**: in every reachable state where `rank` reads `0`,
`current` and `out` read `0`, no agent of a round is left, and the log is empty, as
`new` left them: the barrier is ready for its next round. -/
theorem rbarrier_release_resets (hcap : s.count.toNat + Fintype.card τ < 2 ^ 16)
    (h : Reach s) (h0 : s.rank = 0) :
    s.current = 0 ∧ s.out = 0 ∧ s.arrivals = [] ∧ ∀ u, (s.pc u).ranked = false := by
  have hnum := (h.inv hcap).num
  rw [h0, UInt16.toNat_zero] at hnum
  have hranked := hnum.ranked
  have hle := hnum.arrived_le
  have hlen : s.arrivals.length = 0 := by omega
  refine ⟨UInt16.toNat_inj.mp ?_, UInt16.toNat_inj.mp ?_, List.eq_nil_of_length_eq_zero hlen,
    fun u => ?_⟩
  · rw [hnum.current_eq (by omega), hlen]
    rfl
  · have := hnum.out_eq (by omega)
    rw [UInt16.toNat_zero]
    omega
  · cases hu : s.pc u
    case addCurrent | spinCurrent | addOut | storeCurrent | storeOut | storeRank =>
      have := census_pos hu
      omega
    all_goals rfl

/-- Two full rounds of both agents: the barrier is reused, and after the second release it
is as fresh as before the first. -/
theorem rbarrier_release_resets_twoRounds :
    ∃ s, exec step fresh (oneRound ++ oneRound) = some s ∧ s.rank = 0 ∧
      (s.current = 0 ∧ s.out = 0 ∧ s.arrivals = [] ∧ ∀ u, (s.pc u).ranked = false) := by
  refine ⟨_, rfl, rfl, ?_⟩
  exact rbarrier_release_resets (by decide) (reach_of_exec (l := oneRound ++ oneRound) rfl) rfl

omit [Fintype τ] in
/-- An agent inside `wait` moves unless it spins. -/
theorem step_ne_none {t : τ} (hidle : s.pc t ≠ .idle) (hrank : s.pc t ≠ .spinRank)
    (hcur : s.pc t ≠ .spinCurrent) : step s (.step t) ≠ none := by
  cases hpc : s.pc t <;> simp only [hpc, ne_eq, not_true_eq_false] at hidle hrank hcur
  all_goals simp only [step, hpc]
  case fetchRank | addOut => split <;> simp
  all_goals simp

/-- **Blocked only for want of callers**: in every reachable state where no agent can take
a step, every agent inside `wait` spins on `current`, which reads below `count`, and the
rank reads below `count`, so a new caller takes a rank and joins the round. -/
theorem rbarrier_blocked_waits (hcap : s.count.toNat + Fintype.card τ < 2 ^ 16) (h : Reach s)
    (hblocked : ∀ u, step s (.step u) = none) {t : τ} (ht : s.pc t ≠ .idle) :
    s.pc t = .spinCurrent ∧ s.current.toNat < s.count.toNat ∧ s.rank.toNat < s.count.toNat := by
  have hnum := (h.inv hcap).num
  -- every agent is outside or on one of the two spins
  have hstuck : ∀ u, s.pc u = .idle ∨ s.pc u = .spinRank ∨ s.pc u = .spinCurrent := by
    intro u
    by_cases h1 : s.pc u = .idle
    · exact .inl h1
    by_cases h2 : s.pc u = .spinRank
    · exact .inr (.inl h2)
    by_cases h3 : s.pc u = .spinCurrent
    · exact .inr (.inr h3)
    exact absurd (hblocked u) (step_ne_none h1 h2 h3)
  have hzero : ∀ r, r ≠ .idle → r ≠ .spinRank → r ≠ .spinCurrent → s.census r = 0 :=
    fun r h1 h2 h3 => countParties_eq_zero_iff.mpr fun u => by
      rcases hstuck u with hu | hu | hu <;> simp [hu, Ne.symm h1, Ne.symm h2, Ne.symm h3]
  have := hzero .addCurrent (by decide) (by decide) (by decide)
  have := hzero .addOut (by decide) (by decide) (by decide)
  have := hzero .storeCurrent (by decide) (by decide) (by decide)
  have := hzero .storeOut (by decide) (by decide) (by decide)
  have := hzero .storeRank (by decide) (by decide) (by decide)
  have hcur := hnum.current_eq (by omega)
  have hout := hnum.out_eq (by omega)
  have hlt := hnum.out_lt (by omega)
  have hranked := hnum.ranked
  -- an agent on the spin of `current` is blocked only below `count`
  have hspin : 0 < s.census .spinCurrent → s.current.toNat < s.count.toNat := fun hpos => by
    obtain ⟨u, hu⟩ := exists_of_countParties_pos hpos
    have hblk := hblocked u
    simp only [decide_eq_true_eq] at hu
    simp only [step, hu, ite_eq_left_iff, reduceCtorEq, imp_false, not_not] at hblk
    exact UInt16.lt_iff_toNat_lt.mp hblk
  rcases hstuck t with h1 | h1 | h1
  · exact absurd h1 ht
  · -- blocked on the rank means a full round, whose agents all passed and left: impossible
    exfalso
    have hblk := hblocked t
    simp only [step, h1, ge_iff_le, ite_eq_left_iff, reduceCtorEq, imp_false, not_not] at hblk
    have hr := UInt16.le_iff_toNat_le.mp hblk
    by_cases hpos : 0 < s.census .spinCurrent
    · have := hspin hpos
      omega
    · omega
  · have := hspin (census_pos h1)
    exact ⟨h1, this, by omega⟩

/-- Agent `false`, alone in the round, waits for a second caller. -/
theorem rbarrier_blocked_waits_alone :
    ∃ s, exec step fresh aloneWaits = some s ∧ (∀ u, step s (.step u) = none) ∧
      (s.pc false = .spinCurrent ∧ s.current.toNat < s.count.toNat ∧
        s.rank.toNat < s.count.toNat) := by
  refine ⟨_, rfl, fun u => by cases u <;> rfl, ?_⟩
  exact rbarrier_blocked_waits (by decide) (reach_of_exec (l := aloneWaits) rfl)
    (fun u => by cases u <;> rfl) (t := false) (by decide)

end Results

end Beskar.Hyperdrive.ReusableBarrier
