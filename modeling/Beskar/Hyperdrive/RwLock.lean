import Beskar.Lib.Transition

/-!
# The Reader-Writer Lock

Model of `RwLock::read`, `RwLock::write`, `ReadGuard::drop` and `WriteGuard::drop`
(`hyperdrive/src/locks/rw.rs`, through `AtomicState::read_lock`, `read_unlock`,
`write_lock` and `write_unlock`) as a transition system: finitely many agents take the
atomic steps of these functions in any interleaving (sequentially consistent memory).
An agent holds one guard at a time, so a thread that holds several guards at once is
several agents.

Each atomic access to `AtomicState` is one step:

- `read_lock`: load `writer`, spinning while it is set; `readers.fetch_add(1)`; load
  `writer` again, and if it is set `readers.fetch_sub(1)` and start over;
- `read_unlock`: `readers.fetch_sub(1)`;
- `write_lock`: `writer.compare_exchange(false, true)`, spinning while it fails; load
  `readers`, spinning while it is not zero;
- `write_unlock`: `writer.store(false)`.

`readers` is an `AtomicU32`: its `fetch_add` and `fetch_sub` wrap.

## Main results

- `Move`: what one step can do, by the atomic it writes (`step_move`).
- `Inv`: in every reachable state `readers` is, modulo `2 ^ 32`, the number of agents
  between their `fetch_add` and its matching `fetch_sub`, and `writer` is set exactly
  when one agent is past its compare-exchange and before `write_unlock` (`Reach.inv`).
- `rwlock_exclusive`: the counters of `Inv` for any number of agents; with fewer than
  `2 ^ 32` agents, a live write guard excludes every other guard, and `readers` is that
  number exactly.
- `rwlock_wraps`: with `2 ^ 32` readers and one writer, `readers` wraps to zero and the
  writer takes its guard while every reader holds one.
-/

namespace Beskar.Hyperdrive.RwLock

open Beskar.Lib

/-- Where an agent is in `read_lock`, `write_lock` or a guard's `drop`. -/
inductive Pc where
  | idle
  /-- `read_lock`: `while self.writer.load(Acquire)`. -/
  | readSpin
  /-- `read_lock`: `self.readers.fetch_add(1, Acquire)` comes next. -/
  | readAdd
  /-- `read_lock`: the second `self.writer.load(Acquire)` comes next. -/
  | readCheck
  /-- `read_lock`: a writer was seen, `self.readers.fetch_sub(1, Relaxed)` comes next. -/
  | readBackoff
  /-- A `ReadGuard` is live; its `drop` is `read_unlock`. -/
  | readHeld
  /-- `write_lock`: `self.writer.compare_exchange(false, true, ..)` comes next. -/
  | writeCas
  /-- `write_lock`: `while self.readers.load(Acquire) != 0`. -/
  | writeWait
  /-- A `WriteGuard` is live; its `drop` is `write_unlock`. -/
  | writeHeld
deriving DecidableEq, Repr

namespace Pc

/-- Counted in `readers`: past the `fetch_add` of `read_lock` and before its matching
`fetch_sub`, the back-off or the `read_unlock` of the guard. -/
def counted : Pc → Bool
  | readCheck | readBackoff | readHeld => true
  | _ => false

/-- Owns the `writer` flag: past a successful compare-exchange, before `write_unlock`. -/
def flagged : Pc → Bool
  | writeWait | writeHeld => true
  | _ => false

end Pc

/-- The two atomics of `AtomicState` and each agent's position. -/
structure State (τ : Type) where
  readers : UInt32
  writer : Bool
  pc : τ → Pc

/-- Who moves: an agent calling `read` or `write`, or an agent taking its next step. -/
inductive Label (τ : Type) where
  | read (t : τ)
  | write (t : τ)
  | step (t : τ)
deriving DecidableEq, Repr

variable {τ : Type}

/-! ## §1 Steps -/

section Steps

variable [DecidableEq τ]

/-- A load, or a call: only the agent's position changes. -/
def setPc (s : State τ) (t : τ) (p : Pc) : State τ :=
  { s with pc := Function.update s.pc t p }

/-- `readers.fetch_add(1)`, wrapping at `u32::MAX`. -/
def fetchAdd (s : State τ) (t : τ) (p : Pc) : State τ :=
  { s with readers := s.readers + 1, pc := Function.update s.pc t p }

/-- `readers.fetch_sub(1)`, wrapping at zero. -/
def fetchSub (s : State τ) (t : τ) (p : Pc) : State τ :=
  { s with readers := s.readers - 1, pc := Function.update s.pc t p }

/-- A store to `writer`: the compare-exchange that succeeds, or `write_unlock`. -/
def storeWriter (s : State τ) (t : τ) (b : Bool) (p : Pc) : State τ :=
  { s with writer := b, pc := Function.update s.pc t p }

@[simp] theorem setPc_readers (s : State τ) (t : τ) (p : Pc) :
    (setPc s t p).readers = s.readers := rfl
@[simp] theorem setPc_writer (s : State τ) (t : τ) (p : Pc) :
    (setPc s t p).writer = s.writer := rfl
@[simp] theorem setPc_pc (s : State τ) (t : τ) (p : Pc) :
    (setPc s t p).pc = Function.update s.pc t p := rfl
@[simp] theorem fetchAdd_readers (s : State τ) (t : τ) (p : Pc) :
    (fetchAdd s t p).readers = s.readers + 1 := rfl
@[simp] theorem fetchAdd_writer (s : State τ) (t : τ) (p : Pc) :
    (fetchAdd s t p).writer = s.writer := rfl
@[simp] theorem fetchAdd_pc (s : State τ) (t : τ) (p : Pc) :
    (fetchAdd s t p).pc = Function.update s.pc t p := rfl
@[simp] theorem fetchSub_readers (s : State τ) (t : τ) (p : Pc) :
    (fetchSub s t p).readers = s.readers - 1 := rfl
@[simp] theorem fetchSub_writer (s : State τ) (t : τ) (p : Pc) :
    (fetchSub s t p).writer = s.writer := rfl
@[simp] theorem fetchSub_pc (s : State τ) (t : τ) (p : Pc) :
    (fetchSub s t p).pc = Function.update s.pc t p := rfl
@[simp] theorem storeWriter_readers (s : State τ) (t : τ) (b : Bool) (p : Pc) :
    (storeWriter s t b p).readers = s.readers := rfl
@[simp] theorem storeWriter_writer (s : State τ) (t : τ) (b : Bool) (p : Pc) :
    (storeWriter s t b p).writer = b := rfl
@[simp] theorem storeWriter_pc (s : State τ) (t : τ) (b : Bool) (p : Pc) :
    (storeWriter s t b p).pc = Function.update s.pc t p := rfl

/-- One atomic step; `none` when the label cannot move (a spinning agent, or an agent
not outside the lock when it calls). -/
def step (s : State τ) : Label τ → Option (State τ)
  | .read t => if s.pc t = .idle then some (setPc s t .readSpin) else none
  | .write t => if s.pc t = .idle then some (setPc s t .writeCas) else none
  | .step t =>
    match s.pc t with
    | .idle => none
    -- `while self.writer.load(Acquire) { R::relax() }`
    | .readSpin => if s.writer then none else some (setPc s t .readAdd)
    | .readAdd => some (fetchAdd s t .readCheck)
    -- the writer has priority: back off if it set its flag in the meantime
    | .readCheck => some (setPc s t (if s.writer then .readBackoff else .readHeld))
    -- the back-off returns to the top of the `loop`
    | .readBackoff => some (fetchSub s t .readSpin)
    | .readHeld => some (fetchSub s t .idle)
    -- `compare_exchange(false, true)` fails, and is retried, while `writer` is set
    | .writeCas => if s.writer then none else some (storeWriter s t true .writeWait)
    -- `while self.readers.load(Acquire) != 0 { R::relax() }`
    | .writeWait => if s.readers = 0 then some (setPc s t .writeHeld) else none
    | .writeHeld => some (storeWriter s t false .idle)

/-- `AtomicState::new()`: no readers, no writer, and every agent outside the lock. -/
def IsInit (s : State τ) : Prop :=
  s.readers = 0 ∧ s.writer = false ∧ ∀ t, s.pc t = .idle

/-- The states some interleaving reaches from a fresh lock. -/
def Reach (s : State τ) : Prop := Reachable (Det step) IsInit s

end Steps

/-! ## §2 What a Step Can Do -/

section Moves

variable [DecidableEq τ]

/-- One step, by the atomic it writes and what the agent's move does to the two counts.
Only a load of a clear `writer` leads to `readHeld`, and only a load of a zero `readers`
to `writeHeld`. -/
inductive Move (s : State τ) : State τ → Prop where
  /-- A load or a call: the agent stays in or out of both counts. -/
  | load (t : τ) (p : Pc) (hc : p.counted = (s.pc t).counted)
      (hf : p.flagged = (s.pc t).flagged) (hr : p = .readHeld → s.writer = false)
      (hw : p = .writeHeld → s.readers = 0) : Move s (setPc s t p)
  /-- `fetch_add`: the agent enters the count of `readers`. -/
  | add (t : τ) (p : Pc) (hold : (s.pc t).counted = false) (hc : p.counted = true)
      (hf : p.flagged = (s.pc t).flagged) (hp : p ≠ .readHeld ∧ p ≠ .writeHeld) :
      Move s (fetchAdd s t p)
  /-- `fetch_sub`: the agent leaves the count of `readers`. -/
  | sub (t : τ) (p : Pc) (hold : (s.pc t).counted = true) (hc : p.counted = false)
      (hf : p.flagged = (s.pc t).flagged) (hp : p ≠ .readHeld ∧ p ≠ .writeHeld) :
      Move s (fetchSub s t p)
  /-- A store of `b` to `writer`: the agent takes the flag, from a clear `writer`, or
  gives it back. -/
  | store (t : τ) (b : Bool) (p : Pc) (hold : (s.pc t).flagged = !b) (hf : p.flagged = b)
      (hw : b = true → s.writer = false) (hc : p.counted = (s.pc t).counted)
      (hp : p ≠ .readHeld ∧ p ≠ .writeHeld) : Move s (storeWriter s t b p)

variable {s s' : State τ}

/-- **Inversion of `step`**: every step is a `Move`. -/
theorem step_move {a : Label τ} (h : step s a = some s') : Move s s' := by
  cases a with
  | read t =>
    simp only [step] at h
    split at h
    · cases h
      exact .load t _ (by simp [*, Pc.counted]) (by simp [*, Pc.flagged]) (by simp) (by simp)
    · cases h
  | write t =>
    simp only [step] at h
    split at h
    · cases h
      exact .load t _ (by simp [*, Pc.counted]) (by simp [*, Pc.flagged]) (by simp) (by simp)
    · cases h
  | step t =>
    simp only [step] at h
    -- one case per position of the moving agent, then the guard of its step
    split at h <;> rename_i hpc
    · cases h
    · split at h
      · cases h
      · cases h
        exact .load t _ (by simp [hpc, Pc.counted]) (by simp [hpc, Pc.flagged]) (by simp)
          (by simp)
    · cases h
      exact .add t _ (by simp [hpc, Pc.counted]) rfl (by simp [hpc, Pc.flagged]) (by simp)
    · cases h
      cases hw : s.writer
      · exact .load t _ (by simp [hpc, Pc.counted]) (by simp [hpc, Pc.flagged])
          (fun _ => hw) (by simp)
      · exact .load t _ (by simp [hpc, Pc.counted]) (by simp [hpc, Pc.flagged]) (by simp)
          (by simp)
    · cases h
      exact .sub t _ (by simp [hpc, Pc.counted]) rfl (by simp [hpc, Pc.flagged]) (by simp)
    · cases h
      exact .sub t _ (by simp [hpc, Pc.counted]) rfl (by simp [hpc, Pc.flagged]) (by simp)
    · split at h <;> rename_i hw
      · cases h
      · cases h
        exact .store t true _ (by simp [hpc, Pc.flagged]) rfl (fun _ => by simpa using hw)
          (by simp [hpc, Pc.counted]) (by simp)
    · split at h
      · cases h
        exact .load t _ (by simp [hpc, Pc.counted]) (by simp [hpc, Pc.flagged]) (by simp)
          (fun _ => ‹_›)
      · cases h
    · cases h
      exact .store t false _ (by simp [hpc, Pc.flagged]) rfl (by simp)
        (by simp [hpc, Pc.counted]) (by simp)

end Moves

/-! ## §3 The Counting Invariant -/

section Invariant

variable [Fintype τ]

/-- The agents `readers` should count: the live read guards and the readers between
their `fetch_add` and their back-off. -/
def State.counted (s : State τ) : Nat := countParties Pc.counted s.pc

/-- The agents that own the `writer` flag. -/
def State.flagged (s : State τ) : Nat := countParties Pc.flagged s.pc

/-- The invariant of every reachable state, for any number of agents. -/
structure Inv (s : State τ) : Prop where
  readers_eq : s.readers.toNat = s.counted % 2 ^ 32
  flagged_eq : s.flagged = if s.writer then 1 else 0

variable {s s' : State τ}

/-- A fresh lock satisfies the invariant. -/
theorem Inv.of_init (h0 : IsInit s) : Inv s := by
  obtain ⟨hr, hw, hpc⟩ := h0
  -- no agent is in either count
  have hc : s.counted = 0 := countParties_eq_zero_iff.mpr fun t => by rw [hpc t]; rfl
  have hf : s.flagged = 0 := countParties_eq_zero_iff.mpr fun t => by rw [hpc t]; rfl
  exact ⟨by rw [hr, hc]; rfl, by rw [hf, hw]; rfl⟩

/-- An agent that owns the flag sees `writer` set. -/
theorem Inv.writer_of_flagged (h : Inv s) {t : τ} (ht : (s.pc t).flagged = true) :
    s.writer = true := by
  have hpos : 0 < s.flagged := countParties_pos ht
  cases hw : s.writer
  · rw [h.flagged_eq, hw] at hpos
    exact absurd hpos (Nat.lt_irrefl 0)
  · rfl

/-- At most one agent owns the flag. -/
theorem Inv.flagged_unique (h : Inv s) {t u : τ} (ht : (s.pc t).flagged = true)
    (hu : (s.pc u).flagged = true) : t = u := by
  by_contra hne
  have hlt : 1 < s.flagged := one_lt_countParties hne ht hu
  rw [h.flagged_eq] at hlt
  split at hlt <;> omega

variable [DecidableEq τ]

/-- A move within the same class of positions leaves a count unchanged. -/
theorem countParties_update_of_eq {q : Pc → Bool} {t : τ} {p : Pc}
    (hq : q p = q (s.pc t)) : countParties q (Function.update s.pc t p) = countParties q s.pc := by
  have h := countParties_update q s.pc t p
  rw [hq] at h
  omega

/-- A move into the class of `q` adds one. -/
theorem countParties_update_enter {q : Pc → Bool} {t : τ} {p : Pc}
    (hold : q (s.pc t) = false) (hp : q p = true) :
    countParties q (Function.update s.pc t p) = countParties q s.pc + 1 := by
  have h := countParties_update q s.pc t p
  rw [hold, hp] at h
  simpa using h

/-- A move out of the class of `q` takes one away. -/
theorem countParties_update_leave {q : Pc → Bool} {t : τ} {p : Pc}
    (hold : q (s.pc t) = true) (hp : q p = false) :
    countParties q (Function.update s.pc t p) + 1 = countParties q s.pc := by
  have h := countParties_update q s.pc t p
  rw [hold, hp] at h
  simpa using h

/-- **Step lemma**: every move keeps the invariant. -/
theorem Inv.of_move (h : Inv s) (hm : Move s s') : Inv s' := by
  cases hm with
  | load t p hc hf =>
    have hcount : (setPc s t p).counted = s.counted := countParties_update_of_eq hc
    have hflag : (setPc s t p).flagged = s.flagged := countParties_update_of_eq hf
    exact ⟨by rw [hcount]; exact h.readers_eq, by rw [hflag]; exact h.flagged_eq⟩
  | add t p hold hc hf =>
    have hcount : (fetchAdd s t p).counted = s.counted + 1 := countParties_update_enter hold hc
    have hflag : (fetchAdd s t p).flagged = s.flagged := countParties_update_of_eq hf
    refine ⟨?_, by rw [hflag]; exact h.flagged_eq⟩
    -- the counter and the count both go up by one, modulo `2 ^ 32`
    rw [fetchAdd_readers, UInt32.toNat_add, h.readers_eq, hcount, UInt32.toNat_one]
    omega
  | sub t p hold hc hf =>
    have hcount : (fetchSub s t p).counted + 1 = s.counted := countParties_update_leave hold hc
    have hflag : (fetchSub s t p).flagged = s.flagged := countParties_update_of_eq hf
    refine ⟨?_, by rw [hflag]; exact h.flagged_eq⟩
    -- the counter and the count both go down by one, modulo `2 ^ 32`
    rw [fetchSub_readers, UInt32.toNat_sub, h.readers_eq, ← hcount, UInt32.toNat_one]
    omega
  | store t b p hold hf hw hc =>
    have hcount : (storeWriter s t b p).counted = s.counted := countParties_update_of_eq hc
    refine ⟨by rw [hcount]; exact h.readers_eq, ?_⟩
    rw [storeWriter_writer]
    cases b with
    | true =>
      -- the flag is taken from a clear `writer`, so nobody owned it
      have hflag : (storeWriter s t true p).flagged = s.flagged + 1 :=
        countParties_update_enter hold hf
      rw [hflag, h.flagged_eq, hw rfl]
      rfl
    | false =>
      -- the flag is given back by its one owner
      have hflag : (storeWriter s t false p).flagged + 1 = s.flagged :=
        countParties_update_leave hold hf
      rw [h.flagged_eq, h.writer_of_flagged hold] at hflag
      simpa using hflag

/-- **Run lemma**: every reachable state satisfies the invariant. -/
theorem Reach.inv (h : Reach s) : Inv s :=
  Reachable.invariant (fun s => Inv s) (fun _ h0 => Inv.of_init h0)
    (fun _ _ _ hi hs => hi.of_move (step_move hs)) h

end Invariant

/-! ## §4 Readers One After Another -/

section Readers

/-- The first `k` agents of `Fin n` hold read guards, and `readers` is `k` as a `u32`. -/
def heldBelow (n k : Nat) : State (Fin n) :=
  ⟨UInt32.ofNat k, false, fun t => if t.val < k then .readHeld else .idle⟩

/-- Agent `k` runs `read_lock` alone: a call and three steps. -/
theorem heldBelow_succ {n k : Nat} {t : Fin n} (ht : t.val = k) :
    setPc (fetchAdd (setPc (setPc (heldBelow n k) t .readSpin) t .readAdd) t .readCheck) t
      .readHeld = heldBelow n (k + 1) := by
  simp only [setPc, fetchAdd, heldBelow, Function.update_idem, UInt32.ofNat_add]
  congr 1
  funext u
  by_cases hu : u = t
  · subst hu
    simp [ht]
  · have hne : u.val ≠ k := fun h => hu (Fin.ext (h.trans ht.symm))
    rw [Function.update_of_ne hu]
    -- the other agents are below `k` exactly when they are below `k + 1`
    have hlt : (u.val < k) ↔ (u.val < k + 1) := by omega
    simp only [hlt]

/-- Any number of readers can hold their guards at once, one after the other. -/
theorem reach_heldBelow {n k : Nat} (hk : k ≤ n) : Reach (heldBelow n k) := by
  induction k with
  | zero => exact Reachable.of_init ⟨rfl, rfl, fun _ => by simp [heldBelow]⟩
  | succ k ih =>
    obtain ⟨t, ht⟩ : ∃ t : Fin n, t.val = k := ⟨⟨k, hk⟩, rfl⟩
    have hpc : (heldBelow n k).pc t = .idle := by simp [heldBelow, ht]
    -- the call, the load of a clear `writer`, the `fetch_add`, and the second load
    have h₁ := (ih (Nat.le_of_succ_le hk)).tail (a := .read t)
      (t := setPc (heldBelow n k) t .readSpin) (by simp [Det, step, hpc])
    have h₂ := h₁.tail (a := .step t) (t := setPc (setPc (heldBelow n k) t .readSpin) t .readAdd)
      (by simp [Det, step, heldBelow])
    have h₃ := h₂.tail (a := .step t)
      (t := fetchAdd (setPc (setPc (heldBelow n k) t .readSpin) t .readAdd) t .readCheck)
      (by simp [Det, step])
    have h₄ := h₃.tail (a := .step t) (t := setPc (fetchAdd (setPc (setPc (heldBelow n k) t
      .readSpin) t .readAdd) t .readCheck) t .readHeld) (by simp [Det, step, heldBelow])
    rw [heldBelow_succ ht] at h₄
    exact h₄

end Readers

/-! ## §5 Exclusion Below the Wrap -/

section Exclusion

variable [Fintype τ] {s s' : State τ}

/-- A live write guard excludes every read guard. -/
def Excl (s : State τ) : Prop := ∀ t u, s.pc t = .writeHeld → s.pc u ≠ .readHeld

section Bounded

variable (hcard : Fintype.card τ < 2 ^ 32)
include hcard

/-- Below `2 ^ 32` agents the counter does not wrap: it is the count itself. -/
theorem Inv.readers_eq_counted (h : Inv s) : s.readers.toNat = s.counted := by
  have hle : s.counted ≤ Fintype.card τ := countParties_le_card _ _
  rw [h.readers_eq, Nat.mod_eq_of_lt (by omega)]

/-- A zero counter means no agent is counted, in particular no read guard is live. -/
theorem Inv.not_counted_of_readers_zero (h : Inv s) (h0 : s.readers = 0) (u : τ) :
    (s.pc u).counted = false := by
  have hc : s.counted = 0 := by
    rw [← h.readers_eq_counted hcard, h0]
    rfl
  exact countParties_eq_zero_iff.mp hc u

variable [DecidableEq τ]

/-- **Step lemma** for exclusion. -/
theorem Excl.of_move (hi : Inv s) (h : Excl s) (hm : Move s s') : Excl s' := by
  intro x y hx hy
  cases hm with
  | load t p _ hf hr hw =>
    simp only [setPc_pc, Function.update_apply] at hx hy
    by_cases hxt : x = t
    · -- the mover takes the write guard: it saw `readers` at zero, so nobody reads
      subst hxt
      rw [if_pos rfl] at hx
      have hy' : s.pc y = .readHeld := by
        by_cases hyx : y = x
        · rw [if_pos hyx, hx] at hy
          cases hy
        · rwa [if_neg hyx] at hy
      have := hi.not_counted_of_readers_zero hcard (hw hx) y
      rw [hy'] at this
      cases this
    · rw [if_neg hxt] at hx
      by_cases hyt : y = t
      · -- the mover takes a read guard: it saw `writer` clear, so nobody writes
        rw [if_pos hyt] at hy
        have hflag : (s.pc x).flagged = true := by rw [hx]; rfl
        rw [hi.writer_of_flagged hflag] at hr
        cases hr hy
      · rw [if_neg hyt] at hy
        exact h x y hx hy
  | add t p _ _ _ hp | sub t p _ _ _ hp | store t b p _ _ _ _ hp =>
    -- the mover takes no guard, and the others keep theirs
    simp only [fetchAdd_pc, fetchSub_pc, storeWriter_pc, Function.update_apply] at hx hy
    split at hx
    · exact hp.2 hx
    · split at hy
      · exact hp.1 hy
      · exact h x y hx hy

/-- Every reachable state with fewer than `2 ^ 32` agents satisfies `Excl`. -/
theorem Reach.excl (h : Reach s) : Excl s := by
  have hboth : Inv s ∧ Excl s :=
    Reachable.invariant (fun s => Inv s ∧ Excl s)
      (fun _ h0 => ⟨Inv.of_init h0, fun t _ ht => by rw [h0.2.2 t] at ht; cases ht⟩)
      (fun _ _ _ hi hs => ⟨hi.1.of_move (step_move hs), hi.2.of_move hcard hi.1 (step_move hs)⟩)
      h
  exact hboth.2

end Bounded

variable [DecidableEq τ]

/-- **The lock's counters and its exclusion**: in every interleaving, for any number of
agents, `readers` is the number of live read guards plus the readers between their
`fetch_add` and their back-off, modulo `2 ^ 32`, and `writer` is set exactly when one agent
is past its `compare_exchange`.  With fewer than `2 ^ 32` agents the count does not wrap:
while a write guard is live no other write guard and no read guard is live. -/
theorem rwlock_exclusive (h : Reach s) :
    (s.readers.toNat = s.counted % 2 ^ 32 ∧ s.flagged = if s.writer then 1 else 0) ∧
      (Fintype.card τ < 2 ^ 32 →
        (∀ t, s.pc t = .writeHeld →
          (∀ u, u ≠ t → s.pc u ≠ .writeHeld) ∧ ∀ u, s.pc u ≠ .readHeld) ∧
          s.readers.toNat = s.counted) := by
  have hi := h.inv
  refine ⟨⟨hi.readers_eq, hi.flagged_eq⟩, fun hcard => ?_⟩
  refine ⟨fun t ht => ⟨fun u hne hu => ?_, fun u => h.excl hcard t u ht⟩,
    hi.readers_eq_counted hcard⟩
  -- two write guards would be two owners of the flag
  have hflag : ∀ x, s.pc x = .writeHeld → (s.pc x).flagged = true := fun x hx => by rw [hx]; rfl
  exact hne (hi.flagged_unique (hflag u hu) (hflag t ht))

/-- One of two agents holds a read guard. -/
theorem rwlock_exclusive_oneReader :
    ((heldBelow 2 1).readers.toNat = (heldBelow 2 1).counted % 2 ^ 32 ∧
        (heldBelow 2 1).flagged = if (heldBelow 2 1).writer then 1 else 0) ∧
      (Fintype.card (Fin 2) < 2 ^ 32 →
        (∀ t, (heldBelow 2 1).pc t = .writeHeld →
          (∀ u, u ≠ t → (heldBelow 2 1).pc u ≠ .writeHeld) ∧ ∀ u, (heldBelow 2 1).pc u ≠ .readHeld) ∧
          (heldBelow 2 1).readers.toNat = (heldBelow 2 1).counted) :=
  rwlock_exclusive (reach_heldBelow (by decide))

end Exclusion

/-! ## §6 The Wrap -/

section Wrap

/-- With `n` read guards live and `n` a multiple of `2 ^ 32`, `readers` reads zero and one
more agent takes the write guard. -/
theorem writer_enters_heldBelow {n : Nat} (hn : n % 2 ^ 32 = 0) :
    ∃ s : State (Fin (n + 1)), Reach s ∧ s.pc (Fin.last n) = .writeHeld ∧
      (∀ i : Fin (n + 1), i.val < n → s.pc i = .readHeld) ∧ s.readers = 0 := by
  have hpc : (heldBelow (n + 1) n).pc (Fin.last n) = .idle := by simp [heldBelow]
  have hzero : (heldBelow (n + 1) n).readers = 0 := by
    apply UInt32.toNat_inj.mp
    rw [UInt32.toNat_zero, ← hn]
    exact UInt32.toNat_ofNat'
  -- the writer calls `write`, takes the flag, and finds `readers` at zero
  have h₁ := (reach_heldBelow (Nat.le_succ n)).tail (a := .write (Fin.last n))
    (t := setPc (heldBelow (n + 1) n) (Fin.last n) .writeCas) (by simp [Det, step, hpc])
  have h₂ := h₁.tail (a := .step (Fin.last n))
    (t := storeWriter (setPc (heldBelow (n + 1) n) (Fin.last n) .writeCas) (Fin.last n) true
      .writeWait) (by simp [Det, step, heldBelow])
  have h₃ := h₂.tail (a := .step (Fin.last n))
    (t := setPc (storeWriter (setPc (heldBelow (n + 1) n) (Fin.last n) .writeCas) (Fin.last n)
      true .writeWait) (Fin.last n) .writeHeld) (by simp [Det, step, hzero])
  refine ⟨_, h₃, by simp, fun i hi => ?_, hzero⟩
  -- the readers are the agents other than the writer
  have hne : i ≠ Fin.last n := Fin.ne_of_lt hi
  simp [Function.update_of_ne hne, heldBelow, hi]

/-- `2 ^ 32` readers hold their guards, and `readers` has wrapped to zero: a writer's
`write_lock` then returns while every read guard is live. -/
theorem rwlock_wraps :
    ∃ s : State (Fin (2 ^ 32 + 1)), Reach s ∧ s.pc (Fin.last _) = .writeHeld ∧
      s.pc 0 = .readHeld ∧ s.readers.toNat ≠ s.counted := by
  obtain ⟨s, hreach, hw, hr, h0⟩ := writer_enters_heldBelow (n := 2 ^ 32) (by decide)
  have hreader : s.pc 0 = .readHeld := hr 0 (by decide)
  refine ⟨s, hreach, hw, hreader, ?_⟩
  -- reader `0` is counted, but `readers` reads zero
  have hpos : 0 < s.counted := countParties_pos (x := 0) (by rw [hreader]; rfl)
  rw [h0, UInt32.toNat_zero]
  exact Nat.ne_of_lt hpos

end Wrap

end Beskar.Hyperdrive.RwLock
