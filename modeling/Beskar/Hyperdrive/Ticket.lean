import Beskar.Lib.Transition

/-!
# The Ticket Lock

Model of `TicketLock::lock` and `TicketGuard::drop` (`hyperdrive/src/locks/ticket.rs`) as a
transition system: finitely many agents take the atomic steps of these functions in any
interleaving (sequentially consistent memory).  The critical section of every agent is the
body of the source's `test_ticket_lock_concurrent`, `*guard += 1`, generalised to
`*guard = f(*guard)` for any `f`: a read of the data, then a write, two steps.

Each atomic access is one step:

- `lock`: `next_ticket.fetch_add(1)`, which wraps at `u32::MAX`, gives the agent its ticket;
  then `now_serving.load()`, spinning until it is that ticket;
- the body: a read of `*guard`, then a write;
- `drop`: `now_serving.fetch_add(1)`, which wraps.

Three ghost fields record what the code does not keep: how many bodies wrote the data, and
the agents in the order they took their tickets and in the order they entered.

## Main results

- `Queue`: in every reachable state with at most `2 ^ 32` agents, the spinning agents, in
  the order they took their tickets, sit at the positions `ticket - now_serving` right
  after the one holder of the guard, and `next_ticket - now_serving` counts them and the
  holder (`Reach.inv`).
- `ticket_mutual_exclusion`: at most one agent holds the guard.
- `ticket_fifo`: the agents enter in the order in which they took their tickets.
- `ticket_no_lost_update`: the data is `f` applied once per finished body.
- `ticket_deadlock_free`: while an agent is inside `lock` or holds the guard, some agent
  can move.
-/

namespace Beskar.Hyperdrive.Ticket

open Beskar.Lib

/-- Where an agent is in `lock`, its critical section, or the guard's `drop`. -/
inductive Pc where
  | idle
  /-- `self.next_ticket.fetch_add(1, Ordering::Acquire)` comes next. -/
  | take
  /-- `while self.now_serving.load(Ordering::Acquire) != ticket`. -/
  | spin
  /-- The guard is live; the body reads `*guard` next. -/
  | read
  /-- The body writes `*guard` next. -/
  | write
  /-- The body is done; `drop`'s `self.now_serving.fetch_add(1, Ordering::Release)` is next. -/
  | release
deriving DecidableEq, Repr

namespace Pc

/-- Spinning on `now_serving` with a ticket. -/
def waiting : Pc → Bool
  | spin => true
  | _ => false

/-- Holding a live `TicketGuard`. -/
def guarded : Pc → Bool
  | read | write | release => true
  | _ => false

theorem waiting_iff {p : Pc} : p.waiting = true ↔ p = .spin := by
  cases p <;> simp [waiting]

theorem guarded_not_waiting (p : Pc) (h : p.guarded = true) : p.waiting = false := by
  cases p <;> first | rfl | cases h

end Pc

/-- The two atomics and the data of a `TicketLock`, each agent's position, ticket and the
value its body read, and the ghost fields. -/
structure State (τ : Type) (T : Type) where
  nextTicket : UInt32
  nowServing : UInt32
  data : T
  pc : τ → Pc
  ticket : τ → UInt32
  reg : τ → T
  /-- Ghost: the bodies that have written the data. -/
  done : Nat
  /-- Ghost: the agents in the order they took a ticket. -/
  taken : List τ
  /-- Ghost: the agents in the order they entered the critical section. -/
  entered : List τ

/-- Who moves: an agent calling `lock`, or an agent taking its next step. -/
inductive Label (τ : Type) where
  | lock (t : τ)
  | step (t : τ)
deriving DecidableEq, Repr

variable {τ T : Type}

/-! ## §1 Steps -/

section Steps

variable [DecidableEq τ]

namespace State

/-- A call of `lock`, or a load: only the agent's position changes. -/
def setPc (s : State τ T) (t : τ) (p : Pc) : State τ T :=
  { s with pc := Function.update s.pc t p }

/-- `next_ticket.fetch_add(1)`: the agent's ticket is the old value. -/
def takeTicket (s : State τ T) (t : τ) : State τ T :=
  { s with
    nextTicket := s.nextTicket + 1
    ticket := Function.update s.ticket t s.nextTicket
    pc := Function.update s.pc t .spin
    taken := s.taken ++ [t] }

/-- The load of `now_serving` that sees the agent's ticket ends `lock`. -/
def enter (s : State τ T) (t : τ) : State τ T :=
  { s with pc := Function.update s.pc t .read, entered := s.entered ++ [t] }

/-- The body reads `*guard`. -/
def readData (s : State τ T) (t : τ) : State τ T :=
  { s with reg := Function.update s.reg t s.data, pc := Function.update s.pc t .write }

/-- The body writes `f` of what it read. -/
def writeData (f : T → T) (s : State τ T) (t : τ) : State τ T :=
  { s with data := f (s.reg t), done := s.done + 1, pc := Function.update s.pc t .release }

/-- `now_serving.fetch_add(1)`: the next ticket is served. -/
def release (s : State τ T) (t : τ) : State τ T :=
  { s with nowServing := s.nowServing + 1, pc := Function.update s.pc t .idle }

end State

/-- One atomic step; `none` when the label cannot move (a spinning agent whose ticket is
not served, or an agent not outside the lock when it calls `lock`). -/
def step (f : T → T) (s : State τ T) : Label τ → Option (State τ T)
  | .lock t => if s.pc t = .idle then some (s.setPc t .take) else none
  | .step t =>
    match s.pc t with
    | .idle => none
    | .take => some (s.takeTicket t)
    | .spin => if s.nowServing = s.ticket t then some (s.enter t) else none
    | .read => some (s.readData t)
    | .write => some (s.writeData f t)
    | .release => some (s.release t)

/-- `TicketLock::new(d₀)`: both counters at zero, every agent outside the lock, the ghost
fields empty. -/
def IsInit (d₀ : T) (s : State τ T) : Prop :=
  s.nextTicket = 0 ∧ s.nowServing = 0 ∧ s.data = d₀ ∧ (∀ t, s.pc t = .idle) ∧ s.done = 0 ∧
    s.taken = [] ∧ s.entered = []

/-- The states some interleaving reaches from `TicketLock::new(d₀)`. -/
def Reach (f : T → T) (d₀ : T) (s : State τ T) : Prop := Reachable (Det (step f)) (IsInit d₀) s

/-- What one step can do, with the guard each move needs. -/
inductive Move (f : T → T) (s : State τ T) : State τ T → Prop where
  | call (t : τ) (h : s.pc t = .idle) : Move f s (s.setPc t .take)
  | take (t : τ) (h : s.pc t = .take) : Move f s (s.takeTicket t)
  | enter (t : τ) (h : s.pc t = .spin) (hturn : s.nowServing = s.ticket t) :
      Move f s (s.enter t)
  | read (t : τ) (h : s.pc t = .read) : Move f s (s.readData t)
  | write (t : τ) (h : s.pc t = .write) : Move f s (s.writeData f t)
  | release (t : τ) (h : s.pc t = .release) : Move f s (s.release t)

variable {f : T → T} {s s' : State τ T}

/-- **Inversion of `step`**: every step is a `Move`. -/
theorem step_move {a : Label τ} (h : step f s a = some s') : Move f s s' := by
  cases a with
  | lock t =>
    simp only [step] at h
    split at h
    · cases h
      exact .call t ‹_›
    · cases h
  | step t =>
    simp only [step] at h
    split at h <;> rename_i hpc
    · cases h
    · cases h
      exact .take t hpc
    · split at h
      · cases h
        exact .enter t hpc ‹_›
      · cases h
    · cases h
      exact .read t hpc
    · cases h
      exact .write t hpc
    · cases h
      exact .release t hpc

/-- Moving one agent within a class of positions leaves every agent's class. -/
theorem update_class (q : Pc → Bool) {t : τ} {p : Pc} (hp : q p = q (s.pc t)) (u : τ) :
    q (Function.update s.pc t p u) = q (s.pc u) := by
  rcases eq_or_ne u t with rfl | hut
  · rw [Function.update_self, hp]
  · rw [Function.update_of_ne hut]

/-- An agent writing after a move to a position other than `write` was writing before. -/
theorem update_write {t : τ} {p : Pc} (hp : p ≠ .write) {u : τ}
    (hu : Function.update s.pc t p u = .write) : s.pc u = .write := by
  rcases eq_or_ne u t with rfl | hut
  · rw [Function.update_self] at hu
    exact absurd hu hp
  · rwa [Function.update_of_ne hut] at hu

end Steps

/-! ## §2 The Invariant -/

section Invariant

variable {f : T → T} {d₀ : T} {s s' : State τ T} {w : List τ}

/-- How far the agent's ticket is past the one served, modulo `2 ^ 32`. -/
def State.pos (s : State τ T) (t : τ) : Nat := (s.ticket t - s.nowServing).toNat

/-- The data half of the invariant: the body about to write read the current data, and
the data is `f` once per body that wrote. -/
structure Serial (f : T → T) (d₀ : T) (s : State τ T) : Prop where
  reg_eq : ∀ t, s.pc t = .write → s.reg t = s.data
  data_eq : s.data = f^[s.done] d₀

/-- **Frame of the data**: a step that keeps the data and the count of writes, and makes
no agent newly a writer, keeps the data half. -/
theorem Serial.of_frame (hs : Serial f d₀ s) (hdata : s'.data = s.data) (hdone : s'.done = s.done)
    (hwrite : ∀ u, s'.pc u = .write → s.pc u = .write) (hreg : s'.reg = s.reg) :
    Serial f d₀ s' := by
  refine ⟨fun u hu => ?_, by rw [hdata, hdone]; exact hs.data_eq⟩
  rw [hreg, hdata]
  exact hs.reg_eq u (hwrite u hu)

/-- The read of `*guard` records the current data. -/
theorem Serial.of_read [DecidableEq τ] (hs : Serial f d₀ s) {t : τ} :
    Serial f d₀ (s.readData t) := by
  refine ⟨fun u hu => ?_, hs.data_eq⟩
  rcases eq_or_ne u t with rfl | hut
  · simp [State.readData]
  · simp only [State.readData, Function.update_of_ne hut] at hu ⊢
    exact hs.reg_eq u hu

variable [Fintype τ]

/-- The agents holding the guard. -/
def State.holders (s : State τ T) : Nat := countParties Pc.guarded s.pc

/-- The ticket half of the invariant, with `w` the spinning agents in the order they took
their tickets: they sit right after the holder, one ticket apart. -/
structure Queue (s : State τ T) (w : List τ) : Prop where
  mem_wait : ∀ t, t ∈ w ↔ (s.pc t).waiting = true
  nodup : w.Nodup
  pos_wait : ∀ i (hi : i < w.length), s.pos w[i] = i + s.holders
  pos_holder : ∀ t, (s.pc t).guarded = true → s.pos t = 0
  holders_le : s.holders ≤ 1
  count : (s.nextTicket - s.nowServing).toNat = (s.holders + w.length) % 2 ^ 32
  log : s.taken = s.entered ++ w

/-- The invariant of every reachable state. -/
def Inv (f : T → T) (d₀ : T) (s : State τ T) : Prop := (∃ w, Queue s w) ∧ Serial f d₀ s

/-- Two guard holders are one. -/
theorem Queue.holder_unique (hq : Queue s w) {t u : τ} (ht : (s.pc t).guarded = true)
    (hu : (s.pc u).guarded = true) : t = u := by
  by_contra hne
  have := one_lt_countParties hne ht hu
  have := hq.holders_le
  unfold State.holders at *
  omega

/-- **Frame of the queue**: a step that keeps the counters, the tickets and the logs, and
moves agents only within their classes, keeps the queue. -/
theorem Queue.of_frame (hq : Queue s w) (hnext : s'.nextTicket = s.nextTicket)
    (hserv : s'.nowServing = s.nowServing) (hticket : s'.ticket = s.ticket)
    (hlog : s'.taken = s.taken ∧ s'.entered = s.entered)
    (hwait : ∀ u, (s'.pc u).waiting = (s.pc u).waiting)
    (hguard : ∀ u, (s'.pc u).guarded = (s.pc u).guarded) : Queue s' w := by
  have hpos : s'.pos = s.pos := by
    funext u
    simp only [State.pos, hticket, hserv]
  have hheld : s'.holders = s.holders := countParties_congr hguard
  refine ⟨fun u => by rw [hwait]; exact hq.mem_wait u, hq.nodup, fun i hi => ?_,
    fun u hu => ?_, ?_, ?_, ?_⟩
  · rw [hpos, hheld]
    exact hq.pos_wait i hi
  · rw [hpos]
    exact hq.pos_holder u (by rw [← hguard]; exact hu)
  · rw [hheld]
    exact hq.holders_le
  · rw [hnext, hserv, hheld]
    exact hq.count
  · rw [hlog.1, hlog.2]
    exact hq.log

/-- A fresh lock meets the invariant with nobody in line. -/
theorem Inv.of_init (h0 : IsInit d₀ s) : Inv f d₀ s := by
  obtain ⟨hnext, hserv, hdata, hidle, hdone, htaken, hentered⟩ := h0
  have hheld : s.holders = 0 := countParties_eq_zero_iff.mpr fun t => by rw [hidle t]; rfl
  refine ⟨⟨[], fun t => ?_, List.nodup_nil, fun i hi => absurd hi (Nat.not_lt_zero _),
    fun t ht => ?_, by omega, ?_, by rw [htaken, hentered]; rfl⟩, fun t ht => ?_, ?_⟩
  · simp [hidle t, Pc.waiting]
  · rw [hidle t] at ht
    cases ht
  · rw [hheld, hnext, hserv, List.length_nil]
    decide
  · rw [hidle t] at ht
    cases ht
  · rw [hdone, hdata]
    rfl

variable [DecidableEq τ]

/-- The spinning agents and the holder are all the agents with a ticket. -/
theorem Queue.holders_add_length (hq : Queue s w) :
    s.holders + w.length = countParties (fun p => p.guarded || p.waiting) s.pc := by
  rw [length_eq_countParties hq.nodup hq.mem_wait]
  exact countParties_add s.pc Pc.guarded_not_waiting

/-! ### The moves that change the queue -/

/-- Ticket arithmetic modulo `2 ^ 32`: one more taken. -/
theorem toNat_add_one_sub (a b : UInt32) :
    (a + 1 - b).toNat = ((a - b).toNat + 1) % 2 ^ 32 := by
  rw [UInt32.toNat_sub, UInt32.toNat_add, UInt32.toNat_sub, UInt32.toNat_one]
  have := a.toNat_lt
  have := b.toNat_lt
  omega

/-- Ticket arithmetic modulo `2 ^ 32`: one more served. -/
theorem toNat_sub_add_one (a b : UInt32) :
    (a - (b + 1)).toNat = ((a - b).toNat + (2 ^ 32 - 1)) % 2 ^ 32 := by
  rw [UInt32.toNat_sub, UInt32.toNat_add, UInt32.toNat_sub, UInt32.toNat_one]
  have := a.toNat_lt
  have := b.toNat_lt
  omega

/-- `fetch_add` on `next_ticket` puts the agent at the end of the line. -/
theorem Queue.of_take (hcard : Fintype.card τ ≤ 2 ^ 32) (hq : Queue s w) {t : τ}
    (h : s.pc t = .take) : Queue (s.takeTicket t) (w ++ [t]) := by
  have htw : t ∉ w := fun ht => by
    rw [hq.mem_wait, h] at ht
    cases ht
  have hheld : (s.takeTicket t).holders = s.holders :=
    countParties_congr (update_class Pc.guarded (by rw [h]; rfl))
  -- the agents with a ticket leave out `t`, so there are fewer than `2 ^ 32` of them
  have hroom : s.holders + w.length < 2 ^ 32 := by
    rw [hq.holders_add_length]
    have := countParties_lt_card (p := fun p => p.guarded || p.waiting) (f := s.pc) (x := t)
      (by rw [h]; rfl)
    omega
  have hpos : ∀ u, u ≠ t → (s.takeTicket t).pos u = s.pos u := fun u hut => by
    simp only [State.pos, State.takeTicket, Function.update_of_ne hut]
  refine ⟨fun u => ?_, List.nodup_append.mpr ⟨hq.nodup, List.nodup_singleton t, ?_⟩,
    fun i hi => ?_, fun u hu => ?_, ?_, ?_, ?_⟩
  · rcases eq_or_ne u t with rfl | hut
    · simp [State.takeTicket, Pc.waiting]
    · simp only [State.takeTicket, Function.update_of_ne hut, List.mem_append,
        List.mem_singleton, hut, or_false]
      exact hq.mem_wait u
  · intro a ha b hb hab
    rw [List.mem_singleton.mp hb] at hab
    exact htw (hab ▸ ha)
  · rw [hheld]
    rw [List.length_append, List.length_singleton] at hi
    rcases Nat.lt_succ_iff_lt_or_eq.mp hi with hi | rfl
    · -- an agent already waiting keeps its ticket
      rw [List.getElem_append_left hi, hpos _ (fun he => htw (he ▸ List.getElem_mem hi))]
      exact hq.pos_wait i hi
    · -- the new ticket is the old `next_ticket`, as far past `now_serving` as the line is long
      rw [List.getElem_append_right (Nat.le_refl _)]
      simp only [Nat.sub_self, List.getElem_singleton, State.pos, State.takeTicket,
        Function.update_self]
      rw [hq.count, Nat.mod_eq_of_lt hroom]
      omega
  · rcases eq_or_ne u t with rfl | hut
    · simp [State.takeTicket, Pc.guarded] at hu
    · simp only [State.takeTicket, Function.update_of_ne hut] at hu
      rw [hpos u hut]
      exact hq.pos_holder u hu
  · rw [hheld]
    exact hq.holders_le
  · rw [hheld, List.length_append, List.length_singleton]
    simp only [State.takeTicket]
    rw [toNat_add_one_sub, hq.count]
    omega
  · simp only [State.takeTicket, hq.log, List.append_assoc]

/-- The load that sees its ticket served takes the first agent in line, while nobody holds
the guard. -/
theorem Queue.of_enter (hq : Queue s w) {t : τ} (h : s.pc t = .spin)
    (hturn : s.nowServing = s.ticket t) : Queue (s.enter t) w.tail := by
  obtain ⟨i, hi, hwi⟩ := List.getElem_of_mem ((hq.mem_wait t).mpr (by rw [h]; rfl))
  have hpos0 : s.pos t = 0 := by
    simp [State.pos, hturn]
  have hi0 := hq.pos_wait i hi
  rw [hwi, hpos0] at hi0
  obtain ⟨rfl, hnone⟩ : i = 0 ∧ s.holders = 0 := by omega
  obtain ⟨w', rfl⟩ : ∃ w', w = t :: w' := by
    cases w with
    | nil => cases hi
    | cons x w' => exact ⟨w', by rw [← hwi]; rfl⟩
  have htw : t ∉ w' := (List.nodup_cons.mp hq.nodup).1
  have hheld : (s.enter t).holders = 1 := by
    have := countParties_update Pc.guarded s.pc t .read
    rw [h] at this
    simp only [State.holders, State.enter]
    unfold State.holders at hnone
    simp only [Pc.guarded, if_true, if_false, Bool.false_eq_true] at this
    omega
  have hpos : (s.enter t).pos = s.pos := rfl
  refine ⟨fun u => ?_, (List.nodup_cons.mp hq.nodup).2, fun j hj => ?_, fun u hu => ?_, ?_, ?_,
    ?_⟩
  · rcases eq_or_ne u t with rfl | hut
    · simp [State.enter, Pc.waiting, htw]
    · simp only [State.enter, Function.update_of_ne hut, List.tail_cons]
      rw [← hq.mem_wait u, List.mem_cons]
      exact ⟨Or.inr, fun hu => hu.resolve_left hut⟩
  · simp only [List.tail_cons] at hj ⊢
    have := hq.pos_wait (j + 1) (by simp only [List.length_cons]; omega)
    rw [List.getElem_cons_succ, hnone] at this
    rw [hpos, hheld, this]
  · rcases eq_or_ne u t with rfl | hut
    · rw [hpos]
      exact hpos0
    · simp only [State.enter, Function.update_of_ne hut] at hu
      rw [hpos]
      exact hq.pos_holder u hu
  · omega
  · have hc := hq.count
    rw [hnone, List.length_cons] at hc
    rw [hheld, List.tail_cons]
    show (s.nextTicket - s.nowServing).toNat = _
    rw [hc]
    omega
  · simp only [State.enter, hq.log, List.tail_cons, List.append_assoc, List.singleton_append]

/-- `fetch_add` on `now_serving` lets the holder go, and moves every ticket one place
closer. -/
theorem Queue.of_release (hq : Queue s w) {t : τ} (h : s.pc t = .release) :
    Queue (s.release t) w := by
  have hguard : (s.pc t).guarded = true := by rw [h]; rfl
  have hone : s.holders = 1 := by
    have := countParties_pos hguard
    have := hq.holders_le
    unfold State.holders at *
    omega
  have hheld : (s.release t).holders = 0 := by
    have := countParties_update Pc.guarded s.pc t .idle
    rw [h] at this
    simp only [State.holders, State.release]
    unfold State.holders at hone
    simp only [Pc.guarded, if_true, if_false, Bool.false_eq_true] at this
    omega
  -- a waiting agent is one place past the holder, and comes one place closer
  have hpos : ∀ i (hi : i < w.length), (s.release t).pos w[i] = i := fun i hi => by
    have hw := hq.pos_wait i hi
    have hlt := (s.ticket w[i] - s.nowServing).toNat_lt
    rw [hone] at hw
    simp only [State.pos, State.release] at hw hlt ⊢
    rw [toNat_sub_add_one, hw]
    omega
  refine ⟨fun u => ?_, hq.nodup, fun i hi => ?_, fun u hu => ?_, ?_, ?_, hq.log⟩
  · simp only [State.release]
    rw [update_class Pc.waiting (by rw [h]; rfl) u]
    exact hq.mem_wait u
  · rw [hpos i hi, hheld, Nat.add_zero]
  · -- the holder left, and it was the only one
    rcases eq_or_ne u t with rfl | hut
    · simp [State.release, Pc.guarded] at hu
    · simp only [State.release, Function.update_of_ne hut] at hu
      exact absurd (hq.holder_unique hu hguard) hut
  · omega
  · rw [hheld]
    show (s.nextTicket - (s.nowServing + 1)).toNat = _
    rw [toNat_sub_add_one, hq.count, hone]
    omega

/-! ### The moves that change the data -/

/-- The write stores `f` of the current data, and no other agent is about to write. -/
theorem Serial.of_write (hs : Serial f d₀ s) (hq : Queue s w) {t : τ} (h : s.pc t = .write) :
    Serial f d₀ (s.writeData f t) := by
  refine ⟨fun u hu => ?_, ?_⟩
  · -- another writer would hold the guard too
    have hu' := update_write (by decide) hu
    have := hq.holder_unique (t := u) (u := t) (by rw [hu']; rfl) (by rw [h]; rfl)
    subst this
    simp [State.writeData] at hu
  · simp only [State.writeData, Function.iterate_succ_apply', hs.reg_eq t h, hs.data_eq]

/-! ### Every move -/

/-- **Step lemma**: every move keeps the invariant. -/
theorem Inv.of_move (hcard : Fintype.card τ ≤ 2 ^ 32) (hi : Inv f d₀ s) (hm : Move f s s') :
    Inv f d₀ s' := by
  obtain ⟨⟨w, hq⟩, hs⟩ := hi
  cases hm with
  | call t h =>
    refine ⟨⟨w, hq.of_frame rfl rfl rfl ⟨rfl, rfl⟩ ?_ ?_⟩,
      hs.of_frame rfl rfl (fun _ => update_write (by decide)) rfl⟩
    · exact update_class Pc.waiting (by rw [h]; rfl)
    · exact update_class Pc.guarded (by rw [h]; rfl)
  | take t h =>
    exact ⟨⟨w ++ [t], hq.of_take hcard h⟩,
      hs.of_frame rfl rfl (fun _ => update_write (by decide)) rfl⟩
  | enter t h hturn =>
    exact ⟨⟨w.tail, hq.of_enter h hturn⟩,
      hs.of_frame rfl rfl (fun _ => update_write (by decide)) rfl⟩
  | read t h =>
    refine ⟨⟨w, hq.of_frame rfl rfl rfl ⟨rfl, rfl⟩ ?_ ?_⟩, hs.of_read⟩
    · exact update_class Pc.waiting (by rw [h]; rfl)
    · exact update_class Pc.guarded (by rw [h]; rfl)
  | write t h =>
    refine ⟨⟨w, hq.of_frame rfl rfl rfl ⟨rfl, rfl⟩ ?_ ?_⟩, hs.of_write hq h⟩
    · exact update_class Pc.waiting (by rw [h]; rfl)
    · exact update_class Pc.guarded (by rw [h]; rfl)
  | release t h =>
    exact ⟨⟨w, hq.of_release h⟩, hs.of_frame rfl rfl (fun _ => update_write (by decide)) rfl⟩

/-- **Run lemma**: with at most `2 ^ 32` agents, every reachable state meets the
invariant. -/
theorem Reach.inv (hcard : Fintype.card τ ≤ 2 ^ 32) (h : Reach f d₀ s) : Inv f d₀ s :=
  Reachable.invariant (fun s => Inv f d₀ s) (fun _ h0 => Inv.of_init h0)
    (fun _ _ _ hi hs => hi.of_move hcard (step_move hs)) h

end Invariant

/-! ## §3 Exclusion, Order and Progress -/

/-- `TicketLock::new(0)` shared by two agents, as in `test_ticket_lock_concurrent`. -/
def fresh : State Bool Nat := ⟨0, 0, 0, fun _ => .idle, fun _ => 0, fun _ => 0, 0, [], []⟩

/-- Both agents call `lock` and take their tickets, and agent `false` enters. -/
def bothInLine : List (Label Bool) := [.lock false, .lock true, .step false, .step true, .step false]

/-- Then agent `false` runs `*guard += 1` and lets go, and agent `true` enters and does the same. -/
def bothIncrement : List (Label Bool) :=
  bothInLine ++ [.step false, .step false, .step false, .step true, .step true, .step true, .step true]

/-- A schedule run from the fresh lock reaches a reachable state. -/
theorem reach_of_exec {f : Nat → Nat} {l : List (Label Bool)} {s : State Bool Nat}
    (h : exec (step f) fresh l = some s) : Reach f 0 s :=
  ⟨fresh, l, ⟨rfl, rfl, rfl, fun _ => rfl, rfl, rfl, rfl⟩, exec_run h⟩

section Results

variable [Fintype τ] [DecidableEq τ] {f : T → T} {d₀ : T} {s : State τ T}

/-- **Mutual exclusion**: with at most `2 ^ 32` agents, at most one agent holds the guard
in every reachable state. -/
theorem ticket_mutual_exclusion (hcard : Fintype.card τ ≤ 2 ^ 32) (h : Reach f d₀ s)
    {t u : τ} (ht : (s.pc t).guarded = true) (hu : (s.pc u).guarded = true) : t = u := by
  obtain ⟨⟨w, hq⟩, -⟩ := h.inv hcard
  exact hq.holder_unique ht hu

/-- With both agents in line, agent `false` holds the guard, agent `true` waits, and no two
agents hold it. -/
theorem ticket_mutual_exclusion_inLine :
    ∃ s, exec (step (· + 1)) fresh bothInLine = some s ∧ (s.pc false).guarded = true ∧
      s.pc true = .spin ∧
      ∀ t u, (s.pc t).guarded = true → (s.pc u).guarded = true → t = u := by
  refine ⟨_, rfl, rfl, rfl, fun t u ht hu => ?_⟩
  exact ticket_mutual_exclusion (by decide) (reach_of_exec (f := (· + 1)) (l := bothInLine) rfl)
    ht hu

/-- **First in, first out**: in every reachable state, the agents that entered, in order,
are the first of those that took a ticket, in order; the others are the spinning agents,
and the `i`-th of them is `i` places behind the holder, if any. -/
theorem ticket_fifo (hcard : Fintype.card τ ≤ 2 ^ 32) (h : Reach f d₀ s) :
    ∃ w, s.taken = s.entered ++ w ∧ (∀ t, t ∈ w ↔ s.pc t = .spin) ∧
      ∀ i (hi : i < w.length), s.pos w[i] = i + s.holders := by
  obtain ⟨⟨w, hq⟩, -⟩ := h.inv hcard
  exact ⟨w, hq.log, fun t => (hq.mem_wait t).trans Pc.waiting_iff, hq.pos_wait⟩

/-- With both agents in line, agent `false` entered and agent `true` waits one place behind it. -/
theorem ticket_fifo_inLine :
    ∃ s, exec (step (· + 1)) fresh bothInLine = some s ∧ s.taken = [false, true] ∧ s.entered = [false] ∧
      ∃ w, s.taken = s.entered ++ w ∧ (∀ t, t ∈ w ↔ s.pc t = .spin) ∧
        ∀ i (hi : i < w.length), s.pos w[i] = i + s.holders :=
  by
  refine ⟨_, rfl, rfl, rfl, ?_⟩
  exact ticket_fifo (by decide) (reach_of_exec (f := (· + 1)) (l := bothInLine) rfl)

/-- **No lost update**: in every reachable state the data is `f` applied once per body
that wrote it, each to the value the one before left. -/
theorem ticket_no_lost_update (hcard : Fintype.card τ ≤ 2 ^ 32) (h : Reach f d₀ s) :
    s.data = f^[s.done] d₀ :=
  (h.inv hcard).2.data_eq

/-- `test_ticket_lock_concurrent` with two threads: the counter ends at two. -/
theorem ticket_no_lost_update_bothIncrement :
    ∃ s, exec (step (· + 1)) fresh bothIncrement = some s ∧ s.done = 2 ∧
      s.data = (· + 1)^[s.done] 0 :=
  by
  refine ⟨_, rfl, rfl, ?_⟩
  exact ticket_no_lost_update (by decide)
    (reach_of_exec (f := (· + 1)) (l := bothIncrement) rfl)

/-- **No deadlock**: in every reachable state where some agent is inside `lock` or holds
the guard, some agent can take a step. -/
theorem ticket_deadlock_free (hcard : Fintype.card τ ≤ 2 ^ 32) (h : Reach f d₀ s) {t : τ}
    (ht : s.pc t ≠ .idle) : ∃ u, (step f s (.step u)).isSome = true := by
  obtain ⟨⟨w, hq⟩, -⟩ := h.inv hcard
  -- every position but `idle` and `spin` moves on its own
  have hmove : ∀ u, s.pc u ≠ .idle → s.pc u ≠ .spin → (step f s (.step u)).isSome = true := by
    intro u hidle hspin
    cases hpc : s.pc u <;> simp_all [step]
  by_cases hspin : s.pc t = .spin
  · by_cases hheld : 0 < s.holders
    · -- the holder can move
      obtain ⟨u, hu⟩ := exists_of_countParties_pos hheld
      refine ⟨u, hmove u (fun he => ?_) (fun he => ?_)⟩ <;> rw [he] at hu <;> cases hu
    · -- nobody holds the guard, so the first agent in line is served
      have hlen : 0 < w.length :=
        List.length_pos_of_mem ((hq.mem_wait t).mpr (Pc.waiting_iff.mpr hspin))
      have hfirst : s.pc w[0] = .spin :=
        Pc.waiting_iff.mp ((hq.mem_wait _).mp (List.getElem_mem hlen))
      have hpos := hq.pos_wait 0 hlen
      rw [Nat.eq_zero_of_not_pos hheld] at hpos
      have hturn : s.nowServing = s.ticket w[0] :=
        (sub_eq_zero.mp (UInt32.toNat_inj.mp (by simpa [State.pos] using hpos))).symm
      exact ⟨w[0], by simp [step, hfirst, hturn]⟩
  · exact ⟨t, hmove t ht hspin⟩

/-- With both agents in line, agent `true` spins while agent `false`, the holder, can move. -/
theorem ticket_deadlock_free_inLine :
    ∃ s, exec (step (· + 1)) fresh bothInLine = some s ∧ s.pc true = .spin ∧
      ∃ u, (step (· + 1) s (.step u)).isSome = true :=
  by
  refine ⟨_, rfl, rfl, ?_⟩
  exact ticket_deadlock_free (by decide) (reach_of_exec (f := (· + 1)) (l := bothInLine) rfl)
    (t := true) (by decide)

end Results

end Beskar.Hyperdrive.Ticket
