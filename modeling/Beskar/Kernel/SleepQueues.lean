import Mathlib
import Beskar.Core.Sleep

/-!
# The Sleep Queues

Model of `SleepQueues` (`kernel/src/process/scheduler/sleep.rs`), where the scheduler parks
its sleeping threads. Four structures index the sleepers:

- `sleepers`, the map from a thread id to the thread and the reason it sleeps;
- `timers`, the min-heap of the `(deadline, tid)` keys of `Until` sleepers, as a list kept
  in the order of `TimerKey`, so that `peek` and `pop` are its head;
- `events`, a queue of thread ids for each `SleepHandle`. A handle without an entry is an
  empty queue: every operation treats the two alike;
- `indefinite`, the ids of the `Indefinite` sleepers.

A thread is its id and its `wake_time`, the one statistic these operations write.

What the operations promise is said of an abstract state, `Asleep`: for each thread, the
reason of its last `insert` if no operation has returned it since. `Reachable q a` pairs
each state the operations reach from `new` with that abstract state.

## Main results
- `Reachable.good`: in every reachable state `sleepers` is exactly `Asleep`, every `Until`
  sleeper has its timer and every `Event` sleeper its place in the queue of its handle.
- `Good.apply_returns`: every operation returns only sleeping threads, none twice, and
  those are exactly the threads that stop sleeping; so each `insert` is returned at most
  once.
- `Good.wakeThread_id`: `wake_thread` returns a thread exactly when it sleeps.
- `Good.popReady_isSome_of_due`: `pop_ready(now)` returns a thread whenever some thread sleeps
  `Until(d)` with `d ≤ now`.
- `Good.wakeEventAll_complete`: `wake_event_all(h)` returns every thread that sleeps on `h`.
- `pop_ready_returns_stale_timer`: `wake_thread` leaves the timer of an `Until` sleeper in
  the heap, and `pop_ready` later pops it and returns the thread, whatever it sleeps on by
  then.
-/

namespace Beskar.Kernel

open Beskar.Sleep

/-! ## Section 1: The Model -/

/-- A `Thread`: its id (a `ThreadId`), and `stats.wake_time`. -/
structure Thread where
  id : Nat
  wakeTime : Instant
deriving DecidableEq, Repr

/-- `Sleeper`. -/
structure Sleeper where
  reason : SleepReason
  thread : Thread
deriving DecidableEq, Repr

/-- `TimerKey`. -/
structure TimerKey where
  deadline : Instant
  tid : Nat
deriving DecidableEq, Repr

/-- `impl Ord for TimerKey`: by deadline, then by thread id. -/
def TimerKey.le (a b : TimerKey) : Prop :=
  a.deadline.micros < b.deadline.micros ∨
    (a.deadline.micros = b.deadline.micros ∧ a.tid ≤ b.tid)

instance : DecidableRel TimerKey.le := fun _ _ =>
  inferInstanceAs (Decidable (_ ∨ _))

instance : Std.Total TimerKey.le := ⟨fun a b => by unfold TimerKey.le; omega⟩

instance : IsTrans TimerKey TimerKey.le := ⟨fun a b c => by unfold TimerKey.le; omega⟩

/-- `SleepQueues`. -/
structure SleepQueues where
  sleepers : Nat → Option Sleeper
  timers : List TimerKey
  events : Nat → List Nat
  indefinite : List Nat

namespace SleepQueues

/-- `SleepQueues::new`. -/
def new : SleepQueues := ⟨fun _ => none, [], fun _ => [], []⟩

/-- `SleepReason::deadline`. -/
def deadline : SleepReason → Option Instant
  | .until d => some d
  | _ => none

/-- `SleepQueues::insert`. -/
def insert (q : SleepQueues) (reason : SleepReason) (thread : Thread) : SleepQueues :=
  let tid := thread.id
  let thread := { thread with wakeTime := (deadline reason).getD ⟨0⟩ }
  let q := { q with sleepers := Function.update q.sleepers tid (some ⟨reason, thread⟩) }
  match reason with
  | .until d => { q with timers := q.timers.orderedInsert TimerKey.le ⟨d, tid⟩ }
  | .event handle => { q with events := Function.update q.events handle (q.events handle ++ [tid]) }
  | .indefinite => { q with indefinite := q.indefinite ++ [tid] }

/-- The `loop` of `pop_ready` over the heap: stop at a timer not yet due; pop a due one,
and return its thread if that thread is in `sleepers`, whatever it sleeps on now. -/
def popReadyLoop (now : Instant) (sleepers : Nat → Option Sleeper) :
    List TimerKey → Option Thread × List TimerKey × (Nat → Option Sleeper)
  | [] => (none, [], sleepers)
  | timer :: timers =>
    if timer.deadline.micros > now.micros then (none, timer :: timers, sleepers)
    else
      match sleepers timer.tid with
      | some sleeper => (some sleeper.thread, timers, Function.update sleepers timer.tid none)
      | none => popReadyLoop now sleepers timers

/-- `SleepQueues::pop_ready`. -/
def popReady (q : SleepQueues) (now : Instant) : Option Thread × SleepQueues :=
  let r := popReadyLoop now q.sleepers q.timers
  (r.1, { q with timers := r.2.1, sleepers := r.2.2 })

/-- `SleepQueues::wake_event_single`. A popped id whose thread no longer sleeps is
dropped, and the call returns `None`. -/
def wakeEventSingle (q : SleepQueues) (handle : Nat) : Option Thread × SleepQueues :=
  match q.events handle with
  | [] => (none, q)
  | tid :: tids =>
    match q.sleepers tid with
    | some sleeper =>
      (some sleeper.thread, { q with sleepers := Function.update q.sleepers tid none,
                                     events := Function.update q.events handle tids })
    | none => (none, { q with events := Function.update q.events handle tids })

/-- The `while let` loop of `wake_event_all`: each id of the queue in turn, keeping the
threads still in `sleepers`. -/
def wakeAllLoop (sleepers : Nat → Option Sleeper) :
    List Nat → List Thread × (Nat → Option Sleeper)
  | [] => ([], sleepers)
  | tid :: tids =>
    match sleepers tid with
    | some sleeper =>
      let r := wakeAllLoop (Function.update sleepers tid none) tids
      (sleeper.thread :: r.1, r.2)
    | none => wakeAllLoop sleepers tids

/-- `SleepQueues::wake_event_all`. -/
def wakeEventAll (q : SleepQueues) (handle : Nat) : List Thread × SleepQueues :=
  let r := wakeAllLoop q.sleepers (q.events handle)
  (r.1, { q with sleepers := r.2, events := Function.update q.events handle [] })

/-- `SleepQueues::wake_thread`. The timer of an `Until` sleeper stays in the heap. -/
def wakeThread (q : SleepQueues) (tid : Nat) : Option Thread × SleepQueues :=
  match q.sleepers tid with
  | none => (none, q)
  | some sleeper =>
    let q := { q with sleepers := Function.update q.sleepers tid none }
    match sleeper.reason with
    | .event handle =>
      (some sleeper.thread,
        { q with events := Function.update q.events handle ((q.events handle).erase tid) })
    | .indefinite => (some sleeper.thread, { q with indefinite := q.indefinite.erase tid })
    | .until _ => (some sleeper.thread, q)

/-- The calls of `SleepQueues`. -/
inductive Op where
  | insert (reason : SleepReason) (thread : Thread)
  | popReady (now : Instant)
  | wakeEventSingle (handle : Nat)
  | wakeEventAll (handle : Nat)
  | wakeThread (tid : Nat)
deriving DecidableEq, Repr

/-- A call, with the threads it returns. -/
def apply (q : SleepQueues) : Op → List Thread × SleepQueues
  | .insert reason thread => ([], q.insert reason thread)
  | .popReady now => ((q.popReady now).1.toList, (q.popReady now).2)
  | .wakeEventSingle handle => ((q.wakeEventSingle handle).1.toList, (q.wakeEventSingle handle).2)
  | .wakeEventAll handle => q.wakeEventAll handle
  | .wakeThread tid => ((q.wakeThread tid).1.toList, (q.wakeThread tid).2)

/-! ## Section 2: What the Calls Promise -/

/-- The threads asleep, with their reasons. -/
abbrev Asleep := Nat → Option SleepReason

/-- The threads of `out` no longer asleep. -/
def Asleep.without (a : Asleep) (out : List Thread) : Asleep :=
  fun tid => if tid ∈ out.map Thread.id then none else a tid

/-- The threads asleep after a call that returned `out`: an `insert` puts its thread to
sleep, every other call wakes the threads it returns. -/
def Asleep.after (a : Asleep) : Op → List Thread → Asleep
  | .insert reason thread, _ => Function.update a thread.id (some reason)
  | _, out => a.without out

/-- `insert` is called for a thread that is not asleep. -/
def Op.allowed (a : Asleep) : Op → Bool
  | .insert _ thread => (a thread.id).isNone
  | _ => true

/-- A call from a state and the threads asleep there. -/
def step (s : SleepQueues × Asleep) (op : Op) : SleepQueues × Asleep :=
  ((s.1.apply op).2, s.2.after op (s.1.apply op).1)

/-- The states the calls reach from `new`, each with the threads asleep there: the reason
of each thread's last `insert`, until a call returns it. -/
inductive Reachable : SleepQueues × Asleep → Prop where
  | init : Reachable (new, fun _ => none)
  | step {s} (op : Op) : Reachable s → op.allowed s.2 = true → Reachable (step s op)

/-! ## Section 3: The Threads a Call Takes Out -/

/-- `sleepers` files every sleeper under the id of its thread. -/
def IdsOk (sleepers : Nat → Option Sleeper) : Prop :=
  ∀ tid s, sleepers tid = some s → s.thread.id = tid

/-- A call that returns `out` takes exactly those threads out of `sleepers`: each was
there under its own id, and no two share an id. -/
structure Removes (sleepers sleepers' : Nat → Option Sleeper) (out : List Thread) : Prop where
  sleeping : ∀ t ∈ out, ∃ r, sleepers t.id = some ⟨r, t⟩
  nodup : (out.map Thread.id).Nodup
  frame : ∀ tid, sleepers' tid = if tid ∈ out.map Thread.id then none else sleepers tid

section Removes

variable {s₁ s₂ s₃ : Nat → Option Sleeper} {out : List Thread}

theorem Removes.nil (sleepers : Nat → Option Sleeper) : Removes sleepers sleepers [] :=
  ⟨fun _ h => absurd h List.not_mem_nil, List.nodup_nil, fun _ => rfl⟩

/-- Taking out one sleeper. -/
theorem Removes.single (hid : IdsOk s₁) {tid : Nat} {sleeper : Sleeper}
    (h : s₁ tid = some sleeper) : Removes s₁ (Function.update s₁ tid none) [sleeper.thread] := by
  have hid' : sleeper.thread.id = tid := hid tid sleeper h
  refine ⟨?_, List.nodup_singleton _, ?_⟩
  · intro t ht
    rw [List.mem_singleton.mp ht, hid', h]
    exact ⟨sleeper.reason, rfl⟩
  · intro tid'
    simp only [List.map_singleton, List.mem_singleton, hid', Function.update_apply]

/-- A sleeper that is still there was there before, and was not returned. -/
theorem Removes.of_some (h : Removes s₁ s₂ out) {tid : Nat} {sleeper : Sleeper}
    (h' : s₂ tid = some sleeper) : s₁ tid = some sleeper ∧ tid ∉ out.map Thread.id := by
  rw [h.frame] at h'
  by_cases hmem : tid ∈ out.map Thread.id
  · rw [if_pos hmem] at h'
    cases h'
  · rw [if_neg hmem] at h'
    exact ⟨h', hmem⟩

/-- One sleeper taken out, then the threads of a later pass. -/
theorem Removes.cons {t : Thread} (h₁ : Removes s₁ s₂ [t]) (h₂ : Removes s₂ s₃ out) :
    Removes s₁ s₃ (t :: out) := by
  refine ⟨?_, ?_, ?_⟩
  · rintro t' (_ | ⟨_, ht'⟩)
    · exact h₁.sleeping t List.mem_cons_self
    · obtain ⟨r, hr⟩ := h₂.sleeping t' ht'
      exact ⟨r, (h₁.of_some hr).1⟩
  · -- the thread taken out first is gone before the later pass
    refine List.nodup_cons.mpr ⟨fun hmem => ?_, h₂.nodup⟩
    obtain ⟨t', ht', hid⟩ := List.mem_map.mp hmem
    obtain ⟨r, hr⟩ := h₂.sleeping t' ht'
    have hgone := h₁.frame t.id
    rw [if_pos (by simp)] at hgone
    rw [hid, hgone] at hr
    cases hr
  · intro tid
    rw [h₂.frame, h₁.frame]
    by_cases h : tid = t.id <;> simp [h]

/-- The reasons of the sleepers left are those of the threads still asleep. -/
theorem Removes.reason (h : Removes s₁ s₂ out) {a : Asleep}
    (ha : ∀ tid, (s₁ tid).map Sleeper.reason = a tid) (tid : Nat) :
    (s₂ tid).map Sleeper.reason = a.without out tid := by
  rw [h.frame, Asleep.without]
  split
  · rfl
  · exact ha tid

theorem Removes.idsOk (h : Removes s₁ s₂ out) (hid : IdsOk s₁) : IdsOk s₂ :=
  fun _ _ hs => hid _ _ (h.of_some hs).1

end Removes

/-- Taking a sleeper out keeps the others under their ids. -/
theorem IdsOk.update_none {sleepers : Nat → Option Sleeper} (hid : IdsOk sleepers) (tid : Nat) :
    IdsOk (Function.update sleepers tid none) := by
  intro tid' s hs
  by_cases h : tid' = tid
  · rw [h, Function.update_self] at hs
    cases hs
  · rw [Function.update_of_ne h] at hs
    exact hid tid' s hs

theorem TimerKey.deadline_le {a b : TimerKey} (h : TimerKey.le a b) :
    a.deadline.micros ≤ b.deadline.micros := by
  unfold TimerKey.le at h
  omega

section PopReadyLoop

variable {now : Instant} {sleepers : Nat → Option Sleeper} {timer : TimerKey}
  {timers : List TimerKey}

theorem popReadyLoop_of_lt (h : now.micros < timer.deadline.micros) :
    popReadyLoop now sleepers (timer :: timers) = (none, timer :: timers, sleepers) := by
  rw [popReadyLoop, if_pos h]

theorem popReadyLoop_of_some (hdue : timer.deadline.micros ≤ now.micros) {sleeper : Sleeper}
    (hs : sleepers timer.tid = some sleeper) :
    popReadyLoop now sleepers (timer :: timers) =
      (some sleeper.thread, timers, Function.update sleepers timer.tid none) := by
  rw [popReadyLoop, if_neg (Nat.not_lt.mpr hdue), hs]

theorem popReadyLoop_of_none (hdue : timer.deadline.micros ≤ now.micros)
    (hs : sleepers timer.tid = none) :
    popReadyLoop now sleepers (timer :: timers) = popReadyLoop now sleepers timers := by
  rw [popReadyLoop, if_neg (Nat.not_lt.mpr hdue), hs]

/-- **What `pop_ready` takes out**: the thread it returns. -/
theorem popReadyLoop_removes (hid : IdsOk sleepers) :
    Removes sleepers (popReadyLoop now sleepers timers).2.2
      (popReadyLoop now sleepers timers).1.toList := by
  induction timers with
  | nil => exact Removes.nil sleepers
  | cons timer timers ih =>
    rcases Nat.lt_or_ge now.micros timer.deadline.micros with hlt | hdue
    · rw [popReadyLoop_of_lt hlt]
      exact Removes.nil sleepers
    rcases hs : sleepers timer.tid with _ | sleeper
    · rw [popReadyLoop_of_none hdue hs]
      exact ih
    · rw [popReadyLoop_of_some hdue hs]
      exact Removes.single hid hs

/-- The heap after `pop_ready` is what is left after the timers it popped. -/
theorem popReadyLoop_suffix : (popReadyLoop now sleepers timers).2.1 <:+ timers := by
  induction timers with
  | nil => exact List.suffix_refl _
  | cons timer timers ih =>
    rcases Nat.lt_or_ge now.micros timer.deadline.micros with hlt | hdue
    · exact popReadyLoop_of_lt hlt ▸ List.suffix_refl _
    rcases hs : sleepers timer.tid with _ | sleeper
    · rw [popReadyLoop_of_none hdue hs]
      exact ih.trans (List.suffix_cons _ _)
    · rw [popReadyLoop_of_some hdue hs]
      exact List.suffix_cons _ _

/-- A timer `pop_ready` popped was stale, or was the one it returned the thread of. -/
theorem popReadyLoop_popped (hid : IdsOk sleepers) :
    ∀ k ∈ timers, k ∉ (popReadyLoop now sleepers timers).2.1 →
      sleepers k.tid = none ∨ k.tid ∈ (popReadyLoop now sleepers timers).1.toList.map Thread.id := by
  induction timers with
  | nil => exact fun k hk => absurd hk List.not_mem_nil
  | cons timer timers ih =>
    intro k hk hpopped
    rcases Nat.lt_or_ge now.micros timer.deadline.micros with hlt | hdue
    · rw [popReadyLoop_of_lt hlt] at hpopped
      exact absurd hk hpopped
    rcases hs : sleepers timer.tid with _ | sleeper
    · rw [popReadyLoop_of_none hdue hs] at hpopped ⊢
      rcases List.mem_cons.mp hk with rfl | hk
      · exact .inl hs
      · exact ih k hk hpopped
    · -- the popped timer whose thread is returned
      rw [popReadyLoop_of_some hdue hs] at hpopped ⊢
      rcases List.mem_cons.mp hk with rfl | hk
      · exact .inr (by simp [hid _ _ hs])
      · exact absurd hk hpopped

/-- **`pop_ready` finds a due sleeper**: a due timer of a thread in `sleepers`, in a heap
kept in order, makes `pop_ready` return a thread. The timers before it are due too. -/
theorem popReadyLoop_isSome (hsorted : timers.Pairwise TimerKey.le) {k : TimerKey}
    (hk : k ∈ timers) (hdue : k.deadline.micros ≤ now.micros) (hlive : sleepers k.tid ≠ none) :
    (popReadyLoop now sleepers timers).1.isSome := by
  induction timers with
  | nil => exact absurd hk List.not_mem_nil
  | cons timer timers ih =>
    have hle : timer.deadline.micros ≤ k.deadline.micros := by
      rcases List.mem_cons.mp hk with rfl | hk
      · exact Nat.le_refl _
      · exact TimerKey.deadline_le (List.rel_of_pairwise_cons hsorted hk)
    rcases hs : sleepers timer.tid with _ | sleeper
    · -- the first timer is stale, so it is not `k`
      have hne : k ≠ timer := by
        rintro rfl
        exact hlive hs
      rw [popReadyLoop_of_none (Nat.le_trans hle hdue) hs]
      exact ih hsorted.of_cons ((List.mem_cons.mp hk).resolve_left hne)
    · rw [popReadyLoop_of_some (Nat.le_trans hle hdue) hs]
      rfl

end PopReadyLoop

section WakeAllLoop

variable {sleepers : Nat → Option Sleeper} {tids : List Nat}

/-- **What `wake_event_all` takes out**: the threads it returns. -/
theorem wakeAllLoop_removes (hid : IdsOk sleepers) :
    Removes sleepers (wakeAllLoop sleepers tids).2 (wakeAllLoop sleepers tids).1 := by
  induction tids generalizing sleepers with
  | nil => exact Removes.nil sleepers
  | cons tid tids ih =>
    unfold wakeAllLoop
    split
    · exact (Removes.single hid ‹_›).cons (ih (hid.update_none tid))
    · exact ih hid

/-- **`wake_event_all` misses no id of the queue** whose thread is in `sleepers`. -/
theorem wakeAllLoop_complete (hid : IdsOk sleepers) {tid : Nat} (hmem : tid ∈ tids)
    (hlive : sleepers tid ≠ none) : tid ∈ (wakeAllLoop sleepers tids).1.map Thread.id := by
  induction tids generalizing sleepers with
  | nil => exact absurd hmem List.not_mem_nil
  | cons tid' tids ih =>
    unfold wakeAllLoop
    split
    · rename_i sleeper hs
      by_cases h : tid = tid'
      · -- the first id is `tid`: its thread is returned first
        rw [List.map_cons, hid tid' sleeper hs, h]
        exact List.mem_cons_self
      · have hlive' : Function.update sleepers tid' none tid ≠ none := by
          rwa [Function.update_of_ne h]
        exact List.mem_cons_of_mem _
          (ih (hid.update_none tid') ((List.mem_cons.mp hmem).resolve_left h) hlive')
    · rename_i hs
      have h : tid ≠ tid' := by
        rintro rfl
        exact hlive hs
      exact ih hid ((List.mem_cons.mp hmem).resolve_left h) hlive

end WakeAllLoop

/-! ## Section 4: The Calls, One by One -/

section Calls

variable {q : SleepQueues}

@[simp] theorem insert_sleepers (reason : SleepReason) (thread : Thread) :
    (q.insert reason thread).sleepers = Function.update q.sleepers thread.id
      (some ⟨reason, { thread with wakeTime := (deadline reason).getD ⟨0⟩ }⟩) := by
  cases reason <;> rfl

/-- `insert` drops no timer, and adds the one of an `Until` sleeper. -/
theorem mem_insert_timers {reason : SleepReason} {thread : Thread} {k : TimerKey} :
    k ∈ (q.insert reason thread).timers ↔
      k ∈ q.timers ∨ ∃ d, reason = .until d ∧ k = ⟨d, thread.id⟩ := by
  cases reason with
  | «until» d =>
    show k ∈ q.timers.orderedInsert TimerKey.le ⟨d, thread.id⟩ ↔ _
    rw [List.mem_orderedInsert]
    simp [or_comm]
  | event h => simp [insert]
  | indefinite => simp [insert]

theorem insert_timers_sorted (hsorted : q.timers.Pairwise TimerKey.le) (reason : SleepReason)
    (thread : Thread) : (q.insert reason thread).timers.Pairwise TimerKey.le := by
  cases reason with
  | «until» d => exact hsorted.orderedInsert _ _
  | event h => exact hsorted
  | indefinite => exact hsorted

/-- `insert` drops no id from a queue, and queues an `Event` sleeper on its handle. -/
theorem mem_insert_events {reason : SleepReason} {thread : Thread} {h tid : Nat} :
    tid ∈ (q.insert reason thread).events h ↔
      tid ∈ q.events h ∨ (reason = .event h ∧ tid = thread.id) := by
  cases reason with
  | «until» d => simp [insert]
  | event h' =>
    show tid ∈ Function.update q.events h' (q.events h' ++ [thread.id]) h ↔ _
    by_cases hh : h = h'
    · subst hh
      simp
    · simp [Function.update_of_ne hh, Ne.symm hh]
  | indefinite => simp [insert]

theorem wakeEventSingle_of_nil {handle : Nat} (he : q.events handle = []) :
    q.wakeEventSingle handle = (none, q) := by
  rw [wakeEventSingle, he]

theorem wakeEventSingle_of_some {handle tid : Nat} {tids : List Nat} {sleeper : Sleeper}
    (he : q.events handle = tid :: tids) (hs : q.sleepers tid = some sleeper) :
    q.wakeEventSingle handle = (some sleeper.thread,
      { q with sleepers := Function.update q.sleepers tid none,
               events := Function.update q.events handle tids }) := by
  rw [wakeEventSingle, he]
  simp only [hs]

theorem wakeEventSingle_of_none {handle tid : Nat} {tids : List Nat}
    (he : q.events handle = tid :: tids) (hs : q.sleepers tid = none) :
    q.wakeEventSingle handle = (none, { q with events := Function.update q.events handle tids }) := by
  rw [wakeEventSingle, he]
  simp only [hs]

theorem wakeThread_of_none {tid : Nat} (hs : q.sleepers tid = none) :
    q.wakeThread tid = (none, q) := by
  rw [wakeThread, hs]

/-- `wake_thread` of a sleeper returns its thread and takes it out of `sleepers`. -/
theorem wakeThread_of_some {tid : Nat} {sleeper : Sleeper} (hs : q.sleepers tid = some sleeper) :
    (q.wakeThread tid).1 = some sleeper.thread ∧
      (q.wakeThread tid).2.sleepers = Function.update q.sleepers tid none := by
  rw [wakeThread, hs]
  rcases sleeper with ⟨_ | _ | _, thread⟩ <;> exact ⟨rfl, rfl⟩

theorem wakeThread_timers (tid : Nat) : (q.wakeThread tid).2.timers = q.timers := by
  unfold wakeThread
  split
  · rfl
  · split <;> rfl

/-- A queue set to `l` keeps every other queue. -/
theorem eq_of_not_mem_update {events : Nat → List Nat} {handle h tid : Nat} {l : List Nat}
    (hmem : tid ∈ events h) (hnot : tid ∉ Function.update events handle l h) :
    h = handle ∧ tid ∉ l := by
  by_cases hh : h = handle
  · subst hh
    rw [Function.update_self] at hnot
    exact ⟨rfl, hnot⟩
  · rw [Function.update_of_ne hh] at hnot
    exact absurd hmem hnot

/-- `wake_thread` of an `Event` sleeper takes its first id out of the queue of its handle. -/
theorem wakeThread_events_of_event {tid handle : Nat} {thread : Thread}
    (hs : q.sleepers tid = some ⟨.event handle, thread⟩) :
    (q.wakeThread tid).2.events = Function.update q.events handle ((q.events handle).erase tid) := by
  rw [wakeThread, hs]

/-- `wake_thread` of any other sleeper keeps the queues. -/
theorem wakeThread_events_of_not_event {tid : Nat} {sleeper : Sleeper}
    (hs : q.sleepers tid = some sleeper) (hr : ∀ handle, sleeper.reason ≠ .event handle) :
    (q.wakeThread tid).2.events = q.events := by
  rw [wakeThread, hs]
  rcases sleeper with ⟨_ | handle | _, thread⟩
  · rfl
  · exact absurd rfl (hr handle)
  · rfl

/-- `wake_thread` takes out of a queue only the id it wakes. -/
theorem wakeThread_events {tid tid' h : Nat} (hmem : tid' ∈ q.events h)
    (hnot : tid' ∉ (q.wakeThread tid).2.events h) : tid' = tid := by
  rcases hs : q.sleepers tid with _ | ⟨reason, thread⟩
  · rw [wakeThread_of_none hs] at hnot
    exact absurd hmem hnot
  by_cases hev : ∃ handle, reason = .event handle
  · -- the queue of the sleeper's own handle loses its first `tid`
    obtain ⟨handle, rfl⟩ := hev
    rw [wakeThread_events_of_event hs] at hnot
    obtain ⟨rfl, hnot⟩ := eq_of_not_mem_update hmem hnot
    by_contra hne
    exact hnot ((List.mem_erase_of_ne hne).mpr hmem)
  · rw [wakeThread_events_of_not_event hs fun handle h => hev ⟨handle, h⟩] at hnot
    exact absurd hmem hnot

/-- What `wake_event_single` takes out: the thread it returns. -/
theorem removes_wakeEventSingle (hid : IdsOk q.sleepers) (handle : Nat) :
    Removes q.sleepers (q.wakeEventSingle handle).2.sleepers
      (q.wakeEventSingle handle).1.toList := by
  rcases he : q.events handle with _ | ⟨tid, tids⟩
  · rw [wakeEventSingle_of_nil he]
    exact Removes.nil _
  rcases hs : q.sleepers tid with _ | sleeper
  · rw [wakeEventSingle_of_none he hs]
    exact Removes.nil _
  · rw [wakeEventSingle_of_some he hs]
    exact Removes.single hid hs

/-- What `wake_thread` takes out: the thread it returns. -/
theorem removes_wakeThread (hid : IdsOk q.sleepers) (tid : Nat) :
    Removes q.sleepers (q.wakeThread tid).2.sleepers (q.wakeThread tid).1.toList := by
  rcases hs : q.sleepers tid with _ | sleeper
  · rw [wakeThread_of_none hs]
    exact Removes.nil _
  · obtain ⟨hout, hsleepers⟩ := wakeThread_of_some hs
    rw [hout, hsleepers]
    exact Removes.single hid hs

end Calls

/-! ## Section 5: The Invariant -/

/-- How the four structures agree in a reachable state, in which the threads `a` sleep:
`sleepers` holds exactly them, each under its own id; every `Until` sleeper has its timer
in the heap, which is in order, and every `Event` sleeper its id in the queue of its
handle. Entries of threads that no longer sleep may stay behind. -/
structure Good (q : SleepQueues) (a : Asleep) : Prop where
  reason : ∀ tid, (q.sleepers tid).map Sleeper.reason = a tid
  ids : IdsOk q.sleepers
  timer : ∀ tid s d, q.sleepers tid = some s → s.reason = .until d → ⟨d, tid⟩ ∈ q.timers
  event : ∀ tid s h, q.sleepers tid = some s → s.reason = .event h → tid ∈ q.events h
  sorted : q.timers.Pairwise TimerKey.le

theorem good_new : Good new fun _ => none :=
  ⟨fun _ => rfl, fun _ _ h => (nomatch h), fun _ _ _ h => (nomatch h),
    fun _ _ _ h => (nomatch h), List.Pairwise.nil⟩

section Good

variable {q q' : SleepQueues} {a : Asleep} {out : List Thread}

/-- A call that takes out the threads it returns, and drops from the heap and the queues
only entries of threads that are gone or that it returns, keeps the invariant. -/
theorem Good.of_removes (hg : Good q a) (hrem : Removes q.sleepers q'.sleepers out)
    (htimer : ∀ k ∈ q.timers, k ∉ q'.timers →
      q.sleepers k.tid = none ∨ k.tid ∈ out.map Thread.id)
    (hevent : ∀ h tid, tid ∈ q.events h → tid ∉ q'.events h →
      q.sleepers tid = none ∨ tid ∈ out.map Thread.id)
    (hsorted : q'.timers.Pairwise TimerKey.le) : Good q' (a.without out) := by
  refine ⟨hrem.reason hg.reason, hrem.idsOk hg.ids, ?_, ?_, hsorted⟩
  · intro tid s d hs hr
    obtain ⟨hs₀, hnot⟩ := hrem.of_some hs
    by_contra hgone
    rcases htimer _ (hg.timer tid s d hs₀ hr) hgone with h | h
    · rw [hs₀] at h
      cases h
    · exact hnot h
  · intro tid s h hs hr
    obtain ⟨hs₀, hnot⟩ := hrem.of_some hs
    by_contra hgone
    rcases hevent h tid (hg.event tid s h hs₀ hr) hgone with h' | h'
    · rw [hs₀] at h'
      cases h'
    · exact hnot h'

/-- A call that changes nothing keeps the invariant. -/
theorem Good.of_same (hg : Good q a) : Good q (a.without []) :=
  hg.of_removes (Removes.nil _) (fun _ hk hn => absurd hk hn) (fun _ _ hm hn => absurd hm hn)
    hg.sorted

theorem Good.insert (hg : Good q a) (reason : SleepReason) (thread : Thread) :
    Good (q.insert reason thread) (Function.update a thread.id (some reason)) := by
  refine ⟨?_, ?_, ?_, ?_, insert_timers_sorted hg.sorted reason thread⟩
  · intro tid
    by_cases h : tid = thread.id
    · subst h
      simp
    · simp [Function.update_of_ne h, hg.reason tid]
  · intro tid s hs
    rw [insert_sleepers] at hs
    by_cases h : tid = thread.id
    · subst h
      rw [Function.update_self] at hs
      cases hs
      rfl
    · rw [Function.update_of_ne h] at hs
      exact hg.ids tid s hs
  · intro tid s d hs hr
    rw [insert_sleepers] at hs
    rw [mem_insert_timers]
    by_cases h : tid = thread.id
    · -- the new sleeper: its timer is the one just pushed
      subst h
      rw [Function.update_self] at hs
      cases hs
      exact .inr ⟨d, hr, rfl⟩
    · rw [Function.update_of_ne h] at hs
      exact .inl (hg.timer tid s d hs hr)
  · intro tid s h hs hr
    rw [insert_sleepers] at hs
    rw [mem_insert_events]
    by_cases ht : tid = thread.id
    · subst ht
      rw [Function.update_self] at hs
      cases hs
      exact .inr ⟨hr, rfl⟩
    · rw [Function.update_of_ne ht] at hs
      exact .inl (hg.event tid s h hs hr)

theorem Good.popReady (hg : Good q a) (now : Instant) :
    Good (q.popReady now).2 (a.without (q.popReady now).1.toList) :=
  hg.of_removes (popReadyLoop_removes hg.ids) (popReadyLoop_popped hg.ids)
    (fun _ _ hm hn => absurd hm hn) (hg.sorted.sublist popReadyLoop_suffix.sublist)

theorem Good.wakeEventSingle (hg : Good q a) (handle : Nat) :
    Good (q.wakeEventSingle handle).2 (a.without (q.wakeEventSingle handle).1.toList) := by
  rcases he : q.events handle with _ | ⟨tid, tids⟩
  · rw [wakeEventSingle_of_nil he]
    exact hg.of_same
  rcases hs : q.sleepers tid with _ | sleeper
  · -- the popped id is stale: it is dropped
    rw [wakeEventSingle_of_none he hs]
    refine hg.of_removes (Removes.nil _) (fun _ hk hn => absurd hk hn) ?_ hg.sorted
    intro h tid' hm hn
    obtain ⟨rfl, hnot⟩ := eq_of_not_mem_update hm hn
    rw [he] at hm
    rcases List.mem_cons.mp hm with rfl | hm
    · exact .inl hs
    · exact absurd hm hnot
  · rw [wakeEventSingle_of_some he hs]
    refine hg.of_removes (Removes.single hg.ids hs) (fun _ hk hn => absurd hk hn) ?_ hg.sorted
    intro h tid' hm hn
    obtain ⟨rfl, hnot⟩ := eq_of_not_mem_update hm hn
    rw [he] at hm
    rcases List.mem_cons.mp hm with rfl | hm
    · exact .inr (by simp [hg.ids _ _ hs])
    · exact absurd hm hnot

theorem Good.wakeEventAll (hg : Good q a) (handle : Nat) :
    Good (q.wakeEventAll handle).2 (a.without (q.wakeEventAll handle).1) := by
  refine hg.of_removes (wakeAllLoop_removes hg.ids) (fun _ hk hn => absurd hk hn) ?_ hg.sorted
  intro h tid hm hn
  obtain ⟨rfl, -⟩ := eq_of_not_mem_update hm hn
  -- every id of the queue still in `sleepers` has its thread returned
  by_cases hs : q.sleepers tid = none
  · exact .inl hs
  · exact .inr (wakeAllLoop_complete hg.ids hm hs)

theorem Good.wakeThread (hg : Good q a) (tid : Nat) :
    Good (q.wakeThread tid).2 (a.without (q.wakeThread tid).1.toList) := by
  rcases hs : q.sleepers tid with _ | sleeper
  · rw [wakeThread_of_none hs]
    exact hg.of_same
  have hid : tid ∈ (q.wakeThread tid).1.toList.map Thread.id := by
    simp [(wakeThread_of_some hs).1, hg.ids _ _ hs]
  refine hg.of_removes (removes_wakeThread hg.ids tid) ?_ ?_
    (by rw [wakeThread_timers]; exact hg.sorted)
  · intro k hk hn
    rw [wakeThread_timers] at hn
    exact absurd hk hn
  · intro h tid' hm hn
    rw [wakeThread_events hm hn]
    exact .inr hid

/-- **Every call keeps the invariant.** -/
theorem Good.apply (hg : Good q a) (op : Op) : Good (q.apply op).2 (a.after op (q.apply op).1) := by
  cases op with
  | insert reason thread => exact hg.insert reason thread
  | popReady now => exact hg.popReady now
  | wakeEventSingle handle => exact hg.wakeEventSingle handle
  | wakeEventAll handle => exact hg.wakeEventAll handle
  | wakeThread tid => exact hg.wakeThread tid

end Good

/-- **The invariant holds in every reachable state.** -/
theorem Reachable.good {s : SleepQueues × Asleep} (h : Reachable s) : Good s.1 s.2 := by
  induction h with
  | init => exact good_new
  | step op _ _ ih => exact ih.apply op

/-! ## Section 6: What Holds in Every Reachable State -/

section Promises

variable {q : SleepQueues} {a : Asleep}

/-- The threads a call returns that takes them out of `sleepers` were asleep, under
distinct ids, and are asleep no more. -/
theorem Good.returns_of_removes (hg : Good q a) {sleepers' : Nat → Option Sleeper}
    {out : List Thread} (h : Removes q.sleepers sleepers' out) :
    (out.map Thread.id).Nodup ∧ ∀ t ∈ out, a t.id ≠ none ∧ a.without out t.id = none := by
  refine ⟨h.nodup, fun t ht => ⟨?_, ?_⟩⟩
  · obtain ⟨r, hr⟩ := h.sleeping t ht
    rw [← hg.reason, hr]
    exact Option.some_ne_none _
  · rw [Asleep.without, if_pos (List.mem_map_of_mem ht)]

/-- **Each call returns only threads that were asleep, none twice, and those are asleep
no more**: a thread is returned at most once for each `insert`. -/
theorem Good.apply_returns (hg : Good q a) (op : Op) :
    ((q.apply op).1.map Thread.id).Nodup ∧
      ∀ t ∈ (q.apply op).1, a t.id ≠ none ∧ a.after op (q.apply op).1 t.id = none := by
  cases op with
  | insert reason thread => exact ⟨List.nodup_nil, fun _ h => absurd h List.not_mem_nil⟩
  | popReady now => exact hg.returns_of_removes (popReadyLoop_removes hg.ids)
  | wakeEventSingle handle => exact hg.returns_of_removes (removes_wakeEventSingle hg.ids handle)
  | wakeEventAll handle => exact hg.returns_of_removes (wakeAllLoop_removes hg.ids)
  | wakeThread tid => exact hg.returns_of_removes (removes_wakeThread hg.ids tid)

/-- Threads `1` and `2` asleep on the handle `7`: `wake_event_all(7)` returns both, once
each, and neither sleeps after. -/
theorem Good.apply_returns_bothOnEvent :
    ((step (step (new, fun _ => none) (.insert (.event 7) ⟨1, ⟨0⟩⟩))
        (.insert (.event 7) ⟨2, ⟨0⟩⟩)).1.apply (.wakeEventAll 7)).1.map Thread.id = [1, 2] ∧
    (((step (step (new, fun _ => none) (.insert (.event 7) ⟨1, ⟨0⟩⟩))
        (.insert (.event 7) ⟨2, ⟨0⟩⟩)).1.apply (.wakeEventAll 7)).1.map Thread.id).Nodup ∧
      ∀ t ∈ ((step (step (new, fun _ => none) (.insert (.event 7) ⟨1, ⟨0⟩⟩))
          (.insert (.event 7) ⟨2, ⟨0⟩⟩)).1.apply (.wakeEventAll 7)).1,
        (step (step (new, fun _ => none) (.insert (.event 7) ⟨1, ⟨0⟩⟩))
            (.insert (.event 7) ⟨2, ⟨0⟩⟩)).2 t.id ≠ none ∧
          (step (step (new, fun _ => none) (.insert (.event 7) ⟨1, ⟨0⟩⟩))
            (.insert (.event 7) ⟨2, ⟨0⟩⟩)).2.after (.wakeEventAll 7)
            ((step (step (new, fun _ => none) (.insert (.event 7) ⟨1, ⟨0⟩⟩))
              (.insert (.event 7) ⟨2, ⟨0⟩⟩)).1.apply (.wakeEventAll 7)).1 t.id = none :=
  ⟨by decide, Good.apply_returns (Reachable.good ((Reachable.init.step _ rfl).step _ rfl)) _⟩

/-- **`wake_thread(tid)` returns a thread exactly when `tid` sleeps**, and then the thread
of `tid`. -/
theorem Good.wakeThread_id (hg : Good q a) (tid : Nat) :
    (q.wakeThread tid).1.map Thread.id = (a tid).map fun _ => tid := by
  have hr := hg.reason tid
  rcases hs : q.sleepers tid with _ | sleeper
  · rw [hs] at hr
    rw [wakeThread_of_none hs, ← hr]
    rfl
  · rw [hs] at hr
    rw [(wakeThread_of_some hs).1, ← hr, Option.map_some, hg.ids _ _ hs]
    rfl

/-- **`pop_ready(now)` returns a thread whenever a thread sleeps `Until(d)` with
`d ≤ now`**: its timer is in the heap, and every timer before it is due. -/
theorem Good.popReady_isSome_of_due (hg : Good q a) {tid : Nat} {d now : Instant}
    (h : a tid = some (.until d)) (hd : d.micros ≤ now.micros) : (q.popReady now).1.isSome := by
  rw [← hg.reason] at h
  obtain ⟨sleeper, hs, hr⟩ := Option.map_eq_some_iff.mp h
  exact popReadyLoop_isSome hg.sorted (hg.timer tid sleeper d hs hr) hd
    (by rw [hs]; exact Option.some_ne_none _)

/-- **`wake_event_all(h)` returns every thread that sleeps on `h`.** -/
theorem Good.wakeEventAll_complete (hg : Good q a) {tid handle : Nat}
    (h : a tid = some (.event handle)) : tid ∈ (q.wakeEventAll handle).1.map Thread.id := by
  rw [← hg.reason] at h
  obtain ⟨sleeper, hs, hr⟩ := Option.map_eq_some_iff.mp h
  exact wakeAllLoop_complete hg.ids (hg.event tid sleeper handle hs hr)
    (by rw [hs]; exact Option.some_ne_none _)

end Promises

/-! ## Section 7: A Stale Timer -/

/-- The calls `ops` from `new`, with the threads asleep after them. -/
def run (ops : List Op) : SleepQueues × Asleep := ops.foldl step (new, fun _ => none)

/-- Whether each `insert` of `ops` from `s` is for a thread that is not asleep. -/
def allowedFrom : SleepQueues × Asleep → List Op → Bool
  | _, [] => true
  | s, op :: ops => op.allowed s.2 && allowedFrom (step s op) ops

/-- Calls that insert only threads that are not asleep reach a reachable state. -/
theorem Reachable.foldl {s : SleepQueues × Asleep} (hs : Reachable s) {ops : List Op}
    (h : allowedFrom s ops = true) : Reachable (ops.foldl SleepQueues.step s) := by
  induction ops generalizing s with
  | nil => exact hs
  | cons op ops ih =>
    rw [allowedFrom, Bool.and_eq_true] at h
    exact ih (hs.step op h.1) h.2

theorem reachable_run {ops : List Op} (h : allowedFrom (new, fun _ => none) ops = true) :
    Reachable (run ops) :=
  Reachable.init.foldl h

/-- Thread `1` sleeps `Until(5)`, is woken by `wake_thread`, and sleeps `Until(100)`. -/
def resleepUntil : List Op :=
  [.insert (.until ⟨5⟩) ⟨1, ⟨0⟩⟩, .wakeThread 1, .insert (.until ⟨100⟩) ⟨1, ⟨0⟩⟩]

/-- Thread `1` sleeps `Until(5)`, is woken by `wake_thread`, and sleeps on the handle `7`
before thread `2` does; then `pop_ready(10)`. -/
def resleepEvent : List Op :=
  [.insert (.until ⟨5⟩) ⟨1, ⟨0⟩⟩, .wakeThread 1, .insert (.event 7) ⟨1, ⟨0⟩⟩,
    .insert (.event 7) ⟨2, ⟨0⟩⟩, .popReady ⟨10⟩]

/-- The timer `(5, 1)` that `wake_thread` leaves in the heap is popped by `pop_ready(10)`,
which returns thread `1` though it sleeps `Until(100)`. After `resleepEvent`, where that
`pop_ready` has returned thread `1` asleep on the handle `7`, the queue of `7` still starts
with the id `1`, and `wake_event_single(7)` pops it and returns `None`, though thread `2`
sleeps on `7`. -/
theorem pop_ready_returns_stale_timer :
    Reachable (run resleepUntil) ∧ (run resleepUntil).2 1 = some (.until ⟨100⟩) ∧
      ((run resleepUntil).1.popReady ⟨10⟩).1.map Thread.id = some 1 ∧
    Reachable (run resleepEvent) ∧ (run resleepEvent).2 2 = some (.event 7) ∧
      ((run resleepEvent).1.wakeEventSingle 7).1 = none :=
  ⟨reachable_run (by decide), by decide, by decide, reachable_run (by decide), by decide,
    by decide⟩

end SleepQueues

end Beskar.Kernel
