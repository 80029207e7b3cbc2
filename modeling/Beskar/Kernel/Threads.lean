import Beskar.Kernel.Scheduler

/-!
# The Scheduler Loses No Thread and Duplicates None

`Kernel.Scheduler` models the rescheduling path on `n` cores.  There, a thread is in one
of these places: it is the `current` thread of a core; it is in a ready queue of
`RoundRobinQueues`; it is in `SLEEPING`; it is in `FINISHED`.  Between the swap of
`current` in `Scheduler::reschedule` and `stage_old_thread` the old thread is in none of
them: the core that swapped it out holds it, as the `old` of its `stage` frame.  This
module shows that no interleaving of the cores' steps, timer interrupts and wake-ups
changes the multiset of threads over these places.

A core holds a thread only while `without_interrupts` has interrupts disabled, so nothing
is pushed over its `stage` frame and `switch` never saves one.  `Quiet` says so: `pick`
and `stage` frames stand only on top of a core, and only while its `IF` is clear.

## Main results

- `Quiet.of_step`: every step keeps `Quiet`.
- `step_threads`: every step keeps the multiset `threads`.  A wake-up drops every entry of
  its thread from `SLEEPING`, which is one entry only if the thread sleeps once; a multiset
  without repetition gives that.
- `sched_threads_conserved`: over every run from `scheduler::init` in which every thread
  is in one place, the multiset of threads never changes.  So no thread is lost, none is
  duplicated, and none is `current` on two cores at once.
-/

namespace Beskar.Kernel.Scheduler

open Beskar.Lib

variable {n : Nat}

/-! ## §1 Where the Threads Are -/

instance : Fintype Priority where
  elems := {.idle, .low, .normal, .high, .realtime}
  complete p := by cases p <;> decide

/-- The thread a frame holds: the old thread of a `stage` frame, swapped out of `current`
and not yet handed to `stage_old_thread`. -/
def Frame.held : Frame → Multiset Nat
  | .sched _ (.stage _ _ old _) => {old}
  | _ => 0

/-- The frames of `reschedule` between `without_interrupts` and the staging of the old
thread. -/
def Frame.busy : Frame → Bool
  | .sched _ (.pick _) | .sched _ (.stage _ _ _ _) => true
  | _ => false

/-- The threads a stack of frames holds. -/
def heldOf (fs : List Frame) : Multiset Nat := (fs.map Frame.held).sum

/-- The threads of core `c`: its `current` thread, and the one its frames hold. -/
def coreThreads (s : State n) (c : Fin n) : Multiset Nat :=
  s.current c ::ₘ heldOf (s.frames c)

/-- The threads of the ready queues. -/
def readyThreads (ready : Priority → List Nat) : Multiset Nat :=
  ∑ p, (ready p : Multiset Nat)

/-- The threads of the ready queues, `SLEEPING` and `FINISHED`. -/
def queued (s : State n) : Multiset Nat :=
  readyThreads s.ready + (s.sleeping.map Prod.snd : Multiset Nat) + (s.finished : Multiset Nat)

/-- Every place a thread can be. -/
def threads (s : State n) : Multiset Nat :=
  ∑ c, coreThreads s c + queued s

@[simp]
theorem State.setIf_frames (s : State n) (c : Fin n) (b : Bool) : (s.setIf c b).frames = s.frames :=
  rfl

@[simp]
theorem heldOf_nil : heldOf [] = 0 := rfl

@[simp]
theorem heldOf_cons (f : Frame) (fs : List Frame) : heldOf (f :: fs) = f.held + heldOf fs := by
  simp [heldOf]

@[simp]
theorem heldOf_append (fs gs : List Frame) : heldOf (fs ++ gs) = heldOf fs + heldOf gs := by
  simp [heldOf]

theorem Frame.held_eq_zero {f : Frame} (h : f.busy = false) : f.held = 0 := by
  cases f with
  | sched r pc => cases pc <;> first | rfl | cases h
  | _ => rfl

/-- Frames none of which is busy hold no thread. -/
theorem heldOf_eq_zero {fs : List Frame} (h : ∀ g ∈ fs, g.busy = false) : heldOf fs = 0 := by
  induction fs with
  | nil => rfl
  | cons f fs ih =>
    simp only [List.forall_mem_cons] at h
    rw [heldOf_cons, Frame.held_eq_zero h.1, ih h.2, add_zero]

/-! ## §2 How Each Operation Moves Threads -/

section Threads

variable {s s' : State n} {c : Fin n}

/-- The five fields `threads` reads. -/
structure SameThreads (s s' : State n) : Prop where
  current : s'.current = s.current
  frames : s'.frames = s.frames
  ready : s'.ready = s.ready
  sleeping : s'.sleeping = s.sleeping
  finished : s'.finished = s.finished

theorem threads_of_sameThreads (h : SameThreads s s') : threads s' = threads s := by
  simp only [threads, coreThreads, queued, h.current, h.frames, h.ready, h.sleeping, h.finished]

/-- A queue replaced: the ready threads lose the old queue and gain the new one. -/
theorem readyThreads_update (ready : Priority → List Nat) (p : Priority) (l : List Nat) :
    readyThreads (Function.update ready p l) + (ready p : Multiset Nat) =
      readyThreads ready + (l : Multiset Nat) :=
  sum_add_eq_of_update p (fun q hq => by rw [Function.update_of_ne hq])
    (by rw [Function.update_self, add_comm])

/-- `pop_best` takes the head of one queue. -/
theorem popBest_eq_some {ready ready' : Priority → List Nat} {t : Nat}
    (h : popBest ready = some (t, ready')) :
    ∃ p rest, ready p = t :: rest ∧ ready' = Function.update ready p rest := by
  obtain ⟨p, -, hp⟩ := List.exists_of_findSome?_eq_some h
  split at hp
  · cases hp
  · rename_i t' rest heq
    cases hp
    exact ⟨p, rest, heq, rfl⟩

theorem readyThreads_popBest {ready ready' : Priority → List Nat} {t : Nat}
    (h : popBest ready = some (t, ready')) :
    readyThreads ready' + {t} = readyThreads ready := by
  obtain ⟨p, rest, hp, rfl⟩ := popBest_eq_some h
  have hupd := readyThreads_update ready p rest
  rw [hp, ← Multiset.cons_coe, ← Multiset.singleton_add, ← add_assoc] at hupd
  exact add_right_cancel hupd

/-- An operation on the queues alone moves threads only there. -/
theorem threads_of_queued {y : Multiset Nat} (hcur : s'.current = s.current)
    (hfr : s'.frames = s.frames) (hq : queued s' = queued s + y) : threads s' = threads s + y := by
  simp only [threads, coreThreads, hcur, hfr, hq, add_assoc]

/-- An operation on the cores alone moves threads only there. -/
theorem threads_add_of_cores {x y : Multiset Nat} (hq : queued s' = queued s)
    (hcores : ∑ d, coreThreads s' d + x = ∑ d, coreThreads s d + y) :
    threads s' + x = threads s + y := by
  rw [threads, threads, hq, add_right_comm, hcores, add_right_comm]

/-- New frames on core `c`: the threads lose what the old frames held and gain what the
new ones hold. -/
theorem threads_setFrames (s : State n) (c : Fin n) (fs : List Frame) :
    threads (s.setFrames c fs) + heldOf (s.frames c) = threads s + heldOf fs := by
  refine threads_add_of_cores rfl (sum_add_eq_of_update c (fun d hd => ?_) ?_)
  · simp [coreThreads, State.setFrames, Function.update_of_ne hd]
  · simp only [coreThreads, State.setFrames, Function.update_self, Multiset.cons_add]
    rw [add_comm]

/-- New frames that hold what the old ones held keep the threads. -/
theorem threads_setFrames_eq {fs : List Frame} (h : heldOf fs = heldOf (s.frames c)) :
    threads (s.setFrames c fs) = threads s := by
  have hset := threads_setFrames s c fs
  rw [h] at hset
  exact add_right_cancel hset

/-- New frames on core `c`, holding what the old ones held, over a state with the same
threads. -/
theorem threads_setFrames_of_same {x : State n} (hx : SameThreads s x) {fs : List Frame}
    (h : heldOf fs = heldOf (s.frames c)) : threads (x.setFrames c fs) = threads s := by
  rw [threads_setFrames_eq (by rw [hx.frames]; exact h), threads_of_sameThreads hx]

@[simp]
theorem threads_setIf (s : State n) (c : Fin n) (b : Bool) : threads (s.setIf c b) = threads s :=
  rfl

/-- `RoundRobinQueues::append` adds its thread. -/
theorem threads_append (s : State n) (t : Nat) : threads (append s t) = threads s + {t} := by
  have hready : readyThreads (Function.update s.ready (s.prio t) (s.ready (s.prio t) ++ [t])) =
      readyThreads s.ready + {t} := by
    have hupd := readyThreads_update s.ready (s.prio t) (s.ready (s.prio t) ++ [t])
    rw [← Multiset.coe_add, Multiset.coe_singleton, ← add_assoc, add_right_comm] at hupd
    exact add_right_cancel hupd
  refine threads_of_queued rfl rfl ?_
  simp only [queued, append, hready]
  abel

/-- The swap of `current` puts the candidate in the old thread's place. -/
theorem threads_swapCurrent (s : State n) (c : Fin n) (t : Nat) :
    threads (swapCurrent s c t) + {s.current c} = threads s + {t} := by
  refine threads_add_of_cores rfl (sum_add_eq_of_update c (fun d hd => ?_) ?_)
  · simp [coreThreads, swapCurrent, Function.update_of_ne hd]
  · simp only [coreThreads, swapCurrent, Function.update_self, Multiset.cons_add]
    rw [add_comm (heldOf _), Multiset.singleton_add, add_comm (heldOf _), Multiset.singleton_add,
      Multiset.cons_swap]

theorem threads_nextAction (s : State n) (c : Fin n) : threads (nextAction s c).2 = threads s := by
  unfold nextAction
  split
  · exact threads_of_sameThreads ⟨rfl, rfl, rfl, rfl, rfl⟩
  · split <;> exact threads_of_sameThreads ⟨rfl, rfl, rfl, rfl, rfl⟩

/-- `stage_old_thread` puts the old thread back: into `FINISHED`, `SLEEPING` or its ready
queue. -/
theorem threads_stageOldThread (s : State n) (action : ThreadAction) (old : Nat) :
    threads (stageOldThread s action old) = threads s + {old} := by
  cases action with
  | exit =>
    refine threads_of_queued rfl rfl ?_
    simp only [stageOldThread, queued, ← Multiset.coe_add, Multiset.coe_singleton, add_assoc]
  | sleep reason =>
    refine threads_of_queued rfl rfl ?_
    simp only [stageOldThread, queued, List.map_append, List.map_cons, List.map_nil,
      ← Multiset.coe_add, Multiset.coe_singleton]
    abel
  | ready =>
    rw [stageOldThread, threads_append]
    rfl

/-- `pop_best` takes its thread off the ready queues. -/
theorem threads_popBest {ready : Priority → List Nat} {t : Nat}
    (h : popBest s.ready = some (t, ready)) :
    threads s = threads { s with ready := ready } + {t} := by
  refine threads_of_queued rfl rfl ?_
  simp only [queued]
  rw [← readyThreads_popBest h]
  abel

/-- `pick`, with the old thread its frame holds, keeps the threads: the candidate leaves
its queue for `current`, or goes back to the end of its queue. -/
theorem pick_threads (s : State n) (c : Fin n) (r : RescheduleReason) (restore : Bool) :
    threads (pick s c r restore).1 + (Frame.sched r (pick s c r restore).2).held = threads s := by
  unfold pick
  dsimp only
  split
  · simp [Frame.held]
  · rename_i candidate ready hpop
    -- the candidate is off its queue, and `next_action` moves no thread
    have hoff : threads (nextAction { s with ready := ready } c).2 + {candidate} = threads s := by
      rw [threads_nextAction]
      exact (threads_popBest hpop).symm
    split
    · simp only [Frame.held, add_zero]
      rw [threads_append]
      exact hoff
    · simp only [Frame.held]
      rw [threads_swapCurrent]
      exact hoff

/-- A wake-up moves its thread from `SLEEPING` to its ready queue, if the thread sleeps
once: it drops every entry of the thread. -/
theorem wake_threads {t : Nat} (hnd : (threads s).Nodup) (h : wake s t = some s') :
    threads s' = threads s := by
  unfold wake at h
  split at h
  · rename_i hsleeps
    cases h
    have hnd' : (s.sleeping.map Prod.snd).Nodup := by
      have hq := (Multiset.nodup_add.mp hnd).2.1
      exact Multiset.coe_nodup.mp (Multiset.nodup_add.mp (Multiset.nodup_add.mp hq).1).2.1
    have hmem : t ∈ s.sleeping.map Prod.snd := by
      obtain ⟨e, he, het⟩ := List.any_eq_true.mp hsleeps
      exact List.mem_map.mpr ⟨e, he, by simpa using het⟩
    -- without repetition, dropping the thread's entries erases one entry
    have hsl : (((s.sleeping.filter fun e => e.2 != t).map Prod.snd : List Nat) : Multiset Nat) +
        {t} = (s.sleeping.map Prod.snd : Multiset Nat) := by
      have hfilter : (s.sleeping.map Prod.snd).filter (· != t) =
          (s.sleeping.filter fun e => e.2 != t).map Prod.snd := List.filter_map
      rw [← hfilter, ← hnd'.erase_eq_filter, ← Multiset.coe_erase, add_comm,
        Multiset.singleton_add, Multiset.cons_erase (Multiset.mem_coe.mpr hmem)]
    rw [threads_append]
    refine (threads_of_queued ?_ ?_ ?_).symm
    · rfl
    · rfl
    · simp only [queued]
      rw [← hsl]
      abel
  · cases h

/-- `callYield`: frames pushed over the thread's code, holding no thread. -/
theorem callYield_threads {above : List Frame} (habove : heldOf above = 0)
    (h : callYield s c above = some s') : threads s' = threads s := by
  unfold callYield at h
  split at h
  · rename_i rest hc
    cases h
    exact threads_setFrames_of_same ⟨rfl, rfl, rfl, rfl, rfl⟩ (by simp [hc, habove, Frame.held])
  · cases h

end Threads

/-! ## §3 Only a Core With Interrupts Disabled Holds a Thread -/

/-- A saved stack, or the frames below a core's top: no `pick` or `stage` frame. -/
def SavedQuiet (fs : List Frame) : Prop :=
  ∀ g ∈ fs, g.busy = false

/-- A core's frames: a `pick` or `stage` frame only on top, and then with `IF` clear. -/
def CoreQuiet (ifl : Bool) : List Frame → Prop
  | [] => True
  | f :: rest => (f.busy = true → ifl = false) ∧ SavedQuiet rest

/-- The invariant that keeps the held threads off saved stacks. -/
structure Quiet (s : State n) : Prop where
  core : ∀ c, CoreQuiet (s.intEnabled c) (s.frames c)
  saved : ∀ sp, SavedQuiet (s.stackMem sp)

section Quiet

variable {s s' : State n} {c : Fin n}

/-- A frame that is not busy may stand on top of any core. -/
theorem CoreQuiet.idle {ifl : Bool} {f : Frame} {rest : List Frame} (hf : f.busy = false)
    (hrest : SavedQuiet rest) : CoreQuiet ifl (f :: rest) :=
  ⟨fun h => absurd (hf.symm.trans h) (by decide), hrest⟩

theorem coreQuiet_of_saved {fs : List Frame} (h : SavedQuiet fs) (ifl : Bool) :
    CoreQuiet ifl fs := by
  cases fs with
  | nil => trivial
  | cons f rest =>
    exact .idle (h f (List.mem_cons_self ..)) fun g hg => h g (List.mem_cons_of_mem f hg)

/-- With `IF` set no frame of a core is busy: an interrupt may push over them. -/
theorem savedQuiet_of_coreQuiet {fs : List Frame} (h : CoreQuiet true fs) : SavedQuiet fs := by
  cases fs with
  | nil => exact fun _ hg => by cases hg
  | cons f rest =>
    intro g hg
    rcases List.mem_cons.mp hg with rfl | hg
    · cases hb : g.busy
      · rfl
      · exact absurd (h.1 hb) (by decide)
    · exact h.2 g hg

theorem Quiet.of_sameControl (hq : Quiet s) (h : SameControl s s') : Quiet s' where
  core d := by
    rw [h.frames, h.intEnabled]
    exact hq.core d
  saved sp := by
    rw [h.stackMem]
    exact hq.saved sp

/-- A step that changes the frames and `IF` of core `c` only. -/
theorem Quiet.of_local (hq : Quiet s) (c : Fin n) {b : Bool} {fs : List Frame}
    (hif : s'.intEnabled = Function.update s.intEnabled c b)
    (hfr : s'.frames = Function.update s.frames c fs)
    (hmem : ∀ sp, SavedQuiet (s'.stackMem sp)) (hc : CoreQuiet b fs) : Quiet s' where
  core d := by
    rw [hif, hfr]
    by_cases hd : d = c
    · subst hd
      simpa using hc
    · simpa [Function.update_of_ne hd] using hq.core d
  saved := hmem

theorem Quiet.of_setFrames (hq : Quiet s) {x : State n} (hx : SameControl s x) (c : Fin n)
    (fs : List Frame) (hc : CoreQuiet (s.intEnabled c) fs) : Quiet (x.setFrames c fs) :=
  hq.of_local c (by simp [State.setFrames, hx.intEnabled]) (by simp [State.setFrames, hx.frames])
    (by simpa [State.setFrames, hx.stackMem] using hq.saved) hc

theorem Quiet.of_setIf_setFrames (hq : Quiet s) {x : State n} (hx : SameControl s x) (c : Fin n)
    (b : Bool) (fs : List Frame) (hc : CoreQuiet b fs) : Quiet ((x.setIf c b).setFrames c fs) :=
  hq.of_local c (by simp [State.setFrames, State.setIf, hx.intEnabled])
    (by simp [State.setFrames, State.setIf, hx.frames])
    (by simpa [State.setFrames, State.setIf, hx.stackMem] using hq.saved) hc

theorem Quiet.of_init (h : IsInit s) : Quiet s where
  core c := by
    rw [h.frames c]
    exact .idle rfl fun _ hg => by cases hg
  saved sp := by
    rw [h.stackMem sp]
    intro g hg
    simp only [List.mem_cons, List.not_mem_nil, or_false] at hg
    rcases hg with rfl | rfl <;> rfl

/-- `mov [rdi], rsp` saves the frames below a core's top, which are quiet. -/
theorem saveStack_quiet (hq : Quiet s) {r : RescheduleReason} {cs : ContextSwitch}
    {rest : List Frame} (hc : s.frames c = .sched r (.switch cs) :: rest) (sp : Nat) :
    SavedQuiet ((saveStack s r cs.oldStack rest).stackMem sp) := by
  have hcore := hq.core c
  rw [hc] at hcore
  rw [saveStack_stackMem]
  by_cases hsp : sp = s.nextSp
  · subst hsp
    intro g hg
    simp only [Function.update_self, List.mem_cons] at hg
    rcases hg with rfl | rfl | hg
    · rfl
    · rfl
    · exact hcore.2 g hg
  · simpa [Function.update_of_ne hsp] using hq.saved sp

theorem Quiet.of_switch (hq : Quiet s) {r : RescheduleReason} {cs : ContextSwitch}
    {rest : List Frame} (hc : s.frames c = .sched r (.switch cs) :: rest) :
    Quiet (loadStack (saveStack s r cs.oldStack rest) c cs) := by
  have hmem := saveStack_quiet hq hc
  obtain ⟨hfr, hif⟩ := saveStack_control_frames s r cs.oldStack rest
  refine hq.of_local c ?_ ?_ hmem (coreQuiet_of_saved (hmem cs.newStack) (s.intEnabled c))
  · simp [loadStack, hif]
  · simp [loadStack, hfr]

theorem Quiet.of_stepSched (hq : Quiet s) {r : RescheduleReason} {pc : SchedPc}
    {rest : List Frame} (hc : s.frames c = .sched r pc :: rest) :
    Quiet (stepSched s c r rest pc) := by
  have hcore := hq.core c
  rw [hc] at hcore
  have hsame : SameControl s s := ⟨rfl, rfl, rfl⟩
  cases pc with
  | start =>
    simp only [stepSched]
    split
    · exact hq.of_setIf_setFrames hsame c false (.sched r (.pick (s.intEnabled c)) :: rest)
        ⟨fun _ => rfl, hcore.2⟩
    · exact hq.of_setFrames hsame c _ (.idle rfl hcore.2)
  | pick restore =>
    -- the `pick` frame is busy, so `IF` is clear, and the `stage` frame may follow
    exact hq.of_setFrames (pick_control s c r restore) c _ ⟨fun _ => hcore.1 rfl, hcore.2⟩
  | stage restore action old cs =>
    exact hq.of_setIf_setFrames (stageOldThread_control s action old) c false _
      ⟨fun _ => rfl, hcore.2⟩
  | leave restore cso =>
    cases restore <;> cases cso <;> simp only [stepSched, Bool.false_eq_true, if_false, if_true]
    · exact hq.of_setFrames hsame c _ (.idle rfl hcore.2)
    · exact (hq.of_setFrames hsame c _ (.idle rfl hcore.2)).of_sameControl ⟨rfl, rfl, rfl⟩
    · exact hq.of_setIf_setFrames hsame c true _ (.idle rfl hcore.2)
    · exact (hq.of_setIf_setFrames hsame c true _ (.idle rfl hcore.2)).of_sameControl
        ⟨rfl, rfl, rfl⟩
  | switch cs => exact hq.of_switch hc
  | done =>
    cases r with
    | explicitYield => exact hq.of_setFrames hsame c rest (coreQuiet_of_saved hcore.2 _)
    | quantumExpired => exact hq.of_setIf_setFrames hsame c true rest (coreQuiet_of_saved hcore.2 _)

theorem Quiet.of_callYield (hq : Quiet s) {above : List Frame} (habove : SavedQuiet above)
    (h : callYield s c above = some s') : Quiet s' := by
  unfold callYield at h
  split at h
  · rename_i rest hc
    cases h
    have hcore := hq.core c
    rw [hc] at hcore
    refine hq.of_setFrames ⟨rfl, rfl, rfl⟩ c _ (.idle rfl ?_)
    intro g hg
    simp only [List.mem_append, List.mem_cons] at hg
    rcases hg with hg | rfl | hg
    · exact habove g hg
    · rfl
    · exact hcore.2 g hg
  · cases h

/-- **Step lemma for `Quiet`.** -/
theorem Quiet.of_step {a : Label n} (hq : Quiet s) (h : step s a = some s') : Quiet s' := by
  cases a with
  | yield c => exact hq.of_callYield (fun _ hg => by cases hg) h
  | sleep c reason =>
    simp only [step, Option.map_eq_some_iff] at h
    obtain ⟨s₁, h₁, rfl⟩ := h
    exact (hq.of_callYield (fun _ hg => by cases hg) h₁).of_sameControl ⟨rfl, rfl, rfl⟩
  | exit c =>
    simp only [step, Option.map_eq_some_iff] at h
    obtain ⟨s₁, h₁, rfl⟩ := h
    have hexit : SavedQuiet [Frame.exitTail] := by
      intro g hg
      rw [List.mem_singleton.mp hg]
      rfl
    exact (hq.of_callYield hexit h₁).of_sameControl ⟨rfl, rfl, rfl⟩
  | interrupt c =>
    simp only [step] at h
    split at h
    · rename_i hif
      cases h
      -- with `IF` set no frame of the core is busy, so the handler may go on top
      have hcore := hq.core c
      rw [hif] at hcore
      exact hq.of_setIf_setFrames ⟨rfl, rfl, rfl⟩ c false _
        (.idle rfl (savedQuiet_of_coreQuiet hcore))
    · cases h
  | wake t => exact hq.of_sameControl (wake_control h)
  | step c =>
    simp only [step] at h
    split at h <;> cases h
    · rename_i r pc rest hc
      exact hq.of_stepSched hc
    · rename_i rest hc
      have hcore := hq.core c
      rw [hc] at hcore
      exact hq.of_setIf_setFrames ⟨rfl, rfl, rfl⟩ c true rest (coreQuiet_of_saved hcore.2 _)
    · rename_i rest hc
      have hcore := hq.core c
      rw [hc] at hcore
      exact hq.of_setIf_setFrames ⟨rfl, rfl, rfl⟩ c true _ (.idle rfl hcore.2)

end Quiet

/-! ## §4 Every Step and Every Run -/

section Runs

variable {s s' : State n} {c : Fin n}

/-- `switch` saves frames that hold no thread and loads others that hold none. -/
theorem threads_switch (hq : Quiet s) {r : RescheduleReason} {cs : ContextSwitch}
    {rest : List Frame} (hc : s.frames c = .sched r (.switch cs) :: rest) :
    threads (loadStack (saveStack s r cs.oldStack rest) c cs) = threads s := by
  have hcore := hq.core c
  rw [hc] at hcore
  have hsave : SameThreads s (saveStack s r cs.oldStack rest) := by
    unfold saveStack
    cases cs.oldStack <;> exact ⟨rfl, rfl, rfl, rfl, rfl⟩
  have hload : threads (loadStack (saveStack s r cs.oldStack rest) c cs) =
      threads ((saveStack s r cs.oldStack rest).setFrames c
        ((saveStack s r cs.oldStack rest).stackMem cs.newStack)) :=
    threads_of_sameThreads ⟨rfl, rfl, rfl, rfl, rfl⟩
  rw [hload, threads_setFrames_of_same hsave]
  rw [heldOf_eq_zero (saveStack_quiet hq hc cs.newStack), hc, heldOf_cons,
    heldOf_eq_zero hcore.2]
  rfl

theorem stepSched_threads (hq : Quiet s) {r : RescheduleReason} {pc : SchedPc}
    {rest : List Frame} (hc : s.frames c = .sched r pc :: rest) :
    threads (stepSched s c r rest pc) = threads s := by
  have hsame : SameThreads s s := ⟨rfl, rfl, rfl, rfl, rfl⟩
  cases pc with
  | start =>
    simp only [stepSched]
    split <;>
      exact threads_setFrames_of_same ⟨rfl, rfl, rfl, rfl, rfl⟩ (by simp [hc, Frame.held])
  | pick restore =>
    -- the candidate and the old thread trade places; the new frame holds the old thread
    simp only [stepSched]
    have hset :=
      threads_setFrames (pick s c r restore).1 c (.sched r (pick s c r restore).2 :: rest)
    have hpick : (Frame.sched r (.pick restore)).held = 0 := rfl
    rw [(pick_control s c r restore).frames, hc, heldOf_cons, heldOf_cons, hpick, zero_add,
      ← add_assoc, pick_threads] at hset
    exact add_right_cancel hset
  | stage restore action old cs =>
    -- `stage_old_thread` puts back the thread the frame held
    simp only [stepSched]
    have hset := threads_setFrames ((stageOldThread s action old).setIf c false) c
      (.sched r (.leave restore (some cs)) :: rest)
    rw [State.setIf_frames, (stageOldThread_control s action old).frames, hc, threads_setIf,
      threads_stageOldThread, heldOf_cons, heldOf_cons] at hset
    simp only [Frame.held, zero_add] at hset
    rw [← add_assoc] at hset
    exact add_right_cancel (add_right_cancel hset)
  | leave restore cso =>
    cases restore <;> cases cso <;> simp only [stepSched, Bool.false_eq_true, if_false, if_true]
    · exact threads_setFrames_of_same hsame (by simp [hc, Frame.held])
    · exact (threads_of_sameThreads ⟨rfl, rfl, rfl, rfl, rfl⟩).trans
        (threads_setFrames_of_same hsame (by simp [hc, Frame.held]))
    · exact threads_setFrames_of_same ⟨rfl, rfl, rfl, rfl, rfl⟩ (by simp [hc, Frame.held])
    · exact (threads_of_sameThreads ⟨rfl, rfl, rfl, rfl, rfl⟩).trans
        (threads_setFrames_of_same (x := s.setIf c true) ⟨rfl, rfl, rfl, rfl, rfl⟩
          (by simp [hc, Frame.held]))
  | switch cs => exact threads_switch hq hc
  | done =>
    cases r <;>
      exact threads_setFrames_of_same ⟨rfl, rfl, rfl, rfl, rfl⟩ (by simp [hc, Frame.held])

/-- **Step lemma for the threads**: every step keeps the multiset of threads, as long as
no thread is in two places. -/
theorem step_threads {a : Label n} (hq : Quiet s) (hnd : (threads s).Nodup)
    (h : step s a = some s') : threads s' = threads s := by
  cases a with
  | yield c => exact callYield_threads rfl h
  | sleep c reason =>
    simp only [step, Option.map_eq_some_iff] at h
    obtain ⟨s₁, h₁, rfl⟩ := h
    rw [← callYield_threads rfl h₁]
    exact threads_of_sameThreads ⟨rfl, rfl, rfl, rfl, rfl⟩
  | exit c =>
    simp only [step, Option.map_eq_some_iff] at h
    obtain ⟨s₁, h₁, rfl⟩ := h
    rw [← callYield_threads (by rfl : heldOf [Frame.exitTail] = 0) h₁]
    exact threads_of_sameThreads ⟨rfl, rfl, rfl, rfl, rfl⟩
  | interrupt c =>
    simp only [step] at h
    split at h
    · cases h
      exact threads_setFrames_of_same ⟨rfl, rfl, rfl, rfl, rfl⟩ (by simp [Frame.held])
    · cases h
  | wake t => exact wake_threads hnd h
  | step c =>
    simp only [step] at h
    split at h <;> cases h
    · rename_i r pc rest hc
      exact stepSched_threads hq hc
    · rename_i rest hc
      exact threads_setFrames_of_same ⟨rfl, rfl, rfl, rfl, rfl⟩ (by simp [hc, Frame.held])
    · rename_i rest hc
      exact threads_setFrames_of_same ⟨rfl, rfl, rfl, rfl, rfl⟩ (by simp [hc, Frame.held])

/-- **No thread lost or duplicated.**  Over every run from a state after `scheduler::init`
in which every thread is in one place, the multiset of the threads that are `current` on
a core, held by a core between `reschedule`'s swap and `stage_old_thread`, ready, asleep
or finished never changes. -/
theorem sched_threads_conserved {s₀ : State n} {l : List (Label n)} (h₀ : IsInit s₀)
    (hnd : (threads s₀).Nodup) (h : Run (Det step) s₀ l s) : threads s = threads s₀ := by
  -- the run lemma: `Quiet` and the multiset are carried together
  have hrun := h.invariant (fun x => Quiet x ∧ threads x = threads s₀)
    (fun _ _ _ hx hstep =>
      ⟨hx.1.of_step hstep, (step_threads hx.1 (hx.2 ▸ hnd) hstep).trans hx.2⟩)
    ⟨Quiet.of_init h₀, rfl⟩
  exact hrun.2

/-- The run of `context_switch_races` in which core `1` picks thread `0` before core `0`
has stored its stack pointer: the three threads are still each in one place. -/
theorem sched_threads_conserved_tickRace :
    IsInit (boot 2) ∧ (threads (boot 2)).Nodup ∧
      ∃ s, exec step (boot 2) tickSchedule = some s ∧ threads s = threads (boot 2) :=
  ⟨boot_isInit 2, by decide, _, rfl, sched_threads_conserved (boot_isInit 2) (by decide)
    (exec_run (show exec step (boot 2) tickSchedule = some _ from rfl))⟩

end Runs

end Beskar.Kernel.Scheduler
