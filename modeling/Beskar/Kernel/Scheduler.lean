import Mathlib
import Beskar.Lib.Transition
import Beskar.Core.Sleep

/-!
# The Scheduler and the Context Switch

Model of the rescheduling path of `kernel/src/process/scheduler.rs` on `n` cores:
`thread_yield` (also the tail of `request_sleep` and `exit_current_thread`), the timer
interrupt handler of `arch/x86_64/apic.rs` with `scheduler_tick`, `Scheduler::reschedule`
with `next_action`, `old_stack_pointer` and `stage_old_thread`, the `RoundRobinQueues` of
`scheduler/priority.rs`, `without_interrupts` (`beskar-hal/src/x86_64/instructions.rs`) and
`arch::context::switch`.

Each core runs a stack of frames, innermost first: the thread's own code, the tail of
`exit_current_thread`, the `reschedule` path of a `thread_yield` or of the timer handler,
and on an incoming stack the end of `switch`.  `Label.step c` runs the top frame of core `c`
up to its next access of shared state; a timer interrupt pushes the handler's frame when
`IF` is set.  `switch` saves the frames of the outgoing stack at a fresh stack pointer,
stores that pointer into the old thread's `last_stack_ptr` (`mov [rdi], rsp`), and goes on
with the frames saved at the incoming stack pointer (`mov rsp, rsi`).

Not modelled: thread statistics, `cr3`, TLS, `send_eoi`, and the debug assertions (a
release build).  Which sleeper wakes when is left open: `Label.wake` makes any sleeping
thread ready, which covers the timer sleepers of `scheduler_tick`, `wake_up` and
`wake_event_*`.  The ready queues are FIFO lists.

Ghost fields record whose stack each core runs on, and for each thread whether its
`last_stack_ptr` was stored since its stack was last entered.  The ghost `log` records
every entry into `switch`, with `IF`, and every load of an incoming `last_stack_ptr`, with
whether that thread could then be resumed: its pointer stored, no core on its stack.

## Main results

- `tick_switch_if_clear`: on the timer path `switch` is entered with interrupts disabled
  in every reachable state, by the invariant `Inv` on the frames of every core and every
  saved stack.
- `context_switch_races`: two runs.  On one core, a thread that yields with interrupts
  enabled enters `switch` with interrupts enabled again (`without_interrupts` restores
  them), a timer interrupt arrives there, and the handler loads the yielding thread's stale
  `last_stack_ptr` while the core still runs on its stack.  On two cores, with interrupts
  disabled on both paths, a second core takes the thread `stage_old_thread` has just made
  ready and loads its stack pointer before the first core has stored it.
-/

namespace Beskar.Kernel.Scheduler

open Beskar.Lib Beskar.Sleep

/-! ## §1 Threads, Frames and the State -/

/-- `Priority`. -/
inductive Priority where
  | idle
  | low
  | normal
  | high
  | realtime
deriving DecidableEq, Repr

/-- `Priority as u8`, which orders priorities. -/
def Priority.toNat : Priority → Nat
  | .idle => 0
  | .low => 1
  | .normal => 2
  | .high => 3
  | .realtime => 4

/-- `ThreadState`. -/
inductive ThreadState where
  | running
  | ready
  | sleeping
deriving DecidableEq, Repr

/-- `RescheduleReason`. -/
inductive RescheduleReason where
  | quantumExpired
  | explicitYield
deriving DecidableEq, Repr

def RescheduleReason.shouldRotate : RescheduleReason → Bool
  | .quantumExpired | .explicitYield => true

/-- `ThreadAction`. -/
inductive ThreadAction where
  | exit
  | sleep (reason : SleepReason)
  | ready
deriving DecidableEq, Repr

/-- `ContextSwitch`: where `switch` stores the outgoing stack pointer (`none` is the
`USELESS` static of an exiting thread) and the incoming stack pointer.  The thread whose
stack that is, `newThread`, is ghost. -/
structure ContextSwitch where
  oldStack : Option Nat
  newStack : Nat
  newThread : Nat
deriving DecidableEq, Repr

/-- Where a core is in `reschedule` and in the `ContextSwitch` that follows it.  `restore`
is what `without_interrupts` found: interrupts enabled, to be enabled again on its exit. -/
inductive SchedPc where
  /-- `reschedule`: `SCHEDULER_SWITCH.load()`, then `without_interrupts` reads `IF`. -/
  | start
  /-- `Scheduler::reschedule`: `pop_best`, `next_action`, the swap of `current`. -/
  | pick (restore : Bool)
  /-- `stage_old_thread` and `int_disable()`. -/
  | stage (restore : Bool) (action : ThreadAction) (old : Nat) (cs : ContextSwitch)
  /-- The end of `without_interrupts`, then `cs.perform()`. -/
  | leave (restore : Bool) (cs : Option ContextSwitch)
  /-- Inside `switch`: the pushes, `mov [rdi], rsp` and `mov rsp, rsi` come next. -/
  | switch (cs : ContextSwitch)
  /-- `thread_yield` returns, or the handler returns with `iretq`. -/
  | done
deriving DecidableEq, Repr

/-- A frame of a core's call stack. -/
inductive Frame where
  /-- The thread's own code. -/
  | code
  /-- `exit_current_thread` after its `thread_yield` returned: `int_enable()`, then `halt`. -/
  | exitTail
  /-- `loop { halt() }`. -/
  | halt
  /-- `thread_yield` (`explicitYield`) or the timer handler (`quantumExpired`). -/
  | sched (reason : RescheduleReason) (pc : SchedPc)
  /-- `switch` on the incoming stack: the pops, `popfq`, `sti` and `ret`. -/
  | resume
deriving DecidableEq, Repr

/-- Ghost events. -/
inductive Event (n : Nat) where
  | switchEntered (core : Fin n) (intEnabled : Bool)
  | stackLoaded (core : Fin n) (thread : Nat) (resumable : Bool)
deriving DecidableEq, Repr

/-- The shared scheduler state (`SCHEDULER_SWITCH`, `QUEUE`, `SLEEPING`, `FINISHED`, the
threads' priority, state and `last_stack_ptr`, and the stack memory), the per-core state
(`Scheduler::current`, `should_exit`, `sleep_intent`, `IF`, the frames), and ghosts. -/
structure State (n : Nat) where
  switching : Bool
  prio : Nat → Priority
  tstate : Nat → ThreadState
  ready : Priority → List Nat
  sleeping : List (SleepReason × Nat)
  finished : List Nat
  lastStackPtr : Nat → Nat
  stackMem : Nat → List Frame
  nextSp : Nat
  current : Fin n → Nat
  shouldExit : Fin n → Bool
  sleepIntent : Fin n → Option SleepReason
  intEnabled : Fin n → Bool
  frames : Fin n → List Frame
  onStack : Fin n → Nat
  stored : Nat → Bool
  log : List (Event n)

/-- The thread on core `c` calls `thread_yield`, `sleep_*` or `exit_current_thread`; a timer
interrupt arrives; a sleeper is woken; or core `c` takes its next step. -/
inductive Label (n : Nat) where
  | yield (c : Fin n)
  | sleep (c : Fin n) (reason : SleepReason)
  | exit (c : Fin n)
  | interrupt (c : Fin n)
  | wake (t : Nat)
  | step (c : Fin n)
deriving DecidableEq, Repr

variable {n : Nat}

/-! ## §2 Steps -/

def State.setFrames (s : State n) (c : Fin n) (fs : List Frame) : State n :=
  { s with frames := Function.update s.frames c fs }

def State.setIf (s : State n) (c : Fin n) (b : Bool) : State n :=
  { s with intEnabled := Function.update s.intEnabled c b }

/-- Thread `t` can be resumed: its `last_stack_ptr` was stored since its stack was last
entered, and no core runs on that stack. -/
def resumable (s : State n) (t : Nat) : Bool :=
  s.stored t && (List.finRange n).all fun c => s.onStack c != t

/-- `RoundRobinQueues::append`: into the queue of the thread's priority. -/
def append (s : State n) (t : Nat) : State n :=
  { s with ready := Function.update s.ready (s.prio t) (s.ready (s.prio t) ++ [t]) }

/-- `RoundRobinQueues::pop_best`: the first thread of the highest non-empty queue. -/
def popBest (ready : Priority → List Nat) : Option (Nat × (Priority → List Nat)) :=
  [Priority.realtime, .high, .normal, .low, .idle].findSome? fun p =>
    match ready p with
    | [] => none
    | t :: rest => some (t, Function.update ready p rest)

/-- `RoundRobinQueues::should_switch`. -/
def shouldSwitch (current candidate : Priority) (reason : RescheduleReason) : Bool :=
  if current.toNat < candidate.toNat then true
  else if candidate.toNat < current.toNat then false
  else candidate != .idle && reason.shouldRotate

/-- `Scheduler::next_action`: `should_exit.swap(false)`, else `sleep_intent.swap(None)`. -/
def nextAction (s : State n) (c : Fin n) : ThreadAction × State n :=
  if s.shouldExit c then (.exit, { s with shouldExit := Function.update s.shouldExit c false })
  else
    match s.sleepIntent c with
    | some reason => (.sleep reason, { s with sleepIntent := Function.update s.sleepIntent c none })
    | none => (.ready, s)

/-- `Scheduler::old_stack_pointer`. -/
def oldStackPointer (action : ThreadAction) (old : Nat) : Option Nat :=
  match action with
  | .exit => none
  | _ => some old

/-- The swap of `current` with the candidate, `set_state(Running)`, and the load of the
candidate's `last_stack_ptr`. -/
def swapCurrent (s : State n) (c : Fin n) (candidate : Nat) : State n :=
  { s with current := Function.update s.current c candidate,
           tstate := Function.update s.tstate candidate .running,
           log := s.log ++ [.stackLoaded c candidate (resumable s candidate)] }

/-- `Scheduler::reschedule` up to `stage_old_thread`: with no candidate, or when the old
thread stays ready and `should_switch` says no (the candidate goes back), it returns
`None`; otherwise the context switch to the candidate is set up. -/
def pick (s : State n) (c : Fin n) (r : RescheduleReason) (restore : Bool) : State n × SchedPc :=
  match popBest s.ready with
  | none => (s, .leave restore none)
  | some (candidate, ready) =>
    let action := (nextAction { s with ready := ready } c).1
    let s₁ := (nextAction { s with ready := ready } c).2
    let thread := s₁.current c
    if action = .ready ∧ shouldSwitch (s₁.prio thread) (s₁.prio candidate) r = false then
      (append s₁ candidate, .leave restore none)
    else
      (swapCurrent s₁ c candidate,
        .stage restore action thread
          ⟨oldStackPointer action thread, s₁.lastStackPtr candidate, candidate⟩)

/-- `Scheduler::stage_old_thread`. -/
def stageOldThread (s : State n) (action : ThreadAction) (old : Nat) : State n :=
  match action with
  | .exit => { s with finished := s.finished ++ [old] }
  | .sleep reason =>
    { s with tstate := Function.update s.tstate old .sleeping,
             sleeping := s.sleeping ++ [(reason, old)] }
  | .ready => append { s with tstate := Function.update s.tstate old .ready } old

/-- `mov [rdi], rsp`: the pushes leave this stack's frames, with the return into the caller
of `perform`, at a fresh stack pointer, which goes into `old_stack`. -/
def saveStack (s : State n) (r : RescheduleReason) (oldStack : Option Nat) (rest : List Frame) :
    State n :=
  let sp := s.nextSp
  let s₁ := { s with
    stackMem := Function.update s.stackMem sp (.resume :: .sched r .done :: rest)
    nextSp := sp + 1 }
  match oldStack with
  | some old => { s₁ with lastStackPtr := Function.update s₁.lastStackPtr old sp,
                          stored := Function.update s₁.stored old true }
  | none => s₁

/-- `mov rsp, rsi`: the core goes on with the frames saved at the incoming stack pointer. -/
def loadStack (s : State n) (c : Fin n) (cs : ContextSwitch) : State n :=
  { s with frames := Function.update s.frames c (s.stackMem cs.newStack),
           onStack := Function.update s.onStack c cs.newThread,
           stored := Function.update s.stored cs.newThread false }

/-- One step of a `reschedule` frame of core `c`, with `rest` the frames below it. -/
def stepSched (s : State n) (c : Fin n) (r : RescheduleReason) (rest : List Frame) :
    SchedPc → State n
  | .start =>
    -- `SCHEDULER_SWITCH.load()`; `without_interrupts` reads `IF` and disables interrupts
    if s.switching then (s.setIf c false).setFrames c (.sched r (.pick (s.intEnabled c)) :: rest)
    else s.setFrames c (.sched r .done :: rest)
  | .pick restore => (pick s c r restore).1.setFrames c (.sched r (pick s c r restore).2 :: rest)
  | .stage restore action old cs =>
    ((stageOldThread s action old).setIf c false).setFrames c
      (.sched r (.leave restore (some cs)) :: rest)
  | .leave restore cso =>
    -- `int_enable()` at the end of `without_interrupts` if it found `IF` set
    let s₁ := if restore then s.setIf c true else s
    match cso with
    | none => s₁.setFrames c (.sched r .done :: rest)
    | some cs =>
      { s₁.setFrames c (.sched r (.switch cs) :: rest) with
        log := s₁.log ++ [.switchEntered c (s₁.intEnabled c)] }
  | .switch cs => loadStack (saveStack s r cs.oldStack rest) c cs
  | .done =>
    match r with
    | .explicitYield => s.setFrames c rest
    -- `iretq` restores the interrupted `IF`, which was set
    | .quantumExpired => (s.setIf c true).setFrames c rest

/-- The thread's code on core `c` calls `thread_yield`, with `above` the frames between. -/
def callYield (s : State n) (c : Fin n) (above : List Frame) : Option (State n) :=
  match s.frames c with
  | .code :: rest =>
    some (s.setFrames c (.sched .explicitYield .start :: (above ++ .code :: rest)))
  | _ => none

/-- A sleeping thread is woken: `enqueue_ready_thread`. -/
def wake (s : State n) (t : Nat) : Option (State n) :=
  if s.sleeping.any (·.2 == t) then
    some (append { s with sleeping := s.sleeping.filter (·.2 != t),
                          tstate := Function.update s.tstate t .ready } t)
  else none

/-- One step; `none` when the label cannot move.  `request_sleep` and `exit_current_thread`
set their intent inside `with_scheduler`, which leaves `IF` as it found it, before they call
`thread_yield`. -/
def step (s : State n) : Label n → Option (State n)
  | .yield c => callYield s c []
  | .sleep c reason =>
    (callYield s c []).map fun s₁ =>
      { s₁ with sleepIntent := Function.update s₁.sleepIntent c (some reason) }
  | .exit c =>
    (callYield s c [.exitTail]).map fun s₁ =>
      { s₁ with shouldExit := Function.update s₁.shouldExit c true }
  | .interrupt c =>
    if s.intEnabled c then
      some ((s.setIf c false).setFrames c (.sched .quantumExpired .start :: s.frames c))
    else none
  | .wake t => wake s t
  | .step c =>
    match s.frames c with
    | .sched r pc :: rest => some (stepSched s c r rest pc)
    | .resume :: rest => some ((s.setIf c true).setFrames c rest)
    | .exitTail :: rest => some ((s.setIf c true).setFrames c (.halt :: rest))
    -- thread code moves by its calls, and `hlt` only by an interrupt
    | _ => none

/-- After `scheduler::init`: every core runs the code of its `current` thread on that
thread's stack, every saved stack pointer holds the frame `Thread::new` prepares
(registers for `switch` to pop, then the entry point), ready threads have their pointer
stored, and no thread sleeps, has finished or is about to. -/
structure IsInit (s : State n) : Prop where
  frames : ∀ c, s.frames c = [.code]
  onStack : ∀ c, s.onStack c = s.current c
  stackMem : ∀ sp, s.stackMem sp = [.resume, .code]
  ready_stored : ∀ p, ∀ t ∈ s.ready p, s.stored t = true
  sleeping : s.sleeping = []
  finished : s.finished = []
  shouldExit : ∀ c, s.shouldExit c = false
  sleepIntent : ∀ c, s.sleepIntent c = none
  log : s.log = []

/-- The states some interleaving reaches after `scheduler::init`. -/
def Reach (s : State n) : Prop := Reachable (Det step) IsInit s

/-! ## §3 The Timer Path Keeps Interrupts Disabled -/

/-- The position of a timer handler frame. -/
def Frame.tickPc : Frame → Option SchedPc
  | .sched .quantumExpired pc => some pc
  | _ => none

/-- The flag `without_interrupts` recorded, where the position carries one. -/
def SchedPc.restoreFlag : SchedPc → Bool
  | .pick restore | .stage restore _ _ _ | .leave restore _ => restore
  | _ => false

/-- A frame below the top of a stack: a timer handler there has only `iretq` left. -/
def Frame.Settled (f : Frame) : Prop :=
  ∀ pc, f.tickPc = some pc → pc = .done

/-- The frame on top of a core: a timer handler short of `iretq` runs with interrupts
disabled, and `without_interrupts` found them disabled. -/
def Frame.TopOk (ifl : Bool) (f : Frame) : Prop :=
  ∀ pc, f.tickPc = some pc → pc ≠ .done → ifl = false ∧ pc.restoreFlag = false

/-- A core's frames and `IF`. -/
def CoreOk (ifl : Bool) : List Frame → Prop
  | [] => True
  | f :: rest => f.TopOk ifl ∧ ∀ g ∈ rest, g.Settled

/-- A saved stack, which `switch` loads with either `IF`. -/
def SavedOk (fs : List Frame) : Prop :=
  ∀ g ∈ fs, g.Settled

/-- The invariant of every reachable state. -/
structure Inv (s : State n) : Prop where
  core : ∀ c, CoreOk (s.intEnabled c) (s.frames c)
  saved : ∀ sp, SavedOk (s.stackMem sp)

/-- The three fields the invariant reads. -/
structure SameControl (s s' : State n) : Prop where
  frames : s'.frames = s.frames
  intEnabled : s'.intEnabled = s.intEnabled
  stackMem : s'.stackMem = s.stackMem

section Control

variable {s s' : State n} {c : Fin n}

theorem SameControl.trans {s'' : State n} (h₁ : SameControl s s') (h₂ : SameControl s' s'') :
    SameControl s s'' :=
  ⟨h₂.frames.trans h₁.frames, h₂.intEnabled.trans h₁.intEnabled,
    h₂.stackMem.trans h₁.stackMem⟩

theorem append_control (s : State n) (t : Nat) : SameControl s (append s t) :=
  ⟨rfl, rfl, rfl⟩

theorem nextAction_control (s : State n) (c : Fin n) : SameControl s (nextAction s c).2 := by
  unfold nextAction
  split
  · exact ⟨rfl, rfl, rfl⟩
  · split <;> exact ⟨rfl, rfl, rfl⟩

theorem pick_control (s : State n) (c : Fin n) (r : RescheduleReason) (restore : Bool) :
    SameControl s (pick s c r restore).1 := by
  unfold pick
  dsimp only
  split
  · exact ⟨rfl, rfl, rfl⟩
  · rename_i candidate ready _
    -- both branches start from `next_action` on the state with the candidate popped
    have h := (show SameControl s { s with ready := ready } from ⟨rfl, rfl, rfl⟩).trans
      (nextAction_control { s with ready := ready } c)
    split
    · exact h.trans (append_control _ _)
    · exact h.trans ⟨rfl, rfl, rfl⟩

/-- `pick` keeps the flag `without_interrupts` recorded and does not return. -/
theorem pick_pc (s : State n) (c : Fin n) (r : RescheduleReason) (restore : Bool) :
    (pick s c r restore).2.restoreFlag = restore ∧ (pick s c r restore).2 ≠ .done := by
  unfold pick
  dsimp only
  split
  · exact ⟨rfl, nofun⟩
  · split
    · exact ⟨rfl, nofun⟩
    · exact ⟨rfl, nofun⟩

theorem stageOldThread_control (s : State n) (action : ThreadAction) (old : Nat) :
    SameControl s (stageOldThread s action old) := by
  cases action <;> exact ⟨rfl, rfl, rfl⟩

theorem wake_control {t : Nat} (h : wake s t = some s') : SameControl s s' := by
  unfold wake at h
  split at h
  · cases h
    exact ⟨rfl, rfl, rfl⟩
  · cases h

/-- `saveStack` changes the stack memory at one pointer only. -/
theorem saveStack_stackMem (s : State n) (r : RescheduleReason) (oldStack : Option Nat)
    (rest : List Frame) :
    (saveStack s r oldStack rest).stackMem =
      Function.update s.stackMem s.nextSp (.resume :: .sched r .done :: rest) := by
  unfold saveStack
  cases oldStack <;> rfl

theorem saveStack_control_frames (s : State n) (r : RescheduleReason) (oldStack : Option Nat)
    (rest : List Frame) :
    (saveStack s r oldStack rest).frames = s.frames ∧
      (saveStack s r oldStack rest).intEnabled = s.intEnabled := by
  unfold saveStack
  cases oldStack <;> exact ⟨rfl, rfl⟩

end Control

section Invariant

variable {s s' : State n} {c : Fin n}

theorem Frame.Settled.topOk {f : Frame} (h : f.Settled) (ifl : Bool) : f.TopOk ifl :=
  fun pc hpc hne => absurd (h pc hpc) hne

/-- The top frame of a core with `IF` set is settled: an interrupt may push over it. -/
theorem Frame.TopOk.settled {f : Frame} (h : f.TopOk true) : f.Settled := by
  intro pc hpc
  by_contra hne
  exact absurd (h pc hpc hne).1 (by decide)

theorem coreOk_of_savedOk {fs : List Frame} (h : SavedOk fs) (ifl : Bool) : CoreOk ifl fs := by
  cases fs with
  | nil => trivial
  | cons f rest =>
    exact ⟨(h f (List.mem_cons_self ..)).topOk ifl, fun g hg => h g (List.mem_cons_of_mem f hg)⟩

/-- A core's frames after its top frame returns. -/
theorem coreOk_tail {f : Frame} {rest : List Frame} {ifl : Bool} (h : CoreOk ifl (f :: rest))
    (ifl' : Bool) : CoreOk ifl' rest :=
  coreOk_of_savedOk h.2 ifl'

/-- A non-handler frame may replace the top frame. -/
theorem coreOk_replace {f g : Frame} {rest : List Frame} {ifl : Bool} (h : CoreOk ifl (f :: rest))
    (hg : g.tickPc = none) (ifl' : Bool) : CoreOk ifl' (g :: rest) :=
  ⟨fun pc hpc => (by rw [hg] at hpc; cases hpc), h.2⟩

/-- A `reschedule` frame moves to `pc'`; on the timer path it must keep interrupts disabled. -/
theorem coreOk_sched {r : RescheduleReason} {pc pc' : SchedPc} {rest : List Frame} {ifl ifl' : Bool}
    (h : CoreOk ifl (.sched r pc :: rest))
    (h' : r = .quantumExpired → pc' ≠ .done → ifl' = false ∧ pc'.restoreFlag = false) :
    CoreOk ifl' (.sched r pc' :: rest) := by
  refine ⟨?_, h.2⟩
  intro pc₀ hpc hne
  cases r with
  | quantumExpired =>
    cases hpc
    exact h' rfl hne
  | explicitYield => cases hpc

/-- What the top timer handler frame says about `IF`. -/
theorem CoreOk.tick {pc : SchedPc} {rest : List Frame} {ifl : Bool}
    (h : CoreOk ifl (.sched .quantumExpired pc :: rest)) (hne : pc ≠ .done) :
    ifl = false ∧ pc.restoreFlag = false :=
  h.1 pc rfl hne

/-- A step that changes the frames and `IF` of core `c` only. -/
theorem Inv.of_local (hi : Inv s) (c : Fin n) {b : Bool} {fs : List Frame}
    (hif : s'.intEnabled = Function.update s.intEnabled c b)
    (hfr : s'.frames = Function.update s.frames c fs)
    (hmem : ∀ sp, SavedOk (s'.stackMem sp)) (hc : CoreOk b fs) : Inv s' where
  core d := by
    rw [hif, hfr]
    by_cases hd : d = c
    · subst hd
      simpa using hc
    · simpa [Function.update_of_ne hd] using hi.core d
  saved := hmem

theorem Inv.of_sameControl (hi : Inv s) (h : SameControl s s') : Inv s' where
  core d := by
    rw [h.frames, h.intEnabled]
    exact hi.core d
  saved sp := by
    rw [h.stackMem]
    exact hi.saved sp

/-- Core `c` gets new frames over a state the invariant reads as `s`. -/
theorem Inv.of_setFrames (hi : Inv s) {x : State n} (hx : SameControl s x) (c : Fin n)
    (fs : List Frame) (hc : CoreOk (s.intEnabled c) fs) : Inv (x.setFrames c fs) :=
  hi.of_local c (by simp [State.setFrames, hx.intEnabled]) (by simp [State.setFrames, hx.frames])
    (by simpa [State.setFrames, hx.stackMem] using hi.saved) hc

/-- Core `c` gets a new `IF` and new frames over a state the invariant reads as `s`. -/
theorem Inv.of_setIf_setFrames (hi : Inv s) {x : State n} (hx : SameControl s x) (c : Fin n)
    (b : Bool) (fs : List Frame) (hc : CoreOk b fs) : Inv ((x.setIf c b).setFrames c fs) :=
  hi.of_local c (by simp [State.setFrames, State.setIf, hx.intEnabled])
    (by simp [State.setFrames, State.setIf, hx.frames])
    (by simpa [State.setFrames, State.setIf, hx.stackMem] using hi.saved) hc

theorem Inv.of_init (h : IsInit s) : Inv s where
  core c := by
    rw [h.frames c]
    exact ⟨fun _ hpc => (by cases hpc), fun _ hg => (by cases hg)⟩
  saved sp := by
    rw [h.stackMem sp]
    intro g hg _ hpc
    simp only [List.mem_cons, List.not_mem_nil, or_false] at hg
    rcases hg with rfl | rfl <;> cases hpc

/-- `switch`: the saved stack is settled, and the core goes on with a saved stack. -/
theorem Inv.of_switch (hi : Inv s) {r : RescheduleReason} {cs : ContextSwitch} {rest : List Frame}
    (hc : s.frames c = .sched r (.switch cs) :: rest) :
    Inv (loadStack (saveStack s r cs.oldStack rest) c cs) := by
  have hsaved : SavedOk (.resume :: .sched r .done :: rest) := by
    have hrest := (hi.core c)
    rw [hc] at hrest
    intro g hg
    simp only [List.mem_cons] at hg
    rcases hg with rfl | rfl | hg
    · intro _ hpc
      cases hpc
    · intro _ hpc
      cases r
      · cases hpc
        rfl
      · cases hpc
    · exact hrest.2 g hg
  have hmem : ∀ sp, SavedOk ((saveStack s r cs.oldStack rest).stackMem sp) := by
    intro sp
    rw [saveStack_stackMem]
    by_cases hsp : sp = s.nextSp
    · subst hsp
      simpa using hsaved
    · simpa [Function.update_of_ne hsp] using hi.saved sp
  obtain ⟨hfr, hif⟩ := saveStack_control_frames s r cs.oldStack rest
  refine hi.of_local c ?_ ?_ hmem (coreOk_of_savedOk (hmem cs.newStack) (s.intEnabled c))
  · simp [loadStack, hif]
  · simp [loadStack, hfr]

theorem Inv.of_stepSched (hi : Inv s) {r : RescheduleReason} {pc : SchedPc} {rest : List Frame}
    (hc : s.frames c = .sched r pc :: rest) : Inv (stepSched s c r rest pc) := by
  have hcore := hi.core c
  rw [hc] at hcore
  have hsame : SameControl s s := ⟨rfl, rfl, rfl⟩
  cases pc with
  | start =>
    simp only [stepSched]
    split
    · -- on the timer path `IF` is already clear, so `without_interrupts` records `false`
      refine hi.of_setIf_setFrames hsame c false _ (coreOk_sched hcore ?_)
      rintro rfl -
      exact ⟨rfl, (hcore.tick nofun).1⟩
    · exact hi.of_setFrames hsame c _ (coreOk_sched hcore (fun _ h => absurd rfl h))
  | pick restore =>
    simp only [stepSched]
    obtain ⟨hflag, -⟩ := pick_pc s c r restore
    refine hi.of_setFrames (pick_control s c r restore) c _ (coreOk_sched hcore ?_)
    rintro rfl -
    have htick := hcore.tick nofun
    exact ⟨htick.1, hflag.trans htick.2⟩
  | stage restore action old cs =>
    simp only [stepSched]
    refine hi.of_setIf_setFrames (stageOldThread_control s action old) c false _
      (coreOk_sched hcore ?_)
    rintro rfl -
    exact ⟨rfl, (hcore.tick nofun).2⟩
  | leave restore cso =>
    -- on the timer path `restore` is false, so `IF` stays clear into `switch`
    have htick : r = .quantumExpired → s.intEnabled c = false ∧ restore = false := by
      rintro rfl
      exact hcore.tick nofun
    cases restore <;> cases cso <;> simp only [stepSched, Bool.false_eq_true, if_false, if_true]
    · exact hi.of_setFrames hsame c _ (coreOk_sched hcore (fun _ h => absurd rfl h))
    · exact (hi.of_setFrames hsame c _
        (coreOk_sched hcore (fun h _ => ⟨(htick h).1, rfl⟩))).of_sameControl ⟨rfl, rfl, rfl⟩
    · exact hi.of_setIf_setFrames hsame c true _ (coreOk_sched hcore (fun _ h => absurd rfl h))
    · exact (hi.of_setIf_setFrames hsame c true _
        (coreOk_sched hcore (fun h _ => absurd (htick h).2 (by decide)))).of_sameControl
          ⟨rfl, rfl, rfl⟩
  | switch cs => exact hi.of_switch hc
  | done =>
    cases r with
    | explicitYield => exact hi.of_setFrames hsame c rest (coreOk_tail hcore _)
    -- `iretq`
    | quantumExpired => exact hi.of_setIf_setFrames hsame c true rest (coreOk_tail hcore _)

theorem Inv.of_callYield (hi : Inv s) {above : List Frame} (habove : ∀ g ∈ above, g.Settled)
    (h : callYield s c above = some s') : Inv s' := by
  unfold callYield at h
  split at h
  · rename_i rest hc
    cases h
    refine hi.of_setFrames ⟨rfl, rfl, rfl⟩ c _ ⟨fun _ hpc => (by cases hpc), ?_⟩
    have hcore := hi.core c
    rw [hc] at hcore
    intro g hg
    simp only [List.mem_append, List.mem_cons] at hg
    rcases hg with hg | rfl | hg
    · exact habove g hg
    · intro _ hpc
      cases hpc
    · exact hcore.2 g hg
  · cases h

theorem Inv.of_step {a : Label n} (hi : Inv s) (h : step s a = some s') : Inv s' := by
  cases a with
  | yield c => exact hi.of_callYield (fun _ hg => by cases hg) h
  | sleep c reason =>
    simp only [step, Option.map_eq_some_iff] at h
    obtain ⟨s₁, h₁, rfl⟩ := h
    exact (hi.of_callYield (fun _ hg => by cases hg) h₁).of_sameControl ⟨rfl, rfl, rfl⟩
  | exit c =>
    simp only [step, Option.map_eq_some_iff] at h
    obtain ⟨s₁, h₁, rfl⟩ := h
    have hexit : ∀ g ∈ [Frame.exitTail], g.Settled := by
      intro g hg _ hpc
      simp only [List.mem_cons, List.not_mem_nil, or_false] at hg
      subst hg
      cases hpc
    exact (hi.of_callYield hexit h₁).of_sameControl ⟨rfl, rfl, rfl⟩
  | interrupt c =>
    simp only [step] at h
    split at h
    · rename_i hif
      cases h
      -- the interrupted top frame had `IF` set, so it is settled below the handler
      have hcore := hi.core c
      refine hi.of_setIf_setFrames ⟨rfl, rfl, rfl⟩ c false _
        ⟨fun _ hpc _ => (by cases hpc; exact ⟨rfl, rfl⟩), ?_⟩
      cases hfr : s.frames c with
      | nil => intro g hg; cases hg
      | cons f rest =>
        rw [hfr, hif] at hcore
        intro g hg
        rcases List.mem_cons.mp hg with rfl | hg
        · exact hcore.1.settled
        · exact hcore.2 g hg
    · cases h
  | wake t => exact hi.of_sameControl (wake_control h)
  | step c =>
    simp only [step] at h
    split at h <;> cases h
    · rename_i r pc rest hc
      exact hi.of_stepSched hc
    · rename_i rest hc
      have hcore := hi.core c
      rw [hc] at hcore
      exact hi.of_setIf_setFrames ⟨rfl, rfl, rfl⟩ c true rest (coreOk_tail hcore _)
    · rename_i rest hc
      have hcore := hi.core c
      rw [hc] at hcore
      exact hi.of_setIf_setFrames ⟨rfl, rfl, rfl⟩ c true _ (coreOk_replace hcore rfl _)

theorem Reach.inv (h : Reach s) : Inv s := by
  apply Reachable.invariant Inv _ _ h
  · intro s h₀
    exact Inv.of_init h₀
  · intro s a s' hi hstep
    exact hi.of_step hstep

/-- On the timer path `switch` is entered with interrupts disabled, as its contract asks. -/
theorem tick_switch_if_clear (h : Reach s) {cs : ContextSwitch} {rest : List Frame}
    (hc : s.frames c = .sched .quantumExpired (.switch cs) :: rest) : s.intEnabled c = false := by
  have hcore := h.inv.core c
  rw [hc] at hcore
  exact (hcore.tick nofun).1

end Invariant

/-! ## §4 Two Runs -/

/-- `n` cores, core `c` running thread `c` with interrupts enabled, and thread `n` ready, all
of `Normal` priority. -/
def boot (n : Nat) : State n where
  switching := true
  prio := fun _ => .normal
  tstate := fun t => if t < n then .running else .ready
  ready := fun p => if p = .normal then [n] else []
  sleeping := []
  finished := []
  lastStackPtr := fun t => t
  stackMem := fun _ => [.resume, .code]
  nextSp := n + 1
  current := fun c => c.val
  shouldExit := fun _ => false
  sleepIntent := fun _ => none
  intEnabled := fun _ => true
  frames := fun _ => [.code]
  onStack := fun c => c.val
  stored := fun t => decide (n ≤ t)
  log := []

theorem boot_isInit (n : Nat) : IsInit (boot n) where
  frames _ := rfl
  onStack _ := rfl
  stackMem _ := rfl
  ready_stored p t ht := by
    by_cases hp : p = .normal
    · simp only [boot, hp, if_true, List.mem_singleton] at ht
      simp [boot, ht]
    · simp [boot, hp] at ht
  sleeping := rfl
  finished := rfl
  shouldExit _ := rfl
  sleepIntent _ := rfl
  log := rfl

/-- Thread `0` yields to thread `1` with interrupts enabled, and a timer interrupt arrives
as it enters `switch`. -/
def yieldSchedule : List (Label 1) :=
  [.yield 0, .step 0, .step 0, .step 0, .step 0,
   .interrupt 0, .step 0, .step 0]

/-- A timer interrupt moves core `0` from thread `0` to thread `2`; before core `0` stores
thread `0`'s stack pointer, a timer interrupt on core `1` picks thread `0`. -/
def tickSchedule : List (Label 2) :=
  [.interrupt 0, .step 0, .step 0, .step 0, .step 0,
   .interrupt 1, .step 1, .step 1]

theorem context_switch_races :
    (exec step (boot 1) yieldSchedule).map State.log =
        some [.stackLoaded 0 1 true, .switchEntered 0 true, .stackLoaded 0 0 false] ∧
      (exec step (boot 2) tickSchedule).map State.log =
        some [.stackLoaded 0 2 true, .switchEntered 0 false, .stackLoaded 1 0 false] :=
  ⟨rfl, rfl⟩

end Beskar.Kernel.Scheduler
