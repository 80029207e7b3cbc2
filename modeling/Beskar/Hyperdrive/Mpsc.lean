import Mathlib
import Beskar.Lib.Transition

/-!
# The Intrusive MPSC Queue

Model of `MpscQueue` (`hyperdrive/src/queues/mpsc.rs`), an intrusive linked queue after
Vyukov's design.  Producers push at `head`: `enqueue_ptr` clears the node's link, swaps the
node into `head` and stores it into the link of the node it displaced.  A consumer is
admitted by a `compare_exchange` on `being_dequeued` and pops at `tail` in
`dequeue_impl`: it skips the queue's own `stub` node, and when it reaches a node without
successor it enqueues the stub behind it and waits for that node's link to be set.

Any number of threads call `enqueue` and `try_dequeue` (`dequeue` is `try_dequeue`
repeated while it returns `InUse`).  A thread's `Pc` says which atomic access it makes
next and `Label.step t` makes it, so that every interleaving of the accesses (sequentially
consistent) is a run of `step`.  Accesses to `tail`, which only the thread inside
`dequeue_impl` makes, are folded into the access before them, and so is the final
`being_dequeued.store(false)`.

Nodes are the stub and the elements handed to `enqueue`, each under its own number.  Three
ghost fields record the elements handed to `enqueue`, the enqueues that returned, and what
each `try_dequeue` returned.

## Main results

- `Inv`, `Reach.inv`: in every reachable state `being_dequeued` is set exactly while a
  thread is inside `dequeue_impl`, and no two threads are, which is the safety contract
  `dequeue_impl` states for its caller (`dequeue_impl_exclusive`).
- `mpsc_dequeue_returns_stub`: two schedules.  In the first, two producers are preempted
  between their swap and their link; the consumer then enqueues the stub twice, the second
  time while the stub is `head`, so that the stub links to itself and the fourth
  `try_dequeue` returns the stub to its caller.  In the second, a producer is preempted
  after its swap and `try_dequeue` returns `Empty` although a completed enqueue's element
  is in the queue.
-/

namespace Beskar.Hyperdrive.Mpsc

open Beskar.Lib

/-- A node of the intrusive list: the queue's `stub`, or an element handed to `enqueue`. -/
inductive Node where
  | stub
  | elem (id : Nat)
deriving DecidableEq, Repr

/-- Who runs `enqueue_ptr`: a producer's `enqueue`, or `dequeue_impl` re-enqueueing the
stub behind `tail_node`. -/
inductive Caller where
  | producer
  | consumer (tailNode : Node)
deriving DecidableEq, Repr

/-- Where a thread is in `enqueue` or `try_dequeue`. -/
inductive Pc where
  | idle
  /-- `enqueue_ptr`: `node.next.store(null)` comes next. -/
  | enqStore (node : Node) (caller : Caller)
  /-- `enqueue_ptr`: `head.swap(node)` comes next. -/
  | enqSwap (node : Node) (caller : Caller)
  /-- `enqueue_ptr`: `prev.next.store(node)` comes next. -/
  | enqLink (node prev : Node) (caller : Caller)
  /-- `dequeue_impl`: the first load of `tail_node.next` comes next. -/
  | deqLoad (tailNode : Node)
  /-- `dequeue_impl`: the stub was skipped, the load of the new `tail_node.next` comes next. -/
  | deqReload (tailNode : Node)
  /-- `dequeue_impl`: the loop waiting for `tail_node.next` after the stub was enqueued. -/
  | deqSpin (tailNode : Node)
deriving DecidableEq, Repr

/-- `DequeueResult`, with the captured node. -/
inductive DequeueResult where
  | element (node : Node)
  | empty
  | inUse
deriving DecidableEq, Repr

/-- Shared memory (`head`, `tail`, every node's link, `being_dequeued`), each thread's
position, and the ghost histories. -/
structure State where
  head : Node
  tail : Node
  next : Node → Option Node
  beingDequeued : Bool
  pc : Nat → Pc
  handed : List Node
  completed : List Node
  results : List DequeueResult

/-- A thread calling `enqueue` with a new element, or `try_dequeue`, or making its next
atomic access. -/
inductive Label where
  | enqueue (t id : Nat)
  | tryDequeue (t : Nat)
  | step (t : Nat)
deriving DecidableEq, Repr

/-! ## §1 Steps -/

/-- `MpscQueue::new(stub)`: `head` and `tail` at the stub, no thread inside. -/
def new : State where
  head := .stub
  tail := .stub
  next := fun _ => none
  beingDequeued := false
  pc := fun _ => .idle
  handed := []
  completed := []
  results := []

def setPc (s : State) (t : Nat) (p : Pc) : State :=
  { s with pc := Function.update s.pc t p }

/-- `node.next.store(null)`. -/
def storeNull (s : State) (t : Nat) (node : Node) (c : Caller) : State :=
  { s with next := Function.update s.next node none,
           pc := Function.update s.pc t (.enqSwap node c) }

/-- `let prev = self.head.swap(node)`. -/
def swapHead (s : State) (t : Nat) (node : Node) (c : Caller) : State :=
  { s with head := node, pc := Function.update s.pc t (.enqLink node s.head c) }

/-- `prev.next.store(node)`, the end of `enqueue_ptr`: a producer's `enqueue` returns, and
`dequeue_impl` goes on to wait for the successor of its `tail_node`. -/
def link (s : State) (t : Nat) (node prev : Node) : Caller → State
  | .producer =>
    { s with next := Function.update s.next prev (some node), pc := Function.update s.pc t .idle,
             completed := s.completed ++ [node] }
  | .consumer tailNode =>
    { s with next := Function.update s.next prev (some node),
             pc := Function.update s.pc t (.deqSpin tailNode) }

/-- `try_dequeue` returns `r`: `being_dequeued.store(false)`. -/
def finish (s : State) (t : Nat) (r : DequeueResult) : State :=
  { s with beingDequeued := false, pc := Function.update s.pc t .idle,
           results := s.results ++ [r] }

/-- `self.tail.store(next)` and `Some(T::capture(tail_node))`. -/
def capture (s : State) (t : Nat) (tailNode next : Node) : State :=
  finish { s with tail := next } t (.element tailNode)

/-- The load of `tail_node.next` and `if !next.is_null()`: pop `tail_node`, or else
`self.enqueue_ptr(self.stub)`. -/
def cycle (s : State) (t : Nat) (tailNode : Node) : State :=
  match s.next tailNode with
  | some next => capture s t tailNode next
  | none => setPc s t (.enqStore .stub (.consumer tailNode))

/-- The first load of `tail_node.next`; at the stub, `NonNull::new(next)?` returns `Empty`
on null and the stub is skipped otherwise. -/
def loadNext (s : State) (t : Nat) (tailNode : Node) : State :=
  if tailNode = .stub then
    match s.next .stub with
    | none => finish s t .empty
    | some next => { setPc s t (.deqReload next) with tail := next }
  else cycle s t tailNode

/-- One turn of the loop on `next_link.next.load()`. -/
def spin (s : State) (t : Nat) (tailNode : Node) : State :=
  match s.next tailNode with
  | some next => capture s t tailNode next
  | none => s

/-- One atomic step; `none` when the label cannot move (a thread not at the start of an
operation, or an element handed to `enqueue` twice). -/
def step (s : State) : Label → Option State
  | .enqueue t id =>
    if s.pc t = .idle ∧ Node.elem id ∉ s.handed then
      some { setPc s t (.enqStore (.elem id) .producer) with handed := s.handed ++ [.elem id] }
    else none
  | .tryDequeue t =>
    if s.pc t = .idle then
      -- `being_dequeued.compare_exchange(false, true)`, then `tail.load()`
      if s.beingDequeued then some { s with results := s.results ++ [.inUse] }
      else some { setPc s t (.deqLoad s.tail) with beingDequeued := true }
    else none
  | .step t =>
    match s.pc t with
    | .idle => none
    | .enqStore node c => some (storeNull s t node c)
    | .enqSwap node c => some (swapHead s t node c)
    | .enqLink node prev c => some (link s t node prev c)
    | .deqLoad tailNode => some (loadNext s t tailNode)
    | .deqReload tailNode => some (cycle s t tailNode)
    | .deqSpin tailNode => some (spin s t tailNode)

/-- The states some interleaving reaches from `MpscQueue::new`. -/
def Reach (s : State) : Prop := Reachable (Det step) (· = new) s

/-! ## §2 One Consumer at a Time -/

/-- The thread is inside `dequeue_impl`: past a successful `compare_exchange` and before
`being_dequeued.store(false)`. -/
def Caller.isConsumer : Caller → Bool
  | .producer => false
  | .consumer _ => true

def Pc.consuming : Pc → Bool
  | .idle => false
  | .enqStore _ c | .enqSwap _ c | .enqLink _ _ c => c.isConsumer
  | .deqLoad _ | .deqReload _ | .deqSpin _ => true

/-- A step that changes neither the flag nor which threads are inside `dequeue_impl`. -/
structure Keeps (s s' : State) : Prop where
  flag_eq : s'.beingDequeued = s.beingDequeued
  consuming_eq : ∀ u, (s'.pc u).consuming = (s.pc u).consuming

/-- A successful `compare_exchange`: thread `t` enters `dequeue_impl`. -/
structure Enters (s s' : State) (t : Nat) : Prop where
  flag : s.beingDequeued = false
  flag' : s'.beingDequeued = true
  consuming' : (s'.pc t).consuming = true
  others : ∀ u, u ≠ t → s'.pc u = s.pc u

/-- `being_dequeued.store(false)`: thread `t` leaves `dequeue_impl`. -/
structure Leaves (s s' : State) (t : Nat) : Prop where
  consuming : (s.pc t).consuming = true
  flag' : s'.beingDequeued = false
  pc_eq : s'.pc = Function.update s.pc t .idle

/-- The invariant of every reachable state. -/
structure Inv (s : State) : Prop where
  flag : s.beingDequeued = true ↔ ∃ t, (s.pc t).consuming = true
  exclusive : ∀ t u, (s.pc t).consuming = true → (s.pc u).consuming = true → t = u

section Consumers

variable {s s' : State} {t : Nat}

theorem Keeps.refl (s : State) : Keeps s s :=
  ⟨rfl, fun _ => rfl⟩

/-- Moving a thread to a point on the same side of `dequeue_impl`, flag untouched, keeps
both. -/
theorem keeps_update {p : Pc} (hflag : s'.beingDequeued = s.beingDequeued)
    (hpc : s'.pc = Function.update s.pc t p) (h : p.consuming = (s.pc t).consuming) :
    Keeps s s' where
  flag_eq := hflag
  consuming_eq u := by
    rw [hpc]
    by_cases hu : u = t
    · subst hu
      rw [Function.update_self, h]
    · rw [Function.update_of_ne hu]

theorem leaves_finish (h : (s.pc t).consuming = true) (r : DequeueResult) :
    Leaves s (finish s t r) t :=
  ⟨h, rfl, rfl⟩

theorem leaves_capture (h : (s.pc t).consuming = true) (tailNode next : Node) :
    Leaves s (capture s t tailNode next) t :=
  ⟨h, rfl, rfl⟩

theorem cycle_cases (h : (s.pc t).consuming = true) (tailNode : Node) :
    Keeps s (cycle s t tailNode) ∨ Leaves s (cycle s t tailNode) t := by
  unfold cycle
  split
  · exact .inr (leaves_capture h _ _)
  · -- the stub is enqueued by the consumer, which stays inside `dequeue_impl`
    exact .inl (keeps_update rfl rfl (by rw [h]; rfl))

theorem loadNext_cases (h : (s.pc t).consuming = true) (tailNode : Node) :
    Keeps s (loadNext s t tailNode) ∨ Leaves s (loadNext s t tailNode) t := by
  unfold loadNext
  split
  · split
    · exact .inr (leaves_finish h _)
    · exact .inl (keeps_update rfl rfl (by rw [h]; rfl))
  · exact cycle_cases h tailNode

theorem spin_cases (h : (s.pc t).consuming = true) (tailNode : Node) :
    Keeps s (spin s t tailNode) ∨ Leaves s (spin s t tailNode) t := by
  unfold spin
  split
  · exact .inr (leaves_capture h _ _)
  · exact .inl (Keeps.refl s)

theorem link_keeps (t : Nat) (node prev : Node) (c : Caller) (hpc : s.pc t = .enqLink node prev c) :
    Keeps s (link s t node prev c) := by
  cases c with
  | producer => exact keeps_update rfl rfl (by rw [hpc]; rfl)
  | consumer tailNode => exact keeps_update rfl rfl (by rw [hpc]; rfl)

/-- What a step does to `being_dequeued` and to the threads inside `dequeue_impl`: nothing,
or one thread enters, or the thread inside leaves. -/
theorem step_cases {a : Label} (h : step s a = some s') :
    Keeps s s' ∨ (∃ t, Enters s s' t) ∨ (∃ t, Leaves s s' t) := by
  cases a with
  | enqueue t id =>
    simp only [step] at h
    split at h
    · rename_i hidle
      cases h
      exact .inl (keeps_update rfl rfl (by rw [hidle.1]; rfl))
    · cases h
  | tryDequeue t =>
    simp only [step] at h
    split at h
    · split at h
      · cases h
        exact .inl ⟨rfl, fun _ => rfl⟩
      · rename_i hflag
        cases h
        refine .inr (.inl ⟨t, Bool.not_eq_true _ ▸ hflag, rfl, ?_, ?_⟩)
        · simp [setPc, Pc.consuming]
        · intro u hu
          exact Function.update_of_ne hu _ _
    · cases h
  | step t =>
    simp only [step] at h
    split at h <;> cases h
    · rename_i node c hpc
      exact .inl (keeps_update rfl rfl (by rw [hpc]; rfl))
    · rename_i node c hpc
      exact .inl (keeps_update rfl rfl (by rw [hpc]; rfl))
    · rename_i node prev c hpc
      exact .inl (link_keeps t node prev c hpc)
    all_goals rename_i tailNode hpc
    all_goals have hc : (s.pc t).consuming = true := by rw [hpc]; rfl
    · exact (loadNext_cases hc tailNode).imp id (fun hl => .inr ⟨t, hl⟩)
    · exact (cycle_cases hc tailNode).imp id (fun hl => .inr ⟨t, hl⟩)
    · exact (spin_cases hc tailNode).imp id (fun hl => .inr ⟨t, hl⟩)

theorem Inv.of_init : Inv new where
  flag := by simp [new, Pc.consuming]
  exclusive t u ht := by simp [new, Pc.consuming] at ht

theorem Inv.of_keeps (hi : Inv s) (h : Keeps s s') : Inv s' where
  flag := by
    simp only [h.flag_eq, h.consuming_eq]
    exact hi.flag
  exclusive t u := by
    rw [h.consuming_eq t, h.consuming_eq u]
    exact hi.exclusive t u

theorem Inv.of_enters (hi : Inv s) (h : Enters s s' t) : Inv s' := by
  -- before the `compare_exchange` nobody is inside, so afterwards only `t` is
  have hnone : ∀ u, (s.pc u).consuming = false := by
    intro u
    by_contra hu
    have := hi.flag.mpr ⟨u, Bool.not_eq_false _ ▸ hu⟩
    rw [h.flag] at this
    cases this
  have honly : ∀ u, (s'.pc u).consuming = true → u = t := by
    intro u hu
    by_contra hne
    rw [h.others u hne, hnone u] at hu
    cases hu
  constructor
  · exact ⟨fun _ => ⟨t, h.consuming'⟩, fun _ => h.flag'⟩
  · intro u v hu hv
    rw [honly u hu, honly v hv]

theorem Inv.of_leaves (hi : Inv s) (h : Leaves s s' t) : Inv s' := by
  -- `t` was the only thread inside, and it is now idle
  have hnone : ∀ u, (s'.pc u).consuming = false := by
    intro u
    rw [h.pc_eq]
    by_cases hu : u = t
    · subst hu
      simp [Pc.consuming]
    · rw [Function.update_of_ne hu]
      by_contra hc
      exact hu (hi.exclusive u t (Bool.not_eq_false _ ▸ hc) h.consuming)
  constructor
  · simp [h.flag', hnone]
  · intro u v hu
    rw [hnone u] at hu
    cases hu

theorem Inv.of_step {a : Label} (hi : Inv s) (h : step s a = some s') : Inv s' := by
  rcases step_cases h with hk | ⟨u, he⟩ | ⟨u, hl⟩
  · exact hi.of_keeps hk
  · exact hi.of_enters he
  · exact hi.of_leaves hl

theorem Reach.inv (h : Reach s) : Inv s := by
  apply Reachable.invariant Inv _ _ h
  · rintro _ rfl
    exact Inv.of_init
  · intro s a s' hi hstep
    exact hi.of_step hstep

/-- The `# Safety` contract of `dequeue_impl` holds at every call: no two threads are inside
it at once. -/
theorem dequeue_impl_exclusive (h : Reach s) {u : Nat} (ht : (s.pc t).consuming = true)
    (hu : (s.pc u).consuming = true) : t = u :=
  h.inv.exclusive t u ht hu

end Consumers

/-! ## §3 Two Schedules -/

/-- Threads `0`, `1`, `2` enqueue elements `0`, `1`, `2`; thread `3` dequeues. -/
def stubSchedule : List Label :=
  [.enqueue 0 0, .step 0, .step 0, .step 0,
   -- elements 1 and 2 are swapped into `head`, their links not yet stored
   .enqueue 1 1, .step 1, .step 1,
   .enqueue 2 2, .step 2, .step 2,
   -- skip the stub, find element 0 without successor, enqueue the stub behind element 2
   .tryDequeue 3, .step 3, .step 3, .step 3, .step 3, .step 3,
   .step 1, .step 3,
   -- element 1 has no successor yet and the stub is `head`: the stub links to itself
   .tryDequeue 3, .step 3, .step 3, .step 3, .step 3,
   .step 2, .step 3,
   .tryDequeue 3, .step 3,
   .tryDequeue 3, .step 3, .step 3]

/-- Thread `0` is preempted between its swap and its link; thread `1` enqueues behind it;
thread `2` dequeues. -/
def emptySchedule : List Label :=
  [.enqueue 0 0, .step 0, .step 0,
   .enqueue 1 1, .step 1, .step 1, .step 1,
   .tryDequeue 2, .step 2]

/-- Thread `2` inside `dequeue_impl`, with thread `0` preempted in `enqueue`: thread `2` is
the only thread inside it. -/
theorem dequeue_impl_exclusive_midDequeue :
    ∃ s, exec step new (emptySchedule.take 8) = some s ∧ (s.pc 2).consuming = true ∧
      ∀ u, (s.pc u).consuming = true → u = 2 := by
  have hrun : exec step new (emptySchedule.take 8) = some _ := rfl
  have hreach : Reach _ := ⟨_, _, rfl, exec_run hrun⟩
  exact ⟨_, hrun, rfl, fun u hu => dequeue_impl_exclusive hreach hu rfl⟩

theorem mpsc_dequeue_returns_stub :
    (exec step new stubSchedule).map State.results =
        some [.element (.elem 0), .element (.elem 1), .element (.elem 2), .element .stub] ∧
      (exec step new emptySchedule).map (fun s => (s.completed, s.results)) =
        some ([.elem 1], [.empty]) :=
  ⟨rfl, rfl⟩

end Beskar.Hyperdrive.Mpsc
