import Beskar.Lib.Transition

/-!
# The MCS Lock

Model of `McsLock::lock`, `McsLock::try_lock` and `McsGuard::drop`
(`hyperdrive/src/locks/mcs.rs`) as a transition system: any number of threads, each with
its own `McsNode`, take the atomic steps of these three functions in any interleaving
(sequentially consistent memory).  A node is named by its thread.

Each atomic access to shared memory is one step:

- `lock`: initialise the node (`locked = true`, `next = null`); swap it into `tail`;
  if there was a predecessor, link behind it (`prev.next = node`) and spin while
  `locked`;
- `try_lock`: initialise `next = null`; `compare_exchange(null, node)` on `tail`;
- `drop`: read `next`; if null, `compare_exchange(node, null)` on `tail` and stop on
  success, else spin until `next` is set; finally clear the successor's `locked`.

The state carries three ghost fields: the `queue` of nodes swapped into `tail` and not
yet released, in swap order, and the histories `enq` (every swap into `tail`, including
a successful `try_lock`) and `acq` (every guard returned).

## Main results

- `Inv`: the invariant of every reachable state (`Reach.inv`), built on `QueueOk`, which
  says what each queued node's `pc`, `locked` and `next` are, given its predecessor.
- `mcs_lock_safe`: at most one guard is live; `try_lock` succeeds only when no node is
  queued; guards are handed out in the order of the swaps; and a waiter whose
  predecessors have all released can leave its spin loop, while a waiter behind another
  node still sees `locked`.
- `Inv.queue_progress`: whenever a node is queued, some queued thread can step.
-/

namespace Beskar.Hyperdrive.Mcs

open Beskar.Lib

/-- Where a thread is in `lock`, `try_lock` or `McsGuard::drop`. -/
inductive Pc (τ : Type) where
  | idle
  /-- `lock`: the node is initialised, the swap on `tail` comes next. -/
  | lockSwap
  /-- `lock`: swapped in behind `prev`, the link `prev.set_next(node)` comes next. -/
  | lockLink (prev : τ)
  /-- `lock`: spinning on `node.is_locked()`. -/
  | lockWait
  /-- `try_lock`: the node is initialised, the compare-exchange comes next. -/
  | tryCas
  /-- A guard is held. -/
  | held
  /-- `drop`: `next` was null, the compare-exchange of `tail` back to null comes next. -/
  | dropCas
  /-- `drop`: the compare-exchange failed; spinning until `next` is set. -/
  | dropSpin
  /-- `drop`: clearing the successor's `locked` comes next. -/
  | dropUnlock
deriving DecidableEq, Repr

namespace Pc

variable {τ : Type}

/-- A guard is live: from the return of `lock` or `try_lock` to the end of `drop`. -/
def critical : Pc τ → Bool
  | held | dropCas | dropSpin | dropUnlock => true
  | _ => false

/-- The thread's node has been swapped into `tail` and not yet released. -/
def queued : Pc τ → Bool
  | lockLink _ | lockWait | held | dropCas | dropSpin | dropUnlock => true
  | _ => false

theorem queued_of_critical {p : Pc τ} (h : p.critical = true) : p.queued = true := by
  cases p <;> simp_all [critical, queued]

end Pc

/-- Shared memory (`tail` and every node's `locked` and `next`), each thread's position,
and the ghost queue and histories. -/
structure State (τ : Type) where
  tail : Option τ
  locked : τ → Bool
  next : τ → Option τ
  pc : τ → Pc τ
  queue : List τ
  enq : List τ
  acq : List τ

/-- Who moves: a thread starting `lock` or `try_lock`, or a thread taking its next step. -/
inductive Label (τ : Type) where
  | lock (t : τ)
  | tryLock (t : τ)
  | step (t : τ)
deriving DecidableEq, Repr

variable {τ : Type}

/-! ## §1 Steps -/

section Steps

variable [DecidableEq τ]

def setPc (s : State τ) (t : τ) (p : Pc τ) : State τ :=
  { s with pc := Function.update s.pc t p }

/-- `lock`, before the swap: `node.locked.store(true)`, `node.set_next(null)`. -/
def initLock (s : State τ) (t : τ) : State τ :=
  { s with locked := Function.update s.locked t true, next := Function.update s.next t none,
           pc := Function.update s.pc t .lockSwap }

/-- `try_lock`, before the compare-exchange: `node.set_next(null)`. -/
def initTry (s : State τ) (t : τ) : State τ :=
  { s with next := Function.update s.next t none, pc := Function.update s.pc t .tryCas }

/-- `let prev = self.tail.swap(node)`: the node joins the queue, and with no predecessor
the guard is returned at once.  A successful `try_lock` is this swap finding null. -/
def swapTail (s : State τ) (t : τ) : State τ :=
  match s.tail with
  | none => { s with tail := some t, queue := s.queue ++ [t], enq := s.enq ++ [t],
                     pc := Function.update s.pc t .held, acq := s.acq ++ [t] }
  | some p => { s with tail := some t, queue := s.queue ++ [t], enq := s.enq ++ [t],
                       pc := Function.update s.pc t (.lockLink p) }

/-- `prev.set_next(node)`. -/
def linkPrev (s : State τ) (t p : τ) : State τ :=
  { s with next := Function.update s.next p (some t), pc := Function.update s.pc t .lockWait }

/-- Leaving `while node.is_locked()`: `lock` returns the guard. -/
def acquire (s : State τ) (t : τ) : State τ :=
  { s with pc := Function.update s.pc t .held, acq := s.acq ++ [t] }

/-- A successful `tail.compare_exchange(node, null)` in `drop`. -/
def release (s : State τ) (t : τ) : State τ :=
  { s with tail := none, pc := Function.update s.pc t .idle, queue := s.queue.tail }

/-- `node.next().unwrap().locked.store(false)`: the lock passes to the successor `u`. -/
def handOver (s : State τ) (t u : τ) : State τ :=
  { s with locked := Function.update s.locked u false, pc := Function.update s.pc t .idle,
           queue := s.queue.tail }

/-- One atomic step; `none` when the label cannot move (a spinning thread, or a thread
not at the start of `lock`/`try_lock`). -/
def step (s : State τ) : Label τ → Option (State τ)
  | .lock t => if s.pc t = .idle then some (initLock s t) else none
  | .tryLock t => if s.pc t = .idle then some (initTry s t) else none
  | .step t =>
    match s.pc t with
    | .idle => none
    | .lockSwap => some (swapTail s t)
    | .lockLink p => some (linkPrev s t p)
    -- `while node.is_locked() { R::relax() }`
    | .lockWait => if s.locked t then none else some (acquire s t)
    | .tryCas => some (if s.tail = none then swapTail s t else setPc s t .idle)
    -- `if node.next().is_none()`
    | .held => some (setPc s t (if s.next t = none then .dropCas else .dropUnlock))
    | .dropCas => some (if s.tail = some t then release s t else setPc s t .dropSpin)
    -- `while node.next().is_none() { spin_loop() }`
    | .dropSpin => if s.next t = none then none else some (setPc s t .dropUnlock)
    | .dropUnlock => (s.next t).map (handOver s t)

/-- A fresh lock (`tail` null) with every thread outside it. -/
def IsInit (s : State τ) : Prop :=
  s.tail = none ∧ (∀ t, s.pc t = .idle) ∧ s.queue = [] ∧ s.enq = [] ∧ s.acq = []

/-- The states some interleaving reaches from a fresh lock. -/
def Reach (s : State τ) : Prop := Reachable (Det step) IsInit s

end Steps

/-! ## §2 The Queue Invariant -/

/-- What the queue asks of node `q` queued right behind `prev` (`none`: `q` is first).
The first node holds a guard, or has been handed the lock and is about to see it; a node
behind `p` is still `locked`, and either not yet linked (`p.next` null) or linked. -/
def NodeOk (s : State τ) : Option τ → τ → Prop
  | none, q => (s.pc q).critical = true ∨ (s.pc q = .lockWait ∧ s.locked q = false)
  | some p, q => s.locked q = true ∧
      ((s.pc q = .lockLink p ∧ s.next p = none) ∨ (s.pc q = .lockWait ∧ s.next p = some q))

/-- Every node of `l` is `NodeOk` behind its predecessor, and the last one has no `next`. -/
def QueueOk (s : State τ) (prev : Option τ) : List τ → Prop
  | [] => ∀ p ∈ prev, s.next p = none
  | q :: rest => NodeOk s prev q ∧ QueueOk s (some q) rest

/-- A thread outside the queue is idle or has initialised its node for the next call. -/
def Outside (s : State τ) (x : τ) : Prop :=
  s.pc x = .idle ∨ (s.pc x = .lockSwap ∧ s.locked x = true ∧ s.next x = none) ∨
    (s.pc x = .tryCas ∧ s.next x = none)

/-- The invariant of every reachable state. -/
structure Inv (s : State τ) : Prop where
  nodup : s.queue.Nodup
  tail_eq : s.tail = s.queue.getLast?
  queue_ok : QueueOk s none s.queue
  outside : ∀ x, x ∉ s.queue → Outside s x
  unlock_next : ∀ x, s.pc x = .dropUnlock → s.next x ≠ none
  spin_not_last : ∀ x, s.pc x = .dropSpin → s.tail ≠ some x
  /-- Guards are handed out in swap order: every swap is an acquisition or still waits. -/
  fifo : s.enq = s.acq ++ s.queue.filter (fun x => !(s.pc x).critical)

/-- A fresh lock satisfies the invariant. -/
theorem Inv.of_init {s : State τ} (h0 : IsInit s) : Inv s := by
  obtain ⟨htail, hpc, hq, henq, hacq⟩ := h0
  refine ⟨by simp [hq], by simp [htail, hq], ?_, fun x _ => .inl (hpc x),
    fun x hx => by simp [hpc x] at hx, fun x hx => by simp [hpc x] at hx, by simp [hq, henq, hacq]⟩
  rw [hq]
  exact fun p hp => absurd hp (by simp)

/-! ## §3 Lemmas on the Queue -/

section Queue

variable {s s' : State τ}

theorem NodeOk.queued {prev : Option τ} {q : τ} (h : NodeOk s prev q) :
    (s.pc q).queued = true := by
  cases prev with
  | none =>
    rcases h with hc | ⟨hw, -⟩
    · revert hc
      cases s.pc q <;> simp [Pc.critical, Pc.queued]
    · rw [hw]; rfl
  | some p =>
    rcases h with ⟨-, ⟨hl, -⟩ | ⟨hw, -⟩⟩
    · rw [hl]; rfl
    · rw [hw]; rfl

/-- `NodeOk` reads the node's `pc` and `locked` and its predecessor's `next` only. -/
theorem NodeOk.frame {prev : Option τ} {q : τ} (hpc : s'.pc q = s.pc q)
    (hlocked : s'.locked q = s.locked q) (hnext : ∀ p ∈ prev, s'.next p = s.next p)
    (h : NodeOk s prev q) : NodeOk s' prev q := by
  cases prev with
  | none => simpa only [NodeOk, hpc, hlocked] using h
  | some p => simpa only [NodeOk, hpc, hlocked, hnext p rfl] using h

theorem QueueOk.queued {prev : Option τ} {l : List τ} (h : QueueOk s prev l) :
    ∀ x ∈ l, (s.pc x).queued = true := by
  induction l generalizing prev with
  | nil => intro x hx; cases hx
  | cons q rest ih =>
    intro x hx
    rcases List.mem_cons.mp hx with rfl | hx
    · exact h.1.queued
    · exact ih h.2 x hx

/-- Behind the first node, every node is still `locked` and holds no guard. -/
theorem QueueOk.behind {p : τ} {l : List τ} (h : QueueOk s (some p) l) :
    ∀ x ∈ l, s.locked x = true ∧ (s.pc x).critical = false := by
  induction l generalizing p with
  | nil => intro x hx; cases hx
  | cons q rest ih =>
    intro x hx
    rcases List.mem_cons.mp hx with rfl | hx
    · obtain ⟨hl, ⟨hpc, -⟩ | ⟨hpc, -⟩⟩ := h.1 <;> exact ⟨hl, by rw [hpc]; rfl⟩
    · exact ih h.2 x hx

/-- **Frame rule**: the queue's conditions survive any change outside its nodes' `pc` and
`locked` and the `next` of its nodes and of `prev`. -/
theorem QueueOk.frame {prev : Option τ} {l : List τ}
    (hfield : ∀ x ∈ l, s'.pc x = s.pc x ∧ s'.locked x = s.locked x)
    (hnext : ∀ x, (x ∈ prev ∨ x ∈ l) → s'.next x = s.next x) (h : QueueOk s prev l) :
    QueueOk s' prev l := by
  induction l generalizing prev with
  | nil =>
    intro p hp
    rw [hnext p (.inl hp)]
    exact h p hp
  | cons q rest ih =>
    obtain ⟨hpc, hlocked⟩ := hfield q List.mem_cons_self
    refine ⟨h.1.frame hpc hlocked (fun p hp => hnext p (.inl hp)),
      ih (fun x hx => hfield x (List.mem_cons_of_mem _ hx)) (fun x hx => ?_) h.2⟩
    rcases hx with hx | hx
    · rw [Option.mem_def, Option.some.injEq] at hx
      exact hnext x (.inr (hx ▸ List.mem_cons_self))
    · exact hnext x (.inr (List.mem_cons_of_mem _ hx))

/-- The last node of the queue has no `next`. -/
theorem QueueOk.next_last {prev : Option τ} {l : List τ} {x : τ} (h : QueueOk s prev l)
    (hx : (prev.toList ++ l).getLast? = some x) : s.next x = none := by
  induction l generalizing prev with
  | nil =>
    cases prev with
    | none => cases hx
    | some p =>
      simp only [Option.toList_some, List.append_nil, List.getLast?_singleton,
        Option.some.injEq] at hx
      exact hx ▸ h p rfl
  | cons q rest ih =>
    rw [List.getLast?_append_cons] at hx
    exact ih h.2 hx

/-- A node joins the queue at its end. -/
theorem QueueOk.snoc {prev : Option τ} {l : List τ} {x t : τ} (h : QueueOk s prev l)
    (hx : (prev.toList ++ l).getLast? = some x) (hnode : NodeOk s (some x) t)
    (ht : s.next t = none) : QueueOk s prev (l ++ [t]) := by
  induction l generalizing prev with
  | nil =>
    cases prev with
    | none => cases hx
    | some p =>
      simp only [Option.toList_some, List.append_nil, List.getLast?_singleton,
        Option.some.injEq] at hx
      subst hx
      exact ⟨hnode, fun p hp => by rw [Option.mem_def, Option.some.injEq] at hp; exact hp ▸ ht⟩
  | cons q rest ih =>
    rw [List.getLast?_append_cons] at hx
    exact ⟨h.1, ih h.2 hx⟩

/-- A node waiting to link behind `p` is queued right behind `p`. -/
theorem QueueOk.pred_mem {prev : Option τ} {l : List τ} {t p : τ} (h : QueueOk s prev l)
    (ht : t ∈ l) (hpc : s.pc t = .lockLink p) : p ∈ prev ∨ p ∈ l := by
  induction l generalizing prev with
  | nil => cases ht
  | cons q rest ih =>
    rcases List.mem_cons.mp ht with rfl | ht
    · -- the node itself: only a node behind `p` can be linking to `p`
      cases prev with
      | none => rcases h.1 with hc | ⟨hw, -⟩ <;> simp [hpc, Pc.critical] at *
      | some p' =>
        rcases h.1 with ⟨-, ⟨hl, -⟩ | ⟨hw, -⟩⟩
        · rw [hpc, Pc.lockLink.injEq] at hl
          exact .inl (hl ▸ rfl)
        · rw [hpc] at hw
          cases hw
    · rcases ih h.2 ht with hp | hp
      · rw [Option.mem_def, Option.some.injEq] at hp
        exact .inr (hp ▸ List.mem_cons_self)
      · exact .inr (List.mem_cons_of_mem _ hp)

/-- **The link step keeps the queue**: `prev.set_next(node)` turns the one linking node
into a linked one and touches no other node's condition. -/
theorem QueueOk.link [DecidableEq τ] {prev : Option τ} {l : List τ} {t p : τ}
    (hnd : (prev.toList ++ l).Nodup) (h : QueueOk s prev l) (ht : t ∈ l)
    (hpc : s.pc t = .lockLink p) : QueueOk (linkPrev s t p) prev l := by
  induction l generalizing prev with
  | nil => cases ht
  | cons q rest ih =>
    have hq : q ∉ rest := (List.nodup_cons.mp (hnd.sublist (List.sublist_append_right _ _))).1
    by_cases hqt : q = t
    · subst hqt
      -- `q` is the node linking behind `p`, so `p` is its predecessor
      obtain ⟨p', rfl⟩ : ∃ p', prev = some p' := by
        cases prev with
        | none => rcases h.1 with hc | ⟨hw, -⟩ <;> simp [hpc, Pc.critical] at *
        | some p' => exact ⟨p', rfl⟩
      obtain ⟨hlk, ⟨hl, hnext⟩ | ⟨hw, -⟩⟩ := h.1
      · rw [hpc, Pc.lockLink.injEq] at hl
        subst hl
        have hp : p ∉ q :: rest := (List.nodup_cons.mp hnd).1
        refine ⟨⟨hlk, .inr ⟨Function.update_self _ _ _, Function.update_self _ _ _⟩⟩, ?_⟩
        refine h.2.frame (fun x hx => ⟨Function.update_of_ne ?_ _ _, rfl⟩) (fun x hx => ?_)
        · rintro rfl; exact hq hx
        · refine Function.update_of_ne ?_ _ _
          rintro rfl
          rcases hx with hx | hx
          · rw [Option.mem_def, Option.some.injEq] at hx
            exact hp (hx ▸ List.mem_cons_self)
          · exact hp (List.mem_cons_of_mem _ hx)
      · rw [hpc] at hw
        cases hw
    · have ht' : t ∈ rest := (List.mem_cons.mp ht).resolve_left (Ne.symm hqt)
      -- `p` is queued after `prev`, so `prev.next` is not the field that changes
      have hp : p ∈ q :: rest := by
        rcases h.2.pred_mem ht' hpc with hp | hp
        · rw [Option.mem_def, Option.some.injEq] at hp
          exact hp ▸ List.mem_cons_self
        · exact List.mem_cons_of_mem _ hp
      refine ⟨h.1.frame (Function.update_of_ne hqt _ _) rfl (fun p' hp' => ?_), ?_⟩
      · refine Function.update_of_ne ?_ _ _
        rintro rfl
        rw [Option.mem_def] at hp'
        subst hp'
        exact (List.nodup_cons.mp hnd).1 hp
      · exact ih (hnd.sublist (List.sublist_append_right _ _)) h.2 ht'

end Queue

/-! ## §4 The Invariant Is Inductive -/

section Invariant

variable [DecidableEq τ] {s : State τ} {t : τ}

/-- Queued nodes are exactly the threads between the swap and the release. -/
theorem Inv.mem_queue_iff (h : Inv s) (x : τ) : x ∈ s.queue ↔ (s.pc x).queued = true := by
  refine ⟨h.queue_ok.queued x, fun hq => ?_⟩
  by_contra hx
  rcases h.outside x hx with hpc | ⟨hpc, -⟩ | ⟨hpc, -⟩ <;> rw [hpc] at hq <;> cases hq

/-- A thread holding a guard owns the first node of the queue. -/
theorem Inv.head_of_critical (h : Inv s) (hc : (s.pc t).critical = true) :
    ∃ rest, s.queue = t :: rest := by
  have hmem := (h.mem_queue_iff t).mpr (Pc.queued_of_critical hc)
  obtain ⟨q, rest, hq⟩ := List.exists_cons_of_ne_nil (List.ne_nil_of_mem hmem)
  have hok := h.queue_ok
  rw [hq] at hok hmem
  rcases List.mem_cons.mp hmem with rfl | hrest
  · exact ⟨rest, hq⟩
  · have hcrit := (hok.2.behind t hrest).2
    rw [hc] at hcrit
    cases hcrit

/-- A step of a thread outside the queue that leaves it outside. -/
theorem Inv.of_outside_step {s' : State τ} (h : Inv s) (ht : t ∉ s.queue)
    (htail : s'.tail = s.tail) (hq : s'.queue = s.queue) (henq : s'.enq = s.enq)
    (hacq : s'.acq = s.acq) (hpc : ∀ x, x ≠ t → s'.pc x = s.pc x)
    (hlocked : ∀ x, x ≠ t → s'.locked x = s.locked x)
    (hnext : ∀ x, x ≠ t → s'.next x = s.next x) (hout : Outside s' t) : Inv s' where
  nodup := hq ▸ h.nodup
  tail_eq := by rw [htail, hq]; exact h.tail_eq
  queue_ok := by
    rw [hq]
    refine h.queue_ok.frame (fun x hx => ?_) (fun x hx => ?_)
    · have hxt : x ≠ t := fun e => ht (e ▸ hx)
      exact ⟨hpc x hxt, hlocked x hxt⟩
    · refine hnext x fun e => ht ?_
      subst e
      rcases hx with hx | hx
      · exact absurd hx (by simp)
      · exact hx
  outside := by
    intro x hx
    rw [hq] at hx
    by_cases hxt : x = t
    · exact hxt ▸ hout
    · have hold := h.outside x hx
      unfold Outside at hold ⊢
      rw [hpc x hxt, hlocked x hxt, hnext x hxt]
      exact hold
  unlock_next := by
    intro x hx
    by_cases hxt : x = t
    · subst hxt
      rcases hout with h1 | ⟨h1, -⟩ | ⟨h1, -⟩ <;> rw [h1] at hx <;> cases hx
    · rw [hnext x hxt]
      exact h.unlock_next x (by rw [← hpc x hxt]; exact hx)
  spin_not_last := by
    intro x hx
    by_cases hxt : x = t
    · subst hxt
      rcases hout with h1 | ⟨h1, -⟩ | ⟨h1, -⟩ <;> rw [h1] at hx <;> cases hx
    · rw [htail]
      exact h.spin_not_last x (by rw [← hpc x hxt]; exact hx)
  fifo := by
    rw [henq, hacq, hq, h.fifo]
    congr 1
    exact List.filter_congr fun x hx => by rw [hpc x fun e => ht (e ▸ hx)]

/-- A step of the thread holding the first node that keeps it holding a guard. -/
theorem Inv.setPc_head (h : Inv s) {p : Pc τ} (hc : (s.pc t).critical = true)
    (hp : p.critical = true) (hunlock : p = .dropUnlock → s.next t ≠ none)
    (hspin : p = .dropSpin → s.tail ≠ some t) : Inv (setPc s t p) := by
  obtain ⟨rest, hq⟩ := h.head_of_critical hc
  have hnd := h.nodup
  rw [hq] at hnd
  have hok := h.queue_ok
  rw [hq] at hok
  have hpc : ∀ x, x ≠ t → (setPc s t p).pc x = s.pc x := fun x hx => Function.update_of_ne hx _ _
  refine ⟨h.nodup, h.tail_eq, ?_, fun x hx => ?_, fun x hx => ?_, fun x hx => ?_, ?_⟩
  · -- the head's new position holds a guard; the nodes behind it are untouched
    show QueueOk (setPc s t p) none s.queue
    rw [hq]
    refine ⟨.inl (by simp only [setPc, Function.update_self]; exact hp), ?_⟩
    refine hok.2.frame (fun x hx => ⟨hpc x ?_, rfl⟩) (fun x _ => rfl)
    rintro rfl
    exact (List.nodup_cons.mp hnd).1 hx
  · have hxt : x ≠ t := by rintro rfl; exact hx (hq ▸ List.mem_cons_self)
    have hold := h.outside x hx
    unfold Outside at hold ⊢
    rw [hpc x hxt]
    exact hold
  · by_cases hxt : x = t
    · subst hxt
      exact hunlock (by simpa [setPc] using hx)
    · exact h.unlock_next x (by rw [← hpc x hxt]; exact hx)
  · by_cases hxt : x = t
    · subst hxt
      exact hspin (by simpa [setPc] using hx)
    · exact h.spin_not_last x (by rw [← hpc x hxt]; exact hx)
  · show s.enq = s.acq ++ s.queue.filter (fun x => !((setPc s t p).pc x).critical)
    rw [h.fifo]
    congr 1
    refine List.filter_congr fun x _ => ?_
    by_cases hxt : x = t
    · subst hxt
      simp only [setPc, Function.update_self, hp, hc]
    · rw [hpc x hxt]

/-- `let prev = self.tail.swap(node)` on an empty queue. -/
theorem Inv.swapTail_none (h : Inv s) (ht : t ∉ s.queue) (hnext : s.next t = none)
    (htail : s.tail = none) : Inv (swapTail s t) := by
  have hq : s.queue = [] := List.getLast?_eq_none_iff.mp (h.tail_eq ▸ htail)
  have henq : s.enq = s.acq := by simpa [hq] using h.fifo
  have hpc : ∀ x, x ≠ t → Function.update s.pc t .held x = s.pc x :=
    fun x hx => Function.update_of_ne hx _ _
  simp only [swapTail, htail]
  refine ⟨by simp [hq], by simp [hq], ?_, fun x hx => ?_, fun x hx => ?_, fun x hx => ?_, ?_⟩
  · rw [hq]
    exact ⟨.inl (by simp only [Function.update_self]; rfl),
      fun p hp => by rw [Option.mem_def, Option.some.injEq] at hp; exact hp ▸ hnext⟩
  · have hxt : x ≠ t := by rintro rfl; simp at hx
    have hold := h.outside x (by simp [hq])
    unfold Outside at hold ⊢
    dsimp only
    rw [hpc x hxt]
    exact hold
  · have hxt : x ≠ t := by rintro rfl; simp at hx
    exact h.unlock_next x (by rw [← hpc x hxt]; exact hx)
  · simp only [ne_eq, Option.some.injEq]
    rintro rfl
    simp at hx
  · simp [hq, henq, Pc.critical]

/-- `let prev = self.tail.swap(node)` behind the last node `p`. -/
theorem Inv.swapTail_some {p : τ} (h : Inv s) (ht : t ∉ s.queue) (hlocked : s.locked t = true)
    (hnext : s.next t = none) (htail : s.tail = some p) : Inv (swapTail s t) := by
  have hlast : s.queue.getLast? = some p := h.tail_eq ▸ htail
  have hpq : p ≠ t := by rintro rfl; exact ht (List.mem_of_getLast? hlast)
  have hpc : ∀ x, x ≠ t → Function.update s.pc t (.lockLink p) x = s.pc x :=
    fun x hx => Function.update_of_ne hx _ _
  simp only [swapTail, htail]
  refine ⟨?_, by simp, ?_, fun x hx => ?_, fun x hx => ?_, fun x hx => ?_, ?_⟩
  · exact List.nodup_append.mpr ⟨h.nodup, by simp, fun a ha b hb => by
      rw [List.mem_singleton] at hb
      rintro rfl
      exact ht (hb ▸ ha)⟩
  · -- the new node links behind the old last one, whose `next` is still null
    refine QueueOk.snoc (x := p) ?_ (by simpa using hlast) ⟨hlocked, .inl ⟨?_, ?_⟩⟩ hnext
    · refine h.queue_ok.frame (fun x hx => ⟨hpc x ?_, rfl⟩) (fun x _ => rfl)
      rintro rfl
      exact ht hx
    · simp only [Function.update_self]
    · exact h.queue_ok.next_last (by simpa using hlast)
  · have hxt : x ≠ t := by rintro rfl; simp at hx
    have hold := h.outside x (fun hm => hx (List.mem_append_left _ hm))
    unfold Outside at hold ⊢
    dsimp only
    rw [hpc x hxt]
    exact hold
  · have hxt : x ≠ t := by rintro rfl; simp at hx
    exact h.unlock_next x (by rw [← hpc x hxt]; exact hx)
  · simp only [ne_eq, Option.some.injEq]
    rintro rfl
    simp at hx
  · -- the new node waits: it joins the pending part of the history
    show s.enq ++ [t] =
      s.acq ++ (s.queue ++ [t]).filter (fun x => !(Function.update s.pc t (.lockLink p) x).critical)
    rw [List.filter_append, h.fifo, List.append_assoc]
    congr 2
    · exact List.filter_congr fun x hx => by rw [hpc x fun e => ht (e ▸ hx)]
    · simp [Pc.critical]

/-- `prev.set_next(node)`. -/
theorem Inv.of_linkPrev {p : τ} (h : Inv s) (hpc : s.pc t = .lockLink p) : Inv (linkPrev s t p) := by
  have ht : t ∈ s.queue := (h.mem_queue_iff t).mpr (by rw [hpc]; rfl)
  have hp : p ∈ s.queue := (h.queue_ok.pred_mem ht hpc).resolve_left (by simp)
  have hpc' : ∀ x, x ≠ t → (linkPrev s t p).pc x = s.pc x :=
    fun x hx => Function.update_of_ne hx _ _
  have hlink := h.queue_ok.link (by simpa using h.nodup) ht hpc
  refine ⟨h.nodup, h.tail_eq, hlink, fun x hx => ?_, fun x hx => ?_, fun x hx => ?_, ?_⟩
  · -- outside the queue nothing changes
    have hxt : x ≠ t := by rintro rfl; exact hx ht
    have hxp : x ≠ p := by rintro rfl; exact hx hp
    have hold := h.outside x hx
    unfold Outside at hold ⊢
    rw [hpc' x hxt, show (linkPrev s t p).next x = s.next x from Function.update_of_ne hxp _ _]
    exact hold
  · have hxt : x ≠ t := by rintro rfl; simp [linkPrev] at hx
    by_cases hxp : x = p
    · subst hxp
      simp [linkPrev]
    · rw [show (linkPrev s t p).next x = s.next x from Function.update_of_ne hxp _ _]
      exact h.unlock_next x (by rw [← hpc' x hxt]; exact hx)
  · have hxt : x ≠ t := by rintro rfl; simp [linkPrev] at hx
    exact h.spin_not_last x (by rw [← hpc' x hxt]; exact hx)
  · show s.enq = s.acq ++ s.queue.filter (fun x => !((linkPrev s t p).pc x).critical)
    rw [h.fifo]
    congr 1
    refine List.filter_congr fun x _ => ?_
    by_cases hxt : x = t
    · subst hxt
      simp [linkPrev, hpc, Pc.critical]
    · rw [hpc' x hxt]

/-- Leaving `while node.is_locked()`: only the first node can see `locked` cleared. -/
theorem Inv.of_acquire (h : Inv s) (hpc : s.pc t = .lockWait) (hl : s.locked t = false) :
    Inv (acquire s t) := by
  have ht : t ∈ s.queue := (h.mem_queue_iff t).mpr (by rw [hpc]; rfl)
  obtain ⟨q, rest, hq⟩ := List.exists_cons_of_ne_nil (List.ne_nil_of_mem ht)
  have hok := h.queue_ok
  have hnd := h.nodup
  rw [hq] at hok hnd ht
  -- a node behind another is still `locked`, so `t` is the first node
  obtain rfl : q = t := by
    rcases List.mem_cons.mp ht with rfl | hrest
    · rfl
    · have := (hok.2.behind t hrest).1
      rw [hl] at this
      cases this
  have hpc' : ∀ x, x ≠ q → (acquire s q).pc x = s.pc x :=
    fun x hx => Function.update_of_ne hx _ _
  refine ⟨h.nodup, h.tail_eq, ?_, fun x hx => ?_, fun x hx => ?_, fun x hx => ?_, ?_⟩
  · show QueueOk (acquire s q) none s.queue
    rw [hq]
    refine ⟨.inl (by simp [acquire, Pc.critical]), ?_⟩
    refine hok.2.frame (fun x hx => ⟨hpc' x ?_, rfl⟩) (fun x _ => rfl)
    rintro rfl
    exact (List.nodup_cons.mp hnd).1 hx
  · have hxq : x ≠ q := by rintro rfl; exact hx (hq ▸ List.mem_cons_self)
    have hold := h.outside x hx
    unfold Outside at hold ⊢
    rw [hpc' x hxq]
    exact hold
  · have hxq : x ≠ q := by rintro rfl; simp [acquire] at hx
    exact h.unlock_next x (by rw [← hpc' x hxq]; exact hx)
  · have hxq : x ≠ q := by rintro rfl; simp [acquire] at hx
    exact h.spin_not_last x (by rw [← hpc' x hxq]; exact hx)
  · -- the first pending swap becomes an acquisition
    show s.enq = (s.acq ++ [q]) ++ s.queue.filter (fun x => !((acquire s q).pc x).critical)
    have hold : (q :: rest).filter (fun x => !(s.pc x).critical) =
        q :: rest.filter (fun x => !(s.pc x).critical) :=
      List.filter_cons_of_pos (by simp [hpc, Pc.critical])
    have hnew : (q :: rest).filter (fun x => !((acquire s q).pc x).critical) =
        rest.filter (fun x => !(s.pc x).critical) := by
      rw [List.filter_cons_of_neg (by simp [acquire, Pc.critical])]
      refine List.filter_congr fun x hx => ?_
      rw [hpc' x fun e => (List.nodup_cons.mp hnd).1 (e ▸ hx)]
    rw [h.fifo, hq, hold, hnew, List.append_assoc]
    rfl

/-- A successful `tail.compare_exchange(node, null)`: the queue held this node alone. -/
theorem Inv.of_release (h : Inv s) (hpc : s.pc t = .dropCas) (htail : s.tail = some t) :
    Inv (release s t) := by
  obtain ⟨rest, hq⟩ := h.head_of_critical (by rw [hpc]; rfl)
  have hnd := h.nodup
  rw [hq] at hnd
  -- the last node is `t`, which occurs once, so the queue is `[t]`
  have hrest : rest = [] := by
    cases rest with
    | nil => rfl
    | cons r rest =>
      have hlast : (r :: rest).getLast? = some t := by
        rw [← List.getLast?_cons_cons, ← hq, ← h.tail_eq, htail]
      exact absurd (List.mem_of_getLast? hlast) (List.nodup_cons.mp hnd).1
  subst hrest
  have hpc' : ∀ x, x ≠ t → (release s t).pc x = s.pc x :=
    fun x hx => Function.update_of_ne hx _ _
  refine ⟨by simp [release, hq], by simp [release, hq], ?_, fun x hx => ?_, fun x hx => ?_,
    fun x hx => ?_, ?_⟩
  · show QueueOk (release s t) none s.queue.tail
    rw [hq]
    exact fun p hp => absurd hp (by simp)
  · by_cases hxt : x = t
    · subst hxt
      exact .inl (by simp [release])
    · have hold := h.outside x (by rw [hq]; simpa using hxt)
      unfold Outside at hold ⊢
      rw [hpc' x hxt]
      exact hold
  · have hxt : x ≠ t := by rintro rfl; simp [release] at hx
    exact h.unlock_next x (by rw [← hpc' x hxt]; exact hx)
  · simp [release]
  · show s.enq = s.acq ++ s.queue.tail.filter (fun x => !((release s t).pc x).critical)
    rw [h.fifo, hq]
    simp [hpc, Pc.critical]

/-- `node.next().unwrap().locked.store(false)`: the successor becomes the first node. -/
theorem Inv.of_handOver {u : τ} (h : Inv s) (hpc : s.pc t = .dropUnlock)
    (hnext : s.next t = some u) : Inv (handOver s t u) := by
  obtain ⟨rest, hq⟩ := h.head_of_critical (by rw [hpc]; rfl)
  have hok := h.queue_ok
  have hnd := h.nodup
  rw [hq] at hok hnd
  -- `t` has a successor, the node its `next` names, which is linked and waiting
  cases rest with
  | nil => exact absurd (hok.2 t rfl) (by rw [hnext]; simp)
  | cons q rest =>
  obtain ⟨-, ⟨-, hnull⟩ | ⟨hw, hlink⟩⟩ := hok.2.1
  · rw [hnext] at hnull
    cases hnull
  rw [hnext, Option.some.injEq] at hlink
  subst u
  have htq : t ∉ q :: rest := (List.nodup_cons.mp hnd).1
  have hq' : q ∉ rest := (List.nodup_cons.mp (List.nodup_cons.mp hnd).2).1
  have hpc' : ∀ x, x ≠ t → (handOver s t q).pc x = s.pc x :=
    fun x hx => Function.update_of_ne hx _ _
  have hlk' : ∀ x, x ≠ q → (handOver s t q).locked x = s.locked x :=
    fun x hx => Function.update_of_ne hx _ _
  refine ⟨by simpa [handOver, hq] using (List.nodup_cons.mp hnd).2, ?_, ?_,
    fun x hx => ?_, fun x hx => ?_, fun x hx => ?_, ?_⟩
  · show s.tail = s.queue.tail.getLast?
    rw [h.tail_eq, hq, List.tail_cons, List.getLast?_cons_cons]
  · show QueueOk (handOver s t q) none s.queue.tail
    rw [hq, List.tail_cons]
    refine ⟨.inr ⟨by rw [hpc' q fun e => htq (e ▸ List.mem_cons_self)]; exact hw, by
      simp [handOver]⟩, ?_⟩
    refine hok.2.2.frame (fun x hx => ⟨hpc' x ?_, hlk' x ?_⟩) (fun x _ => rfl)
    · rintro rfl; exact htq (List.mem_cons_of_mem _ hx)
    · rintro rfl; exact hq' hx
  · by_cases hxt : x = t
    · subst hxt
      exact .inl (by simp [handOver])
    · have hxq : x ≠ q := by rintro rfl; simp [handOver, hq] at hx
      have hold := h.outside x (by
        rw [hq]
        simp only [List.mem_cons, not_or]
        exact ⟨hxt, by simpa [handOver, hq] using hx⟩)
      unfold Outside at hold ⊢
      rw [hpc' x hxt, hlk' x hxq]
      exact hold
  · have hxt : x ≠ t := by rintro rfl; simp [handOver] at hx
    exact h.unlock_next x (by rw [← hpc' x hxt]; exact hx)
  · have hxt : x ≠ t := by rintro rfl; simp [handOver] at hx
    exact h.spin_not_last x (by rw [← hpc' x hxt]; exact hx)
  · show s.enq = s.acq ++ s.queue.tail.filter (fun x => !((handOver s t q).pc x).critical)
    rw [h.fifo, hq, List.tail_cons, List.filter_cons, hpc]
    simp only [Pc.critical, Bool.not_true, Bool.false_eq_true, if_false]
    congr 1
    exact List.filter_congr fun x hx => by rw [hpc' x fun e => htq (e ▸ hx)]

theorem Inv.not_mem (h : Inv s) (hq : (s.pc t).queued = false) : t ∉ s.queue := by
  intro hm
  rw [(h.mem_queue_iff t).mp hm] at hq
  cases hq

/-- **Every step keeps the invariant**: one case per position of the moving thread. -/
theorem Inv.of_step (h : Inv s) {a : Label τ} {s' : State τ} (hs : step s a = some s') :
    Inv s' := by
  cases a with
  | lock t =>
    simp only [step] at hs
    split at hs
    · rename_i hpc
      cases hs
      exact h.of_outside_step (h.not_mem (by rw [hpc]; rfl)) rfl rfl rfl rfl
        (fun x hx => Function.update_of_ne hx _ _) (fun x hx => Function.update_of_ne hx _ _)
        (fun x hx => Function.update_of_ne hx _ _) (by simp [Outside, initLock])
    · cases hs
  | tryLock t =>
    simp only [step] at hs
    split at hs
    · rename_i hpc
      cases hs
      exact h.of_outside_step (h.not_mem (by rw [hpc]; rfl)) rfl rfl rfl rfl
        (fun x hx => Function.update_of_ne hx _ _) (fun _ _ => rfl)
        (fun x hx => Function.update_of_ne hx _ _) (by simp [Outside, initTry])
    · cases hs
  | step t =>
    simp only [step] at hs
    split at hs
    · cases hs
    · -- the swap of `lock`
      rename_i hpc
      cases hs
      have ht := h.not_mem (by rw [hpc]; rfl)
      obtain ⟨-, hlk, hnx⟩ : s.pc t = .lockSwap ∧ s.locked t = true ∧ s.next t = none := by
        rcases h.outside t ht with h1 | h1 | ⟨h1, -⟩ <;> simp_all
      cases htail : s.tail with
      | none => exact h.swapTail_none ht hnx htail
      | some p => exact h.swapTail_some ht hlk hnx htail
    · rename_i p hpc
      cases hs
      exact h.of_linkPrev hpc
    · rename_i hpc
      split at hs
      · cases hs
      · rename_i hl
        cases hs
        exact h.of_acquire hpc (by simpa using hl)
    · -- the compare-exchange of `try_lock`
      rename_i hpc
      cases hs
      have ht := h.not_mem (by rw [hpc]; rfl)
      have hnx : s.next t = none := by
        rcases h.outside t ht with h1 | ⟨h1, -⟩ | ⟨-, h1⟩ <;> simp_all
      split
      · exact h.swapTail_none ht hnx ‹_›
      · exact h.of_outside_step ht rfl rfl rfl rfl (fun x hx => Function.update_of_ne hx _ _)
          (fun _ _ => rfl) (fun _ _ => rfl) (.inl (by simp [setPc]))
    · -- `drop` reads `next`
      rename_i hpc
      cases hs
      split
      · exact h.setPc_head (by rw [hpc]; rfl) rfl (fun e => by cases e) (fun e => by cases e)
      · exact h.setPc_head (by rw [hpc]; rfl) rfl (fun _ => ‹_›) (fun e => by cases e)
    · rename_i hpc
      cases hs
      split
      · exact h.of_release hpc ‹_›
      · exact h.setPc_head (by rw [hpc]; rfl) rfl (fun e => by cases e) (fun _ => ‹_›)
    · rename_i hpc
      split at hs
      · cases hs
      · cases hs
        exact h.setPc_head (by rw [hpc]; rfl) rfl (fun _ => ‹_›) (fun e => by cases e)
    · rename_i hpc
      cases hnx : s.next t with
      | none =>
        rw [hnx] at hs
        cases hs
      | some u =>
        rw [hnx] at hs
        cases hs
        exact h.of_handOver hpc hnx

/-- The invariant holds in every state that an interleaving reaches. -/
theorem Reach.inv (h : Reach s) : Inv s :=
  Reachable.invariant Inv (fun _ h0 => Inv.of_init h0) (fun _ _ _ hs hst => hs.of_step hst) h

end Invariant

/-! ## §5 What the Lock Guarantees -/

section Guarantees

variable [DecidableEq τ] {s : State τ} {t : τ}

/-- Two threads holding guards are the same thread. -/
theorem Inv.mutual_exclusion (h : Inv s) {u : τ} (ht : (s.pc t).critical = true)
    (hu : (s.pc u).critical = true) : t = u := by
  obtain ⟨r, hr⟩ := h.head_of_critical ht
  obtain ⟨r', hr'⟩ := h.head_of_critical hu
  exact (List.cons.inj (hr.symm.trans hr')).1

/-- The compare-exchange of `try_lock` succeeds only on an empty queue. -/
theorem Inv.tryLock_empty (h : Inv s) {s' : State τ} (hpc : s.pc t = .tryCas)
    (hs : step s (.step t) = some s') (hheld : s'.pc t = .held) :
    s.tail = none ∧ s.queue = [] := by
  simp only [step, hpc, Option.some.injEq] at hs
  subst hs
  by_cases htail : s.tail = none
  · exact ⟨htail, List.getLast?_eq_none_iff.mp (h.tail_eq ▸ htail)⟩
  · rw [if_neg htail] at hheld
    simp [setPc] at hheld

/-- A waiter at the front of the queue leaves its spin loop with the guard, and is the
next in the order of acquisitions; one behind another node still sees `locked`. -/
theorem Inv.waiter (h : Inv s) (hpc : s.pc t = .lockWait) :
    (s.queue.head? = some t →
      ∃ s', step s (.step t) = some s' ∧ s'.pc t = .held ∧ s'.acq = s.acq ++ [t]) ∧
      (s.queue.head? ≠ some t → s.locked t = true) := by
  have ht := (h.mem_queue_iff t).mpr (by rw [hpc]; rfl)
  obtain ⟨q, rest, hq⟩ := List.exists_cons_of_ne_nil (List.ne_nil_of_mem ht)
  have hok := h.queue_ok
  rw [hq] at hok ht
  constructor
  · intro hhead
    rw [hq, List.head?_cons, Option.some.injEq] at hhead
    subst hhead
    -- the first node in `lockWait` has been handed the lock
    rcases hok.1 with hc | ⟨-, hl⟩
    · rw [hpc] at hc
      cases hc
    · exact ⟨acquire s q, by simp [step, hpc, hl], by simp [acquire], rfl⟩
  · intro hhead
    rcases List.mem_cons.mp ht with rfl | hrest
    · exact absurd (by rw [hq]; rfl) hhead
    · exact (hok.2.behind t hrest).1

/-- **Deadlock freedom**: whenever a node is queued, some queued thread can step; a
releasing thread waits only for a successor that can link. -/
theorem Inv.queue_progress (h : Inv s) (hne : s.queue ≠ []) :
    ∃ t ∈ s.queue, ∃ s', step s (.step t) = some s' := by
  obtain ⟨q, rest, hq⟩ := List.exists_cons_of_ne_nil hne
  have hq0 : q ∈ s.queue := hq ▸ List.mem_cons_self
  have hok := h.queue_ok
  rw [hq] at hok
  rcases hok.1 with hc | ⟨hw, hl⟩
  · cases hpc : s.pc q with
    | held =>
      exact ⟨q, hq0, setPc s q (if s.next q = none then .dropCas else .dropUnlock),
        by simp [step, hpc]⟩
    | dropCas =>
      exact ⟨q, hq0, if s.tail = some q then release s q else setPc s q .dropSpin,
        by simp [step, hpc]⟩
    | dropUnlock =>
      obtain ⟨u, hu⟩ := Option.ne_none_iff_exists'.mp (h.unlock_next q hpc)
      exact ⟨q, hq0, handOver s q u, by simp [step, hpc, hu]⟩
    | dropSpin =>
      by_cases hnx : s.next q = none
      · -- the node behind `q` has swapped in and not linked yet: it can link
        cases rest with
        | nil => exact absurd (by rw [h.tail_eq, hq]; rfl) (h.spin_not_last q hpc)
        | cons r rest =>
          obtain ⟨-, ⟨hr, -⟩ | ⟨-, hlink⟩⟩ := hok.2.1
          · exact ⟨r, by rw [hq]; simp, linkPrev s r q, by simp [step, hr]⟩
          · rw [hnx] at hlink
            cases hlink
      · exact ⟨q, hq0, setPc s q .dropUnlock, by simp [step, hpc, hnx]⟩
    | _ => rw [hpc] at hc; cases hc
  · exact ⟨q, hq0, acquire s q, by simp [step, hw, hl]⟩

/-- Thread `true` holds the lock and thread `false` has linked behind it: the queue holds
both, and the holder can move. -/
theorem Inv.queue_progress_linkedBehind :
    ∃ s, exec step
        (⟨none, fun _ => false, fun _ => none, fun _ => .idle, [], [], []⟩ : State Bool)
        [.lock true, .step true, .lock false, .step false, .step false] = some s ∧
      s.queue = [true, false] ∧ ∃ t ∈ s.queue, ∃ s', step s (.step t) = some s' := by
  refine ⟨_, rfl, rfl, ?_⟩
  have hrun : exec step
      (⟨none, fun _ => false, fun _ => none, fun _ => .idle, [], [], []⟩ : State Bool)
      [.lock true, .step true, .lock false, .step false, .step false] = some _ := rfl
  exact Inv.queue_progress (Reach.inv ⟨_, _, ⟨rfl, fun _ => rfl, rfl, rfl, rfl⟩, exec_run hrun⟩)
    (by decide)

/-- What the lock promises in every reachable state. -/
structure Safe (s : State τ) : Prop where
  /-- At most one guard is live. -/
  mutualExclusion : ∀ t u, (s.pc t).critical = true → (s.pc u).critical = true → t = u
  /-- `try_lock` returns a guard only when `tail` is null and no node is queued. -/
  tryLockEmpty : ∀ t s', s.pc t = .tryCas → step s (.step t) = some s' → s'.pc t = .held →
    s.tail = none ∧ s.queue = []
  /-- Guards are handed out in the order of the swaps on `tail`. -/
  fifo : s.acq <+: s.enq
  /-- A waiter whose predecessors have all released takes the guard with its next step,
  next in the order of acquisitions, and a waiter behind another node still sees
  `locked`. -/
  waiter : ∀ t, s.pc t = .lockWait →
    (s.queue.head? = some t →
      ∃ s', step s (.step t) = some s' ∧ s'.pc t = .held ∧ s'.acq = s.acq ++ [t]) ∧
      (s.queue.head? ≠ some t → s.locked t = true)

/-- **The MCS lock is safe and hands over in order** in every interleaving. -/
theorem mcs_lock_safe (h : Reach s) : Safe s := by
  have hinv := h.inv
  exact ⟨fun _ _ => hinv.mutual_exclusion, fun _ _ => hinv.tryLock_empty, ⟨_, hinv.fifo.symm⟩,
    fun _ => hinv.waiter⟩

/-- Thread `true` takes the lock, thread `false` queues and links behind it, and `true`'s
guard is dropped, handing the lock over: `false` is the waiter at the head of the queue. -/
theorem mcs_lock_safe_handOver :
    ∃ s, exec step (⟨none, fun _ => false, fun _ => none, fun _ => .idle, [], [], []⟩ : State Bool)
        [.lock true, .step true, .lock false, .step false, .step false, .step true, .step true] =
        some s ∧ s.pc false = .lockWait ∧ s.queue = [false] ∧ Safe s := by
  have hrun : exec step
      (⟨none, fun _ => false, fun _ => none, fun _ => .idle, [], [], []⟩ : State Bool)
      [.lock true, .step true, .lock false, .step false, .step false, .step true, .step true] =
        some _ := rfl
  exact ⟨_, hrun, rfl, rfl,
    mcs_lock_safe ⟨_, _, ⟨rfl, fun _ => rfl, rfl, rfl, rfl⟩, exec_run hrun⟩⟩

end Guarantees

end Beskar.Hyperdrive.Mcs
