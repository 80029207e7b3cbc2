import Beskar.Lib.Transition

/-!
# NVMe Submission and Completion Queues

`Queue`, `SubmissionQueue` and `CompletionQueue` of `drivers/storage/nvme/queue.rs`, run
against a model of the controller that serves them. Each queue is a ring of entries in a
zeroed 4 KiB frame, `4096 / size_of::<T>()` of them: 64 submission entries, 256 completion
entries. The driver keeps its own `tail` and `head` (`u16`, stepped by
`wrapping_add(1) % size`) and writes one of them to the queue's doorbell.

The controller is not part of the source; it is modelled as the NVMe specification has
it. It fetches submission entries in order up to the tail doorbell, and posts one
completion per fetched command, in order, into the completion queue. Each completion
carries the controller's current submission-queue head and the phase tag, which is 1 on
the first pass over the ring and flips on each wrap. It never overwrites the slot before
the head doorbell.

The system (`System`) interleaves the driver's `push` and `pop` with the controller's
`fetch` and `complete` in any order (`Lib.Transition`). The ghost fields count the pushes and
record the completions posted and popped.

## Main results

- `Inv`, `reachable_inv`: in every reachable state the driver's submission `head` is still
  0 and its `tail` is the number of pushes, at most 63, while the completion queue holds
  the posted entries, oldest first, in slots that never wrap.
- `push_eq_none_iff`: so `push` panics exactly at the 64th push, however many commands are
  outstanding; `exec_rounds` runs 63 commands one at a time, each completed and popped
  before the next, and `nvme_push_panics_on_empty_queue` puts these together.
- `pop_returns_posted`: `pop` returns the posted completions, each once and in order, and
  `None` when there is none; the phase tag never matters, since the ring never wraps.
-/

namespace Beskar.Drivers.Nvme

open Beskar.Lib

/-! ## §1 The Driver's Queues -/

/-- `M4KiB::SIZE`, the frame each queue lives in. -/
def frameSize : Nat := 4096

/-- `Queue<T>`: the ring of entries in its frame, the driver's indices, and the last value
written to the doorbell register. -/
structure Queue (T : Type) where
  base : Nat → T
  size : Nat
  tail : Nat
  head : Nat
  doorbell : Nat

namespace Queue

variable {T : Type}

/-- `Queue::new`: a frame zeroed by `write_bytes`, of `4096 / size_of::<T>()` entries;
`zero` is the entry of all-zero bytes. -/
def new (zero : T) (entrySize : Nat) : Queue T :=
  ⟨fun _ => zero, frameSize / entrySize, 0, 0, 0⟩

/-- `i.wrapping_add(1) % self.size` on the `u16` indices. -/
def next (q : Queue T) (i : Nat) : Nat := (i + 1) % 2 ^ 16 % q.size

end Queue

/-- `SubmissionEntry`, reduced to its DWORD 0; the queue never looks inside an entry. -/
structure SubmissionEntry where
  dword0 : Nat
deriving DecidableEq, Repr

namespace SubmissionEntry

/-- `size_of::<SubmissionEntry>()`. -/
def size : Nat := 64

def zero : SubmissionEntry := ⟨0⟩

/-- `command_id`: bits 16 to 31 of DWORD 0. -/
def commandId (e : SubmissionEntry) : Nat := e.dword0 / 2 ^ 16

end SubmissionEntry

/-- `CompletionEntry`. Bit 0 of `status` is the phase tag, bits 1 to 15 the status code. -/
structure CompletionEntry where
  commandSpecific : Nat
  sQueueHead : Nat
  sQueueId : Nat
  cid : Nat
  status : Nat
deriving DecidableEq, Repr

namespace CompletionEntry

/-- `size_of::<CompletionEntry>()`. -/
def size : Nat := 16

def zero : CompletionEntry := ⟨0, 0, 0, 0, 0⟩

/-- `CompletionEntry::has_finished`: the raw bit 0, whatever pass the ring is on. -/
def hasFinished (e : CompletionEntry) : Bool := e.status &&& 1 != 0

/-- `CompletionEntry::is_success`, which asserts that the entry has finished. -/
def isSuccess (e : CompletionEntry) : Option Bool :=
  if e.hasFinished then some (e.status &&& (2 ^ 16 - 1 - 1) == 0) else none

end CompletionEntry

/-- `SubmissionQueue`. -/
structure SubmissionQueue where
  inner : Queue SubmissionEntry

namespace SubmissionQueue

def new : SubmissionQueue := ⟨Queue.new SubmissionEntry.zero SubmissionEntry.size⟩

/-- `SubmissionQueue::is_full`, against the driver's own `head`. -/
def isFull (self : SubmissionQueue) : Bool := self.inner.next self.inner.tail == self.inner.head

/-- `SubmissionQueue::flush`: the tail to the doorbell. -/
def flush (self : SubmissionQueue) : SubmissionQueue :=
  ⟨{ self.inner with doorbell := self.inner.tail }⟩

/-- The body of `push` past its assertion: the entry written at `tail`, `tail` stepped and
flushed. -/
def write (self : SubmissionQueue) (entry : SubmissionEntry) : SubmissionQueue :=
  let q := self.inner
  let q := { q with base := Function.update q.base q.tail entry }
  flush ⟨{ q with tail := q.next q.tail }⟩

/-- `SubmissionQueue::push`, whose `assert!(!self.is_full())` panics (`none`). -/
def push (self : SubmissionQueue) (entry : SubmissionEntry) : Option SubmissionQueue :=
  if self.isFull then none else some (self.write entry)

end SubmissionQueue

/-- `CompletionQueue`. -/
structure CompletionQueue where
  inner : Queue CompletionEntry

namespace CompletionQueue

def new : CompletionQueue := ⟨Queue.new CompletionEntry.zero CompletionEntry.size⟩

/-- `CompletionQueue::flush`: the head to the doorbell. -/
def flush (self : CompletionQueue) : CompletionQueue :=
  ⟨{ self.inner with doorbell := self.inner.head }⟩

/-- `CompletionQueue::pop`: the entry at `head`, if it has finished, and the step of `head`. -/
def pop (self : CompletionQueue) : Option CompletionEntry × CompletionQueue :=
  let entry := self.inner.base self.inner.head
  if !entry.hasFinished then (none, self)
  else (some entry, flush ⟨{ self.inner with head := self.inner.next self.inner.head }⟩)

end CompletionQueue

/-! ## §2 The Controller and the System -/

/-- The controller's side of one queue pair. -/
structure Controller where
  /-- The next submission slot to fetch. -/
  sqHead : Nat
  /-- The command identifiers fetched and not yet completed, oldest first. -/
  pending : List Nat
  /-- The next completion slot to write. -/
  cqTail : Nat
  /-- The phase tag of the current pass over the completion ring. -/
  phase : Nat

/-- The driver's two queues, the controller, and ghost records of the run. -/
structure System where
  sq : SubmissionQueue
  cq : CompletionQueue
  ctrl : Controller
  /-- The number of `push` calls so far. -/
  submitted : Nat
  /-- The completions the controller posted, in order. -/
  posted : List CompletionEntry
  /-- The completions `pop` returned, in order. -/
  popped : List CompletionEntry

/-- Who moves. -/
inductive Action
  /-- The driver calls `SubmissionQueue::push`. -/
  | push (entry : SubmissionEntry)
  /-- The driver calls `CompletionQueue::pop`. -/
  | pop
  /-- The controller fetches the submission entry at its head. -/
  | fetch
  /-- The controller posts the completion of its oldest fetched command. -/
  | complete

namespace System

/-- Both queues as `new` leaves them, and a reset controller: phase tag 1. -/
def init : System := ⟨SubmissionQueue.new, CompletionQueue.new, ⟨0, [], 0, 1⟩, 0, [], []⟩

/-- The controller reads the submission entry at its head and steps the head. -/
def fetchNext (s : System) : System :=
  let entry := s.sq.inner.base s.ctrl.sqHead
  { s with ctrl := { s.ctrl with
    sqHead := (s.ctrl.sqHead + 1) % s.sq.inner.size
    pending := s.ctrl.pending ++ [entry.commandId] } }

/-- The controller's fetch, possible while its head is short of the tail doorbell. -/
def fetch (s : System) : Option System :=
  if s.ctrl.sqHead ≠ s.sq.inner.doorbell then some s.fetchNext else none

/-- The completion the controller posts for the command `cid`: its current submission
head, and the phase tag with a zero status code. -/
def completionFor (s : System) (cid : Nat) : CompletionEntry := ⟨0, s.ctrl.sqHead, 0, cid, s.ctrl.phase⟩

/-- The completion queue's tail after the next post. -/
def nextCqTail (s : System) : Nat := (s.ctrl.cqTail + 1) % s.cq.inner.size

/-- The controller writes the completion of `cid` at its tail, steps the tail, and flips
the phase tag when the tail wraps. -/
def post (s : System) (cid : Nat) (rest : List Nat) : System :=
  let entry := s.completionFor cid
  { s with
    cq := ⟨{ s.cq.inner with base := Function.update s.cq.inner.base s.ctrl.cqTail entry }⟩
    ctrl := { s.ctrl with
      pending := rest
      cqTail := s.nextCqTail
      phase := if s.nextCqTail = 0 then 1 - s.ctrl.phase else s.ctrl.phase }
    posted := s.posted ++ [entry] }

/-- The controller's completion of its oldest fetched command, possible while the ring has
a free slot before the head doorbell. -/
def complete (s : System) : Option System :=
  match s.ctrl.pending with
  | [] => none
  | cid :: rest => if s.nextCqTail ≠ s.cq.inner.doorbell then some (s.post cid rest) else none

/-- One move of the driver or of the controller. -/
def step (s : System) : Action → Option System
  | .push entry => (s.sq.push entry).map fun sq => { s with sq := sq, submitted := s.submitted + 1 }
  | .pop =>
    let (entry, cq) := s.cq.pop
    some { s with cq := cq, popped := s.popped ++ entry.toList }
  | .fetch => s.fetch
  | .complete => s.complete

/-- The commands pushed whose completion the driver has not popped yet. -/
def outstanding (s : System) : Nat := s.submitted - s.popped.length

end System

/-! ## §3 The Invariant

What every reachable state satisfies. The driver's submission `head` is never written, so
it stays 0, and `tail` counts the pushes. The controller has fetched no more than were
pushed, and posted no more than it fetched, so fewer than 64 completions are ever posted:
the completion ring never wraps and its phase tag stays 1. -/

/-- The invariant of the system. -/
structure Inv (s : System) : Prop where
  sq_size : s.sq.inner.size = 64
  cq_size : s.cq.inner.size = 256
  sq_head : s.sq.inner.head = 0
  sq_tail : s.sq.inner.tail = s.submitted
  sq_doorbell : s.sq.inner.doorbell = s.submitted
  submitted_le : s.submitted ≤ 63
  sqHead_le : s.ctrl.sqHead ≤ s.submitted
  /-- every fetched command is pending or posted -/
  fetched : s.ctrl.pending.length + s.posted.length = s.ctrl.sqHead
  cqTail : s.ctrl.cqTail = s.posted.length
  phase : s.ctrl.phase = 1
  cq_head : s.cq.inner.head = s.popped.length
  cq_doorbell : s.cq.inner.doorbell = s.popped.length
  popped_le_posted : s.popped <+: s.posted
  /-- the completion ring holds the posted entries from slot 0 -/
  cq_posted : ∀ k (hk : k < s.posted.length), s.cq.inner.base k = s.posted[k]
  /-- and zeroed bytes past them -/
  cq_fresh : ∀ k, s.posted.length ≤ k → s.cq.inner.base k = CompletionEntry.zero
  posted_status : ∀ e ∈ s.posted, e.status = 1

namespace System

variable {s s' : System}

theorem init_inv : Inv init where
  sq_size := rfl
  cq_size := rfl
  sq_head := rfl
  sq_tail := rfl
  sq_doorbell := rfl
  submitted_le := by decide
  sqHead_le := le_refl 0
  fetched := rfl
  cqTail := rfl
  phase := rfl
  cq_head := rfl
  cq_doorbell := rfl
  popped_le_posted := List.prefix_refl []
  cq_posted := fun _ hk => absurd hk (Nat.not_lt_zero _)
  cq_fresh := fun _ _ => rfl
  posted_status := fun _ he => absurd he List.not_mem_nil

/-- `is_full` compares with a `head` that stays 0, so it holds after 63 pushes. -/
theorem isFull_iff (hinv : Inv s) : s.sq.isFull = true ↔ s.submitted = 63 := by
  have hle := hinv.submitted_le
  simp only [SubmissionQueue.isFull, Queue.next, hinv.sq_tail, hinv.sq_head, hinv.sq_size,
    beq_iff_eq]
  omega

/-- `push` panics exactly at the 64th push. -/
theorem push_eq_none_iff (hinv : Inv s) (e : SubmissionEntry) :
    s.step (.push e) = none ↔ s.submitted = 63 := by
  simp only [step, SubmissionQueue.push, Option.map_eq_none_iff]
  split
  · exact iff_of_true rfl ((isFull_iff hinv).mp ‹_›)
  · exact iff_of_false (by simp) fun h => ‹¬_› ((isFull_iff hinv).mpr h)

/-! ### One Step at a Time -/

theorem step_push_of_lt (hinv : Inv s) (hlt : s.submitted < 63) (e : SubmissionEntry) :
    s.step (.push e) = some { s with sq := s.sq.write e, submitted := s.submitted + 1 } := by
  have hfull : s.sq.isFull ≠ true := fun h => by have := (isFull_iff hinv).mp h; omega
  simp only [step, SubmissionQueue.push, if_neg hfull, Option.map_some]

theorem inv_push (hinv : Inv s) (hlt : s.submitted < 63) (e : SubmissionEntry) :
    Inv { s with sq := s.sq.write e, submitted := s.submitted + 1 } := by
  have hnext : s.sq.inner.next s.sq.inner.tail = s.submitted + 1 := by
    simp only [Queue.next, hinv.sq_tail, hinv.sq_size]
    omega
  have hle := hinv.sqHead_le
  exact { hinv with
    sq_tail := hnext
    sq_doorbell := hnext
    submitted_le := by show s.submitted + 1 ≤ 63; omega
    sqHead_le := by show s.ctrl.sqHead ≤ s.submitted + 1; omega }

/-- The controller can fetch exactly while it is short of the pushes. -/
theorem fetch_eq (hinv : Inv s) :
    s.fetch = if s.ctrl.sqHead < s.submitted then some s.fetchNext else none := by
  have hle := hinv.sqHead_le
  unfold fetch
  rw [hinv.sq_doorbell]
  by_cases h : s.ctrl.sqHead < s.submitted
  · rw [if_pos (by omega), if_pos h]
  · rw [if_neg (by omega), if_neg h]

theorem inv_fetchNext (hinv : Inv s) (hlt : s.ctrl.sqHead < s.submitted) : Inv s.fetchNext := by
  have hhead : (s.ctrl.sqHead + 1) % s.sq.inner.size = s.ctrl.sqHead + 1 := by
    have := hinv.submitted_le
    rw [hinv.sq_size]
    omega
  have hfetched := hinv.fetched
  exact { hinv with
    sqHead_le := by show (s.ctrl.sqHead + 1) % s.sq.inner.size ≤ s.submitted; omega
    fetched := by
      show (s.ctrl.pending ++ _).length + s.posted.length = (s.ctrl.sqHead + 1) % s.sq.inner.size
      rw [List.length_append, List.length_singleton, hhead]
      omega }

/-- The posted entries stay below 64, so the tail neither wraps nor catches the head
doorbell. -/
theorem nextCqTail_eq (hinv : Inv s) : s.nextCqTail = s.posted.length + 1 := by
  have := hinv.fetched
  have := hinv.sqHead_le
  have := hinv.submitted_le
  unfold nextCqTail
  rw [hinv.cqTail, hinv.cq_size]
  omega

/-- The controller can complete exactly while a fetched command is pending. -/
theorem complete_eq (hinv : Inv s) : s.complete =
    match s.ctrl.pending with
    | [] => none
    | cid :: rest => some (s.post cid rest) := by
  unfold complete
  split
  · rfl
  · have hroom : s.nextCqTail ≠ s.cq.inner.doorbell := by
      have := hinv.popped_le_posted.length_le
      rw [nextCqTail_eq hinv, hinv.cq_doorbell]
      omega
    rw [if_pos hroom]

@[simp] theorem post_posted (cid : Nat) (rest : List Nat) :
    (s.post cid rest).posted = s.posted ++ [s.completionFor cid] := rfl

@[simp] theorem post_cq_base (cid : Nat) (rest : List Nat) :
    (s.post cid rest).cq.inner.base =
      Function.update s.cq.inner.base s.ctrl.cqTail (s.completionFor cid) := rfl

theorem inv_post (hinv : Inv s) {cid : Nat} {rest : List Nat} (hp : s.ctrl.pending = cid :: rest) :
    Inv (s.post cid rest) := by
  have htail := nextCqTail_eq hinv
  have hfetched := hinv.fetched
  rw [hp, List.length_cons] at hfetched
  exact { hinv with
    fetched := by show rest.length + (s.posted ++ _).length = s.ctrl.sqHead; simp; omega
    cqTail := by show s.nextCqTail = (s.posted ++ _).length; simp [htail]
    phase := by show (if s.nextCqTail = 0 then _ else _) = 1; rw [if_neg (by omega), hinv.phase]
    popped_le_posted := hinv.popped_le_posted.trans (List.prefix_append _ _)
    cq_posted := by
      intro k hk
      simp only [post_posted, post_cq_base, hinv.cqTail, List.length_append,
        List.length_singleton] at hk ⊢
      rcases Nat.lt_succ_iff_lt_or_eq.mp hk with hk | rfl
      · rw [Function.update_of_ne (by omega), hinv.cq_posted k hk, List.getElem_append_left hk]
      · simp
    cq_fresh := by
      intro k hk
      simp only [post_posted, post_cq_base, hinv.cqTail, List.length_append,
        List.length_singleton] at hk ⊢
      rw [Function.update_of_ne (by omega), hinv.cq_fresh k (by omega)]
    posted_status := by
      intro e he
      rcases List.mem_append.mp he with he | he
      · exact hinv.posted_status e he
      · rw [List.mem_singleton.mp he]
        exact hinv.phase }

theorem prefix_append_getElem {α : Type} {l₁ l₂ : List α} (h : l₁ <+: l₂) (hlt : l₁.length < l₂.length) :
    l₁ ++ [l₂[l₁.length]] <+: l₂ := by
  obtain ⟨t, rfl⟩ := h
  cases t with
  | nil => simp at hlt
  | cons x t => simp

/-- With a completion not yet popped, `pop` finds it finished at `head` and steps `head`,
which does not wrap. -/
theorem pop_of_lt (hinv : Inv s) (hlt : s.popped.length < s.posted.length) :
    s.cq.pop = (some s.posted[s.popped.length],
      ⟨{ s.cq.inner with head := s.popped.length + 1, doorbell := s.popped.length + 1 }⟩) := by
  have hstatus := hinv.posted_status _ (List.getElem_mem hlt)
  have hhead : s.cq.inner.next s.popped.length = s.popped.length + 1 := by
    have := hinv.fetched
    have := hinv.sqHead_le
    have := hinv.submitted_le
    simp only [Queue.next, hinv.cq_size]
    omega
  unfold CompletionQueue.pop
  rw [hinv.cq_head, hinv.cq_posted _ hlt]
  simp [CompletionEntry.hasFinished, hstatus, CompletionQueue.flush, hhead]

/-- With every completion popped, `pop` finds the zeroed slot past them and returns `None`. -/
theorem pop_of_ge (hinv : Inv s) (hge : s.posted.length ≤ s.popped.length) :
    s.cq.pop = (none, s.cq) := by
  unfold CompletionQueue.pop
  rw [hinv.cq_head, hinv.cq_fresh _ hge]
  rfl

/-- `pop` returns the oldest completion not yet popped, and `None` when there is none. -/
theorem pop_fst (hinv : Inv s) : s.cq.pop.1 = s.posted[s.popped.length]? := by
  by_cases hlt : s.popped.length < s.posted.length
  · rw [pop_of_lt hinv hlt, List.getElem?_eq_getElem hlt]
  · rw [pop_of_ge hinv (by omega), List.getElem?_eq_none (by omega)]

theorem inv_pop (hinv : Inv s) (h : s.step .pop = some s') : Inv s' := by
  simp only [step, Option.some.injEq] at h
  subst h
  by_cases hlt : s.popped.length < s.posted.length
  · rw [pop_of_lt hinv hlt]
    exact { hinv with
      cq_head := by simp
      cq_doorbell := by simp
      popped_le_posted := prefix_append_getElem hinv.popped_le_posted hlt }
  · rw [pop_of_ge hinv (by omega)]
    simpa using hinv

/-- Every step keeps the invariant. -/
theorem step_inv (hinv : Inv s) {a : Action} (h : s.step a = some s') : Inv s' := by
  cases a with
  | push e =>
    by_cases hlt : s.submitted < 63
    · rw [step_push_of_lt hinv hlt, Option.some.injEq] at h
      exact h ▸ inv_push hinv hlt e
    · have := hinv.submitted_le
      rw [(push_eq_none_iff hinv e).mpr (by omega)] at h
      cases h
  | pop => exact inv_pop hinv h
  | fetch =>
    rw [step, fetch_eq hinv] at h
    split at h
    · cases h
      exact inv_fetchNext hinv ‹_›
    · cases h
  | complete =>
    rw [step, complete_eq hinv] at h
    split at h
    · cases h
    · cases h
      exact inv_post hinv ‹_›

/-! ## §4 Runs -/

/-- The states some interleaving of the driver's and the controller's moves reaches. -/
def Reach (s : System) : Prop := Reachable (Det step) (· = init) s

theorem reachable_inv (h : Reach s) : Inv s := by
  refine Reachable.invariant Inv ?_ (fun _ _ _ hs hst => step_inv hs hst) h
  rintro _ rfl
  exact init_inv

theorem outstanding_le (hinv : Inv s) : s.outstanding ≤ 63 := by
  have := hinv.submitted_le
  unfold outstanding
  omega

/-- `pop`, as `step` runs it. -/
theorem step_pop (s : System) :
    s.step .pop = some { s with cq := s.cq.pop.2, popped := s.popped ++ s.cq.pop.1.toList } := rfl

/-- `pop` returns the posted completions, each once and in posting order, and `None`
when the driver has popped them all: in every run, the popped entries are a prefix of the
posted ones and `pop` returns the next. -/
theorem pop_returns_posted (h : Reach s) :
    s.popped <+: s.posted ∧ s.cq.pop.1 = s.posted[s.popped.length]? :=
  ⟨(reachable_inv h).popped_le_posted, pop_fst (reachable_inv h)⟩

/-- Two commands completed and one popped: `pop` returns the second completion next. -/
theorem pop_returns_posted_secondNext :
    ∃ s, exec step init [.push .zero, .push .zero, .fetch, .complete, .fetch, .complete, .pop] =
        some s ∧ s.posted.length = 2 ∧ s.popped.length = 1 ∧
      s.popped <+: s.posted ∧ s.cq.pop.1 = s.posted[s.popped.length]? := by
  have hrun : exec step init
      [.push .zero, .push .zero, .fetch, .complete, .fetch, .complete, .pop] = some _ := rfl
  exact ⟨_, hrun, rfl, rfl, pop_returns_posted ⟨init, _, rfl, exec_run hrun⟩⟩

/-- A driver that waits for each command: push it, let the controller fetch and complete
it, pop its completion. -/
def round (e : SubmissionEntry) : List Action := [.push e, .fetch, .complete, .pop]

/-- `k` commands, one at a time. -/
def rounds (e : SubmissionEntry) (k : Nat) : List Action := (List.replicate k (round e)).flatten

theorem rounds_succ (e : SubmissionEntry) (k : Nat) : rounds e (k + 1) = rounds e k ++ round e := by
  simp [rounds, List.replicate_succ', List.flatten_append]

/-- Every command pushed has been completed and its completion popped. -/
def Quiet (s : System) : Prop := s.popped = s.posted ∧ s.popped.length = s.submitted

/-- One round from a quiet state short of 63 pushes ends quiet, one push further. -/
theorem exec_round (hinv : Inv s) (hq : Quiet s) (hlt : s.submitted < 63) (e : SubmissionEntry) :
    ∃ s', exec step s (round e) = some s' ∧ Inv s' ∧ Quiet s' ∧ s'.submitted = s.submitted + 1 := by
  obtain ⟨hpp, hps⟩ := hq
  -- a quiet controller has fetched every push and has nothing pending
  have hhead : s.ctrl.sqHead = s.submitted := by
    have hf := hinv.fetched
    have := hinv.sqHead_le
    rw [← hpp] at hf
    omega
  have hpend : s.ctrl.pending = [] := by
    have := hinv.fetched
    rw [← hpp, hps, hhead] at this
    exact List.eq_nil_of_length_eq_zero (by omega)
  -- the push, the fetch of its entry, and its completion
  let s₁ : System := { s with sq := s.sq.write e, submitted := s.submitted + 1 }
  have hinv₁ : Inv s₁ := inv_push hinv hlt e
  have hfetch : s₁.ctrl.sqHead < s₁.submitted := by show s.ctrl.sqHead < s.submitted + 1; omega
  have hinv₂ := inv_fetchNext hinv₁ hfetch
  have hpend₂ : s₁.fetchNext.ctrl.pending = [(s₁.sq.inner.base s.ctrl.sqHead).commandId] := by
    simp [fetchNext, s₁, hpend]
  let s₃ := s₁.fetchNext.post (s₁.sq.inner.base s.ctrl.sqHead).commandId []
  have hinv₃ : Inv s₃ := inv_post hinv₂ hpend₂
  -- the pop then finds the completion just posted
  have hnext : s₃.posted[s₃.popped.length]? = some (s₁.fetchNext.completionFor (s₁.sq.inner.base s.ctrl.sqHead).commandId) := by
    show (s.posted ++ [_])[s.popped.length]? = _
    rw [hpp, List.getElem?_append_right (le_refl _), Nat.sub_self]
    rfl
  refine ⟨{ s₃ with cq := s₃.cq.pop.2, popped := s₃.popped ++ s₃.cq.pop.1.toList }, ?_, ?_, ?_, rfl⟩
  · simp only [round, exec_cons, step_push_of_lt hinv hlt, Option.bind_some]
    rw [step, fetch_eq hinv₁, if_pos hfetch, Option.bind_some, step, complete_eq hinv₂, hpend₂]
    rfl
  · exact inv_pop hinv₃ (step_pop s₃)
  · rw [pop_fst hinv₃, hnext]
    refine ⟨?_, ?_⟩
    · show s.popped ++ _ = s.posted ++ _
      rw [hpp]
      rfl
    · show (s.popped ++ _).length = s.submitted + 1
      simp [hps]

/-- A driver that waits for each command gets through 63 commands. -/
theorem exec_rounds (e : SubmissionEntry) :
    ∀ k ≤ 63, ∃ s, exec step init (rounds e k) = some s ∧ Inv s ∧ Quiet s ∧ s.submitted = k := by
  intro k
  induction k with
  | zero => exact fun _ => ⟨init, rfl, init_inv, ⟨rfl, rfl⟩, rfl⟩
  | succ k ih =>
    intro hk
    obtain ⟨s, hs, hinv, hq, hsub⟩ := ih (by omega)
    obtain ⟨s', hs', hinv', hq', hsub'⟩ := exec_round hinv hq (by omega) e
    refine ⟨s', ?_, hinv', hq', by omega⟩
    rw [rounds_succ, exec_append, hs, Option.bind_some, hs']

/-- In every run, whatever the interleaving, the outstanding commands stay within the
queue's capacity less one and `push` panics exactly at the 64th push; and a driver that
waits for each command reaches that push with nothing outstanding. -/
theorem nvme_push_panics_on_empty_queue :
    (∀ s, Reach s → s.outstanding ≤ 63 ∧ ∀ e, (s.step (.push e) = none ↔ s.submitted = 63)) ∧
    ∀ e, ∃ s, exec step init (rounds e 63) = some s ∧ s.outstanding = 0 ∧ s.step (.push e) = none := by
  refine ⟨fun s h => ⟨outstanding_le (reachable_inv h), push_eq_none_iff (reachable_inv h)⟩, ?_⟩
  intro e
  obtain ⟨s, hs, hinv, ⟨_, hps⟩, hsub⟩ := exec_rounds e 63 (le_refl _)
  refine ⟨s, hs, ?_, (push_eq_none_iff hinv e).mpr hsub⟩
  unfold outstanding
  omega

theorem nvme_push_panics_on_empty_queue_zero :
    ∃ s, exec step init (rounds .zero 63) = some s ∧ Reach s ∧ s.outstanding = 0 ∧
      s.submitted = 63 ∧ s.step (.push .zero) = none := by
  obtain ⟨s, hs, hout, hpush⟩ := nvme_push_panics_on_empty_queue.2 .zero
  have hreach : Reach s := ⟨init, _, rfl, exec_run hs⟩
  exact ⟨s, hs, hreach, hout, ((nvme_push_panics_on_empty_queue.1 s hreach).2 .zero).mp hpush, hpush⟩

end System

end Beskar.Drivers.Nvme
