import Beskar.Lib.Transition

/-!
# The Bounded MPMC Queue

Model of `MpmcQueue::new`, `try_push` and `pop` (`hyperdrive/src/queues/mpmc.rs`), a ring
of `SIZE` slots after Vyukov's bounded queue.  Each slot carries a sequence number: a
producer at position `pos` claims slot `pos % SIZE` when its sequence is `pos`, by a
`compare_exchange` of `write_index` from `pos` to `pos + 1`, and then publishes the value
with sequence `pos + 1`; a consumer at `pos` claims the slot when its sequence is
`pos + 1`, by a `compare_exchange` of `read_index`, reads the value and frees the slot
with sequence `pos + SIZE`.

Any number of threads call `try_push` and `pop`.  A thread's `Pc` says which atomic
access it makes next, with its local `pos`, and `Label.step t` makes it, so that every
interleaving of the accesses (sequentially consistent) is a run of `step`.  The write of
the value into the claimed slot is folded into the `sequence.store` after it, and the read
of the value into the store after it.  Indices are unbounded: the wrap of `usize` is not
modelled.  A ghost field records what each call returned, in return order.

## Main results

- `pop_spins`: a consumer that finds its slot's sequence beyond `pos + 1` while
  `read_index` stays at `pos` reloads `pos` and loads the same slot again, forever.
- `mpmc_not_a_bounded_queue`: with `SIZE = 1` the sequence `pos + 1` of a written slot is
  the sequence `pos + SIZE` of a freed one, so a second `try_push` succeeds on a full
  queue, overwrites the first value, and every later `pop` spins; with `SIZE = 2`, a
  producer preempted between its claim and its write makes `pop` return `None` after
  another producer's `try_push` has returned `Ok`.
-/

namespace Beskar.Hyperdrive.Mpmc

open Beskar.Lib

/-- Where a thread is in `try_push` or `pop`, with its local `pos`. -/
inductive Pc (α : Type) where
  | idle
  /-- `try_push`: `let mut pos = self.write_index.load(Relaxed)` comes next. -/
  | pushStart (value : α)
  /-- `try_push`: `slot.sequence.load(Acquire)` for slot `pos % SIZE` comes next. -/
  | pushSeq (value : α) (pos : Nat)
  /-- `try_push`: `self.write_index.compare_exchange(pos, pos + 1, ..)` comes next. -/
  | pushCas (value : α) (pos : Nat)
  /-- `try_push`: the slot is ahead, `pos = self.write_index.load(Relaxed)` comes next. -/
  | pushReload (value : α)
  /-- `try_push`: the slot is claimed, `slot.write(value, pos)` comes next. -/
  | pushWrite (value : α) (pos : Nat)
  /-- `pop`: `let mut pos = self.read_index.load(Relaxed)` comes next. -/
  | popStart
  /-- `pop`: `slot.sequence.load(Acquire)` for slot `pos % SIZE` comes next. -/
  | popSeq (pos : Nat)
  /-- `pop`: `self.read_index.compare_exchange(pos, pos + 1, ..)` comes next. -/
  | popCas (pos : Nat)
  /-- `pop`: the slot is ahead, `pos = self.read_index.load(Relaxed)` comes next. -/
  | popReload
  /-- `pop`: the slot is claimed, `slot.read(pos)` comes next. -/
  | popRead (pos : Nat)
deriving DecidableEq, Repr

/-- What a call returned. -/
inductive Result (α : Type) where
  /-- `try_push` returned `Ok(())`. -/
  | pushed
  /-- `try_push` returned `Err(MpmcQueueFullError(value))`. -/
  | full (value : α)
  /-- `pop` returned `Some(value)`. -/
  | popped (value : α)
  /-- `pop` returned `None`. -/
  | empty
  /-- `pop` read a slot that was never written: `assume_init_read` on uninitialised
  memory. -/
  | uninit
deriving DecidableEq, Repr

/-- The slots, the two indices, each thread's position, and the ghost results. -/
structure State (α : Type) where
  sequence : Nat → Nat
  value : Nat → Option α
  readIndex : Nat
  writeIndex : Nat
  pc : Nat → Pc α
  results : List (Result α)

/-- A thread calling `try_push` or `pop`, or making its next atomic access. -/
inductive Label (α : Type) where
  | push (t : Nat) (value : α)
  | pop (t : Nat)
  | step (t : Nat)
deriving DecidableEq, Repr

variable {α : Type}

/-! ## §1 Steps -/

/-- `MpmcQueue::new()`: slot `i` starts with sequence `i` (`Slot::new` through
`array::from_fn`), both indices at zero. -/
def new : State α where
  sequence := fun i => i
  value := fun _ => none
  readIndex := 0
  writeIndex := 0
  pc := fun _ => .idle
  results := []

def setPc (s : State α) (t : Nat) (p : Pc α) : State α :=
  { s with pc := Function.update s.pc t p }

/-- The call returns `r`. -/
def finish (s : State α) (t : Nat) (r : Result α) : State α :=
  { s with pc := Function.update s.pc t .idle, results := s.results ++ [r] }

/-- `Slot::write`: the value, then `sequence.store(pos + 1)`. -/
def writeSlot (s : State α) (i : Nat) (v : α) (seq : Nat) : State α :=
  { s with value := Function.update s.value i (some v),
           sequence := Function.update s.sequence i seq }

/-- `Slot::read`'s `sequence.store(pos + SIZE)`. -/
def freeSlot (s : State α) (i : Nat) (seq : Nat) : State α :=
  { s with sequence := Function.update s.sequence i seq }

/-- What `assume_init_read` returns from a slot. -/
def readResult : Option α → Result α
  | some v => .popped v
  | none => .uninit

/-- One atomic step of a queue of `size` slots; `none` when the label cannot move (a
thread not at the start of a call). -/
def step (size : Nat) (s : State α) : Label α → Option (State α)
  | .push t v =>
    match s.pc t with
    | .idle => some (setPc s t (.pushStart v))
    | _ => none
  | .pop t =>
    match s.pc t with
    | .idle => some (setPc s t .popStart)
    | _ => none
  | .step t =>
    match s.pc t with
    | .idle => none
    | .pushStart v => some (setPc s t (.pushSeq v s.writeIndex))
    -- `match seq.cmp(&pos)`
    | .pushSeq v pos =>
      if s.sequence (pos % size) = pos then some (setPc s t (.pushCas v pos))
      else if s.sequence (pos % size) < pos then some (finish s t (.full v))
      else some (setPc s t (.pushReload v))
    | .pushReload v => some (setPc s t (.pushSeq v s.writeIndex))
    -- a failed compare-exchange retries with the current `write_index`
    | .pushCas v pos =>
      if s.writeIndex = pos then
        some { setPc s t (.pushWrite v pos) with writeIndex := pos + 1 }
      else some (setPc s t (.pushSeq v s.writeIndex))
    | .pushWrite v pos => some (finish (writeSlot s (pos % size) v (pos + 1)) t .pushed)
    | .popStart => some (setPc s t (.popSeq s.readIndex))
    -- `match seq.cmp(&(pos + 1))`
    | .popSeq pos =>
      if s.sequence (pos % size) = pos + 1 then some (setPc s t (.popCas pos))
      else if s.sequence (pos % size) < pos + 1 then some (finish s t .empty)
      else some (setPc s t .popReload)
    | .popReload => some (setPc s t (.popSeq s.readIndex))
    | .popCas pos =>
      if s.readIndex = pos then
        some { setPc s t (.popRead pos) with readIndex := pos + 1 }
      else some (setPc s t (.popSeq s.readIndex))
    | .popRead pos =>
      some (finish (freeSlot s (pos % size) (pos + size)) t (readResult (s.value (pos % size))))

/-! ## §2 A Consumer That Spins -/

/-- Consumer `t` is in `pop`'s loop at `pos`, `read_index` is still `pos`, and the slot's
sequence is beyond `pos + 1`: the `Greater` arm. -/
def Spinning (size : Nat) (s : State α) (t pos : Nat) : Prop :=
  (s.pc t = .popSeq pos ∨ s.pc t = .popReload) ∧ s.readIndex = pos ∧
    pos + 1 < s.sequence (pos % size)

/-- **Step lemma**: a spinning consumer's step keeps it spinning and changes nothing
but its position. -/
theorem pop_spins {size : Nat} {s : State α} {t pos : Nat} (h : Spinning size s t pos) :
    ∃ p, step size s (.step t) = some (setPc s t p) ∧ Spinning size (setPc s t p) t pos := by
  obtain ⟨hpc, hr, hseq⟩ := h
  rcases hpc with hpc | hpc
  · -- the load finds the slot ahead: `Ordering::Greater`
    refine ⟨.popReload, ?_, .inr (by simp [setPc]), hr, hseq⟩
    have hne : s.sequence (pos % size) ≠ pos + 1 := Nat.ne_of_gt hseq
    have hnlt : ¬ s.sequence (pos % size) < pos + 1 := Nat.not_lt.mpr hseq.le
    simp only [step, hpc, if_neg hne, if_neg hnlt]
  · -- the reload reads `read_index`, still `pos`
    refine ⟨.popSeq pos, ?_, .inl (by simp [setPc]), hr, hseq⟩
    simp only [step, hpc, hr]

/-- **Run lemma**: however long a spinning consumer runs alone, it does not return. -/
theorem pop_spins_forever {size : Nat} {s : State α} {t pos : Nat} (h : Spinning size s t pos)
    (n : Nat) : ∃ s', exec (step size) s (List.replicate n (.step t)) = some s' ∧
      Spinning size s' t pos ∧ s'.results = s.results := by
  induction n generalizing s with
  | zero => exact ⟨s, rfl, h, rfl⟩
  | succ n ih =>
    obtain ⟨p, hstep, hspin⟩ := pop_spins h
    obtain ⟨s', hexec, hspin', hres⟩ := ih hspin
    refine ⟨s', ?_, hspin', hres⟩
    rw [List.replicate_succ, exec_cons, hstep, Option.bind_some, hexec]

/-! ## §3 Two Schedules -/

/-- With one slot: thread `0` pushes `1` and then `2`, and thread `1` calls `pop`, which
loads `read_index` and finds the slot at sequence `2`. -/
def sizeOneSchedule : List (Label Nat) :=
  [.push 0 1, .step 0, .step 0, .step 0, .step 0,
   .push 0 2, .step 0, .step 0, .step 0, .step 0,
   .pop 1, .step 1]

/-- With two slots: thread `0` claims slot `0` and is preempted before writing it;
thread `1` pushes into slot `1` and returns; then thread `2` calls `pop`. -/
def claimedSchedule : List (Label Nat) :=
  [.push 0 1, .step 0, .step 0, .step 0,
   .push 1 2, .step 1, .step 1, .step 1, .step 1,
   .pop 2, .step 2, .step 2]

/-- The queue is not a bounded FIFO queue of capacity `SIZE`.  With `SIZE = 1`, both
pushes return `Ok` although the first value is never popped, the slot then holds only
the second value, and the `pop` after them never returns.  With `SIZE = 2`, `pop` returns
`None` after a `try_push` has returned `Ok` and with no `pop` before it. -/
theorem mpmc_not_a_bounded_queue :
    (exec (step 1) new sizeOneSchedule).map (fun s => (s.results, s.value 0)) =
        some ([.pushed, .pushed], some 2) ∧
      (∀ n, (exec (step 1) new (sizeOneSchedule ++ List.replicate n (.step 1))).map
        State.results = some [.pushed, .pushed]) ∧
      (exec (step 2) new claimedSchedule).map State.results = some [.pushed, .empty] := by
  refine ⟨rfl, fun n => ?_, rfl⟩
  -- after the schedule, thread `1` is in `pop`'s loop at `0` and the slot is at `2`
  obtain ⟨s, hs⟩ : ∃ s, exec (step 1) new sizeOneSchedule = some s := ⟨_, rfl⟩
  have hspin : Spinning 1 s 1 0 := by
    simp only [sizeOneSchedule, exec_cons, exec_nil] at hs
    cases hs
    exact ⟨.inl rfl, rfl, by decide⟩
  have hres : s.results = [.pushed, .pushed] := by
    simp only [sizeOneSchedule, exec_cons, exec_nil] at hs
    cases hs
    rfl
  obtain ⟨s', hexec, -, hres'⟩ := pop_spins_forever hspin n
  rw [exec_append, hs, Option.bind_some, hexec, Option.map_some, hres', hres]

end Beskar.Hyperdrive.Mpmc
