import Beskar.Hyperdrive.Mpmc
import Beskar.Lib.Machine

/-!
# The MPMC Queue, One Call at a Time

`mpmc_not_a_bounded_queue` shows two ways in which `MpmcQueue` is not a bounded FIFO
queue: with one slot, and with a producer preempted between its claim and its write.
This module shows that for calls that do not overlap these are the only ways: with at
least two slots, a sequence of `try_push` and `pop` calls, each run to its return before
the next starts, returns what a FIFO queue of capacity `SIZE` returns.

The argument is Vyukov's: the positions from `read_index` to `read_index + SIZE` name
every slot once, so the slot of a position is told apart from the others by its
sequence number, `pos + 1` once written and `pos` while free.

## Main results

- `SeqInv`: the invariant between calls, with the FIFO queue's contents as its index.
- `SeqInv.push`, `SeqInv.pop`: a call run alone keeps `SeqInv` and returns what the FIFO
  queue returns.
- `mpmc_sequential_fifo`: from `MpmcQueue::new()`, every sequence of calls run one at a
  time returns, call by call, what the FIFO queue returns.
-/

namespace Beskar.Hyperdrive.Mpmc

open Beskar.Lib

variable {α : Type}

/-! ## §1 Calls Run Alone -/

/-- A call to the queue. -/
inductive Op (α : Type) where
  | push (value : α)
  | pop
deriving DecidableEq, Repr

/-- The label of thread `0` starting the call. -/
def Op.label : Op α → Label α
  | .push v => .push 0 v
  | .pop => .pop 0

/-- Thread `t`'s steps until it is back at rest, at most `fuel` of them. -/
def runAlone (size t : Nat) : Nat → State α → Option (State α)
  | 0, s => some s
  | fuel + 1, s =>
    match s.pc t with
    | .idle => some s
    | _ => (step size s (.step t)).bind (runAlone size t fuel)

/-- One call by thread `0`, with no other thread moving until it returns; a call that
nothing disturbs takes at most four steps. -/
def callAlone (size : Nat) (s : State α) (op : Op α) : Option (State α) :=
  (step size s op.label).bind (runAlone size 0 4)

/-- What the queue is for: a FIFO queue of capacity `size`, front first, and what each
call returns. -/
def fifoCall (size : Nat) (q : List α) : Op α → List α × Option (Result α)
  | .push v => if q.length < size then (q ++ [v], some .pushed) else (q, some (.full v))
  | .pop =>
    match q with
    | [] => ([], some .empty)
    | v :: q => (q, some (.popped v))

@[simp]
theorem fifoCall_pop_cons (size : Nat) (x : α) (q : List α) :
    fifoCall size (x :: q) .pop = (q, some (.popped x)) := rfl

/-! ## §2 The Invariant Between Calls -/

/-- Positions less than `size` apart have different slots. -/
theorem mod_ne_of_ne {size a i j : Nat} (hi : i < size) (hj : j < size) (hij : i ≠ j) :
    (a + i) % size ≠ (a + j) % size := by
  intro h
  have hmod := Nat.ModEq.add_left_cancel' a h
  rw [Nat.ModEq, Nat.mod_eq_of_lt hi, Nat.mod_eq_of_lt hj] at hmod
  exact hij hmod

/-- Between calls: every thread at rest; the positions from `read_index` to
`write_index` hold the queue's values with sequence `pos + 1`, and the free positions up
to `read_index + size` have sequence `pos`. -/
structure SeqInv (size : Nat) (s : State α) (q : List α) : Prop where
  idle : ∀ t, s.pc t = .idle
  write_eq : s.writeIndex = s.readIndex + q.length
  length_le : q.length ≤ size
  occupied : ∀ i (h : i < q.length),
    s.sequence ((s.readIndex + i) % size) = s.readIndex + i + 1 ∧
      s.value ((s.readIndex + i) % size) = some q[i]
  free : ∀ i, q.length ≤ i → i < size → s.sequence ((s.readIndex + i) % size) = s.readIndex + i

theorem SeqInv.new (size : Nat) : SeqInv size (new : State α) [] where
  idle _ := rfl
  write_eq := rfl
  length_le := Nat.zero_le _
  occupied _ h := absurd h (Nat.not_lt_zero _)
  free i _ hi := by simp [Mpmc.new, Nat.mod_eq_of_lt hi]

/-- Thread `0` back at rest, when every thread was. -/
theorem update_idle {s : State α} (h : ∀ t, s.pc t = .idle) (t : Nat) :
    Function.update s.pc 0 .idle t = .idle := by
  rw [Function.update_apply]
  split
  · rfl
  · exact h t

/-! ## §3 One Call -/

/-- A `try_push` run alone appends to the queue when it has room, and returns
`Err(MpmcQueueFullError(value))` when it holds `size` values: the slot of `write_index` is
then the front's, whose sequence `read_index + 1` is behind `write_index` because
`2 ≤ size`. -/
theorem SeqInv.push {size : Nat} (hsize : 2 ≤ size) {s : State α} {q : List α}
    (h : SeqInv size s q) (v : α) :
    ∃ s', callAlone size s (.push v) = some s' ∧ SeqInv size s' (fifoCall size q (.push v)).1 ∧
      s'.results = s.results ++ (fifoCall size q (.push v)).2.toList ∧
      s'.writeIndex ≤ s.writeIndex + 1 := by
  have hw := h.write_eq
  by_cases hlen : q.length < size
  · -- the slot of `write_index` is free, with sequence `write_index`
    have hseq : s.sequence (s.writeIndex % size) = s.writeIndex := by
      rw [hw]
      exact h.free q.length le_rfl hlen
    refine ⟨{ s with
        pc := Function.update s.pc 0 .idle
        writeIndex := s.writeIndex + 1
        sequence := Function.update s.sequence (s.writeIndex % size) (s.writeIndex + 1)
        value := Function.update s.value (s.writeIndex % size) (some v)
        results := s.results ++ [.pushed] }, ?_, ?_, ?_, le_rfl⟩
    · simp [callAlone, Op.label, runAlone, step, setPc, finish, writeSlot, h.idle 0, hseq]
    · simp only [fifoCall, hlen, if_true]
      refine ⟨update_idle h.idle, by simp [hw]; omega, by simp; omega, ?_, ?_⟩
      · intro i hi
        rcases Nat.lt_or_ge i q.length with hiq | hiq
        · -- an older value: its slot is not the one written
          have hne : (s.readIndex + i) % size ≠ s.writeIndex % size := by
            rw [hw]
            exact mod_ne_of_ne (by omega) hlen (by omega)
          simp only [Function.update_of_ne hne, List.getElem_append_left hiq]
          exact h.occupied i hiq
        · have hi' : i = q.length := by simp at hi; omega
          subst hi'
          simp [← hw]
      · intro i hi hsi
        simp only [List.length_append, List.length_singleton] at hi
        have hne : (s.readIndex + i) % size ≠ s.writeIndex % size := by
          rw [hw]
          exact mod_ne_of_ne hsi hlen (by omega)
        simp only [Function.update_of_ne hne]
        exact h.free i (by omega) hsi
    · simp [fifoCall, hlen]
  · -- full: the slot of `write_index` is the front's
    have hfull : q.length = size := by have := h.length_le; omega
    have hfront : s.sequence (s.writeIndex % size) = s.readIndex + 1 := by
      have := (h.occupied 0 (by omega)).1
      rw [hw, hfull, Nat.add_mod_right]
      simpa using this
    have hne : s.readIndex + 1 ≠ s.writeIndex := by omega
    have hlt : s.readIndex + 1 < s.writeIndex := by omega
    refine ⟨{ s with
        pc := Function.update s.pc 0 .idle
        results := s.results ++ [.full v] }, ?_, ?_, ?_, Nat.le_succ _⟩
    · simp [callAlone, Op.label, runAlone, step, setPc, finish, h.idle 0, hfront, hne, hlt]
    · simp only [fifoCall, hlen, if_false]
      exact ⟨update_idle h.idle, h.write_eq, h.length_le, h.occupied, h.free⟩
    · simp [fifoCall, hlen]

/-- A `pop` run alone takes the front when the queue has one, and returns `None` when it
is empty: the slot of `read_index` is then free, with sequence `read_index`. -/
theorem SeqInv.pop {size : Nat} (hsize : 2 ≤ size) {s : State α} {q : List α}
    (h : SeqInv size s q) :
    ∃ s', callAlone size s .pop = some s' ∧ SeqInv size s' (fifoCall size q .pop).1 ∧
      s'.results = s.results ++ (fifoCall size q .pop).2.toList ∧
      s'.writeIndex ≤ s.writeIndex + 1 := by
  have hw := h.write_eq
  cases q with
  | nil =>
    have hseq : s.sequence (s.readIndex % size) = s.readIndex := by
      simpa using h.free 0 le_rfl (by omega)
    refine ⟨{ s with
        pc := Function.update s.pc 0 .idle
        results := s.results ++ [.empty] }, ?_, ?_, ?_, Nat.le_succ _⟩
    · simp [callAlone, Op.label, runAlone, step, setPc, finish, h.idle 0, hseq]
    · exact ⟨update_idle h.idle, h.write_eq, h.length_le, h.occupied, h.free⟩
    · rfl
  | cons x q =>
    -- the front's slot has sequence `read_index + 1` and holds `x`
    obtain ⟨hseq, hval⟩ := h.occupied 0 (by simp)
    simp only [Nat.add_zero, List.getElem_cons_zero] at hseq hval
    refine ⟨{ s with
        pc := Function.update s.pc 0 .idle
        readIndex := s.readIndex + 1
        sequence := Function.update s.sequence (s.readIndex % size) (s.readIndex + size)
        results := s.results ++ [.popped x] }, ?_, ?_, ?_, Nat.le_succ _⟩
    · simp [callAlone, Op.label, runAlone, step, setPc, finish, freeSlot, readResult, h.idle 0,
        hseq, hval]
    · have hlen := h.length_le
      simp only [List.length_cons] at hw hlen
      simp only [fifoCall_pop_cons]
      refine ⟨update_idle h.idle, by simp only [hw]; omega, by omega, ?_, ?_⟩
      · intro i hi
        -- the values behind the front move up one position, in slots other than the front's
        have hne : (s.readIndex + 1 + i) % size ≠ s.readIndex % size := by
          have : (s.readIndex + (i + 1)) % size ≠ (s.readIndex + 0) % size :=
            mod_ne_of_ne (by omega) (by omega) (by omega)
          simpa [Nat.add_assoc, Nat.add_comm 1 i] using this
        simp only [Function.update_of_ne hne]
        have := h.occupied (i + 1) (by simp; omega)
        simpa [Nat.add_assoc, Nat.add_comm 1 i] using this
      · intro i hi hsi
        rcases Nat.lt_or_ge (i + 1) size with hlt | hge
        · -- a free position that was free before
          have hne : (s.readIndex + 1 + i) % size ≠ s.readIndex % size := by
            have : (s.readIndex + (i + 1)) % size ≠ (s.readIndex + 0) % size :=
              mod_ne_of_ne hlt (by omega) (by omega)
            simpa [Nat.add_assoc, Nat.add_comm 1 i] using this
          simp only [Function.update_of_ne hne]
          have := h.free (i + 1) (by simp; omega) hlt
          simpa [Nat.add_assoc, Nat.add_comm 1 i] using this
        · -- the last position is the front's slot, just freed with `read_index + size`
          have hi' : i + 1 = size := by omega
          have hslot : (s.readIndex + 1 + i) % size = s.readIndex % size := by
            rw [Nat.add_assoc, Nat.add_comm 1 i, hi', Nat.add_mod_right]
          dsimp only
          rw [hslot, Function.update_self]
          omega
    · rfl

/-! ## §4 Every Sequence of Calls -/

/-- **Sequential correctness**: with at least two slots, from `MpmcQueue::new()`, every
sequence of fewer than `2 ^ 64 - size` `try_push` and `pop` calls, each run by itself to its
return, returns call by call what a FIFO queue of capacity `size` returns, and leaves the
queue holding that FIFO queue's contents.  Each call moves `write_index` by at most one, so
`write_index + size` stays below `2 ^ 64`: no position `pos + 1` and no sequence number
`pos + size` of the run reaches `2 ^ 64`, and the `usize` arithmetic of `mpmc.rs` never
wraps along it. -/
theorem mpmc_sequential_fifo {size : Nat} (hsize : 2 ≤ size) (ops : List (Op α))
    (hcalls : ops.length + size < 2 ^ 64) :
    ∃ s, exec (callAlone size) new ops = some s ∧
      s.results = (Machine.runTotal (fifoCall size) [] ops).2 ∧
      SeqInv size s (Machine.runTotal (fifoCall size) [] ops).1 ∧ s.writeIndex + size < 2 ^ 64 := by
  -- the run lemma: from any state between calls, with the log so far
  suffices h : ∀ (s : State α) q, SeqInv size s q → ∃ s', exec (callAlone size) s ops = some s' ∧
      s'.results = s.results ++ (Machine.runTotal (fifoCall size) q ops).2 ∧
      SeqInv size s' (Machine.runTotal (fifoCall size) q ops).1 ∧
      s'.writeIndex ≤ s.writeIndex + ops.length by
    obtain ⟨s, hrun, hres, hinv, hidx⟩ := h new [] (SeqInv.new size)
    refine ⟨s, hrun, by simpa [Mpmc.new] using hres, hinv, ?_⟩
    -- `new` starts `write_index` at zero
    have h0 : (new : State α).writeIndex = 0 := rfl
    omega
  induction ops with
  | nil => exact fun s q h => ⟨s, rfl, by simp [Machine.runTotal], h, by simp⟩
  | cons op ops ih =>
    intro s q h
    -- one call, then the rest
    obtain ⟨s₁, hs₁, hinv₁, hres₁, hidx₁⟩ : ∃ s₁, callAlone size s op = some s₁ ∧
        SeqInv size s₁ (fifoCall size q op).1 ∧
        s₁.results = s.results ++ (fifoCall size q op).2.toList ∧
        s₁.writeIndex ≤ s.writeIndex + 1 := by
      cases op with
      | push v => exact h.push hsize v
      | pop => exact h.pop hsize
    obtain ⟨s₂, hs₂, hres₂, hinv₂, hidx₂⟩ := ih (by simp at hcalls; omega) s₁ _ hinv₁
    refine ⟨s₂, by rw [exec_cons, hs₁, Option.bind_some, hs₂], ?_, hinv₂, ?_⟩
    · rw [hres₂, hres₁, Machine.runTotal, List.append_assoc]
    · simp only [List.length_cons]
      omega

/-- Two slots, three pushes and a pop: the third push finds the queue full. -/
theorem mpmc_sequential_fifo_twoSlots :
    2 ≤ 2 ∧ [Op.push 1, .push 2, .push 3, .pop].length + 2 < 2 ^ 64 ∧
      ∃ s, exec (callAlone 2) new [.push 1, .push 2, .push 3, .pop] = some s ∧
      s.results = (Machine.runTotal (fifoCall 2) [] [.push 1, .push 2, .push 3, .pop]).2 ∧
      SeqInv 2 s (Machine.runTotal (fifoCall 2) [] [.push 1, .push 2, .push 3, .pop]).1 ∧
      s.writeIndex + 2 < 2 ^ 64 :=
  ⟨le_rfl, by norm_num, mpmc_sequential_fifo (α := Nat) (by decide) _ (by norm_num)⟩

example : (Machine.runTotal (fifoCall 2) [] [.push 1, .push 2, .push 3, .pop]).2 =
    [.pushed, .pushed, .full 3, .popped (1 : Nat)] := rfl

end Beskar.Hyperdrive.Mpmc
