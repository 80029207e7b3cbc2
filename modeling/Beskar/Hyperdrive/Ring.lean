import Beskar.Lib.Circular

/-!
# The Ring Buffer

`Ring<SIZE, T>` of `hyperdrive/src/queues/ring.rs`: `SIZE` slots of `MaybeUninit<T>`, a
read index and a write index. `push` and `try_push` write the slot at the write index and
step it, `pop` reads the slot at the read index and steps it, both by `(i + 1) % SIZE`, and
one slot is kept free to tell a full ring from an empty one.

A slot is `Option T`, `none` while uninitialised. `pop` reads a slot with `ptr::read` and
`assume_init`; on an uninitialised slot that is undefined behaviour, which is `none` here,
as a panic is. Both indices stay below `SIZE`, so the structure carries that as fields.

The ring is meant to be a bounded FIFO queue of `SIZE - 1` items (`Fifo`). A ring holds a
list when its length is the list's and the slots from the read index on hold the list's
items (`Holds`). Each call keeps that and answers as the queue does (`call_refines`), so
every sequence of calls from `Ring::new` gives the replies and observations the queue does
(`ring_refines_fifo`).
-/

universe u

namespace Beskar.Hyperdrive

open Beskar.Lib

/-- `RingFullError<T>`: the value that did not fit. -/
structure RingFullError (T : Type u) where
  value : T
deriving DecidableEq, Repr

/-- `Ring<SIZE, T>`. -/
structure Ring (SIZE : Nat) (T : Type u) where
  /-- `buffer: [MaybeUninit<T>; SIZE]`. -/
  buffer : Vector (Option T) SIZE
  readIndex : Nat
  writeIndex : Nat
  read_lt : readIndex < SIZE
  write_lt : writeIndex < SIZE

namespace Ring

variable {SIZE : Nat} {T : Type u}

/-- `Ring::new`, whose `const` assertion rules out `SIZE = 0`. -/
def new (h : 0 < SIZE) : Ring SIZE T := ⟨Vector.replicate SIZE none, 0, 0, h, h⟩

/-- `Ring::capacity`. -/
def capacity (_ : Ring SIZE T) : Nat := SIZE

/-- `Ring::len`. -/
def len (self : Ring SIZE T) : Nat :=
  let wIdx := self.writeIndex
  let rIdx := self.readIndex
  if wIdx ≥ rIdx then wIdx - rIdx else self.capacity - rIdx + wIdx

/-- `Ring::is_empty`. -/
def isEmpty (self : Ring SIZE T) : Bool := self.readIndex == self.writeIndex

/-- `Ring::next_write_index`. -/
def nextWriteIndex (self : Ring SIZE T) : Nat := (self.writeIndex + 1) % SIZE

/-- `Ring::next_read_index`. -/
def nextReadIndex (self : Ring SIZE T) : Nat := (self.readIndex + 1) % SIZE

/-- `Ring::is_full`. -/
def isFull (self : Ring SIZE T) : Bool := self.nextWriteIndex == self.readIndex

theorem size_pos (self : Ring SIZE T) : 0 < SIZE := Nat.lt_of_le_of_lt (Nat.zero_le _) self.read_lt

theorem nextWriteIndex_lt (self : Ring SIZE T) : self.nextWriteIndex < SIZE :=
  Nat.mod_lt _ self.size_pos

theorem nextReadIndex_lt (self : Ring SIZE T) : self.nextReadIndex < SIZE :=
  Nat.mod_lt _ self.size_pos

/-- `self.buffer[self.write_index].write(value)` and `self.write_index = next_write_index`,
the part `push` and `try_push` share. -/
def write (self : Ring SIZE T) (value : T) : Ring SIZE T :=
  { self with
    buffer := self.buffer.set self.writeIndex (some value) self.write_lt
    writeIndex := self.nextWriteIndex
    write_lt := self.nextWriteIndex_lt }

/-- `Ring::push`, which asserts that the ring is not full. -/
def push (self : Ring SIZE T) (value : T) : Option (Ring SIZE T) :=
  if self.nextWriteIndex ≠ self.readIndex then some (self.write value) else none

/-- `Ring::try_push`: the value back in the error when the ring is full. -/
def tryPush (self : Ring SIZE T) (value : T) : Except (RingFullError T) (Ring SIZE T) :=
  if self.nextWriteIndex = self.readIndex then .error ⟨value⟩ else .ok (self.write value)

/-- `Ring::pop`: `None` on an empty ring, else the value read from the slot at the read
index, which steps on; `none` if that slot was never written. -/
def pop (self : Ring SIZE T) : Option (Option T × Ring SIZE T) :=
  if self.isEmpty then some (none, self)
  else
    have := self.read_lt
    match self.buffer[self.readIndex] with
    | none => none
    | some value =>
      some (some value, { self with readIndex := self.nextReadIndex, read_lt := self.nextReadIndex_lt })

/-! ## Calls -/

/-- A call on the ring. -/
inductive Call (T : Type u) where
  | push (value : T)
  | tryPush (value : T)
  | pop
deriving DecidableEq, Repr

/-- What a call returns. -/
inductive Reply (T : Type u) where
  | unit
  | result (r : Except (RingFullError T) Unit)
  | value (v : Option T)

/-- One call; `none` when it panics or reads an uninitialised slot. A failed `try_push`
returns before it writes, so it leaves the ring as it was. -/
def call (self : Ring SIZE T) : Call T → Option (Reply T × Ring SIZE T)
  | .push value => (self.push value).map fun r => (.unit, r)
  | .tryPush value =>
    match self.tryPush value with
    | .ok r => some (.result (.ok ()), r)
    | .error e => some (.result (.error e), self)
  | .pop => self.pop.map fun (v, r) => (.value v, r)

/-- What a run shows after each call: the reply, then `len()`, `is_empty()` and `is_full()`.
The run stops at the first call that faults. -/
def run (self : Ring SIZE T) : List (Call T) → List (Option (Reply T × Nat × Bool × Bool))
  | [] => []
  | c :: cs =>
    match self.call c with
    | none => [none]
    | some (rep, r) => some (rep, r.len, r.isEmpty, r.isFull) :: r.run cs

end Ring

/-! ## The Bounded Queue

What the ring is for: a FIFO queue that holds at most `cap` items. `push` faults and
`try_push` fails exactly when the queue is full, and `pop` takes the oldest item. -/

namespace Fifo

open Beskar.Hyperdrive.Ring (Call Reply)

variable {T : Type u}

/-- One call on a queue of capacity `cap`. -/
def call (cap : Nat) (q : List T) : Call T → Option (Reply T × List T)
  | .push value => if q.length < cap then some (.unit, q ++ [value]) else none
  | .tryPush value =>
    if q.length < cap then some (.result (.ok ()), q ++ [value])
    else some (.result (.error ⟨value⟩), q)
  | .pop =>
    match q with
    | [] => some (.value none, [])
    | x :: xs => some (.value (some x), xs)

/-- A run of calls, showing after each the reply, the length, emptiness and fullness. -/
def run (cap : Nat) (q : List T) : List (Call T) → List (Option (Reply T × Nat × Bool × Bool))
  | [] => []
  | c :: cs =>
    match call cap q c with
    | none => [none]
    | some (rep, q') => some (rep, q'.length, q'.isEmpty, q'.length == cap) :: run cap q' cs

end Fifo

/-! ## The Ring Holds a Queue -/

namespace Ring

variable {SIZE : Nat} {T : Type u} {r : Ring SIZE T} {q : List T} {value : T}

/-- The slot an index names, wrapping at `SIZE`. -/
def slotAt (self : Ring SIZE T) (i : Nat) : Option T :=
  have : i % SIZE < SIZE := Nat.mod_lt _ self.size_pos
  self.buffer[i % SIZE]

/-- The slots from the read index on, `len()` of them. -/
def view (self : Ring SIZE T) : List (Option T) :=
  (List.range self.len).map fun k => self.slotAt (self.readIndex + k)

/-- The ring holds the queue `q`: its live slots are `q`'s items, oldest first. -/
def Holds (self : Ring SIZE T) (q : List T) : Prop := self.view = q.map some

@[simp] theorem length_view (self : Ring SIZE T) : self.view.length = self.len := by
  simp [view]

theorem len_eq_ringDist (self : Ring SIZE T) :
    self.len = ringDist self.readIndex self.writeIndex SIZE := by
  unfold len ringDist capacity
  simp only [ge_iff_le]

theorem len_lt (self : Ring SIZE T) : self.len < SIZE := by
  rw [len_eq_ringDist]
  exact ringDist_lt self.read_lt self.write_lt

theorem isEmpty_eq (self : Ring SIZE T) : self.isEmpty = (self.len == 0) := by
  unfold isEmpty
  rw [len_eq_ringDist, Bool.eq_iff_iff, beq_iff_eq, beq_iff_eq,
    ringDist_eq_zero_iff self.read_lt]

theorem isFull_eq (self : Ring SIZE T) : self.isFull = (self.len == SIZE - 1) := by
  have hlt := self.len_lt
  unfold isFull nextWriteIndex
  rw [Bool.eq_iff_iff, beq_iff_eq, beq_iff_eq, succ_mod_eq_iff self.read_lt self.write_lt, ← len_eq_ringDist]
  omega

/-! ### Writing -/

@[simp] theorem write_readIndex (self : Ring SIZE T) :
    (self.write value).readIndex = self.readIndex := rfl

@[simp] theorem write_writeIndex (self : Ring SIZE T) :
    (self.write value).writeIndex = self.nextWriteIndex := rfl

theorem slotAt_write (self : Ring SIZE T) (i : Nat) :
    (self.write value).slotAt i =
      if i % SIZE = self.writeIndex then some value else self.slotAt i := by
  simp only [slotAt, write, Vector.getElem_set]
  grind

theorem len_write (self : Ring SIZE T) (h : self.len + 1 < SIZE) :
    (self.write value).len = self.len + 1 := by
  simp only [len_eq_ringDist, write_readIndex, write_writeIndex, nextWriteIndex] at h ⊢
  exact ringDist_succ_tail self.read_lt self.write_lt h

/-- Writing at the write index appends to the view, short of a full ring. -/
theorem view_write (self : Ring SIZE T) (h : self.len + 1 < SIZE) :
    (self.write value).view = self.view ++ [some value] := by
  have hw : (self.readIndex + self.len) % SIZE = self.writeIndex := by
    rw [len_eq_ringDist]
    exact add_ringDist_mod self.read_lt self.write_lt
  simp only [view, len_write self h, List.range_succ, List.map_append, write_readIndex,
    List.map_cons, List.map_nil, slotAt_write, hw, if_true]
  congr 1
  refine List.map_congr_left fun k hk => ?_
  -- the live slots lie at offsets below `len`, the write index at offset `len`
  rw [List.mem_range] at hk
  rw [if_neg (hw ▸ add_mod_ne hk (by omega))]

/-! ### Reading -/

/-- `pop` past its emptiness check: the read index steps on. -/
def advance (self : Ring SIZE T) : Ring SIZE T :=
  { self with readIndex := self.nextReadIndex, read_lt := self.nextReadIndex_lt }

theorem pop_eq (self : Ring SIZE T) : self.pop =
    if self.isEmpty then some (none, self)
    else (self.slotAt self.readIndex).map fun v => (some v, self.advance) := by
  unfold pop advance slotAt
  simp only [Nat.mod_eq_of_lt self.read_lt]
  split
  · rfl
  · split <;> simp_all

theorem len_advance (self : Ring SIZE T) (h : self.len ≠ 0) : self.advance.len = self.len - 1 := by
  have hne : self.readIndex ≠ self.writeIndex := by
    rwa [len_eq_ringDist, Ne, ringDist_eq_zero_iff self.read_lt] at h
  simp only [len_eq_ringDist, advance, nextReadIndex]
  exact ringDist_succ_head self.read_lt self.write_lt hne

/-- A non-empty view is the slot at the read index, then the view past it. -/
theorem view_eq_cons (self : Ring SIZE T) (h : self.len ≠ 0) :
    self.view = self.slotAt self.readIndex :: self.advance.view := by
  obtain ⟨n, hn⟩ := Nat.exists_eq_succ_of_ne_zero h
  have hlen : self.advance.len = n := by rw [len_advance self h, hn]; rfl
  simp only [view, hlen, hn, List.range_succ_eq_map, List.map_cons, List.map_map, Nat.add_zero]
  congr 1
  refine List.map_congr_left fun k _ => ?_
  simp only [Function.comp, slotAt, advance, nextReadIndex, succ_mod_add_mod]

/-! ### One Call, Then a Run -/

theorem holds_len (hq : r.Holds q) : r.len = q.length := by
  rw [← length_view, hq, List.length_map]

/-- What the queue shows after a call, the ring shows when it holds the queue. -/
theorem obs_eq (hq : r.Holds q) :
    (r.len, r.isEmpty, r.isFull) = (q.length, q.isEmpty, q.length == SIZE - 1) := by
  have hlen := holds_len hq
  rw [isEmpty_eq, isFull_eq, hlen]
  cases q <;> rfl

/-- `Ring::new` holds the empty queue. -/
theorem holds_new (h : 0 < SIZE) : (new h : Ring SIZE T).Holds [] := rfl

theorem holds_write (hq : r.Holds q) (h : q.length < SIZE - 1) :
    (r.write value).Holds (q ++ [value]) := by
  have hroom : r.len + 1 < SIZE := by have := holds_len hq; omega
  unfold Holds
  rw [view_write r hroom, hq, List.map_append, List.map_singleton]

/-- A ring that holds `x :: xs` has `x` at its read index, and past it holds `xs`. -/
theorem holds_cons {x : T} {xs : List T} (hq : r.Holds (x :: xs)) :
    r.slotAt r.readIndex = some x ∧ r.advance.Holds xs := by
  have hne : r.len ≠ 0 := by simp [holds_len hq]
  have h := view_eq_cons r hne
  rw [hq, List.map_cons] at h
  obtain ⟨hx, hxs⟩ := List.cons.inj h
  exact ⟨hx.symm, hxs.symm⟩

/-- The ring has room for one more exactly when `next_write_index` is not the read index. -/
theorem nextWriteIndex_eq_readIndex_iff (self : Ring SIZE T) :
    self.nextWriteIndex = self.readIndex ↔ self.len + 1 = SIZE := by
  unfold nextWriteIndex
  rw [succ_mod_eq_iff self.read_lt self.write_lt, len_eq_ringDist]

theorem push_eq (self : Ring SIZE T) :
    self.push value = if self.len + 1 < SIZE then some (self.write value) else none := by
  have hlt := self.len_lt
  have hfull := self.nextWriteIndex_eq_readIndex_iff
  unfold push
  by_cases h : self.len + 1 < SIZE
  · rw [if_pos (by omega), if_pos h]
  · rw [if_neg (by omega), if_neg h]

theorem tryPush_eq (self : Ring SIZE T) :
    self.tryPush value =
      if self.len + 1 < SIZE then .ok (self.write value) else .error ⟨value⟩ := by
  have hlt := self.len_lt
  have hfull := self.nextWriteIndex_eq_readIndex_iff
  unfold tryPush
  by_cases h : self.len + 1 < SIZE
  · rw [if_neg (by omega), if_pos h]
  · rw [if_pos (by omega), if_neg h]

/-- One call on a ring that holds `q` answers as the queue of capacity `SIZE - 1` does, and
the ring it leaves holds the queue the call leaves; both fault together. -/
theorem call_refines (hq : r.Holds q) (c : Call T) :
    Option.Rel (fun a b => a.1 = b.1 ∧ a.2.Holds b.2) (r.call c)
      (Fifo.call (SIZE - 1) q c) := by
  have hlen := holds_len hq
  have hlt := r.len_lt
  -- the ring has room exactly when the queue does
  have hroom : r.len + 1 < SIZE ↔ q.length < SIZE - 1 := by omega
  cases c with
  | push value =>
    by_cases h : q.length < SIZE - 1
    · simp only [call, Fifo.call, push_eq, hroom.mpr h, if_pos h]
      exact .some ⟨rfl, holds_write hq h⟩
    · simp only [call, Fifo.call, push_eq, hroom, if_neg h, Option.map_none]
      exact .none
  | tryPush value =>
    by_cases h : q.length < SIZE - 1
    · simp only [call, Fifo.call, tryPush_eq, hroom.mpr h, if_pos h]
      exact .some ⟨rfl, holds_write hq h⟩
    · simp only [call, Fifo.call, tryPush_eq, hroom, if_neg h]
      exact .some ⟨rfl, hq⟩
  | pop =>
    cases q with
    | nil =>
      have he : r.isEmpty = true := by rw [isEmpty_eq, hlen]; rfl
      simp only [call, Fifo.call, pop_eq, he, if_true, Option.map_some]
      exact .some ⟨rfl, hq⟩
    | cons x xs =>
      have he : r.isEmpty = false := by rw [isEmpty_eq, hlen]; rfl
      obtain ⟨hx, hxs⟩ := holds_cons hq
      simp only [call, Fifo.call, pop_eq, he, hx, Bool.false_eq_true, if_false, Option.map_some]
      exact .some ⟨rfl, hxs⟩

/-- From any ring that holds `q`, every run of calls shows what the queue's run shows. -/
theorem run_eq_of_holds (hq : r.Holds q) (calls : List (Call T)) :
    r.run calls = Fifo.run (SIZE - 1) q calls := by
  -- induction on the calls; `Holds` carries from each state to the next
  induction calls generalizing r q with
  | nil => rfl
  | cons c cs ih =>
    have hc := call_refines hq c
    unfold run Fifo.run
    generalize r.call c = a at hc ⊢
    generalize Fifo.call (SIZE - 1) q c = b at hc ⊢
    cases hc with
    | none => rfl
    | @some a b hab =>
      obtain ⟨rep, r'⟩ := a
      obtain ⟨rep', q'⟩ := b
      obtain ⟨hrep, h'⟩ := hab
      dsimp only at hrep h' ⊢
      rw [hrep, obs_eq h', ih h']

/-- `Ring<SIZE, T>` from `Ring::new` is a bounded FIFO queue of `SIZE - 1` items: every
sequence of `push`, `try_push` and `pop` calls gives the replies, faults, `len()`,
`is_empty()` and `is_full()` the queue gives. -/
theorem ring_refines_fifo (h : 0 < SIZE) (calls : List (Call T)) :
    (new h : Ring SIZE T).run calls = Fifo.run (SIZE - 1) [] calls :=
  run_eq_of_holds (holds_new h) calls

/-- The example of `ring.rs`'s module docs: three pushes fill a `Ring<4, usize>`,
`try_push(4)` fails, and four pops give 1, 2, 3 and `None`. -/
theorem ring_refines_fifo_doc :
    let calls : List (Call Nat) := [.push 1, .push 2, .push 3, .tryPush 4, .pop, .pop, .pop, .pop]
    0 < 4 ∧ (new (by decide) : Ring 4 Nat).run calls = Fifo.run 3 [] calls ∧
      Fifo.run 3 [] calls =
        [some (.unit, 1, false, false), some (.unit, 2, false, false),
          some (.unit, 3, false, true), some (.result (.error ⟨4⟩), 3, false, true),
          some (.value (some 1), 2, false, false), some (.value (some 2), 1, false, false),
          some (.value (some 3), 0, true, false), some (.value none, 0, true, false)] :=
  ⟨by decide, ring_refines_fifo (by decide) _, rfl⟩

end Ring

end Beskar.Hyperdrive
