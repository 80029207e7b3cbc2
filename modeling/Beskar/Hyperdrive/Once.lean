import Beskar.Lib.Transition

/-!
# One-Time Initialisation

Model of `Once::call_once` and `Once::get` (`hyperdrive/src/once.rs`) as a transition
system: finitely many agents call them in any interleaving of their atomic steps
(sequentially consistent memory).  The `AtomicState` is the raw `AtomicU8` the source
stores `State::as_u8` into and decodes with `State::from_u8_unchecked`; a byte that does
not decode would be undefined behaviour, and the model cannot step there.  The cell
`UnsafeCell<MaybeUninit<T>>` is an `Option T`, `none` while uninitialised.

An agent's call of `call_once` carries what its initializer will do: return a value, or
panic, which drops the `PoisonGuard` and stores `Poisoned` on the way out.

Each atomic access is one step:

- `call_once`: `compare_exchange(Uninitialized, Initializing)`; the winner runs the
  initializer, writes the cell and stores `Initialized`;
- `get`: a load, and on `Initializing` a spin of loads, then one more load.

A ghost field counts the calls of initializers.

## Main results

- `Inv`: in every reachable state the byte decodes, one agent initialises exactly while
  the state is `Initializing`, and every `get` that returned a value returned the cell
  (`Reach.inv`).
- `once_initializer_runs_once`: at most one initializer is ever called.
- `once_gets_agree`: every `get` that returns a value returns the same, initialised value.
- `once_reads_initialized`: `from_u8_unchecked` always sees a valid byte, and the cell is
  written whenever the state reads `Initialized`, as `get` and `drop` assume.
- `once_final_stable`: from `Initialized` or `Poisoned` every run keeps the state and the
  cell.
- `once_deadlock_free`: while an agent is inside `call_once` or `get`, some agent can move.
-/

namespace Beskar.Hyperdrive.Once

open Beskar.Lib

/-- `once::State`. -/
inductive State where
  | initialized
  | initializing
  | uninitialized
  | poisoned
deriving DecidableEq, Repr

namespace State

/-- `State::as_u8`. -/
def asU8 : State → UInt8
  | initialized => 0
  | initializing => 1
  | uninitialized => 2
  | poisoned => 3

/-- `State::from_u8`. -/
def fromU8 (value : UInt8) : Option State :=
  match value.toNat with
  | 0 => some initialized
  | 1 => some initializing
  | 2 => some uninitialized
  | 3 => some poisoned
  | _ => none

@[simp] theorem fromU8_asU8 (s : State) : fromU8 (asU8 s) = some s := by
  cases s <;> rfl

theorem asU8_injective {s s' : State} (h : asU8 s = asU8 s') : s = s' := by
  have := congrArg fromU8 h
  rwa [fromU8_asU8, fromU8_asU8, Option.some.injEq] at this

end State

/-- Where an agent is in `call_once` or `get`. -/
inductive Pc (T : Type) where
  | idle
  /-- `call_once`: `self.state.compare_exchange(Uninitialized, Initializing, ..)` comes next,
  with an initializer that returns `some` value or panics (`none`). -/
  | exchange (init : Option T)
  /-- The exchange won: `PoisonGuard::guard_call(self, initializer)` comes next. -/
  | guardCall (init : Option T)
  /-- `(*self.value.get()).write(initialized_value)` comes next. -/
  | write (v : T)
  /-- `self.state.store(State::Initialized, Release)` comes next. -/
  | publish
  /-- The initializer panicked; the guard stored `Poisoned` and `call_once` unwinds. -/
  | panicked
  /-- `get`: `match self.state.load(Acquire)` comes next. -/
  | load
  /-- `get`: `while self.state.load(Acquire) == State::Initializing`. -/
  | spin
  /-- `get`: `let state = self.state.load(Acquire)` after the spin. -/
  | reload
  /-- `get` returned `None`, or `Some` of the reference to the cell, whose content is
  `some` when it was written. -/
  | got (r : Option (Option T))
  /-- `get` panicked: "Once is poisoned, cannot get value". -/
  | getPanicked

namespace Pc

variable {T : Type}

/-- Outside both functions: never called, returned, or unwound. -/
def outside : Pc T → Bool
  | idle | panicked | got _ | getPanicked => true
  | _ => false

/-- The agent that won the exchange and has not stored the final state yet. -/
def initializing : Pc T → Bool
  | guardCall _ | write _ | publish => true
  | _ => false

end Pc

/-- The `Once`'s byte and cell, each agent's position, and the ghost count of initializer
calls. -/
structure Config (τ : Type) (T : Type) where
  state : UInt8
  value : Option T
  pc : τ → Pc T
  /-- Ghost: the initializers called so far. -/
  runs : Nat

/-- Who moves: an agent calling `call_once` with an initializer, or `get`, or an agent
taking its next step. -/
inductive Label (τ : Type) (T : Type) where
  | callOnce (t : τ) (init : Option T)
  | get (t : τ)
  | step (t : τ)

variable {τ T : Type}

/-! ## §1 Steps -/

section Steps

variable [DecidableEq τ]

namespace Config

/-- `AtomicState::load`: the byte through `State::from_u8_unchecked`. -/
def load (s : Config τ T) : Option State := State.fromU8 s.state

/-- A call, or a load: only the agent's position changes. -/
def setPc (s : Config τ T) (t : τ) (p : Pc T) : Config τ T :=
  { s with pc := Function.update s.pc t p }

/-- The exchange that finds `Uninitialized` stores `Initializing`. -/
def win (s : Config τ T) (t : τ) (init : Option T) : Config τ T :=
  { s with state := State.initializing.asU8, pc := Function.update s.pc t (.guardCall init) }

/-- The initializer returns `v`. -/
def produce (s : Config τ T) (t : τ) (v : T) : Config τ T :=
  { s with runs := s.runs + 1, pc := Function.update s.pc t (.write v) }

/-- The initializer panics, and the `PoisonGuard`'s `drop` stores `Poisoned`. -/
def poison (s : Config τ T) (t : τ) : Config τ T :=
  { s with
    runs := s.runs + 1
    state := State.poisoned.asU8
    pc := Function.update s.pc t .panicked }

/-- The value is written into the cell. -/
def writeValue (s : Config τ T) (t : τ) (v : T) : Config τ T :=
  { s with value := some v, pc := Function.update s.pc t .publish }

/-- `self.state.store(State::Initialized, Release)`. -/
def publish (s : Config τ T) (t : τ) : Config τ T :=
  { s with state := State.initialized.asU8, pc := Function.update s.pc t .idle }

end Config

/-- One atomic step; `none` when the label cannot move: an agent spinning on
`Initializing`, a call from inside a call, or a byte `from_u8_unchecked` cannot decode. -/
def step (s : Config τ T) : Label τ T → Option (Config τ T)
  | .callOnce t init => if (s.pc t).outside then some (s.setPc t (.exchange init)) else none
  | .get t => if (s.pc t).outside then some (s.setPc t .load) else none
  | .step t =>
    match s.pc t with
    | .exchange init =>
      if s.state = State.uninitialized.asU8 then some (s.win t init)
      -- the failed exchange decodes the byte it found, and `call_once` returns
      else s.load.map fun _ => s.setPc t .idle
    | .guardCall (some v) => some (s.produce t v)
    | .guardCall none => some (s.poison t)
    | .write v => some (s.writeValue t v)
    | .publish => some (s.publish t)
    | .load =>
      match s.load with
      | some .initialized => some (s.setPc t (.got (some s.value)))
      | some .initializing => some (s.setPc t .spin)
      | some .uninitialized => some (s.setPc t (.got none))
      | some .poisoned => some (s.setPc t .getPanicked)
      | none => none
    | .spin =>
      match s.load with
      | some .initializing => none
      | some _ => some (s.setPc t .reload)
      | none => none
    | .reload =>
      match s.load with
      | some .initialized => some (s.setPc t (.got (some s.value)))
      -- `debug_assert_eq!(state, State::Poisoned)`, then `poisoned()`
      | some _ => some (s.setPc t .getPanicked)
      | none => none
    | _ => none

/-- `Once::uninit()` or `Once::from_init(v)`, with every agent outside. -/
def IsInit (s : Config τ T) : Prop :=
  (∀ t, s.pc t = .idle) ∧ s.runs = 0 ∧
    ((s.state = State.uninitialized.asU8 ∧ s.value = none) ∨
      ∃ v, s.state = State.initialized.asU8 ∧ s.value = some v)

/-- The configurations some interleaving reaches. -/
def Reach (s : Config τ T) : Prop := Reachable (Det step) IsInit s

/-- What one step can do.  A quiet move only moves an agent between positions outside the
initialisation, and returns the cell from `get` only when the state reads
`Initialized`. -/
inductive Move (s : Config τ T) : Config τ T → Prop where
  | quiet (t : τ) (p : Pc T) (hq : (s.pc t).initializing = false) (hp : p.initializing = false)
      (hgot : ∀ c, p = .got (some c) → s.load = some .initialized ∧ c = s.value) :
      Move s (s.setPc t p)
  | win (t : τ) (init : Option T) (h : s.pc t = .exchange init)
      (hu : s.state = State.uninitialized.asU8) : Move s (s.win t init)
  | produce (t : τ) (v : T) (h : s.pc t = .guardCall (some v)) : Move s (s.produce t v)
  | poison (t : τ) (h : s.pc t = .guardCall none) : Move s (s.poison t)
  | write (t : τ) (v : T) (h : s.pc t = .write v) : Move s (s.writeValue t v)
  | publish (t : τ) (h : s.pc t = .publish) : Move s (s.publish t)

variable {s s' : Config τ T}

/-- A quiet move whose target returns nothing. -/
theorem Move.quiet_of {t : τ} {p : Pc T} (hq : (s.pc t).initializing = false)
    (hp : p.initializing = false) (hr : ∀ c, p ≠ .got (some c)) : Move s (s.setPc t p) :=
  .quiet t p hq hp fun c he => absurd he (hr c)

/-- **Inversion of `step`**: every step is a `Move`. -/
theorem step_move {a : Label τ T} (h : step s a = some s') : Move s s' := by
  cases a with
  | callOnce t init =>
    simp only [step] at h
    split at h <;> rename_i hout
    · cases h
      refine .quiet_of ?_ rfl (fun _ => by simp)
      revert hout
      cases s.pc t <;> simp [Pc.outside, Pc.initializing]
    · cases h
  | get t =>
    simp only [step] at h
    split at h <;> rename_i hout
    · cases h
      refine .quiet_of ?_ rfl (fun _ => by simp)
      revert hout
      cases s.pc t <;> simp [Pc.outside, Pc.initializing]
    · cases h
  | step t =>
    simp only [step] at h
    split at h <;> rename_i hpc
    · -- the exchange
      split at h <;> rename_i hu
      · cases h
        exact .win t _ hpc hu
      · obtain ⟨_, -, rfl⟩ := Option.map_eq_some_iff.mp h
        exact .quiet_of (by rw [hpc]; rfl) rfl (fun _ => by simp)
    · cases h
      exact .produce t _ hpc
    · cases h
      exact .poison t hpc
    · cases h
      exact .write t _ hpc
    · cases h
      exact .publish t hpc
    · -- the first load of `get`
      split at h <;> rename_i hl <;> cases h
      · exact .quiet t _ (by rw [hpc]; rfl) rfl fun c he => ⟨hl, (Option.some.inj (Pc.got.inj he)).symm⟩
      all_goals exact .quiet_of (by rw [hpc]; rfl) rfl (fun _ => by simp)
    · -- the spin
      split at h <;> cases h
      exact .quiet_of (by rw [hpc]; rfl) rfl (fun _ => by simp)
    · -- the load after the spin
      split at h <;> rename_i hl <;> cases h
      · exact .quiet t _ (by rw [hpc]; rfl) rfl fun c he => ⟨hl, (Option.some.inj (Pc.got.inj he)).symm⟩
      · exact .quiet_of (by rw [hpc]; rfl) rfl (fun _ => by simp)
    all_goals cases h

end Steps

/-! ## §2 The Invariant -/

section Invariant

variable [Fintype τ] {s s' : Config τ T}

/-- The agents between a won exchange and the store of the final state. -/
def Config.initializers (s : Config τ T) : Nat := countParties Pc.initializing s.pc

/-- The invariant of every reachable configuration. -/
structure Inv (s : Config τ T) : Prop where
  decodes : s.load.isSome = true
  initializers_le : s.initializers ≤ 1
  initializing_iff : s.load = some .initializing ↔ s.initializers = 1
  uninit : s.load = some .uninitialized → s.value = none ∧ s.runs = 0
  initialized : s.load = some .initialized → s.value.isSome = true
  runs_le : s.runs ≤ 1
  runs_before : ∀ t init, s.pc t = .guardCall init → s.runs = 0
  publish_value : ∀ t, s.pc t = .publish → s.value.isSome = true
  got_value : ∀ t c, s.pc t = .got (some c) → s.load = some .initialized ∧ c = s.value

/-- An agent in the initialisation means the state reads `Initializing`. -/
theorem Inv.initializing_of (h : Inv s) {t : τ} (ht : (s.pc t).initializing = true) :
    s.load = some .initializing := by
  have h1 : 0 < countParties Pc.initializing s.pc := countParties_pos ht
  have h2 : countParties Pc.initializing s.pc ≤ 1 := h.initializers_le
  exact h.initializing_iff.mpr (by unfold Config.initializers; omega)

/-- Outside `Initializing`, nobody initialises. -/
theorem Inv.not_initializing (h : Inv s) (hl : s.load ≠ some .initializing) (t : τ) :
    (s.pc t).initializing = false := by
  cases ht : (s.pc t).initializing
  · rfl
  · exact absurd (h.initializing_of ht) hl

/-- While one agent initialises, every other agent is outside the initialisation and holds
no returned cell. -/
theorem Inv.others (h : Inv s) {t u : τ} (ht : (s.pc t).initializing = true) (hut : u ≠ t) :
    (s.pc u).initializing = false ∧ ∀ c, s.pc u ≠ .got (some c) := by
  refine ⟨?_, fun c hu => ?_⟩
  · cases hu : (s.pc u).initializing
    · rfl
    · have h1 := one_lt_countParties hut hu ht
      have h2 : countParties Pc.initializing s.pc ≤ 1 := h.initializers_le
      omega
  · have hl := h.initializing_of ht
    rw [(h.got_value u c hu).1] at hl
    cases hl

/-- The initialising agent's move out of the initialisation leaves nobody in it. -/
theorem Inv.initializers_leave [DecidableEq τ] (h : Inv s) {t : τ} {p : Pc T}
    (ht : (s.pc t).initializing = true) (hp : p.initializing = false) :
    countParties Pc.initializing (Function.update s.pc t p) = 0 := by
  have h1 := countParties_update_out ht hp
  have h2 : countParties Pc.initializing s.pc = 1 :=
    h.initializing_iff.mp (h.initializing_of ht)
  omega

variable [DecidableEq τ]

/-- **Quiet moves** keep the invariant. -/
theorem Inv.of_quiet (h : Inv s) {t : τ} {p : Pc T} (hq : (s.pc t).initializing = false)
    (hp : p.initializing = false)
    (hgot : ∀ c, p = .got (some c) → s.load = some .initialized ∧ c = s.value) :
    Inv (s.setPc t p) := by
  have hcount : (s.setPc t p).initializers = s.initializers :=
    countParties_update_same (by rw [hq, hp])
  refine ⟨h.decodes, hcount ▸ h.initializers_le, hcount ▸ h.initializing_iff, h.uninit,
    h.initialized, h.runs_le, fun u init hu => ?_, fun u hu => ?_, fun u c hu => ?_⟩
  all_goals rcases eq_or_ne u t with rfl | hut
  all_goals simp only [Config.setPc, Function.update_self, Function.update_of_ne,
    Ne, not_false_eq_true, *] at hu
  · rw [hu] at hp
    cases hp
  · exact h.runs_before u init hu
  · rw [hu] at hp
    cases hp
  · exact h.publish_value u hu
  · exact hgot c hu
  · exact h.got_value u c hu

/-- The winning exchange starts the one initialisation. -/
theorem Inv.of_win (h : Inv s) {t : τ} {init : Option T} (hpc : s.pc t = .exchange init)
    (hu : s.state = State.uninitialized.asU8) : Inv (s.win t init) := by
  have hl : s.load = some .uninitialized := by rw [Config.load, hu, State.fromU8_asU8]
  have hnone : s.initializers = 0 := by
    have := h.initializers_le
    have : s.initializers ≠ 1 := fun h1 => by
      rw [← h.initializing_iff, hl] at h1
      cases h1
    omega
  have hcount : (s.win t init).initializers = 1 := by
    have := countParties_update_into (p := Pc.initializing) (f := s.pc) (t := t)
      (v := .guardCall init) (by rw [hpc]; rfl) rfl
    unfold Config.initializers at hnone
    exact this.trans (by rw [hnone])
  have hl' : (s.win t init).load = some .initializing := State.fromU8_asU8 .initializing
  refine ⟨by rw [hl']; rfl, by omega, by rw [hl', hcount]; simp, fun he => ?_, fun he => ?_,
    h.runs_le, fun u init' _ => (h.uninit hl).2, fun u hu' => ?_, fun u c hu' => ?_⟩
  · rw [hl'] at he
    cases he
  · rw [hl'] at he
    cases he
  all_goals rcases eq_or_ne u t with rfl | hut
  · simp [Config.win] at hu'
  · -- nobody was initialising
    simp only [Config.win, Function.update_of_ne hut] at hu'
    have := h.not_initializing (by rw [hl]; simp) u
    rw [hu'] at this
    cases this
  · simp [Config.win] at hu'
  · -- nobody had returned the cell, since nothing was initialised
    simp only [Config.win, Function.update_of_ne hut] at hu'
    rw [(h.got_value u c hu').1] at hl
    cases hl

/-- The initializer returning is the one call of an initializer. -/
theorem Inv.of_produce (h : Inv s) {t : τ} {v : T} (hpc : s.pc t = .guardCall (some v)) :
    Inv (s.produce t v) := by
  have hinit : (s.pc t).initializing = true := by rw [hpc]; rfl
  have hcount : (s.produce t v).initializers = s.initializers :=
    countParties_update_same (by rw [hpc]; rfl)
  have hruns := h.runs_before t _ hpc
  have hl := h.initializing_of hinit
  refine ⟨h.decodes, hcount ▸ h.initializers_le, hcount ▸ h.initializing_iff, fun he => ?_,
    h.initialized, by simp only [Config.produce]; omega, fun u init hu => ?_, fun u hu => ?_,
    fun u c hu => ?_⟩
  · rw [show (s.produce t v).load = s.load from rfl, hl] at he
    cases he
  all_goals rcases eq_or_ne u t with rfl | hut
  all_goals simp only [Config.produce, Function.update_self, Function.update_of_ne,
    Ne, not_false_eq_true, *] at hu
  all_goals first
    | exact absurd hu ((h.others hinit hut).2 c)
    | have := (h.others hinit hut).1; rw [hu] at this; cases this
    | cases hu

/-- The initializer panicking poisons the `Once`. -/
theorem Inv.of_poison (h : Inv s) {t : τ} (hpc : s.pc t = .guardCall none) :
    Inv (s.poison t) := by
  have hinit : (s.pc t).initializing = true := by rw [hpc]; rfl
  have hcount : (s.poison t).initializers = 0 := h.initializers_leave hinit rfl
  have hl' : (s.poison t).load = some .poisoned := State.fromU8_asU8 .poisoned
  have hruns := h.runs_before t _ hpc
  refine ⟨by rw [hl']; rfl, by omega, by rw [hl', hcount]; simp, fun he => ?_, fun he => ?_,
    by simp only [Config.poison]; omega, fun u init hu => ?_, fun u hu => ?_, fun u c hu => ?_⟩
  · rw [hl'] at he
    cases he
  · rw [hl'] at he
    cases he
  all_goals rcases eq_or_ne u t with rfl | hut
  all_goals simp only [Config.poison, Function.update_self, Function.update_of_ne,
    Ne, not_false_eq_true, *] at hu
  all_goals first
    | exact absurd hu ((h.others hinit hut).2 c)
    | have := (h.others hinit hut).1; rw [hu] at this; cases this
    | cases hu

/-- The write fills the cell. -/
theorem Inv.of_write (h : Inv s) {t : τ} {v : T} (hpc : s.pc t = .write v) :
    Inv (s.writeValue t v) := by
  have hinit : (s.pc t).initializing = true := by rw [hpc]; rfl
  have hcount : (s.writeValue t v).initializers = s.initializers :=
    countParties_update_same (by rw [hpc]; rfl)
  have hl := h.initializing_of hinit
  have hl' : (s.writeValue t v).load = s.load := rfl
  refine ⟨h.decodes, hcount ▸ h.initializers_le, hcount ▸ h.initializing_iff, fun he => ?_,
    fun _ => rfl, h.runs_le, fun u init hu => ?_, fun _ _ => rfl, fun u c hu => ?_⟩
  · rw [hl', hl] at he
    cases he
  all_goals rcases eq_or_ne u t with rfl | hut
  all_goals simp only [Config.writeValue, Function.update_self, Function.update_of_ne,
    Ne, not_false_eq_true, *] at hu
  all_goals first
    | exact absurd hu ((h.others hinit hut).2 c)
    | have := (h.others hinit hut).1; rw [hu] at this; cases this
    | cases hu

/-- The store of `Initialized` ends the initialisation with the cell written. -/
theorem Inv.of_publish (h : Inv s) {t : τ} (hpc : s.pc t = .publish) : Inv (s.publish t) := by
  have hinit : (s.pc t).initializing = true := by rw [hpc]; rfl
  have hcount : (s.publish t).initializers = 0 := h.initializers_leave hinit rfl
  have hl' : (s.publish t).load = some .initialized := State.fromU8_asU8 .initialized
  refine ⟨by rw [hl']; rfl, by omega, by rw [hl', hcount]; simp, fun he => ?_,
    fun _ => h.publish_value t hpc, h.runs_le, fun u init hu => ?_, fun u hu => ?_,
    fun u c hu => ?_⟩
  · rw [hl'] at he
    cases he
  all_goals rcases eq_or_ne u t with rfl | hut
  all_goals simp only [Config.publish, Function.update_self, Function.update_of_ne,
    Ne, not_false_eq_true, *] at hu
  all_goals first
    | exact absurd hu ((h.others hinit hut).2 c)
    | have := (h.others hinit hut).1; rw [hu] at this; cases this
    | cases hu

/-- **Step lemma**: every move keeps the invariant. -/
theorem Inv.of_move (h : Inv s) (hm : Move s s') : Inv s' := by
  cases hm with
  | quiet t p hq hp hgot => exact h.of_quiet hq hp hgot
  | win t init hpc hu => exact h.of_win hpc hu
  | produce t v hpc => exact h.of_produce hpc
  | poison t hpc => exact h.of_poison hpc
  | write t v hpc => exact h.of_write hpc
  | publish t hpc => exact h.of_publish hpc

omit [DecidableEq τ] in
/-- `Once::uninit()` and `Once::from_init(v)` meet the invariant. -/
theorem Inv.of_init (h0 : IsInit s) : Inv s := by
  obtain ⟨hidle, hruns, hstate⟩ := h0
  have hnone : s.initializers = 0 :=
    countParties_eq_zero_iff.mpr fun t => by rw [hidle t]; rfl
  have hnopc : ∀ t (p : Pc T), s.pc t = p → p = .idle := fun t p hp => hp ▸ hidle t
  rcases hstate with ⟨hu, hv⟩ | ⟨v, hi, hv⟩
  · have hl : s.load = some .uninitialized := by rw [Config.load, hu, State.fromU8_asU8]
    refine ⟨by rw [hl]; rfl, by omega, by rw [hl, hnone]; simp, fun _ => ⟨hv, hruns⟩,
      fun he => ?_, by omega, fun t init ht => ?_, fun t ht => ?_, fun t c ht => ?_⟩
    · rw [hl] at he
      cases he
    all_goals cases hnopc t _ ht
  · have hl : s.load = some .initialized := by rw [Config.load, hi, State.fromU8_asU8]
    refine ⟨by rw [hl]; rfl, by omega, by rw [hl, hnone]; simp, fun he => ?_,
      fun _ => by rw [hv]; rfl, by omega, fun t init ht => ?_, fun t ht => ?_,
      fun t c ht => ?_⟩
    · rw [hl] at he
      cases he
    all_goals cases hnopc t _ ht

/-- **Run lemma**: every reachable configuration meets the invariant. -/
theorem Reach.inv (h : Reach s) : Inv s :=
  Reachable.invariant (fun s => Inv s) (fun _ h0 => Inv.of_init h0)
    (fun _ _ _ hi hs => hi.of_move (step_move hs)) h

end Invariant

/-! ## §3 Once, Agreement and Progress -/

/-- `Once::uninit()` shared by two agents. -/
def fresh : Config Bool Nat := ⟨State.uninitialized.asU8, none, fun _ => .idle, 0⟩

/-- Both agents call `call_once`; agent `false` wins the exchange, agent `true` finds
`Initializing` and returns, and agent `false` runs its initializer and publishes `42`. -/
def bothCall : List (Label Bool Nat) :=
  [.callOnce false (some 42), .callOnce true (some 7), .step false, .step true, .step false, .step false, .step false]

/-- Agent `true` calls `get` while agent `false` initialises: it spins until the store of
`Initialized`, and then agent `false`'s own `get` returns the cell too. -/
def getDuringInit : List (Label Bool Nat) :=
  [.callOnce false (some 42), .get true, .step false, .step true, .step false, .step false, .step false, .step true,
    .step true, .get false, .step false]

/-- After the initialisation, agent `true` calls `call_once` with another initializer, and both
agents call `get`. -/
def callAgain : List (Label Bool Nat) :=
  [.callOnce true (some 7), .step true, .get false, .get true, .step true, .step false]

/-- A schedule run from the fresh `Once` reaches a reachable configuration. -/
theorem reach_of_exec {l : List (Label Bool Nat)} {s : Config Bool Nat}
    (h : exec step fresh l = some s) : Reach s :=
  ⟨fresh, l, ⟨fun _ => rfl, rfl, .inl ⟨rfl, rfl⟩⟩, exec_run h⟩

section Results

variable [Fintype τ] [DecidableEq τ] {s s' : Config τ T}

/-- From `Initialized` or `Poisoned`, a move keeps the state and the cell: nobody
initialises, so only quiet moves remain, and the exchange fails. -/
theorem Move.final_stable (h : Inv s) (hl : s.load = some .initialized ∨ s.load = some .poisoned)
    (hm : Move s s') : s'.load = s.load ∧ s'.value = s.value := by
  have hnot : s.load ≠ some .initializing := by rcases hl with hl | hl <;> rw [hl] <;> simp
  cases hm with
  | quiet t p => exact ⟨rfl, rfl⟩
  | win t init _ hu =>
    rw [Config.load, hu, State.fromU8_asU8] at hl
    rcases hl with hl | hl <;> cases hl
  | produce t v hpc => exact absurd (h.initializing_of (by rw [hpc]; rfl)) hnot
  | poison t hpc => exact absurd (h.initializing_of (by rw [hpc]; rfl)) hnot
  | write t v hpc => exact absurd (h.initializing_of (by rw [hpc]; rfl)) hnot
  | publish t hpc => exact absurd (h.initializing_of (by rw [hpc]; rfl)) hnot

/-- **One initializer**: in every reachable configuration at most one initializer has been
called, whatever the number of agents calling `call_once`. -/
theorem once_initializer_runs_once (h : Reach s) : s.runs ≤ 1 :=
  h.inv.runs_le

/-- Both agents call `call_once`, and exactly one initializer ran. -/
theorem once_initializer_runs_once_bothCall :
    ∃ s, exec step fresh bothCall = some s ∧ s.runs = 1 ∧ s.runs ≤ 1 := by
  refine ⟨_, rfl, rfl, ?_⟩
  exact once_initializer_runs_once (reach_of_exec (l := bothCall) rfl)

/-- **Agreement**: in every reachable configuration, any two `get`s that returned a
reference returned the same cell, the `Once`'s own value, and it was written. -/
theorem once_gets_agree (h : Reach s) {t u : τ} {c d : Option T} (ht : s.pc t = .got (some c))
    (hu : s.pc u = .got (some d)) : c = d ∧ c = s.value ∧ c.isSome = true := by
  have hi := h.inv
  obtain ⟨hl, hc⟩ := hi.got_value t c ht
  obtain ⟨-, hd⟩ := hi.got_value u d hu
  refine ⟨hc.trans hd.symm, hc, ?_⟩
  -- the cell a `get` returns is written once the state reads `Initialized`
  rw [hc]
  exact hi.initialized hl

/-- Agent `true`'s `get`, which waited out the initialisation, and agent `false`'s later `get`
both return `42`. -/
theorem once_gets_agree_getDuringInit :
    ∃ s, exec step fresh getDuringInit = some s ∧ s.pc false = .got (some (some 42)) ∧
      s.pc true = .got (some (some 42)) ∧
      (some 42 = some 42 ∧ some 42 = s.value ∧ (some 42 : Option Nat).isSome = true) := by
  refine ⟨_, rfl, rfl, rfl, ?_⟩
  exact once_gets_agree (reach_of_exec (l := getDuringInit) rfl) (t := false) (u := true) rfl rfl

/-- **The unchecked reads are sound**: in every reachable configuration the byte decodes,
so `State::from_u8_unchecked` never meets an invalid byte, and the cell is written
whenever the state reads `Initialized`, as `get`'s `assume_init_ref` and `drop`'s
`assume_init_drop` require. -/
theorem once_reads_initialized (h : Reach s) :
    s.load.isSome = true ∧ (s.load = some .initialized → s.value.isSome = true) :=
  ⟨h.inv.decodes, h.inv.initialized⟩

/-- After `bothCall` the state reads `Initialized` and the cell holds `42`. -/
theorem once_reads_initialized_bothCall :
    ∃ s, exec step fresh bothCall = some s ∧ s.load = some .initialized ∧
      s.value = some 42 ∧
      (s.load.isSome = true ∧ (s.load = some .initialized → s.value.isSome = true)) := by
  refine ⟨_, rfl, rfl, rfl, ?_⟩
  exact once_reads_initialized (reach_of_exec (l := bothCall) rfl)

/-- **The final states are final**: from a reachable configuration reading `Initialized`
or `Poisoned`, every run of any agents' steps keeps the state and the cell. -/
theorem once_final_stable (h : Reach s)
    (hl : s.load = some .initialized ∨ s.load = some .poisoned) {l : List (Label τ T)}
    (hr : Run (Det step) s l s') : s'.load = s.load ∧ s'.value = s.value := by
  -- the run keeps reachability and the state and cell of its start
  have hkeep := hr.invariant (fun x => Reach x ∧ x.load = s.load ∧ x.value = s.value)
    (fun x _ y ⟨hx, hxl, hxv⟩ hs => by
      obtain ⟨hyl, hyv⟩ := Move.final_stable hx.inv (hxl ▸ hl) (step_move hs)
      exact ⟨Reachable.tail hx hs, hyl.trans hxl, hyv.trans hxv⟩)
    ⟨h, rfl, rfl⟩
  exact hkeep.2

/-- After `bothCall`, `callAgain` changes neither the state nor the cell. -/
theorem once_final_stable_callAgain :
    ∃ s s', exec step fresh bothCall = some s ∧ exec step s callAgain = some s' ∧
      s'.load = s.load ∧ s'.value = s.value := by
  refine ⟨_, _, rfl, rfl, ?_⟩
  exact once_final_stable (l := callAgain) (reach_of_exec (l := bothCall) rfl) (.inl rfl)
    (exec_run rfl)

/-- **No deadlock**: in every reachable configuration where some agent is inside
`call_once` or `get`, some agent can take a step.  An agent spinning on `Initializing`
waits for the initializer, which can always move. -/
theorem once_deadlock_free (h : Reach s) {t : τ} (ht : (s.pc t).outside = false) :
    ∃ u, (step s (.step u)).isSome = true := by
  have hi := h.inv
  obtain ⟨v, hv⟩ := Option.isSome_iff_exists.mp hi.decodes
  -- every position inside the two functions but the spin moves on its own
  have hmove : ∀ u, (s.pc u).outside = false → s.pc u ≠ .spin →
      (step s (.step u)).isSome = true := by
    intro u hout hspin
    cases hpc : s.pc u <;>
      simp only [hpc, Pc.outside, Bool.true_eq_false, ne_eq, not_true_eq_false] at hout hspin
    case exchange init =>
      simp only [step, hpc, hv]
      split <;> simp
    case guardCall init => cases init <;> simp [step, hpc]
    case load | reload => cases v <;> simp [step, hpc, hv]
    all_goals simp [step, hpc]
  by_cases hspin : s.pc t = .spin
  · by_cases hinit : v = .initializing
    · -- the state reads `Initializing`, so an agent initialises, and it can move
      have hone := hi.initializing_iff.mp (hv.trans (congrArg some hinit))
      obtain ⟨u, hu⟩ := exists_of_countParties_pos (p := Pc.initializing) (f := s.pc)
        (by unfold Config.initializers at hone; omega)
      refine ⟨u, hmove u ?_ ?_⟩
      · revert hu
        cases s.pc u <;> simp [Pc.initializing, Pc.outside]
      · intro he
        rw [he] at hu
        cases hu
    · -- the spin sees another state and moves on
      refine ⟨t, ?_⟩
      simp only [step, hspin, hv]
      cases v <;> simp_all
  · exact ⟨t, hmove t ht hspin⟩

/-- During `getDuringInit`'s initialisation, agent `true` spins while agent `false` can move. -/
theorem once_deadlock_free_spin :
    ∃ s, exec step fresh (getDuringInit.take 5) = some s ∧ s.pc true = .spin ∧
      ∃ u, (step s (.step u)).isSome = true := by
  refine ⟨_, rfl, rfl, ?_⟩
  exact once_deadlock_free (reach_of_exec (l := getDuringInit.take 5) rfl) (t := true) rfl

end Results

end Beskar.Hyperdrive.Once
