import Beskar.Lib.Checked

/-!
# Sleep Reasons and Their Atomic Encoding

Model of `beskar-core/src/time.rs` (`Instant`, `Duration`), of `SleepReason` and
`AtomicSleepReason` in `beskar-core/src/process.rs`, and of the two system calls that
park the calling thread (`sc_sleep`, `sc_wait_on_event` in `kernel/src/syscall.rs`).

A thread asks to sleep by storing its reason in the scheduler's `sleep_intent`, an
`AtomicSleepReason`; the scheduler swaps it out (`Scheduler::next_action`) and parks the
thread with the reason it reads back.  So the reason a thread is parked with is
`unpack (pack r)`.  `pack` squeezes a two-bit discriminant and a 62-bit payload into one
`u64`:

| reason        | word                                   |
|---------------|----------------------------------------|
| `None`        | `0b00`                                 |
| `Until(t)`    | `t.total_micros() & !0b11 \| 0b01`     |
| `Event(h)`    | `h << 2 \| 0b10` (`debug_assert!(h < 1 << 62)`) |
| `Indefinite`  | `0b11`                                 |

The bit operations are written with `%`, `/` and `*` by powers of two, which is what
they compute on `u64` values.  Whether `debug_assert!` is compiled in is the parameter
`debug`.
-/

namespace Beskar.Sleep

open Beskar.Lib

/-! ## §1 Time -/

/-- `time::Instant`: microseconds since an arbitrary start. -/
structure Instant where
  micros : Nat
deriving DecidableEq, Repr

/-- `time::Duration`, in microseconds. -/
structure Duration where
  micros : Nat
deriving DecidableEq, Repr

/-- `Duration::from_millis`: `millis.saturating_mul(MICROS_PER_MILLI)`. -/
def Duration.fromMillis (millis : Nat) : Duration := ⟨mulSaturating 64 millis 1000⟩

/-- `impl Add<Duration> for Instant`: `self.micros.saturating_add(rhs.micros)`. -/
def Instant.add (t : Instant) (d : Duration) : Instant := ⟨addSaturating 64 t.micros d.micros⟩

/-! ## §2 Sleep Reasons -/

/-- `process::SleepReason`; a `SleepHandle` is its raw `u64`. -/
inductive SleepReason where
  | until (deadline : Instant)
  | event (handle : Nat)
  | indefinite
deriving DecidableEq, Repr

/-- `SleepReason::for_duration`: `Until(now + duration)`. -/
def SleepReason.forDuration (now : Instant) (duration : Duration) : SleepReason :=
  .until (now.add duration)

/-- `AtomicSleepReason::pack`.  `none` is the panic of the `debug_assert!` on event
handles, which only exists when `debug` holds. -/
def pack (debug : Bool) : Option SleepReason → Option Nat
  | none => some 0
  | some .indefinite => some 3
  | some (.event h) =>
    if debug ∧ ¬ h < 2 ^ 62 then none
    -- `(h << 2) | 0b10`: the shift drops the two top bits of the `u64`
    -- and leaves the two low bits clear
    else some ((h * 4) % 2 ^ 64 + 2)
  -- `(micros & !0b11) | 0b01`
  | some (.until t) => some (t.micros - t.micros % 4 + 1)

/-- `AtomicSleepReason::unpack`: dispatch on `raw & 0b11`. -/
def unpack (raw : Nat) : Option SleepReason :=
  match raw % 4 with
  | 3 => some .indefinite
  | 2 => some (.event (raw / 4))
  | 1 => some (.until ⟨raw - raw % 4⟩)
  | _ => none

/-- `AtomicSleepReason::store` followed by `swap`, as `set_sleep` and `next_action` use
them: the reason read back from the word a reason was stored as. -/
def roundTrip (debug : Bool) (r : Option SleepReason) : Option (Option SleepReason) :=
  (pack debug r).map unpack

/-- What the claim of `AtomicSleepReason` promises for a reason read back: the same
reason, except that a deadline may lose up to 3 µs. -/
def Approximates : Option SleepReason → Option SleepReason → Prop
  | some (.until t'), some (.until t) => t'.micros ≤ t.micros ∧ t.micros < t'.micros + 4
  | r', r => r' = r

/-! ## §3 Round Trips -/

theorem roundTrip_none (debug : Bool) : roundTrip debug none = some none := rfl

theorem roundTrip_indefinite (debug : Bool) :
    roundTrip debug (some .indefinite) = some (some .indefinite) := rfl

/-- A deadline comes back rounded down to a multiple of 4 µs. -/
theorem roundTrip_until (debug : Bool) (t : Instant) :
    roundTrip debug (some (.until t)) = some (some (.until ⟨t.micros - t.micros % 4⟩)) := by
  have hlt : t.micros % 4 < 4 := Nat.mod_lt _ (by norm_num)
  have hle : t.micros % 4 ≤ t.micros := Nat.mod_le _ _
  -- the packed word is `4 * q + 1` where `q = t.micros / 4`
  have hword : t.micros - t.micros % 4 + 1 = 1 + 4 * (t.micros / 4) := by
    have := Nat.div_add_mod t.micros 4
    omega
  have hmod : (t.micros - t.micros % 4 + 1) % 4 = 1 := by
    rw [hword, Nat.add_mul_mod_self_left]
  simp only [roundTrip, pack, Option.map_some, unpack, hmod]
  congr 3

/-- An event handle comes back as its low 62 bits, when `pack` does not panic. -/
theorem roundTrip_event {debug : Bool} {h : Nat} (hok : ¬ (debug ∧ ¬ h < 2 ^ 62)) :
    roundTrip debug (some (.event h)) = some (some (.event (h % 2 ^ 62))) := by
  -- `(h * 4) % 2^64 = 4 * (h % 2^62)`, so the word is `2 + 4 * (h % 2^62)`
  have hshift : (h * 4) % 2 ^ 64 = 4 * (h % 2 ^ 62) := by
    rw [show (2 : Nat) ^ 64 = 4 * 2 ^ 62 by norm_num, Nat.mul_comm h 4, Nat.mul_mod_mul_left]
  have hmod : (4 * (h % 2 ^ 62) + 2) % 4 = 2 := by
    rw [Nat.add_comm, Nat.add_mul_mod_self_left]
  simp only [roundTrip, pack, hok, if_false, Option.map_some, unpack, hshift, hmod]
  congr 3
  omega

/-- **Round trip of every reason that `pack` accepts**: the reason read back
approximates the reason stored, for every reason except an event handle of 62 bits
or more. -/
theorem roundTrip_approximates (debug : Bool) (r : Option SleepReason)
    (hr : ∀ h, r = some (.event h) → h < 2 ^ 62) :
    ∃ r', roundTrip debug r = some r' ∧ Approximates r' r := by
  rcases r with _ | ⟨t⟩ | ⟨h⟩ | _
  · exact ⟨none, roundTrip_none debug, rfl⟩
  · -- `Until(t)`: the deadline is rounded down by at most 3 µs
    refine ⟨_, roundTrip_until debug t, ?_⟩
    have := Nat.mod_lt t.micros (show 0 < 4 by norm_num)
    have := Nat.mod_le t.micros 4
    simp only [Approximates]
    omega
  · -- `Event(h)` with a 62-bit handle comes back unchanged
    have hlt := hr h rfl
    refine ⟨_, roundTrip_event (fun ⟨_, hn⟩ => hn hlt), ?_⟩
    simp only [Approximates]
    rw [Nat.mod_eq_of_lt hlt]
  · exact ⟨_, roundTrip_indefinite debug, rfl⟩

/-- A debug build stores the event handle `5` and reads it back. -/
theorem roundTrip_approximates_event :
    (∀ h, some (SleepReason.event 5) = some (.event h) → h < 2 ^ 62) ∧
      ∃ r', roundTrip true (some (.event 5)) = some r' ∧ Approximates r' (some (.event 5)) := by
  have hr : ∀ h, some (SleepReason.event 5) = some (.event h) → h < 2 ^ 62 := by
    intro h hh
    simp only [Option.some.injEq, SleepReason.event.injEq] at hh
    subst hh
    norm_num
  exact ⟨hr, roundTrip_approximates true _ hr⟩

/-- In a build without debug assertions, an oversized handle aliases the handle made of
its low 62 bits. -/
theorem roundTrip_event_release (h : Nat) :
    roundTrip false (some (.event h)) = some (some (.event (h % 2 ^ 62))) :=
  roundTrip_event (by simp)

/-! ## §4 The Sleeping System Calls -/

/-- `sc_wait_on_event`: `sleep_on(SleepHandle::from_raw(args.one))`; the result is the
reason the scheduler parks the thread with (`none`: the kernel panicked). -/
def scWaitOnEvent (debug : Bool) (handleRaw : Nat) : Option (Option SleepReason) :=
  roundTrip debug (some (.event handleRaw))

/-- `sc_sleep`: `sleep_for(Duration::from_millis(args.one))`, which asks for
`Until(now + duration)` where `now` is the clock reading. -/
def scSleep (debug : Bool) (now : Instant) (sleepTimeMs : Nat) : Option (Option SleepReason) :=
  roundTrip debug (some (SleepReason.forDuration now (Duration.fromMillis sleepTimeMs)))

/-- **`sc_sleep` is total**: for every `u64` argument the thread is parked until a deadline
at most 3 µs before `now + ms` (both saturating). -/
theorem scSleep_deadline (debug : Bool) (now : Instant) (ms : Nat) :
    ∃ t', scSleep debug now ms = some (some (.until t')) ∧
      t'.micros ≤ (now.add (Duration.fromMillis ms)).micros ∧
      (now.add (Duration.fromMillis ms)).micros < t'.micros + 4 := by
  set t := now.add (Duration.fromMillis ms)
  refine ⟨⟨t.micros - t.micros % 4⟩, roundTrip_until debug t, ?_, ?_⟩
  · exact Nat.sub_le _ _
  · have := Nat.mod_lt t.micros (show 0 < 4 by norm_num)
    have := Nat.mod_le t.micros 4
    simp only
    omega

/-- `sc_wait_on_event(2^62)` panics the kernel when debug assertions are compiled in, and
otherwise parks the thread on handle `0`. -/
theorem sc_wait_on_event_large_handle :
    scWaitOnEvent true (2 ^ 62) = none ∧ scWaitOnEvent false (2 ^ 62) = some (some (.event 0)) := by
  constructor
  · simp [scWaitOnEvent, roundTrip, pack]
  · rw [scWaitOnEvent, roundTrip_event_release]
    simp

end Beskar.Sleep
