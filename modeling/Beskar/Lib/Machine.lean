import Mathlib

/-!
# Machines That Read Inputs and Emit Outputs

A driver or a shell that handles one input at a time (a byte from a device, a key event)
and may hand something on is a step `σ → ι → Option (σ × Option ο)`: the next state and
what it emits, or `none` where the code panics.  `run` feeds it a list of inputs and
collects what it emits, in order.

What such code is for is often a simpler machine: total, and free of the code's indices
and flags.  `runTotal` runs that one, and `run_simulates` is the rule that carries a
step-wise simulation to whole runs: if every step of the code, from a state related to an
abstract one, succeeds, emits the abstract output (through a map) and lands in a related
state, then every run does.

## Contents

- `run step s xs`, with `run_cons_of_step`, `run_cons_of_step_eq_none` and `run_append`.
- `runTotal spec a xs`, the run of a total machine.
- `run_simulates`: a step-wise simulation of `spec` by `step` holds over every run.

Nothing here mentions a particular system.
-/

namespace Beskar.Lib.Machine

variable {σ α ι ο ο' : Type}

/-! ## §1 Runs of a Fallible Step -/

/-- Feed the inputs one after the other and collect the outputs; `none` at the first step
that fails. -/
def run (step : σ → ι → Option (σ × Option ο)) (s : σ) : List ι → Option (σ × List ο)
  | [] => some (s, [])
  | x :: xs =>
    (step s x).bind fun r => (run step r.1 xs).map fun q => (q.1, r.2.toList ++ q.2)

section Run

variable {step : σ → ι → Option (σ × Option ο)}

@[simp]
theorem run_nil (s : σ) : run step s [] = some (s, []) := rfl

/-- A step that succeeds puts its output before the rest of the run's. -/
theorem run_cons_of_step {s s' : σ} {x : ι} {o : Option ο} (h : step s x = some (s', o))
    (xs : List ι) :
    run step s (x :: xs) = (run step s' xs).map fun q => (q.1, o.toList ++ q.2) := by
  simp only [run, h, Option.bind_some]

/-- A step that fails ends the run. -/
theorem run_cons_of_step_eq_none {s : σ} {x : ι} (h : step s x = none) (xs : List ι) :
    run step s (x :: xs) = none := by
  simp only [run, h, Option.bind_none]

/-- Runs compose: the second part starts where the first ends. -/
theorem run_append (s : σ) (xs ys : List ι) :
    run step s (xs ++ ys) =
      (run step s xs).bind fun p => (run step p.1 ys).map fun q => (q.1, p.2 ++ q.2) := by
  induction xs generalizing s with
  | nil =>
    simp only [List.nil_append, run_nil, Option.bind_some, List.nil_append]
    cases run step s ys <;> rfl
  | cons x xs ih =>
    cases hx : step s x with
    | none => simp only [List.cons_append, run_cons_of_step_eq_none hx, Option.bind_none]
    | some r =>
      rw [List.cons_append, run_cons_of_step hx, run_cons_of_step hx, ih]
      cases run step r.1 xs with
      | none => rfl
      | some p => simp [Option.map_map, Function.comp_def]

end Run

/-! ## §2 Simulation by a Total Machine -/

/-- The run of a total step, with the outputs it gives. -/
def runTotal (spec : α → ι → α × Option ο) (a : α) : List ι → α × List ο
  | [] => (a, [])
  | x :: xs =>
    ((runTotal spec (spec a x).1 xs).1, (spec a x).2.toList ++ (runTotal spec (spec a x).1 xs).2)

/-- **Simulation.**  If every step of `step` from a state related to `a` succeeds, emits
what `spec` emits from `a` (through `f`) and lands in a state related to where `spec` goes,
then every run of `step` from a related state succeeds, emits what the run of `spec`
emits, and ends related to where that run ends. -/
theorem run_simulates {step : σ → ι → Option (σ × Option ο)} {spec : α → ι → α × Option ο'}
    (R : σ → α → Prop) (f : ο' → ο)
    (hstep : ∀ s a x, R s a →
      ∃ s', step s x = some (s', (spec a x).2.map f) ∧ R s' (spec a x).1)
    {s : σ} {a : α} (h : R s a) (xs : List ι) :
    ∃ s', run step s xs = some (s', (runTotal spec a xs).2.map f) ∧
      R s' (runTotal spec a xs).1 := by
  induction xs generalizing s a with
  | nil => exact ⟨s, rfl, h⟩
  | cons x xs ih =>
    obtain ⟨s₁, hs₁, hR₁⟩ := hstep s a x h
    obtain ⟨s₂, hs₂, hR₂⟩ := ih hR₁
    refine ⟨s₂, ?_, hR₂⟩
    rw [run_cons_of_step hs₁, hs₂, runTotal]
    cases (spec a x).2 <;> rfl

end Beskar.Lib.Machine
