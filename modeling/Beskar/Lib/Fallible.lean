import Mathlib

/-!
# Fallible Stateful Programs

`Fallible ε S α` is `ExceptT ε (StateT S Option) α`: a program over a state `S` that
returns an `α`, returns an error of `ε`, or aborts.

- An error keeps the state the program had reached. This matches Rust's `?`, which
  returns from the function while the effects already done stay done.
- An abort (`none`) is a panic. Nothing is observable after it.

The lemmas run a program one operation at a time. `run_bind` and one lemma per operation
form a simp set, so symbolic execution is `simp only` over it. `run_bind_eq_ok` and
`run_bind_eq_error` invert a run that succeeded or failed, so the spec of a sequence
is proved from the specs of its parts, with no unfolding of them.

`Keeps P x` says that every outcome of `x` from a state satisfying `P` ends in one, and
`Total x` that `x` never panics. Each comes with one rule per operation and one for
sequencing, so an invariant of a whole program follows the program's own structure.
-/

namespace Beskar.Lib

/-- A program over a state `S` that may fail with an error of `ε` or panic. -/
abbrev Fallible (ε S α : Type) := ExceptT ε (StateT S Option) α

namespace Fallible

variable {ε S α β : Type}

/-! ## Section 1: Operations -/

/-- A panic: no outcome at all. -/
def abort : Fallible ε S α := ExceptT.lift (StateT.lift none)

/-- `option.ok_or(e)?`: the value, or a return with the error `e`. -/
def okOr (o : Option α) (e : ε) : Fallible ε S α :=
  match o with
  | some a => pure a
  | none => throw e

/-- An operation that panics unless it has a result, such as a plain `u64` `+`. -/
def ofOption (o : Option α) : Fallible ε S α :=
  match o with
  | some a => pure a
  | none => abort

/-- A pure step that fails or panics, such as a computation made of checked and of plain
arithmetic. -/
def ofChecked (r : Option (Except ε α)) : Fallible ε S α :=
  match r with
  | none => abort
  | some r => MonadExcept.ofExcept r

/-- A program over one part of a bigger state: `view` reads the part and `update` puts it
back, as a method called on a field of `self`. -/
def focus {T : Type} (view : S → T) (update : S → T → S) (x : Fallible ε T α) :
    Fallible ε S α :=
  ExceptT.mk (StateT.mk fun s => (x.run (view s)).map fun p => (p.1, update s p.2))

/-! ## Section 2: Running One Operation -/

@[simp] theorem run_pure (a : α) (s : S) : (pure a : Fallible ε S α).run s = some (.ok a, s) :=
  rfl

@[simp] theorem run_throw (e : ε) (s : S) :
    (throw e : Fallible ε S α).run s = some (.error e, s) := rfl

@[simp] theorem run_get (s : S) : (get : Fallible ε S S).run s = some (.ok s, s) := rfl

@[simp] theorem run_set (s s' : S) : (set s' : Fallible ε S PUnit).run s = some (.ok ⟨⟩, s') :=
  rfl

@[simp] theorem run_modify (f : S → S) (s : S) :
    (modify f : Fallible ε S PUnit).run s = some (.ok ⟨⟩, f s) := rfl

@[simp] theorem run_getThe (s : S) : (getThe S : Fallible ε S S).run s = some (.ok s, s) := rfl

@[simp] theorem run_modifyThe (f : S → S) (s : S) :
    (modifyThe S f : Fallible ε S PUnit).run s = some (.ok ⟨⟩, f s) := rfl

@[simp] theorem run_abort (s : S) : (abort : Fallible ε S α).run s = none := rfl

@[simp] theorem run_okOr_some (a : α) (e : ε) (s : S) :
    (okOr (some a) e : Fallible ε S α).run s = some (.ok a, s) := rfl

@[simp] theorem run_okOr_none (e : ε) (s : S) :
    (okOr none e : Fallible ε S α).run s = some (.error e, s) := rfl

@[simp] theorem run_ofOption_some (a : α) (s : S) :
    (ofOption (some a) : Fallible ε S α).run s = some (.ok a, s) := rfl

@[simp] theorem run_ofOption_none (s : S) : (ofOption none : Fallible ε S α).run s = none := rfl

/-- A present value goes through `ok_or` untouched, before the program is run. -/
theorem okOr_some (a : α) (e : ε) : (okOr (some a) e : Fallible ε S α) = pure a := rfl

/-- A plain operation that has a result does not panic, before the program is run. -/
theorem ofOption_some (a : α) : (ofOption (some a) : Fallible ε S α) = pure a := rfl

/-- `result?` is `MonadExcept.ofExcept`. -/
@[simp] theorem run_ofExcept_ok (a : α) (s : S) :
    (MonadExcept.ofExcept (.ok a) : Fallible ε S α).run s = some (.ok a, s) := rfl

@[simp] theorem run_ofExcept_error (e : ε) (s : S) :
    (MonadExcept.ofExcept (.error e) : Fallible ε S α).run s = some (.error e, s) := rfl

@[simp] theorem run_ofChecked (r : Option (Except ε α)) (s : S) :
    (ofChecked r : Fallible ε S α).run s = r.map fun r => (r, s) := by
  rcases r with _ | _ | a <;> rfl

@[simp] theorem run_focus {T : Type} (view : S → T) (update : S → T → S) (x : Fallible ε T α)
    (s : S) : (focus view update x).run s = (x.run (view s)).map fun p => (p.1, update s p.2) :=
  rfl

theorem run_ite (c : Prop) [Decidable c] (x y : Fallible ε S α) (s : S) :
    (if c then x else y).run s = if c then x.run s else y.run s := by
  split <;> rfl

/-- Sequencing: a panic or an error stops the program, a value goes on to the rest. -/
@[simp] theorem run_bind (x : Fallible ε S α) (f : α → Fallible ε S β) (s : S) :
    (x >>= f).run s =
      match x.run s with
      | none => none
      | some (.ok a, s') => (f a).run s'
      | some (.error e, s') => some (.error e, s') := by
  show StateT.run (ExceptT.run (x >>= f)) s = _
  rw [ExceptT.run_bind, StateT.run_bind]
  show (x.run s >>= _) = _
  rcases x.run s with _ | ⟨_ | a, s'⟩ <;> rfl

@[simp] theorem except_map_ok (f : α → β) (a : α) : (Except.ok a : Except ε α).map f = .ok (f a) :=
  rfl

@[simp] theorem except_map_error (f : α → β) (e : ε) :
    (Except.error e : Except ε α).map f = .error e := rfl

/-- A `pure` after the last step of a `do` block is a map over its result. -/
@[simp] theorem run_map (f : α → β) (x : Fallible ε S α) (s : S) :
    (f <$> x).run s = (x.run s).map fun p => (p.1.map f, p.2) := by
  show StateT.run (ExceptT.run (f <$> x)) s = _
  rw [ExceptT.run_map, StateT.run_map]
  rfl

/-- `match result { Ok(a) => a, Err(e) => { handler } }`: the handler runs from the state
the failed program reached. -/
@[simp] theorem run_tryCatch (x : Fallible ε S α) (h : ε → Fallible ε S α) (s : S) :
    (tryCatch x h).run s =
      match x.run s with
      | none => none
      | some (.ok a, s') => some (.ok a, s')
      | some (.error e, s') => (h e).run s' := by
  show StateT.run (ExceptT.tryCatch x h).run s = _
  simp only [ExceptT.tryCatch, ExceptT.run_mk, StateT.run_bind]
  show (x.run s >>= _) = _
  rcases x.run s with _ | ⟨_ | a, s'⟩ <;> rfl

/-! ## Section 3: Inverting a Run -/

/-- A sequence succeeds exactly when its first part succeeds and the rest succeeds from
there. -/
theorem run_bind_eq_ok {x : Fallible ε S α} {f : α → Fallible ε S β} {s s'' : S} {b : β} :
    (x >>= f).run s = some (.ok b, s'') ↔
      ∃ a s', x.run s = some (.ok a, s') ∧ (f a).run s' = some (.ok b, s'') := by
  rw [run_bind]
  constructor
  · intro h
    rcases hx : x.run s with _ | ⟨_ | a, s'⟩ <;> rw [hx] at h
    · cases h
    · cases h
    · exact ⟨a, s', rfl, h⟩
  · rintro ⟨a, s', hx, hf⟩
    rw [hx]
    exact hf

/-- `o.ok_or(e)?` and then `f` succeed exactly when `o` has a value and `f` succeeds on
it. -/
theorem run_okOr_bind_eq_ok {o : Option α} {e : ε} {f : α → Fallible ε S β} {s s' : S} {b : β} :
    (okOr o e >>= f).run s = some (.ok b, s') ↔ ∃ a, o = some a ∧ (f a).run s = some (.ok b, s') := by
  cases o <;> simp [okOr]

/-- A plain operation and then `f` succeed exactly when the operation has a result and `f`
succeeds on it. -/
theorem run_ofOption_bind_eq_ok {o : Option α} {f : α → Fallible ε S β} {s s' : S} {b : β} :
    (ofOption o >>= f).run s = some (.ok b, s') ↔
      ∃ a, o = some a ∧ (f a).run s = some (.ok b, s') := by
  cases o <;> simp [ofOption]

/-- A sequence fails when its first part fails, or when that part succeeds and the rest
fails. -/
theorem run_bind_eq_error {x : Fallible ε S α} {f : α → Fallible ε S β} {s s'' : S} {e : ε} :
    (x >>= f).run s = some (.error e, s'') ↔
      x.run s = some (.error e, s'') ∨
        ∃ a s', x.run s = some (.ok a, s') ∧ (f a).run s' = some (.error e, s'') := by
  rw [run_bind]
  constructor
  · intro h
    rcases hx : x.run s with _ | ⟨e' | a, s'⟩ <;> rw [hx] at h
    · cases h
    · -- the error moves from the type of `x` to the type of the sequence
      simp only [Option.some.injEq, Prod.mk.injEq, Except.error.injEq] at h
      obtain ⟨rfl, rfl⟩ := h
      exact .inl rfl
    · exact .inr ⟨a, s', rfl, h⟩
  · rintro (hx | ⟨a, s', hx, hf⟩)
    · rw [hx]
    · rw [hx]
      exact hf

/-! ## Section 4: Invariants -/

/-- `x` keeps `P`: from a state satisfying `P`, every outcome of `x`, a value or an error,
ends in a state satisfying `P`. -/
def Keeps (P : S → Prop) (x : Fallible ε S α) : Prop :=
  ∀ s r s', P s → x.run s = some (r, s') → P s'

/-- `x` never panics. -/
def Total (x : Fallible ε S α) : Prop :=
  ∀ s, (x.run s).isSome

namespace Keeps

variable {P : S → Prop}

theorem pure (a : α) : Keeps P (pure a : Fallible ε S α) := by
  intro s r s' hs h
  cases h
  exact hs

theorem throw (e : ε) : Keeps P (throw e : Fallible ε S α) := by
  intro s r s' hs h
  cases h
  exact hs

theorem ofExcept (r : Except ε α) : Keeps P (MonadExcept.ofExcept r : Fallible ε S α) := by
  intro s r' s' hs h
  cases r <;> cases h <;> exact hs

theorem ite {c : Prop} [Decidable c] {x y : Fallible ε S α} (hx : Keeps P x) (hy : Keeps P y) :
    Keeps P (if c then x else y) := by
  split
  · exact hx
  · exact hy

theorem bind {x : Fallible ε S α} {f : α → Fallible ε S β} (hx : Keeps P x)
    (hf : ∀ a, Keeps P (f a)) : Keeps P (x >>= f) := by
  intro s r s'' hs h
  rw [run_bind] at h
  rcases hx' : x.run s with _ | ⟨_ | a, s'⟩ <;> rw [hx'] at h
  · cases h
  · cases h
    exact hx s _ _ hs hx'
  · exact hf a s' r s'' (hx s _ _ hs hx') h

/-- A sequence whose rest is only run on values that the first part returns: the rest
need only keep `P` for the values `R` allows. -/
theorem bind_of_ok {R : α → Prop} {x : Fallible ε S α} {f : α → Fallible ε S β}
    (hx : Keeps P x) (hR : ∀ s a s', P s → x.run s = some (.ok a, s') → R a)
    (hf : ∀ a, R a → Keeps P (f a)) : Keeps P (x >>= f) := by
  intro s r s'' hs h
  rw [run_bind] at h
  rcases hx' : x.run s with _ | ⟨_ | a, s'⟩ <;> rw [hx'] at h
  · cases h
  · cases h
    exact hx s _ _ hs hx'
  · exact hf a (hR s a s' hs hx') s' r s'' (hx s _ _ hs hx') h

theorem abort : Keeps P (abort : Fallible ε S α) := by
  intro s r s' hs h
  cases h

/-- A program that reads the state keeps `P` when what it does with each state it may
read does. -/
theorem getThe_bind {f : S → Fallible ε S β} (hf : ∀ s, P s → Keeps P (f s)) :
    Keeps P (getThe S >>= f) := by
  intro s r s' hs h
  rw [run_bind, run_getThe] at h
  exact hf s hs s r s' hs h

theorem modifyThe {f : S → S} (hf : ∀ s, P s → P (f s)) :
    Keeps P (modifyThe S f : Fallible ε S PUnit) := by
  intro s r s' hs h
  cases h
  exact hf s hs

theorem map {x : Fallible ε S α} (f : α → β) (hx : Keeps P x) : Keeps P (f <$> x) := by
  intro s r s' hs h
  rw [run_map] at h
  rcases hx' : x.run s with _ | ⟨r', s''⟩ <;> rw [hx'] at h
  · cases h
  · cases h
    exact hx s _ _ hs hx'

theorem ofOption (o : Option α) : Keeps P (ofOption o : Fallible ε S α) := by
  intro s r s' hs h
  cases o <;> cases h
  exact hs

theorem okOr (o : Option α) (e : ε) : Keeps P (okOr o e : Fallible ε S α) := by
  cases o
  · exact throw e
  · exact pure _

/-- A program over a part of the state keeps `P` when putting any part back does. -/
theorem focus {T : Type} {view : S → T} {update : S → T → S} (x : Fallible ε T α)
    (hupdate : ∀ s t, P s → P (update s t)) : Keeps P (focus view update x) := by
  intro s r s' hs h
  rw [run_focus] at h
  rcases hx : x.run (view s) with _ | ⟨r', t⟩ <;> rw [hx] at h
  · cases h
  · cases h
    exact hupdate s t hs

end Keeps

namespace Total

theorem pure (a : α) : Total (pure a : Fallible ε S α) := fun _ => rfl

theorem throw (e : ε) : Total (throw e : Fallible ε S α) := fun _ => rfl

theorem ofExcept (r : Except ε α) : Total (MonadExcept.ofExcept r : Fallible ε S α) := by
  intro s
  cases r <;> rfl

theorem ite {c : Prop} [Decidable c] {x y : Fallible ε S α} (hx : Total x) (hy : Total y) :
    Total (if c then x else y) := by
  split
  · exact hx
  · exact hy

theorem bind {x : Fallible ε S α} {f : α → Fallible ε S β} (hx : Total x)
    (hf : ∀ a, Total (f a)) : Total (x >>= f) := by
  intro s
  rw [run_bind]
  have hxs := hx s
  rcases hx' : x.run s with _ | ⟨_ | a, s'⟩
  · rw [hx'] at hxs
    cases hxs
  · rfl
  · exact hf a s'

theorem getThe_bind {f : S → Fallible ε S β} (hf : ∀ s, ((f s).run s).isSome) :
    Total (getThe S >>= f) := by
  intro s
  rw [run_bind, run_getThe]
  exact hf s

theorem modifyThe (f : S → S) : Total (modifyThe S f : Fallible ε S PUnit) := fun _ => rfl

theorem map {x : Fallible ε S α} (f : α → β) (hx : Total x) : Total (f <$> x) := by
  intro s
  rw [run_map, Option.isSome_map]
  exact hx s

end Total

end Fallible

end Beskar.Lib
