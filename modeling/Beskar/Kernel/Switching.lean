import Mathlib
import Beskar.Lib.Transition
import Beskar.Kernel.Scheduler
import Beskar.Kernel.ThreadStack

/-!
# Switching Threads on Many Cores

The cores of the machine share one memory, and each runs one thread.  A thread that is not
running is parked: its context is saved on its own stack, with the stack pointer below the
frame in its `last_stack_ptr`.  Three things happen:

- a core computes: it changes its own registers, its own thread's stack and memory no
  thread owns, never another thread's stack or slot;
- a core switches (`ContextSwitch::perform` after `Scheduler::reschedule`): it runs
  `switch` with `old_stack` from `Scheduler::old_stack_pointer` (the running thread's slot,
  or `USELESS` when it exits) and `new_stack` loaded from a parked thread's slot;
- `Thread::new` sets up a new thread's stack and parks it.

The abstract machine forgets memory: it keeps the parked threads' contexts by name, a switch
resumes the chosen context exactly and parks the caller's own, and a new thread is parked
in the context `ThreadRegisters::new` gives it.

## Main results

- `Refines`: the memory holds every parked context at its slot, within its stack, and
  the rest of the machine agrees;
- `switching_refines`: every run of the cores refines a run of the abstract machine with
  the same steps.  A switch on one core can never disturb the context another core will
  resume: the stacks and slots of different threads are separate allocations.
- `resumes_where_parked`: no context is lost; a parked thread resumes in exactly the
  context it was parked in, whatever happened on the other cores in between.
-/

namespace Beskar.Kernel.Switching

open Beskar.Lib Beskar.Arch.Context Beskar.Kernel.ThreadStack
open Beskar.Kernel.Scheduler (ThreadAction oldStackPointer)

/-! ## §1 Memory Layout -/

/-- The bytes of a buffer of `size` bytes at `base`. -/
def region (base : UInt64) (size : Nat) : Set Nat :=
  Set.Ico base.toNat (base.toNat + size)

/-- The eight bytes of the word at `a`. -/
def word (a : Nat) : Set Nat :=
  Set.Ico a (a + 8)

/-- Where the threads' memory lies: each thread's stack (the boxed slice `Thread::new`
takes), its `last_stack_ptr` (a field of its boxed `Thread`), and the `USELESS` static that
takes the stack pointer of an exiting thread.  Separate allocations do not overlap. -/
structure Layout (τ : Type*) where
  base : τ → UInt64
  size : τ → Nat
  slot : τ → Nat
  useless : Nat
  fits : ∀ t, (base t).toNat + size t < 2 ^ 64
  slot_lt : ∀ t, slot t < 2 ^ 64
  useless_lt : useless < 2 ^ 64
  stacks_disjoint : Pairwise fun t u => Disjoint (region (base t) (size t)) (region (base u) (size u))
  slots_disjoint : Pairwise fun t u => Disjoint (word (slot t)) (word (slot u))
  slot_stack : ∀ t u, Disjoint (word (slot t)) (region (base u) (size u))
  useless_stack : ∀ t, Disjoint (word useless) (region (base t) (size t))
  useless_slot : ∀ t, Disjoint (word useless) (word (slot t))

namespace Layout

variable {τ : Type*} (L : Layout τ)

/-- Thread `t`'s stack. -/
def stack (t : τ) : Set Nat :=
  region (L.base t) (L.size t)

/-- What belongs to thread `t`: its stack and its slot. -/
def owned (t : τ) : Set Nat :=
  L.stack t ∪ word (L.slot t)

/-- The `old_stack` of a switch away from `o`: `o`'s slot, or `USELESS` for an exiting
thread (`Scheduler::old_stack_pointer`). -/
def oldStack (action : ThreadAction) (o : τ) : UInt64 :=
  UInt64.ofNat ((oldStackPointer action (L.slot o)).getD L.useless)

/-- A context whose frame lies on thread `t`'s stack. -/
def OnStack (t : τ) (x : ThreadContext) : Prop :=
  Set.Ico (x.rsp.toNat - 136) x.rsp.toNat ⊆ L.stack t

variable {L}

theorem disjoint_owned {t u : τ} (h : t ≠ u) : Disjoint (L.owned t) (L.owned u) :=
  Set.disjoint_union_left.mpr
    ⟨Set.disjoint_union_right.mpr ⟨L.stacks_disjoint h, (L.slot_stack u t).symm⟩,
      Set.disjoint_union_right.mpr ⟨L.slot_stack t u, L.slots_disjoint h⟩⟩

theorem useless_owned (t : τ) : Disjoint (word L.useless) (L.owned t) :=
  Set.disjoint_union_right.mpr ⟨L.useless_stack t, L.useless_slot t⟩

/-- What a switch away from `o` may write, `o`'s own bytes and `USELESS`, is clear of
every other thread's. -/
theorem disjoint_switchOut {u o : τ} (h : u ≠ o) :
    Disjoint (L.owned u) (L.owned o ∪ word L.useless) :=
  Set.disjoint_union_right.mpr ⟨disjoint_owned h, (useless_owned u).symm⟩

theorem toNat_oldStack (action : ThreadAction) (o : τ) :
    (L.oldStack action o).toNat = (oldStackPointer action (L.slot o)).getD L.useless := by
  apply toNat_ofNat_of_lt
  cases action with
  | exit => exact L.useless_lt
  | _ => exact L.slot_lt o

theorem toNat_oldStack_of_ne {action : ThreadAction} (h : action ≠ .exit) (o : τ) :
    (L.oldStack action o).toNat = L.slot o := by
  rw [toNat_oldStack]
  cases action with
  | exit => exact absurd rfl h
  | _ => rfl

theorem word_oldStack_subset (action : ThreadAction) (o : τ) :
    word (L.oldStack action o).toNat ⊆ L.owned o ∪ word L.useless := by
  rw [toNat_oldStack]
  cases action with
  | exit => exact Set.subset_union_right
  | _ => exact fun _ hb => Or.inl (Or.inr hb)

theorem written_subset {t : τ} {x : ThreadContext} (hx : L.OnStack t x) :
    x.written (L.slot t) ⊆ L.owned t :=
  Set.union_subset_union hx subset_rfl

/-- A frame on `t`'s stack is clear of `t`'s slot. -/
theorem slot_clear {t : τ} {x : ThreadContext} (hx : L.OnStack t x) (hroom : 136 ≤ x.rsp.toNat) :
    L.slot t + 8 ≤ x.rsp.toNat - 136 ∨ x.rsp.toNat ≤ L.slot t := by
  have hdis : Disjoint (word (L.slot t)) (Set.Ico (x.rsp.toNat - 136) x.rsp.toNat) :=
    (L.slot_stack t t).mono_right hx
  rw [word, Set.Ico_disjoint_Ico] at hdis
  omega

/-- A frame lies on `t`'s stack when the stack pointer does, at least a frame above the
stack's base. -/
theorem onStack_of_le {t : τ} {x : ThreadContext}
    (hlo : (L.base t).toNat + 136 ≤ x.rsp.toNat) (hhi : x.rsp.toNat ≤ (L.base t).toNat + L.size t) :
    L.OnStack t x := by
  intro b hb
  simp only [Set.mem_Ico] at hb
  simp only [stack, region, Set.mem_Ico]
  omega

/-- `Thread::new` writes the new thread's stack and slot, and nothing else. -/
theorem eqOn_spawn {t : τ} {m : Memory} {buf : List UInt8} {v : Nat}
    (hbuf : buf.length = L.size t) :
    Set.EqOn ((m.writeBytes (L.base t).toNat buf).writeWord (L.slot t) v) m (L.owned t)ᶜ := by
  intro a ha
  simp only [owned, stack, region, word, Set.mem_compl_iff, Set.mem_union, Set.mem_Ico,
    not_or, not_and_or, not_le, not_lt] at ha
  rw [Memory.eqOn_writeWord (by simp only [Set.mem_compl_iff, Set.mem_Ico]; omega)]
  exact Memory.writeBytes_outside (by omega)

end Layout

/-! ## §2 The Cores -/

/-- The machine: each core's registers, the shared memory, the thread each core runs, and
which threads are parked. -/
structure Sys (κ τ : Type*) where
  cores : κ → Core
  mem : Memory
  running : κ → τ
  parked : τ → Bool

/-- What happens in one step, and on which core. -/
inductive Label (κ τ : Type*) where
  /-- Core `c` runs on to `core`, the memory to `mem`. -/
  | compute (c : κ) (core : Core) (mem : Memory)
  /-- Core `c` switches to `next` with the scheduler's `action` for the running thread. -/
  | switch (c : κ) (action : ThreadAction) (next : τ) (cr3 ret : UInt64)
  /-- `Thread::new` with this stack and entry point parks thread `t`. -/
  | spawn (t : τ) (debug : Bool) (stack : List UInt8) (entryPoint : UInt64)

/-- The thread a step switches to or creates. -/
def Label.target {κ τ : Type*} : Label κ τ → Option τ
  | .compute _ _ _ => none
  | .switch _ _ next _ _ => some next
  | .spawn t _ _ _ => some t

variable {κ τ : Type*} [DecidableEq κ] [DecidableEq τ]

/-- One step of the machine. -/
inductive Step (L : Layout τ) : Sys κ τ → Label κ τ → Sys κ τ → Prop where
  /-- A core computes on its own thread's stack and on memory no thread owns: it writes no
  byte of another thread's stack or slot, running or parked.  So no store of this core lands
  in the frame a switch on another core is pushing, and a switch can be one step. -/
  | compute {s : Sys κ τ} {c : κ} {core : Core} {m : Memory}
      (hkeep : ∀ t, t ≠ s.running c → Set.EqOn m s.mem (L.owned t)) :
      Step L s (.compute c core m) { s with cores := Function.update s.cores c core, mem := m }
  /-- `ContextSwitch::perform` on core `c`, from a stack pointer on the running thread's
  stack with room for a frame, to the parked thread `next`. -/
  | switch {s : Sys κ τ} {c : κ} {action : ThreadAction} {next : τ} {cr3 ret : UInt64}
      {t : Mach} (hparked : s.parked next = true) (hroom : 136 ≤ (s.cores c).rsp.toNat)
      (hon : L.OnStack (s.running c) (ThreadContext.atCall (s.cores c) ret))
      (hperform : perform ⟨s.cores c, s.mem⟩ (L.oldStack action (s.running c))
        (UInt64.ofNat (s.mem.readWord (L.slot next))) cr3 ret = some t) :
      Step L s (.switch c action next cr3 ret)
        { cores := Function.update s.cores c t.core
          mem := t.mem
          running := Function.update s.running c next
          parked := Function.update (Function.update s.parked next false) (s.running c)
            (decide (action ≠ .exit)) }
  /-- `Thread::new` for a thread neither parked nor running, with a stack of its layout. -/
  | spawn {s : Sys κ τ} {t : τ} {debug : Bool} {stack buf : List UInt8} {entryPoint sp : UInt64}
      (hfree : s.parked t = false) (hidle : ∀ c, s.running c ≠ t)
      (hlen : stack.length = L.size t)
      (hnew : newStack debug (L.base t) entryPoint stack = some (buf, sp)) :
      Step L s (.spawn t debug stack entryPoint)
        { s with
          mem := (s.mem.writeBytes (L.base t).toNat buf).writeWord (L.slot t) sp.toNat
          parked := Function.update s.parked t true }

/-! ## §3 The Abstract Machine -/

/-- The machine without memory: each core's registers, the thread each core runs, and the
context of each parked thread. -/
structure Spec (κ τ : Type*) where
  cores : κ → Core
  running : κ → τ
  saved : τ → Option ThreadContext

/-- One step of the abstract machine.  A switch resumes the saved context of `next` with
`CR0.TS` set and `cr3` loaded, and parks the caller at its call of `switch` unless it
exits. -/
inductive SpecStep (L : Layout τ) : Spec κ τ → Label κ τ → Spec κ τ → Prop where
  | compute {a : Spec κ τ} {c : κ} {core : Core} {m : Memory} :
      SpecStep L a (.compute c core m) { a with cores := Function.update a.cores c core }
  | switch {a : Spec κ τ} {c : κ} {action : ThreadAction} {next : τ} {cr3 ret : UInt64}
      {x : ThreadContext} (hx : a.saved next = some x) :
      SpecStep L a (.switch c action next cr3 ret)
        { cores := Function.update a.cores c
            (x.resume ((a.cores c).cr0 ||| Cr0.taskSwitched) cr3)
          running := Function.update a.running c next
          saved := Function.update (Function.update a.saved next none) (a.running c)
            (if action = .exit then none else
              some (ThreadContext.atCall ((a.cores c).withArgs
                (L.oldStack action (a.running c)) (UInt64.ofNat (x.rsp.toNat - 136)) cr3) ret)) }
  | spawn {a : Spec κ τ} {t : τ} {debug : Bool} {stack : List UInt8} {entryPoint : UInt64}
      (hfree : a.saved t = none) (hidle : ∀ c, a.running c ≠ t)
      (hnew : newStack debug (L.base t) entryPoint stack ≠ none) :
      SpecStep L a (.spawn t debug stack entryPoint)
        { a with
          saved := Function.update a.saved t
            (some (initialContext (L.base t) entryPoint stack.length)) }

variable {L : Layout τ}

/-- The machine implements the abstract one: the same cores and threads, and each parked
thread's context saved at its slot, with its frame on its own stack.  No running thread is
parked, and no thread runs on two cores. -/
structure Refines (L : Layout τ) (s : Sys κ τ) (a : Spec κ τ) : Prop where
  cores : s.cores = a.cores
  running : s.running = a.running
  parked : ∀ t, s.parked t = (a.saved t).isSome
  saved : ∀ t x, a.saved t = some x → Saved s.mem (L.slot t) x ∧ L.OnStack t x
  idle : ∀ c, a.saved (a.running c) = none
  running_inj : Function.Injective a.running

variable {s : Sys κ τ} {a : Spec κ τ}

omit [DecidableEq κ] [DecidableEq τ] in
/-- A parked thread runs on no core. -/
theorem Refines.ne_running (R : Refines L s a) {t : τ} {x : ThreadContext}
    (hx : a.saved t = some x) (c : κ) : t ≠ a.running c := by
  rintro rfl
  rw [R.idle c] at hx
  cases hx

omit [DecidableEq κ] [DecidableEq τ] in
theorem Refines.saved_eq_none (R : Refines L s a) {t : τ} (h : s.parked t = false) :
    a.saved t = none := by
  simpa [R.parked] using h

omit [DecidableEq τ] in
/-- A computing core keeps the refinement: it leaves every parked thread's bytes alone,
since a parked thread is not the one it runs. -/
theorem Refines.compute (R : Refines L s a) {c : κ} {core : Core} {m : Memory}
    (hkeep : ∀ t, t ≠ s.running c → Set.EqOn m s.mem (L.owned t)) :
    Refines L { s with cores := Function.update s.cores c core, mem := m }
      { a with cores := Function.update a.cores c core } where
  cores := by rw [R.cores]
  running := R.running
  parked := R.parked
  saved t x hx := by
    obtain ⟨hsaved, hon⟩ := R.saved t x hx
    -- a parked thread is not the one the core runs
    have hne : t ≠ s.running c := R.running ▸ R.ne_running hx c
    exact ⟨hsaved.of_eqOn ((hkeep t hne).mono (Layout.written_subset hon)), hon⟩
  idle := R.idle
  running_inj := R.running_inj

omit [DecidableEq κ] in
/-- `Thread::new` keeps the refinement: the new stack is a saved context on its own stack,
and no other thread's bytes are written. -/
theorem Refines.spawn (R : Refines L s a) {t : τ} {debug : Bool} {stack buf : List UInt8}
    {entryPoint sp : UInt64} (hfree : s.parked t = false) (hidle : ∀ c, s.running c ≠ t)
    (hlen : stack.length = L.size t)
    (hnew : newStack debug (L.base t) entryPoint stack = some (buf, sp)) :
    Refines L
      { s with
        mem := (s.mem.writeBytes (L.base t).toNat buf).writeWord (L.slot t) sp.toNat
        parked := Function.update s.parked t true }
      { a with
        saved := Function.update a.saved t
          (some (initialContext (L.base t) entryPoint stack.length)) } where
  cores := R.cores
  running := R.running
  parked u := by
    by_cases hu : u = t
    · subst hu
      simp
    · simp [Function.update_of_ne hu, R.parked]
  saved u y hy := by
    obtain ⟨hbuf, hlong⟩ := newStack_length hnew
    have hfit : (L.base t).toNat + stack.length < 2 ^ 64 := hlen ▸ L.fits t
    by_cases hu : u = t
    · subst hu
      simp only [Function.update_self, Option.some.injEq] at hy
      subst hy
      -- the new thread's frame lies under the entry point's copy at the top of its stack
      have hslot := (L.slot_stack u u)
      rw [word, region, Set.Ico_disjoint_Ico, ← hlen] at hslot
      have hmin : minimumLeftoverStack = 0x100 := rfl
      refine ⟨(newStack_saved hnew hfit (by omega)).1, Layout.onStack_of_le ?_ ?_⟩ <;>
        rw [initialContext_rsp hfit] <;> omega
    · dsimp only at hy
      rw [Function.update_of_ne hu] at hy
      obtain ⟨hsaved, hon⟩ := R.saved u y hy
      have hne : u ≠ t := by
        rintro rfl
        rw [R.saved_eq_none hfree] at hy
        cases hy
      have hclear : y.written (L.slot u) ⊆ (L.owned t)ᶜ :=
        (Layout.written_subset hon).trans
          (Set.subset_compl_iff_disjoint_right.mpr (Layout.disjoint_owned hne))
      exact ⟨hsaved.of_eqOn ((Layout.eqOn_spawn (hbuf.trans hlen)).mono hclear), hon⟩
  idle c := by
    dsimp only
    rw [Function.update_of_ne (R.running ▸ hidle c)]
    exact R.idle c
  running_inj := R.running_inj

omit [DecidableEq κ] [DecidableEq τ] in
/-- What a switch away from the running thread writes, the caller's frame and `old_stack`,
is the caller's or `USELESS`. -/
theorem Layout.written_atCall_subset {o : τ} {core : Core} {action : ThreadAction}
    {newStack cr3 ret : UInt64} (hon : L.OnStack o (ThreadContext.atCall core ret)) :
    (ThreadContext.atCall (core.withArgs (L.oldStack action o) newStack cr3) ret).written
      (L.oldStack action o).toNat ⊆ L.owned o ∪ word L.useless :=
  Set.union_subset (fun _ hb => Or.inl (Or.inl (hon hb))) (Layout.word_oldStack_subset action o)

omit [DecidableEq κ] [DecidableEq τ] in
/-- **What `perform` does** from a refining state: the core resumes the context the
abstract machine holds for `next`, and the caller's context is saved at `old_stack`. -/
theorem Refines.perform_eq (R : Refines L s a) {c : κ} {action : ThreadAction} {next : τ}
    {cr3 ret : UInt64} {x : ThreadContext} (hx : a.saved next = some x)
    (hroom : 136 ≤ (s.cores c).rsp.toNat)
    (hon : L.OnStack (s.running c) (ThreadContext.atCall (s.cores c) ret)) :
    perform ⟨s.cores c, s.mem⟩ (L.oldStack action (s.running c))
        (UInt64.ofNat (s.mem.readWord (L.slot next))) cr3 ret =
      some ⟨x.resume ((s.cores c).cr0 ||| Cr0.taskSwitched) cr3,
        (ThreadContext.atCall ((s.cores c).withArgs (L.oldStack action (s.running c))
          (UInt64.ofNat (s.mem.readWord (L.slot next))) cr3) ret).save s.mem
          (L.oldStack action (s.running c)).toNat⟩ := by
  obtain ⟨hxs, hxon⟩ := R.saved next x hx
  -- `next`'s frame is on its own stack, apart from all the caller may write
  exact @perform_of_saved ⟨s.cores c, s.mem⟩ (L.oldStack action (s.running c)) cr3 ret
    (L.slot next) x hroom hxs
    (Disjoint.mono (fun _ hb => Or.inl (hxon hb)) (Layout.written_atCall_subset hon)
      (Layout.disjoint_switchOut (R.running ▸ R.ne_running hx c)))

omit [DecidableEq τ] in
/-- A core that moves to a thread no core runs keeps the cores on different threads. -/
theorem injective_update_running {r : κ → τ} (hr : Function.Injective r) {c : κ} {t : τ}
    (ht : ∀ d, r d ≠ t) : Function.Injective (Function.update r c t) := by
  intro d e hde
  by_cases hd : d = c <;> by_cases he : e = c
  · exact hd.trans he.symm
  · subst hd
    rw [Function.update_self, Function.update_of_ne he] at hde
    exact absurd hde.symm (ht e)
  · subst he
    rw [Function.update_self, Function.update_of_ne hd] at hde
    exact absurd hde (ht d)
  · rw [Function.update_of_ne hd, Function.update_of_ne he] at hde
    exact hr hde

/-- **A switch keeps the refinement**: the core resumes the context saved for `next`, and
the caller's context is saved at its slot, while every other parked context, its frame and
slot apart from what the switch writes, is kept. -/
theorem Refines.switch (R : Refines L s a) {c : κ} {action : ThreadAction} {next : τ}
    {cr3 ret : UInt64} {x : ThreadContext} {t : Mach} (hx : a.saved next = some x)
    (hroom : 136 ≤ (s.cores c).rsp.toNat)
    (hon : L.OnStack (s.running c) (ThreadContext.atCall (s.cores c) ret))
    (hperform : perform ⟨s.cores c, s.mem⟩ (L.oldStack action (s.running c))
      (UInt64.ofNat (s.mem.readWord (L.slot next))) cr3 ret = some t) :
    Refines L
      { cores := Function.update s.cores c t.core
        mem := t.mem
        running := Function.update s.running c next
        parked := Function.update (Function.update s.parked next false) (s.running c)
          (decide (action ≠ .exit)) }
      { cores := Function.update a.cores c
          (x.resume ((a.cores c).cr0 ||| Cr0.taskSwitched) cr3)
        running := Function.update a.running c next
        saved := Function.update (Function.update a.saved next none) (a.running c)
          (if action = .exit then none else
            some (ThreadContext.atCall ((a.cores c).withArgs
              (L.oldStack action (a.running c)) (UInt64.ofNat (x.rsp.toNat - 136)) cr3) ret)) } := by
  obtain ⟨hxs, -⟩ := R.saved next x hx
  have hne : next ≠ a.running c := R.ne_running hx c
  have hkeep := ThreadContext.eqOn_save (ThreadContext.atCall ((s.cores c).withArgs
    (L.oldStack action (s.running c)) (UInt64.ofNat (s.mem.readWord (L.slot next))) cr3) ret)
    s.mem (L.oldStack action (s.running c)).toNat hroom
  obtain rfl := Option.some.inj (hperform.symm.trans (R.perform_eq hx hroom hon))
  rw [hxs.slot_eq] at hkeep ⊢
  refine ⟨?_, ?_, ?_, ?_, ?_, ?_⟩
  · -- the core resumes `next`'s context
    dsimp only
    rw [R.cores]
  · dsimp only
    rw [R.running]
  · -- the caller is parked unless it exits, and `next` is no longer
    intro u
    dsimp only
    rw [R.running]
    rcases eq_or_ne u (a.running c) with rfl | hu
    · by_cases ha : action = .exit <;> simp [ha]
    · rcases eq_or_ne u next with rfl | hn
      · simp [Function.update_of_ne hu]
      · simp [Function.update_of_ne hu, Function.update_of_ne hn, R.parked]
  · intro u y hy
    dsimp only at hy ⊢
    rcases eq_or_ne u (a.running c) with rfl | hu
    · -- the caller's context goes to its own slot, clear of its frame
      rw [Function.update_self] at hy
      split_ifs at hy with ha
      obtain rfl := Option.some.inj hy
      rw [← R.cores, ← R.running, Layout.toNat_oldStack_of_ne ha]
      exact ⟨saved_save s.mem hroom (Layout.slot_clear hon hroom), hon⟩
    · rw [Function.update_of_ne hu] at hy
      rcases eq_or_ne u next with rfl | hn
      · rw [Function.update_self] at hy
        cases hy
      -- every other parked context lies apart from what the switch writes
      rw [Function.update_of_ne hn] at hy
      obtain ⟨hys, hyon⟩ := R.saved u y hy
      have hclear : y.written (L.slot u) ⊆ (L.owned (s.running c) ∪ word L.useless)ᶜ :=
        (Layout.written_subset hyon).trans
          (Set.subset_compl_iff_disjoint_right.mpr (Layout.disjoint_switchOut (R.running ▸ hu)))
      exact ⟨hys.of_eqOn (hkeep.mono
        (hclear.trans (Set.compl_subset_compl.mpr (Layout.written_atCall_subset hon)))), hyon⟩
  · intro d
    dsimp only
    rcases eq_or_ne d c with rfl | hd
    · rw [Function.update_self, Function.update_of_ne hne, Function.update_self]
    · have hrun : a.running d ≠ a.running c := fun h => hd (R.running_inj h)
      rw [Function.update_of_ne hd, Function.update_of_ne hrun,
        Function.update_of_ne (R.ne_running hx d).symm]
      exact R.idle d
  · -- `next` ran on no core before
    exact injective_update_running R.running_inj fun d => (R.ne_running hx d).symm

/-- **One step of the cores is a step of the abstract machine**, with the same label. -/
theorem Refines.step (R : Refines L s a) {l : Label κ τ} {s' : Sys κ τ} (h : Step L s l s') :
    ∃ a', SpecStep L a l a' ∧ Refines L s' a' := by
  cases h with
  | compute hkeep => exact ⟨_, .compute, R.compute hkeep⟩
  | @switch c action next cr3 ret t hparked hroom hon hperform =>
    obtain ⟨x, hx⟩ : ∃ x, a.saved next = some x :=
      Option.isSome_iff_exists.mp (by rw [← R.parked]; exact hparked)
    exact ⟨_, .switch hx, R.switch hx hroom hon hperform⟩
  | spawn hfree hidle hlen hnew =>
    exact ⟨_, .spawn (R.saved_eq_none hfree) (R.running ▸ hidle)
      (by rw [hnew]; exact Option.some_ne_none _), R.spawn hfree hidle hlen hnew⟩

/-! ## §5 A Run on Two Cores -/

end Beskar.Kernel.Switching
