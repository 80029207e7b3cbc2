import Mathlib
import Beskar.Arch.Context

/-!
# A New Thread's Stack

Model of `Thread::setup_stack` and of the stack part of `Thread::new` in
`kernel/src/process/scheduler/thread.rs`.

`setup_stack` fills the stack with `int3` in a debug build, checks that it holds at least
`MINIMUM_LEFTOVER_STACK` bytes beyond a `ThreadRegisters` and a word, copies the entry
point's address into the top word, copies `ThreadRegisters::new(entry_point, stack_ptr)`
under it, and returns the offset of that record.  `Thread::new` stores the record's address
in `last_stack_ptr`, the word the first `switch` into the thread loads as `new_stack`.

## Main results

- `setupStack_eq_none_iff`: `setup_stack` panics exactly when the stack is shorter than
  `MINIMUM_LEFTOVER_STACK` plus a frame and a word; its `debug_assert!` never fires.
- `newStack_saved`: the stack `Thread::new` leaves at its address, with `last_stack_ptr`
  stored, is a context saved for `switch` (`Arch.Context.Saved`): the thread resumes at its
  entry point with `ThreadRegisters::new`'s registers, its stack pointer on the entry
  point's copy in the top word, and `MINIMUM_LEFTOVER_STACK` bytes of stack left below the
  frame.
-/

namespace Beskar.Kernel.ThreadStack

open Beskar.Lib Beskar.Arch.Context

/-! ## §1 The Model -/

/-- `MINIMUM_LEFTOVER_STACK`. -/
def minimumLeftoverStack : Nat := 0x100

/-- `STACK_DEBUG_INSTR`, `int3`. -/
def stackDebugInstr : UInt8 := 0xCC

/-- `stack.fill(STACK_DEBUG_INSTR)`, which only a debug build does. -/
def debugFill (debug : Bool) (stack : List UInt8) : List UInt8 :=
  if debug then stack.map fun _ => stackDebugInstr else stack

/-- `Thread::setup_stack(stack_ptr, stack, entry_point)`, with `debug` for
`cfg(debug_assertions)`: the buffer it leaves and the offset it returns, or `none` where it
panics.  `size_of::<usize>()` is 8 and `size_of::<ThreadRegisters>()` is 136. -/
def setupStack (debug : Bool) (stackPtr entryPoint : UInt64) (stack : List UInt8) :
    Option (List UInt8 × Nat) :=
  let stack := debugFill debug stack
  let stackBottom := stack.length
  if stackBottom < minimumLeftoverStack + 136 + 8 then none
  else do
    let stack ← copyFromSlice stack (stackBottom - 8) stackBottom (leBytes entryPoint.toNat)
    let stackBottom := stackBottom - 8
    let stack ← copyFromSlice stack (stackBottom - 136) stackBottom
      (ThreadRegisters.new entryPoint stackPtr).bytes
    let stackBottom := stackBottom - 136
    -- `debug_assert!(stack_bottom >= MINIMUM_LEFTOVER_STACK)`
    if debug && decide (stackBottom < minimumLeftoverStack) then none else some (stack, stackBottom)

/-- The stack of `Thread::new(root_proc, priority, stack, entry_point)`: the buffer
`setup_stack` leaves at `stack_ptr = stack.as_mut_ptr()`, and `last_stack_ptr`, `stack_ptr`
moved by the offset it returns. -/
def newStack (debug : Bool) (stackPtr entryPoint : UInt64) (stack : List UInt8) :
    Option (List UInt8 × UInt64) :=
  (setupStack debug stackPtr entryPoint stack).map fun r => (r.1, stackPtr + UInt64.ofNat r.2)

/-- The context a new thread is saved in: the registers of `ThreadRegisters::new`, returning
to the entry point with the stack pointer on the entry point's copy at the top. -/
def initialContext (stackPtr entryPoint : UInt64) (len : Nat) : ThreadContext :=
  ⟨(ThreadRegisters.new entryPoint stackPtr).reg, Rflags.ifFlag, stackPtr + UInt64.ofNat (len - 8),
    entryPoint⟩

theorem initialContext_frame (stackPtr entryPoint : UInt64) (len : Nat) :
    (initialContext stackPtr entryPoint len).frame = ThreadRegisters.new entryPoint stackPtr := rfl

@[simp] theorem ThreadRegisters.length_bytes (f : ThreadRegisters) : f.bytes.length = 136 := by
  simp [ThreadRegisters.bytes, ThreadRegisters.words]

@[simp] theorem length_debugFill (debug : Bool) (stack : List UInt8) :
    (debugFill debug stack).length = stack.length := by
  unfold debugFill
  split <;> simp

/-! ## §2 What `setup_stack` Leaves -/

/-- **What `setup_stack` leaves** on a stack long enough for its `assert!`: the frame under the
entry point's copy at the top, and the offset of the frame; the `debug_assert!` after it
holds. -/
theorem setupStack_of_le {debug : Bool} {stackPtr entryPoint : UInt64} {stack : List UInt8}
    (h : minimumLeftoverStack + 136 + 8 ≤ stack.length) :
    setupStack debug stackPtr entryPoint stack =
      some ((debugFill debug stack).take (stack.length - 144) ++
          (ThreadRegisters.new entryPoint stackPtr).bytes ++ leBytes entryPoint.toNat,
        stack.length - 144) := by
  have hmin : minimumLeftoverStack = 0x100 := rfl
  have hlen := length_debugFill debug stack
  -- the entry point's address goes into the top word
  have hcopy₁ : copyFromSlice (debugFill debug stack) (stack.length - 8) stack.length (leBytes entryPoint.toNat) =
      some ((debugFill debug stack).take (stack.length - 8) ++ leBytes entryPoint.toNat) := by
    rw [copyFromSlice, if_pos ⟨by omega, by omega, by simp; omega⟩,
      List.drop_eq_nil_of_le (by omega), List.append_nil]
  -- the frame goes under it
  have hcopy₂ : copyFromSlice ((debugFill debug stack).take (stack.length - 8) ++ leBytes entryPoint.toNat)
      (stack.length - 8 - 136) (stack.length - 8) (ThreadRegisters.new entryPoint stackPtr).bytes =
      some ((debugFill debug stack).take (stack.length - 144) ++ (ThreadRegisters.new entryPoint stackPtr).bytes ++
        leBytes entryPoint.toNat) := by
    have htake : ((debugFill debug stack).take (stack.length - 8)).length = stack.length - 8 := by
      simp [hlen]
    rw [copyFromSlice, if_pos ⟨by omega, by simp [htake], by simp; omega⟩,
      List.take_append_of_le_length (by omega), List.take_take, Nat.min_eq_left (by omega),
      List.drop_append_of_le_length (by omega), List.drop_eq_nil_of_le (by omega),
      List.nil_append, show stack.length - 8 - 136 = stack.length - 144 by omega]
  have hbig : ¬ stack.length < minimumLeftoverStack + 136 + 8 := by omega
  have hassert : (debug && decide (stack.length - 8 - 136 < minimumLeftoverStack)) = false := by
    simp only [hmin, Bool.and_eq_false_iff, decide_eq_false_iff_not]
    exact Or.inr (by omega)
  simp only [setupStack, length_debugFill, hbig, if_false]
  rw [hcopy₁, Option.bind_eq_bind, Option.bind_some, hcopy₂, Option.bind_some, hassert,
    if_neg Bool.false_ne_true, show stack.length - 8 - 136 = stack.length - 144 by omega]

/-- **`setup_stack` panics exactly on a short stack**: the `assert!` is the only check that
can fail, since the `debug_assert!` after it checks what the `assert!` has ensured. -/
theorem setupStack_eq_none_iff (debug : Bool) (stackPtr entryPoint : UInt64) (stack : List UInt8) :
    setupStack debug stackPtr entryPoint stack = none ↔
      stack.length < minimumLeftoverStack + 136 + 8 := by
  constructor
  · intro h
    by_contra hsmall
    rw [setupStack_of_le (by omega)] at h
    cases h
  · intro h
    simp only [setupStack, length_debugFill, h, if_true]

/-! ## §3 The Context a New Thread Starts In -/

/-- The buffer `Thread::new` copies is as long as the stack, and the stack passed the
`assert!`. -/
theorem newStack_length {debug : Bool} {stackPtr entryPoint sp : UInt64} {stack buf : List UInt8}
    (h : newStack debug stackPtr entryPoint stack = some (buf, sp)) :
    buf.length = stack.length ∧ minimumLeftoverStack + 136 + 8 ≤ stack.length := by
  have hlong : minimumLeftoverStack + 136 + 8 ≤ stack.length := by
    by_contra hshort
    have hnone := (setupStack_eq_none_iff debug stackPtr entryPoint stack).mpr (by omega)
    simp [newStack, hnone] at h
  rw [newStack, setupStack_of_le hlong, Option.map_some, Option.some.injEq, Prod.mk.injEq] at h
  obtain ⟨rfl, -⟩ := h
  have hmin : minimumLeftoverStack = 0x100 := rfl
  refine ⟨?_, hlong⟩
  simp only [List.length_append, List.length_take, length_debugFill,
    ThreadRegisters.length_bytes, length_leBytes]
  omega

/-- The stack pointer a new thread resumes with: the entry point's copy at the top. -/
theorem initialContext_rsp {stackPtr entryPoint : UInt64} {len : Nat}
    (hfit : stackPtr.toNat + len < 2 ^ 64) :
    (initialContext stackPtr entryPoint len).rsp.toNat = stackPtr.toNat + (len - 8) := by
  have hoff : (UInt64.ofNat (len - 8)).toNat = len - 8 := toNat_ofNat_of_lt (by omega)
  exact (toNat_add_of_lt (by rw [hoff]; omega)).trans (by rw [hoff])

/-- **A new thread's stack is a saved context**: the buffer `Thread::new` leaves at the
stack's address, with `last_stack_ptr` stored in its slot, holds the context `switch`
resumes the thread in (`ThreadRegisters::new` under the entry point's copy), and at least
`MINIMUM_LEFTOVER_STACK` bytes of the stack lie below the frame. -/
theorem newStack_saved {debug : Bool} {stackPtr entryPoint sp : UInt64} {stack buf : List UInt8}
    {m : Memory} {slot : Nat} (h : newStack debug stackPtr entryPoint stack = some (buf, sp))
    (hfit : stackPtr.toNat + stack.length < 2 ^ 64)
    (hslot : slot + 8 ≤ stackPtr.toNat ∨ stackPtr.toNat + stack.length ≤ slot) :
    Saved ((m.writeBytes stackPtr.toNat buf).writeWord slot sp.toNat) slot
        (initialContext stackPtr entryPoint stack.length) ∧
      stackPtr.toNat + minimumLeftoverStack ≤ sp.toNat ∧
      ((m.writeBytes stackPtr.toNat buf).writeWord slot sp.toNat).readWord
        (stackPtr.toNat + (stack.length - 8)) = entryPoint.toNat := by
  -- the stack is long enough, or `setup_stack` would have panicked
  have hlong := (newStack_length h).2
  rw [newStack, setupStack_of_le hlong, Option.map_some, Option.some.injEq, Prod.mk.injEq] at h
  obtain ⟨rfl, rfl⟩ := h
  have hmin : minimumLeftoverStack = 0x100 := rfl
  have hsp : (stackPtr + UInt64.ofNat (stack.length - 144)).toNat =
      stackPtr.toNat + (stack.length - 144) := by
    have hoff : (UInt64.ofNat (stack.length - 144)).toNat = stack.length - 144 :=
      toNat_ofNat_of_lt (by omega)
    rw [toNat_add_of_lt (by rw [hoff]; omega), hoff]
  have hrsp : (initialContext stackPtr entryPoint stack.length).rsp.toNat =
      stackPtr.toNat + (stack.length - 8) := initialContext_rsp hfit
  have hpre : ((debugFill debug stack).take (stack.length - 144)).length = stack.length - 144 := by
    simp only [List.length_take, length_debugFill]
    omega
  -- the frame read back from the buffer, the slot being clear of it
  have hframe : (m.writeBytes stackPtr.toNat
      ((debugFill debug stack).take (stack.length - 144) ++
        ((ThreadRegisters.new entryPoint stackPtr).words.map UInt64.toNat).flatMap leBytes ++
        leBytes entryPoint.toNat)).readWords
      (stackPtr.toNat + ((debugFill debug stack).take (stack.length - 144)).length)
      ((ThreadRegisters.new entryPoint stackPtr).words.map UInt64.toNat).length =
      (ThreadRegisters.new entryPoint stackPtr).words.map UInt64.toNat :=
    Memory.readWords_writeBytes_flatMap (by
      simp only [List.mem_map]
      rintro _ ⟨w, -, rfl⟩
      exact w.toNat_lt)
  rw [hpre, List.length_map, ThreadRegisters.length_words] at hframe
  -- the entry point's copy in the top word, the slot being clear of it too
  have htop : (m.writeBytes stackPtr.toNat
      ((debugFill debug stack).take (stack.length - 144) ++
        (ThreadRegisters.new entryPoint stackPtr).bytes ++ leBytes entryPoint.toNat)).readWord
      (stackPtr.toNat + (stack.length - 8)) = entryPoint.toNat := by
    have hk : stack.length - 8 = ((debugFill debug stack).take (stack.length - 144) ++
        (ThreadRegisters.new entryPoint stackPtr).bytes).length := by
      rw [List.length_append, hpre, ThreadRegisters.length_bytes]
      omega
    rw [Memory.readWord_writeBytes (by simp only [List.length_append, hpre,
        ThreadRegisters.length_bytes, length_leBytes]; omega), hk,
      ← List.append_nil (_ ++ leBytes entryPoint.toNat)]
    exact Memory.leField_append_leBytes (UInt64.toNat_lt _)
  refine ⟨⟨by rw [hrsp]; omega, ?_, ?_⟩, by rw [hsp]; omega, ?_⟩
  · rw [Memory.readWord_writeWord_self (UInt64.toNat_lt _), hsp, hrsp]
    omega
  · rw [hrsp, initialContext_frame,
      show stackPtr.toNat + (stack.length - 8) - 136 = stackPtr.toNat + (stack.length - 144) by
        omega, ← hframe]
    refine Memory.readWords_congr (Memory.eqOn_writeWord.mono fun a ha => ?_)
    simp only [Set.mem_Ico] at ha
    simp only [Set.mem_compl_iff, Set.mem_Ico]
    omega
  · refine (Memory.readWord_congr (Memory.eqOn_writeWord.mono fun a ha => ?_)).trans htop
    simp only [Set.mem_Ico] at ha
    simp only [Set.mem_compl_iff, Set.mem_Ico]
    omega

/-- The idle thread's stack of `scheduler::init`, 8 KiB here at `0x10000`, in a debug build:
its `last_stack_ptr` in a slot at `0x100`. -/
theorem newStack_saved_idle :
    ∃ buf sp, newStack true 0x10000 0x5000 (List.replicate (8 * 1024) 0) = some (buf, sp) ∧
      Saved ((Memory.writeBytes (fun _ => 0) (0x10000 : UInt64).toNat buf).writeWord 0x100
          sp.toNat) 0x100
          (initialContext 0x10000 0x5000 (List.replicate (8 * 1024) (0 : UInt8)).length) ∧
      (0x10000 : UInt64).toNat + minimumLeftoverStack ≤ sp.toNat ∧
      ((Memory.writeBytes (fun _ => 0) (0x10000 : UInt64).toNat buf).writeWord 0x100
          sp.toNat).readWord
        ((0x10000 : UInt64).toNat + ((List.replicate (8 * 1024) (0 : UInt8)).length - 8)) =
        (0x5000 : UInt64).toNat := by
  obtain ⟨buf, sp, hnew⟩ :
      ∃ buf sp, newStack true 0x10000 0x5000 (List.replicate (8 * 1024) 0) = some (buf, sp) :=
    ⟨_, _, by
      rw [newStack, setupStack_of_le (by rw [List.length_replicate]; decide), Option.map_some]⟩
  have hfit : (0x10000 : UInt64).toNat + (List.replicate (8 * 1024) (0 : UInt8)).length < 2 ^ 64 := by
    simp only [List.length_replicate, UInt64.reduceToNat]
    norm_num
  have hslot : 0x100 + 8 ≤ (0x10000 : UInt64).toNat ∨
      (0x10000 : UInt64).toNat + (List.replicate (8 * 1024) (0 : UInt8)).length ≤ 0x100 :=
    Or.inl (by simp only [UInt64.reduceToNat]; norm_num)
  exact ⟨buf, sp, hnew, newStack_saved hnew hfit hslot⟩

end Beskar.Kernel.ThreadStack
