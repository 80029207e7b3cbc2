import Mathlib
import Beskar.Lib.WordMemory

/-!
# The Context Switch

Model of `kernel/src/arch/x86_64/context.rs`: the naked function `switch`, instruction by
instruction, and the `repr(C)` record `ThreadRegisters` whose layout its pushes and pops
follow; with `Cr0::TASK_SWITCHED` and `Rflags::IF` of `beskar-hal/src/x86_64/registers.rs`.

`switch(old_stack, new_stack, cr3)` is entered by a `call`, which pushes the return
address.  It pushes the flags and the fifteen general-purpose registers, stores the stack
pointer at `old_stack`, moves to `new_stack`, sets `CR0.TS`, loads `cr3` when it differs,
pops fifteen registers and the flags, enables interrupts and returns.  The seventeen words
below the caller's stack pointer are therefore a `ThreadRegisters`, and the pops read one
back.

A core is a `Core` (the registers the code names) with a byte `Memory`; `Mach.exec` is one
instruction and `run` the code from a program counter, with `je` and `ret` its only control
flow.  Of the status flags only `ZF`, bit 6 of `RFLAGS`, is kept: `je` is the only
instruction that reads a flag, and `popfq` replaces them all.

## Main results

- `perform_eq`: `ContextSwitch::perform` on a core whose stack has room for the frame
  returns with the registers, flags and return address of the frame at `new_stack`,
  interrupts enabled, `CR0.TS` set and `cr3` loaded; the memory is the frame pushed and the
  stack pointer stored at `old_stack`.
- `Saved`: a context saved at a slot of memory.  `saved_save`: what `switch` leaves is the
  caller's context saved at `old_stack`; `Saved.of_eqOn`: a saved context survives every
  change of memory away from its frame and slot; `perform_of_saved`: switching to a saved
  context resumes it.
-/

namespace Beskar.Arch.Context

open Beskar.Lib

/-! ## §1 The Machine -/

/-- The general-purpose registers other than `rsp`. -/
inductive Reg where
  | rax | rcx | rdx | rbx | rbp | rsi | rdi | r8 | r9 | r10 | r11 | r12 | r13 | r14 | r15
deriving DecidableEq, Repr

/-- `Cr0::TASK_SWITCHED`. -/
def Cr0.taskSwitched : UInt64 := (1 : UInt64) <<< 3

/-- `Rflags::IF`. -/
def Rflags.ifFlag : UInt64 := (1 : UInt64) <<< 9

/-- `ZF`, bit 6 of `RFLAGS`. -/
def Rflags.zeroFlag : UInt64 := (1 : UInt64) <<< 6

/-- The registers of a core that `switch` names. -/
structure Core where
  regs : Reg → UInt64
  rsp : UInt64
  rflags : UInt64
  rip : UInt64
  cr0 : UInt64
  cr3 : UInt64

namespace Core

/-- A register written. -/
def setReg (c : Core) (r : Reg) (v : UInt64) : Core :=
  { c with regs := Function.update c.regs r v }

/-- `ZF` set to `b`, the other flags kept. -/
def withZf (c : Core) (b : Bool) : Core :=
  { c with rflags := if b then c.rflags ||| Rflags.zeroFlag else c.rflags &&& ~~~Rflags.zeroFlag }

/-- `ZF`. -/
def zf (c : Core) : Bool :=
  c.rflags &&& Rflags.zeroFlag != 0

@[simp] theorem setReg_rsp (c : Core) (r : Reg) (v : UInt64) : (c.setReg r v).rsp = c.rsp := rfl
@[simp] theorem setReg_cr0 (c : Core) (r : Reg) (v : UInt64) : (c.setReg r v).cr0 = c.cr0 := rfl
@[simp] theorem setReg_cr3 (c : Core) (r : Reg) (v : UInt64) : (c.setReg r v).cr3 = c.cr3 := rfl
@[simp] theorem setReg_regs_self (c : Core) (r : Reg) (v : UInt64) :
    (c.setReg r v).regs r = v := by
  simp [setReg]

@[simp] theorem withZf_regs (c : Core) (b : Bool) : (c.withZf b).regs = c.regs := rfl
@[simp] theorem withZf_rsp (c : Core) (b : Bool) : (c.withZf b).rsp = c.rsp := rfl
@[simp] theorem withZf_cr0 (c : Core) (b : Bool) : (c.withZf b).cr0 = c.cr0 := rfl
@[simp] theorem withZf_cr3 (c : Core) (b : Bool) : (c.withZf b).cr3 = c.cr3 := rfl

/-- `je` after a flag write sees the flag written. -/
@[simp] theorem zf_withZf (c : Core) (b : Bool) : (c.withZf b).zf = b := by
  cases b
  · have hclear : c.rflags &&& ~~~Rflags.zeroFlag &&& Rflags.zeroFlag = 0 := by
      rw [UInt64.and_assoc, UInt64.and_comm (~~~Rflags.zeroFlag), UInt64.and_not_self,
        UInt64.and_zero]
    simp [zf, withZf, hclear]
  · have hset : (c.rflags ||| Rflags.zeroFlag) &&& Rflags.zeroFlag = Rflags.zeroFlag := by
      apply UInt64.eq_of_toBitVec_eq
      simp only [UInt64.toBitVec_and, UInt64.toBitVec_or]
      ext i hi
      simp
      grind
    simp only [zf, withZf, if_true, hset]
    decide

end Core

/-- A core and the memory it runs on. -/
structure Mach where
  core : Core
  mem : Memory

/-- The instructions of `switch`, in the operand forms it uses. -/
inductive Instr where
  /-- `pushfq` -/
  | pushfq
  /-- `push r` -/
  | push (r : Reg)
  /-- `mov [base], rsp` -/
  | storeRsp (base : Reg)
  /-- `mov rsp, src` -/
  | loadRsp (src : Reg)
  /-- `mov dst, cr0` -/
  | readCr0 (dst : Reg)
  /-- `or dst, imm` -/
  | orImm (dst : Reg) (imm : UInt64)
  /-- `mov cr0, src` -/
  | writeCr0 (src : Reg)
  /-- `mov dst, cr3` -/
  | readCr3 (dst : Reg)
  /-- `cmp a, b` -/
  | cmp (a b : Reg)
  /-- `je target`, the target an index into the code -/
  | je (target : Nat)
  /-- `mov cr3, src` -/
  | writeCr3 (src : Reg)
  /-- `pop r` -/
  | pop (r : Reg)
  /-- `popfq` -/
  | popfq
  /-- `sti` -/
  | sti
  /-- `ret` -/
  | ret
deriving DecidableEq, Repr

/-- The instructions that change the flow: `run` gives their effect. -/
def Instr.isFlow : Instr → Bool
  | .je _ | .ret => true
  | _ => false

namespace Mach

/-- `push v`: the stack pointer moves down a word and `v` is stored there. -/
def push (s : Mach) (v : UInt64) : Mach :=
  ⟨{ s.core with rsp := s.core.rsp - 8 }, s.mem.writeWord (s.core.rsp - 8).toNat v.toNat⟩

/-- The word at the stack pointer, which a pop reads. -/
def top (s : Mach) : UInt64 :=
  UInt64.ofNat (s.mem.readWord s.core.rsp.toNat)

/-- One instruction; `je` and `ret` leave the state to `run`. -/
def exec (s : Mach) : Instr → Mach
  | .pushfq => s.push s.core.rflags
  | .push r => s.push (s.core.regs r)
  | .storeRsp base => ⟨s.core, s.mem.writeWord (s.core.regs base).toNat s.core.rsp.toNat⟩
  | .loadRsp src => ⟨{ s.core with rsp := s.core.regs src }, s.mem⟩
  | .readCr0 dst => ⟨s.core.setReg dst s.core.cr0, s.mem⟩
  | .orImm dst imm =>
    ⟨(s.core.setReg dst (s.core.regs dst ||| imm)).withZf (s.core.regs dst ||| imm == 0), s.mem⟩
  | .writeCr0 src => ⟨{ s.core with cr0 := s.core.regs src }, s.mem⟩
  | .readCr3 dst => ⟨s.core.setReg dst s.core.cr3, s.mem⟩
  | .cmp a b => ⟨s.core.withZf (s.core.regs a == s.core.regs b), s.mem⟩
  | .writeCr3 src => ⟨{ s.core with cr3 := s.core.regs src }, s.mem⟩
  | .pop r => ⟨({ s.core with rsp := s.core.rsp + 8 }).setReg r s.top, s.mem⟩
  | .popfq => ⟨{ s.core with rflags := s.top, rsp := s.core.rsp + 8 }, s.mem⟩
  | .sti => ⟨{ s.core with rflags := s.core.rflags ||| Rflags.ifFlag }, s.mem⟩
  | .je _ | .ret => s

/-- Instructions one after the other. -/
def execAll (s : Mach) (is : List Instr) : Mach :=
  is.foldl exec s

/-- Values pushed one after the other. -/
def pushAll (s : Mach) : List UInt64 → Mach
  | [] => s
  | v :: vs => (s.push v).pushAll vs

end Mach

/-- The code from instruction `pc` on, for `fuel` instructions at most: `ret` pops the return
address into `rip` and ends the run; running off the code or out of fuel is `none`. -/
def run (code : List Instr) : Nat → Nat → Mach → Option Mach
  | 0, _, _ => none
  | fuel + 1, pc, s =>
    match code[pc]? with
    | none => none
    | some .ret => some ⟨{ s.core with rip := s.top, rsp := s.core.rsp + 8 }, s.mem⟩
    | some (.je target) => run code fuel (if s.core.zf then target else pc + 1) s
    | some i => run code fuel (pc + 1) (s.exec i)

/-- The body of `switch`.  `je 2f` jumps to the `pop r15` after the label `2:`,
instruction 25. -/
def switchCode : List Instr :=
  [.pushfq, .push .rax, .push .rcx, .push .rdx, .push .rbx, .push .rbp, .push .rsi, .push .rdi,
   .push .r8, .push .r9, .push .r10, .push .r11, .push .r12, .push .r13, .push .r14, .push .r15,
   .storeRsp .rdi, .loadRsp .rsi,
   .readCr0 .rax, .orImm .rax Cr0.taskSwitched, .writeCr0 .rax,
   .readCr3 .rax, .cmp .rax .rdx, .je 25,
   .writeCr3 .rdx,
   .pop .r15, .pop .r14, .pop .r13, .pop .r12, .pop .r11, .pop .r10, .pop .r9, .pop .r8,
   .pop .rdi, .pop .rsi, .pop .rbp, .pop .rbx, .pop .rdx, .pop .rcx, .pop .rax, .popfq,
   .sti, .ret]

/-- `call switch`: the return address `ret` pushed, then the body. -/
def callSwitch (s : Mach) (ret : UInt64) : Option Mach :=
  run switchCode switchCode.length 0 (s.push ret)

/-- The core at a call of `switch(old_stack, new_stack, cr3)`: the arguments in `rdi`, `rsi`
and `rdx`, as the C calling convention passes them. -/
def Core.withArgs (c : Core) (oldStack newStack cr3 : UInt64) : Core :=
  ((c.setReg .rdi oldStack).setReg .rsi newStack).setReg .rdx cr3

/-- `ContextSwitch::perform`: `switch(old_stack, new_stack, cr3)`; `ret` is the address after
the call. -/
def perform (s : Mach) (oldStack newStack cr3 ret : UInt64) : Option Mach :=
  callSwitch ⟨s.core.withArgs oldStack newStack cr3, s.mem⟩ ret

/-- `ThreadRegisters`, `repr(C)`: seventeen `u64` fields in this order, 136 bytes. -/
structure ThreadRegisters where
  r15 : UInt64
  r14 : UInt64
  r13 : UInt64
  r12 : UInt64
  r11 : UInt64
  r10 : UInt64
  r9 : UInt64
  r8 : UInt64
  rdi : UInt64
  rsi : UInt64
  rbp : UInt64
  rbx : UInt64
  rdx : UInt64
  rcx : UInt64
  rax : UInt64
  rflags : UInt64
  rip : UInt64

namespace ThreadRegisters

/-- `ThreadRegisters::new(entry, rbp)`: every register zero but `rbp`, interrupts enabled,
and `rip` the entry point (`u64::try_from` of a pointer cannot fail on this target). -/
def new (entry rbp : UInt64) : ThreadRegisters where
  r15 := 0
  r14 := 0
  r13 := 0
  r12 := 0
  r11 := 0
  r10 := 0
  r9 := 0
  r8 := 0
  rdi := 0
  rsi := 0
  rbp := rbp
  rbx := 0
  rdx := 0
  rcx := 0
  rax := 0
  rflags := Rflags.ifFlag
  rip := entry

/-- The fields in memory order. -/
def words (f : ThreadRegisters) : List UInt64 :=
  [f.r15, f.r14, f.r13, f.r12, f.r11, f.r10, f.r9, f.r8, f.rdi, f.rsi, f.rbp, f.rbx, f.rdx,
    f.rcx, f.rax, f.rflags, f.rip]

/-- The bytes `transmute::<ThreadRegisters, [u8; 136]>` gives on this little-endian target. -/
def bytes (f : ThreadRegisters) : List UInt8 :=
  f.words.flatMap fun w => leBytes w.toNat

/-- The register each field is popped into. -/
def reg (f : ThreadRegisters) : Reg → UInt64
  | .rax => f.rax
  | .rcx => f.rcx
  | .rdx => f.rdx
  | .rbx => f.rbx
  | .rbp => f.rbp
  | .rsi => f.rsi
  | .rdi => f.rdi
  | .r8 => f.r8
  | .r9 => f.r9
  | .r10 => f.r10
  | .r11 => f.r11
  | .r12 => f.r12
  | .r13 => f.r13
  | .r14 => f.r14
  | .r15 => f.r15

@[simp] theorem length_words (f : ThreadRegisters) : f.words.length = 17 := rfl

end ThreadRegisters

/-- `regs` with the registers `rs` written with `vs`, one after the other. -/
def updateRegs (regs : Reg → UInt64) : List Reg → List UInt64 → Reg → UInt64
  | r :: rs, v :: vs => updateRegs (Function.update regs r v) rs vs
  | _, _ => regs

/-- The registers in the order `switch` pushes them. -/
def saveOrder : List Reg :=
  [.rax, .rcx, .rdx, .rbx, .rbp, .rsi, .rdi, .r8, .r9, .r10, .r11, .r12, .r13, .r14, .r15]

/-! ## §2 Straight Blocks

Between `je` and `ret` the code is straight, so `run` goes through it as `execAll`: the
pushes are `pushWords` of the library, and the pops read the words above the stack
pointer into the registers in turn. -/

/-- `a + k` in `u64` when it does not wrap. -/
theorem toNat_add_of_lt {a b : UInt64} (h : a.toNat + b.toNat < 2 ^ 64) :
    (a + b).toNat = a.toNat + b.toNat := by
  rw [UInt64.toNat_add, Nat.mod_eq_of_lt h]

theorem toNat_sub_of_le {a b : UInt64} (h : b.toNat ≤ a.toNat) :
    (a - b).toNat = a.toNat - b.toNat :=
  UInt64.toNat_sub_of_le a b (UInt64.le_iff_toNat_le.mpr h)

theorem toNat_ofNat_of_lt {n : Nat} (h : n < 2 ^ 64) : (UInt64.ofNat n).toNat = n := by
  rw [UInt64.toNat_ofNat', Nat.mod_eq_of_lt h]

@[simp] theorem Mach.execAll_nil (s : Mach) : s.execAll [] = s := rfl

@[simp] theorem Mach.execAll_cons (s : Mach) (i : Instr) (is : List Instr) :
    s.execAll (i :: is) = (s.exec i).execAll is := rfl

theorem Mach.execAll_append (s : Mach) (is js : List Instr) :
    s.execAll (is ++ js) = (s.execAll is).execAll js := by
  simp [execAll, List.foldl_append]

/-- One instruction that does not change the flow. -/
theorem run_succ_of_get {code : List Instr} {pc fuel : Nat} {s : Mach} {i : Instr}
    (hi : code[pc]? = some i) (hflow : i.isFlow = false) :
    run code (fuel + 1) pc s = run code fuel (pc + 1) (s.exec i) := by
  cases i with
  | je target => simp [Instr.isFlow] at hflow
  | ret => simp [Instr.isFlow] at hflow
  | _ => simp only [run, hi]

/-- A straight block runs instruction by instruction. -/
theorem run_block {code rest is : List Instr} {pc fuel : Nat} (s : Mach)
    (hcode : code.drop pc = is ++ rest) (hflow : ∀ i ∈ is, i.isFlow = false) :
    run code (fuel + is.length) pc s = run code fuel (pc + is.length) (s.execAll is) := by
  induction is generalizing pc s with
  | nil => rfl
  | cons i is ih =>
    have hi : code[pc]? = some i := by
      rw [← List.head?_drop, hcode]
      rfl
    have hnext : code.drop (pc + 1) = is ++ rest := by
      rw [← List.drop_drop, hcode]
      rfl
    rw [List.length_cons, ← Nat.add_assoc, run_succ_of_get hi (hflow i List.mem_cons_self),
      ih _ hnext fun j hj => hflow j (List.mem_cons_of_mem i hj), Mach.execAll_cons]
    congr 1
    omega

theorem run_je {code : List Instr} {pc fuel target : Nat} {s : Mach}
    (hi : code[pc]? = some (.je target)) :
    run code (fuel + 1) pc s = run code fuel (if s.core.zf then target else pc + 1) s := by
  simp only [run, hi]

theorem run_ret {code : List Instr} {pc fuel : Nat} {s : Mach} (hi : code[pc]? = some .ret) :
    run code (fuel + 1) pc s = some ⟨{ s.core with rip := s.top, rsp := s.core.rsp + 8 }, s.mem⟩ := by
  simp only [run, hi]

/-- Pushes of registers push their values: a push changes no register. -/
theorem Mach.execAll_pushes (s : Mach) (rs : List Reg) :
    s.execAll (rs.map .push) = s.pushAll (rs.map s.core.regs) := by
  induction rs generalizing s with
  | nil => rfl
  | cons r rs ih => exact ih (s.push (s.core.regs r))

/-- **Pushes**: the stack pointer moves down a word for each value and the values are
stored one below the other. -/
theorem Mach.pushAll_eq (s : Mach) {vs : List UInt64} (h : 8 * vs.length ≤ s.core.rsp.toNat) :
    s.pushAll vs = ⟨{ s.core with rsp := UInt64.ofNat (s.core.rsp.toNat - 8 * vs.length) },
      s.mem.pushWords s.core.rsp.toNat (vs.map UInt64.toNat)⟩ := by
  induction vs generalizing s with
  | nil => simp [pushAll, Memory.pushWords]
  | cons v vs ih =>
    simp only [List.length_cons] at h
    have hsub : (s.core.rsp - 8).toNat = s.core.rsp.toNat - 8 := toNat_sub_of_le (by simp; omega)
    rw [pushAll, ih (s.push v) (by simp only [push, hsub]; omega)]
    simp only [push, hsub, List.map_cons, Memory.pushWords, List.length_cons]
    congr 3
    omega

/-- **Pops**: the words above the stack pointer go into the registers in turn, and the stack
pointer moves up a word for each. -/
theorem Mach.execAll_pops (s : Mach) (rs : List Reg)
    (h : s.core.rsp.toNat + 8 * rs.length < 2 ^ 64) :
    s.execAll (rs.map .pop) =
      ⟨{ s.core with
          regs := updateRegs s.core.regs rs
            ((s.mem.readWords s.core.rsp.toNat rs.length).map UInt64.ofNat)
          rsp := UInt64.ofNat (s.core.rsp.toNat + 8 * rs.length) }, s.mem⟩ := by
  induction rs generalizing s with
  | nil => simp [updateRegs]
  | cons r rs ih =>
    simp only [List.length_cons] at h
    have hadd : (s.core.rsp + 8).toNat = s.core.rsp.toNat + 8 := toNat_add_of_lt (by simp; omega)
    rw [List.map_cons, execAll_cons, ih _ (by simp only [exec, Core.setReg_rsp, hadd]; omega)]
    simp only [exec, hadd, Memory.readWords_succ, List.map_cons, updateRegs,
      Core.setReg, top, List.length_cons]
    congr 3
    omega

/-! ## §3 One Switch

`callSwitch` in three parts: the pushes and the stores up to `je` (`run_save`), the load of
`cr3` whichever way `je` goes, and the pops from label `2:` on (`run_restore`). -/

/-- The core the pops of `switch` leave: the registers, flags and return address of the
frame `f` at the stack pointer, interrupts enabled, and the stack pointer above the frame. -/
def restored (c : Core) (f : ThreadRegisters) : Core :=
  { c with regs := f.reg, rsp := c.rsp + 136, rflags := f.rflags ||| Rflags.ifFlag, rip := f.rip }

/-- The registers written in the order `switch` pops them are the frame's. -/
theorem updateRegs_restoreOrder (regs : Reg → UInt64) (f : ThreadRegisters) :
    updateRegs regs saveOrder.reverse (f.words.take 15) = f.reg := by
  funext r
  cases r <;> rfl

theorem switchCode_drop_restore :
    switchCode.drop 25 = (saveOrder.reverse.map .pop ++ [.popfq, .sti]) ++ [.ret] := rfl

/-- **The pops** from label `2:` on: the frame at the stack pointer is restored. -/
theorem run_restore (fuel : Nat) (s : Mach) {f : ThreadRegisters}
    (hf : s.mem.readWords s.core.rsp.toNat 17 = f.words.map UInt64.toNat)
    (hroom : s.core.rsp.toNat + 136 < 2 ^ 64) :
    run switchCode (fuel + 18) 25 s = some ⟨restored s.core f, s.mem⟩ := by
  -- the two words above the fifteen registers: the flags, then the return address
  have hflagsWord : s.mem.readWord (s.core.rsp.toNat + 8 * 15) = f.rflags.toNat := by
    rw [← Memory.getElem_readWords (n := 17) (by simp)]
    simp only [hf]
    rfl
  have hripWord : s.mem.readWord (s.core.rsp.toNat + 8 * 16) = f.rip.toNat := by
    rw [← Memory.getElem_readWords (n := 17) (by simp)]
    simp only [hf]
    rfl
  have hregs : (s.mem.readWords s.core.rsp.toNat 15).map UInt64.ofNat = f.words.take 15 := by
    rw [← Memory.readWords_take (n := 17) (by omega), hf, ← List.map_take, List.map_map,
      show (UInt64.ofNat ∘ UInt64.toNat) = id from funext fun _ => UInt64.ofNat_toNat, List.map_id]
  have hpops := s.execAll_pops saveOrder.reverse (by simp [saveOrder]; omega)
  have hlen : (saveOrder.reverse).length = 15 := rfl
  rw [hlen, hregs] at hpops
  rw [show fuel + 18 = (fuel + 1) + (saveOrder.reverse.map Instr.pop ++ [Instr.popfq, Instr.sti]).length
      from rfl, run_block s switchCode_drop_restore (by decide), Mach.execAll_append, hpops,
    run_ret (by rfl)]
  have h120 : (UInt64.ofNat (s.core.rsp.toNat + 8 * 15)).toNat = s.core.rsp.toNat + 8 * 15 :=
    toNat_ofNat_of_lt (by omega)
  have h128 : (UInt64.ofNat (s.core.rsp.toNat + 8 * 15) + 8).toNat = s.core.rsp.toNat + 8 * 16 := by
    rw [toNat_add_of_lt (by simp only [h120]; simp; omega), h120]
    simp
  have hrsp : UInt64.ofNat (s.core.rsp.toNat + 8 * 15) + 8 + 8 = s.core.rsp + 136 := by
    apply UInt64.toNat_inj.mp
    simp only [UInt64.toNat_add, UInt64.toNat_ofNat', UInt64.reduceToNat]
    omega
  simp only [Mach.execAll_cons, Mach.execAll_nil, Mach.exec, Mach.top, h120, h128,
    hflagsWord, hripWord, UInt64.ofNat_toNat, restored, updateRegs_restoreOrder, hrsp]

/-- A thread's context at a call of `switch`: its registers, its flags, the stack pointer the
call returns with, and the address it returns to. -/
structure ThreadContext where
  regs : Reg → UInt64
  rflags : UInt64
  rsp : UInt64
  rip : UInt64

namespace ThreadContext

/-- The context of a core that calls `switch` to return to `ret`. -/
def atCall (c : Core) (ret : UInt64) : ThreadContext :=
  ⟨c.regs, c.rflags, c.rsp, ret⟩

/-- The `ThreadRegisters` that `switch` leaves below the context's stack pointer. -/
def frame (x : ThreadContext) : ThreadRegisters where
  r15 := x.regs .r15
  r14 := x.regs .r14
  r13 := x.regs .r13
  r12 := x.regs .r12
  r11 := x.regs .r11
  r10 := x.regs .r10
  r9 := x.regs .r9
  r8 := x.regs .r8
  rdi := x.regs .rdi
  rsi := x.regs .rsi
  rbp := x.regs .rbp
  rbx := x.regs .rbx
  rdx := x.regs .rdx
  rcx := x.regs .rcx
  rax := x.regs .rax
  rflags := x.rflags
  rip := x.rip

/-- The memory after `switch` saved the context: its frame pushed below its stack pointer,
and the stack pointer below the frame stored at `slot`. -/
def save (x : ThreadContext) (m : Memory) (slot : Nat) : Memory :=
  (m.pushWords x.rsp.toNat (x.frame.words.reverse.map UInt64.toNat)).writeWord slot
    (x.rsp.toNat - 136)

/-- The core a context resumes on, with the control registers `cr0` and `cr3`. -/
def resume (x : ThreadContext) (cr0 cr3 : UInt64) : Core :=
  ⟨x.regs, x.rsp, x.rflags ||| Rflags.ifFlag, x.rip, cr0, cr3⟩

@[simp] theorem frame_reg (x : ThreadContext) : x.frame.reg = x.regs := by
  funext r
  cases r <;> rfl

/-- The bytes `save` writes: the frame and the slot. -/
def written (x : ThreadContext) (slot : Nat) : Set Nat :=
  Set.Ico (x.rsp.toNat - 136) x.rsp.toNat ∪ Set.Ico slot (slot + 8)

/-- `save` writes nothing else. -/
theorem eqOn_save (x : ThreadContext) (m : Memory) (slot : Nat) (h : 136 ≤ x.rsp.toNat) :
    Set.EqOn (x.save m slot) m (x.written slot)ᶜ := by
  intro a ha
  simp only [written, Set.mem_compl_iff, Set.mem_union, not_or] at ha
  rw [save, Memory.eqOn_writeWord ha.2]
  exact Memory.eqOn_pushWords (by simpa using h) (by simpa using ha.1)

end ThreadContext

/-- The slot holds the stack pointer below the frame, and the frame the context's registers.
The frame lies under the stack pointer the context returns with. -/
structure Saved (m : Memory) (slot : Nat) (x : ThreadContext) : Prop where
  room : 136 ≤ x.rsp.toNat
  slot_eq : m.readWord slot = x.rsp.toNat - 136
  frame_eq : m.readWords (x.rsp.toNat - 136) 17 = x.frame.words.map UInt64.toNat

/-- **`switch` saves**: after the pushes and the store, the context is saved at the slot,
provided the slot is not part of the frame. -/
theorem saved_save {x : ThreadContext} (m : Memory) {slot : Nat} (h : 136 ≤ x.rsp.toNat)
    (hslot : slot + 8 ≤ x.rsp.toNat - 136 ∨ x.rsp.toNat ≤ slot) : Saved (x.save m slot) slot x where
  room := h
  slot_eq := Memory.readWord_writeWord_self (by have := x.rsp.toNat_lt; omega)
  frame_eq := by
    have hpush : (m.pushWords x.rsp.toNat (x.frame.words.reverse.map UInt64.toNat)).readWords
        (x.rsp.toNat - 8 * (x.frame.words.reverse.map UInt64.toNat).length)
        (x.frame.words.reverse.map UInt64.toNat).length =
        (x.frame.words.reverse.map UInt64.toNat).reverse :=
      Memory.readWords_pushWords (by simpa using h)
        (by simp only [List.mem_map]; rintro _ ⟨w, -, rfl⟩; exact w.toNat_lt)
    rw [List.length_map, List.length_reverse, ThreadRegisters.length_words,
      List.map_reverse, List.reverse_reverse] at hpush
    rw [ThreadContext.save, ← hpush]
    refine Memory.readWords_congr (Memory.eqOn_writeWord.mono fun a ha => ?_)
    simp only [Set.mem_Ico] at ha
    simp only [Set.mem_compl_iff, Set.mem_Ico]
    omega

/-- **A saved context survives** every change of memory that leaves its frame and slot. -/
theorem Saved.of_eqOn {m m' : Memory} {slot : Nat} {x : ThreadContext} (h : Saved m slot x)
    (he : Set.EqOn m' m (x.written slot)) : Saved m' slot x where
  room := h.room
  slot_eq := by
    rw [← h.slot_eq]
    exact Memory.readWord_congr (he.mono fun a ha => Or.inr ha)
  frame_eq := by
    rw [← h.frame_eq]
    refine Memory.readWords_congr (he.mono fun a ha => Or.inl ?_)
    simp only [Set.mem_Ico] at ha ⊢
    have := h.room
    omega

theorem switchCode_take_save :
    switchCode.take 23 = (Instr.pushfq :: saveOrder.map .push) ++
      [.storeRsp .rdi, .loadRsp .rsi, .readCr0 .rax, .orImm .rax Cr0.taskSwitched, .writeCr0 .rax,
        .readCr3 .rax, .cmp .rax .rdx] := rfl

/-- The stores between the pushes and `je`: the stack pointer goes to `old_stack`, `rsi`
becomes the stack pointer, `CR0.TS` is set through `rax`, and `cmp` compares `cr3` with
`rdx`. -/
theorem execAll_stores (t : Mach) :
    (t.execAll [.storeRsp .rdi, .loadRsp .rsi, .readCr0 .rax, .orImm .rax Cr0.taskSwitched,
        .writeCr0 .rax, .readCr3 .rax, .cmp .rax .rdx]).mem =
        t.mem.writeWord (t.core.regs .rdi).toNat t.core.rsp.toNat ∧
      (t.execAll [.storeRsp .rdi, .loadRsp .rsi, .readCr0 .rax, .orImm .rax Cr0.taskSwitched,
        .writeCr0 .rax, .readCr3 .rax, .cmp .rax .rdx]).core.rsp = t.core.regs .rsi ∧
      (t.execAll [.storeRsp .rdi, .loadRsp .rsi, .readCr0 .rax, .orImm .rax Cr0.taskSwitched,
        .writeCr0 .rax, .readCr3 .rax, .cmp .rax .rdx]).core.regs .rdx = t.core.regs .rdx ∧
      (t.execAll [.storeRsp .rdi, .loadRsp .rsi, .readCr0 .rax, .orImm .rax Cr0.taskSwitched,
        .writeCr0 .rax, .readCr3 .rax, .cmp .rax .rdx]).core.cr0 = t.core.cr0 ||| Cr0.taskSwitched ∧
      (t.execAll [.storeRsp .rdi, .loadRsp .rsi, .readCr0 .rax, .orImm .rax Cr0.taskSwitched,
        .writeCr0 .rax, .readCr3 .rax, .cmp .rax .rdx]).core.cr3 = t.core.cr3 ∧
      (t.execAll [.storeRsp .rdi, .loadRsp .rsi, .readCr0 .rax, .orImm .rax Cr0.taskSwitched,
        .writeCr0 .rax, .readCr3 .rax, .cmp .rax .rdx]).core.zf = (t.core.cr3 == t.core.regs .rdx) := by
  exact ⟨rfl, rfl, rfl, rfl, rfl, Core.zf_withZf _ _⟩

/-- **The pushes and the stores** up to `je`: the caller's context is saved at `rdi`, the
stack pointer is `rsi`, `CR0.TS` is set, and `ZF` says whether `cr3` is `rdx` already. -/
theorem execAll_save (s : Mach) (ret : UInt64) (h : 136 ≤ s.core.rsp.toNat) :
    ((s.push ret).execAll (switchCode.take 23)).mem =
        (ThreadContext.atCall s.core ret).save s.mem (s.core.regs .rdi).toNat ∧
      ((s.push ret).execAll (switchCode.take 23)).core.rsp = s.core.regs .rsi ∧
      ((s.push ret).execAll (switchCode.take 23)).core.regs .rdx = s.core.regs .rdx ∧
      ((s.push ret).execAll (switchCode.take 23)).core.cr0 = s.core.cr0 ||| Cr0.taskSwitched ∧
      ((s.push ret).execAll (switchCode.take 23)).core.cr3 = s.core.cr3 ∧
      ((s.push ret).execAll (switchCode.take 23)).core.zf = (s.core.cr3 == s.core.regs .rdx) := by
  -- the call's push and the sixteen pushes of `switch` push the frame, last word first
  have hpushes : (s.push ret).execAll (Instr.pushfq :: saveOrder.map .push) =
      s.pushAll ((ThreadContext.atCall s.core ret).frame.words.reverse) := by
    have hw : (ThreadContext.atCall s.core ret).frame.words.reverse =
        ret :: s.core.rflags :: saveOrder.map s.core.regs := rfl
    rw [hw, Mach.execAll_cons, Mach.execAll_pushes, Mach.pushAll, Mach.pushAll]
    rfl
  have hpushed := @Mach.pushAll_eq s (ThreadContext.atCall s.core ret).frame.words.reverse
    (by simpa using h)
  have hsp : (UInt64.ofNat (s.core.rsp.toNat -
      8 * (ThreadContext.atCall s.core ret).frame.words.reverse.length)).toNat =
      s.core.rsp.toNat - 136 := by
    rw [List.length_reverse, ThreadRegisters.length_words]
    exact toNat_ofNat_of_lt (by have := s.core.rsp.toNat_lt; omega)
  obtain ⟨hmem, hrsp, hrdx, hcr0, hcr3, hzf⟩ :=
    execAll_stores (s.pushAll ((ThreadContext.atCall s.core ret).frame.words.reverse))
  rw [switchCode_take_save, Mach.execAll_append, hpushes]
  refine ⟨?_, ?_, ?_, ?_, ?_, ?_⟩
  · rw [hmem, hpushed]
    simp only [hsp]
    rfl
  · rw [hrsp, hpushed]
  · rw [hrdx, hpushed]
  · rw [hcr0, hpushed]
  · rw [hcr3, hpushed]
  · rw [hzf, hpushed]

theorem exec_writeCr3_mem (s : Mach) (r : Reg) : (s.exec (.writeCr3 r)).mem = s.mem := rfl

theorem exec_writeCr3_rsp (s : Mach) (r : Reg) : (s.exec (.writeCr3 r)).core.rsp = s.core.rsp := rfl

/-- **One call of `switch`**: the caller's context is saved at `rdi`, and the frame at `rsi`
(as it reads after the save) is restored with `CR0.TS` set and `cr3` loaded from `rdx`. -/
theorem callSwitch_eq {s : Mach} {ret : UInt64} {f : ThreadRegisters}
    (hroom : 136 ≤ s.core.rsp.toNat) (hnew : (s.core.regs .rsi).toNat + 136 < 2 ^ 64)
    (hf : ((ThreadContext.atCall s.core ret).save s.mem (s.core.regs .rdi).toNat).readWords
      (s.core.regs .rsi).toNat 17 = f.words.map UInt64.toNat) :
    callSwitch s ret = some ⟨⟨f.reg, s.core.regs .rsi + 136, f.rflags ||| Rflags.ifFlag, f.rip,
        s.core.cr0 ||| Cr0.taskSwitched, s.core.regs .rdx⟩,
      (ThreadContext.atCall s.core ret).save s.mem (s.core.regs .rdi).toNat⟩ := by
  have hcode : switchCode.drop 0 = switchCode.take 23 ++ switchCode.drop 23 :=
    (List.take_append_drop 23 switchCode).symm
  rw [callSwitch, show switchCode.length = 20 + (switchCode.take 23).length from rfl,
    run_block _ hcode (by decide), run_je (by rfl),
    show 0 + (switchCode.take 23).length = 23 from rfl]
  obtain ⟨hmem, hrsp, hrdx, hcr0, hcr3, hzf⟩ := execAll_save s ret hroom
  generalize (s.push ret).execAll (switchCode.take 23) = s₂ at hmem hrsp hrdx hcr0 hcr3 hzf ⊢
  have hf₂ : s₂.mem.readWords s₂.core.rsp.toNat 17 = f.words.map UInt64.toNat := by
    rw [hmem, hrsp]
    exact hf
  have hnew₂ : s₂.core.rsp.toNat + 136 < 2 ^ 64 := by
    rw [hrsp]
    exact hnew
  rw [hzf]
  -- `je 2f` skips the load of `cr3` exactly when `cr3` is `rdx` already
  cases hcr : s.core.cr3 == s.core.regs .rdx
  · rw [if_neg Bool.false_ne_true, show 19 = 18 + 1 from rfl, run_succ_of_get (by rfl) (by rfl),
      show 18 = 0 + 18 from rfl, run_restore 0 (s₂.exec (.writeCr3 .rdx))
        (by rw [exec_writeCr3_mem, exec_writeCr3_rsp]; exact hf₂)
        (by rw [exec_writeCr3_rsp]; exact hnew₂)]
    simp only [restored, Mach.exec, hrsp, hcr0, hrdx, hmem]
  · rw [if_pos rfl, show 19 = 1 + 18 from rfl, run_restore 1 s₂ hf₂ hnew₂]
    simp only [restored, hrsp, hcr0, hcr3, beq_iff_eq.mp hcr, hmem]

/-! ## §4 Switching Between Saved Contexts -/

/-- What the pops read after the save: a frame clear of the bytes the save writes. -/
theorem readWords_save {x : ThreadContext} (m : Memory) {slot a : Nat} (h : 136 ≤ x.rsp.toNat)
    (ha : Disjoint (Set.Ico a (a + 136)) (x.written slot)) :
    (x.save m slot).readWords a 17 = m.readWords a 17 :=
  Memory.readWords_congr ((x.eqOn_save m slot h).mono fun _ hb =>
    Set.disjoint_left.mp ha (by simpa using hb))

@[simp] theorem Core.withArgs_rsp (c : Core) (o n k : UInt64) : (c.withArgs o n k).rsp = c.rsp :=
  rfl

@[simp] theorem Core.withArgs_cr0 (c : Core) (o n k : UInt64) : (c.withArgs o n k).cr0 = c.cr0 :=
  rfl

theorem Core.withArgs_rdi (c : Core) (o n k : UInt64) : (c.withArgs o n k).regs .rdi = o := rfl

theorem Core.withArgs_rsi (c : Core) (o n k : UInt64) : (c.withArgs o n k).regs .rsi = n := rfl

theorem Core.withArgs_rdx (c : Core) (o n k : UInt64) : (c.withArgs o n k).regs .rdx = k := rfl

/-- **`ContextSwitch::perform`**: with room for the frame on the caller's stack and the frame
`f` at `new_stack` clear of the bytes the save writes, `switch` returns into `f` with
interrupts enabled, `CR0.TS` set and `cr3` loaded, and leaves the caller's context saved
at `old_stack`. -/
theorem perform_eq {s : Mach} {oldStack newStack cr3 ret : UInt64} {f : ThreadRegisters}
    (hroom : 136 ≤ s.core.rsp.toNat) (hnew : newStack.toNat + 136 < 2 ^ 64)
    (hsep : Disjoint (Set.Ico newStack.toNat (newStack.toNat + 136))
      ((ThreadContext.atCall (s.core.withArgs oldStack newStack cr3) ret).written oldStack.toNat))
    (hf : s.mem.readWords newStack.toNat 17 = f.words.map UInt64.toNat) :
    perform s oldStack newStack cr3 ret = some ⟨⟨f.reg, newStack + 136,
        f.rflags ||| Rflags.ifFlag, f.rip, s.core.cr0 ||| Cr0.taskSwitched, cr3⟩,
      (ThreadContext.atCall (s.core.withArgs oldStack newStack cr3) ret).save s.mem
        oldStack.toNat⟩ :=
  callSwitch_eq hroom hnew (by rw [Core.withArgs_rdi, Core.withArgs_rsi,
    readWords_save s.mem hroom hsep, hf])

/-- **Switching to a saved context** resumes it: `new_stack` is what its slot holds, and the
core returns with the context's registers, flags, stack pointer and return address. -/
theorem perform_of_saved {s : Mach} {oldStack cr3 ret : UInt64} {slot : Nat}
    {x : ThreadContext} (hroom : 136 ≤ s.core.rsp.toNat) (hx : Saved s.mem slot x)
    (hsep : Disjoint (Set.Ico (x.rsp.toNat - 136) x.rsp.toNat)
      ((ThreadContext.atCall (s.core.withArgs oldStack (UInt64.ofNat (s.mem.readWord slot)) cr3)
        ret).written oldStack.toNat)) :
    perform s oldStack (UInt64.ofNat (s.mem.readWord slot)) cr3 ret =
      some ⟨x.resume (s.core.cr0 ||| Cr0.taskSwitched) cr3,
        (ThreadContext.atCall (s.core.withArgs oldStack (UInt64.ofNat (s.mem.readWord slot)) cr3)
          ret).save s.mem oldStack.toNat⟩ := by
  have hsp : (UInt64.ofNat (s.mem.readWord slot)).toNat = x.rsp.toNat - 136 := by
    rw [hx.slot_eq]
    exact toNat_ofNat_of_lt (by have := x.rsp.toNat_lt; omega)
  have hback : UInt64.ofNat (s.mem.readWord slot) + 136 = x.rsp := by
    apply UInt64.toNat_inj.mp
    rw [toNat_add_of_lt (by rw [hsp]; simp; have := x.rsp.toNat_lt; omega), hsp]
    have := hx.room
    simp only [UInt64.reduceToNat]
    omega
  have hroom' := hx.room
  rw [perform_eq (f := x.frame) hroom (by rw [hsp]; have := x.rsp.toNat_lt; omega)
    (by rw [hsp, Nat.sub_add_cancel hroom']; exact hsep) (by rw [hsp]; exact hx.frame_eq), hback]
  simp only [ThreadContext.frame_reg]
  rfl

/-- **The contract of `switch`**: from a core with room for a frame on its stack, switching
to a context saved at `slot` (its `new_stack` loaded from the slot, as
`thread.last_stack_ptr()` loads it) returns into that context exactly, with interrupts
enabled, `CR0.TS` set and `cr3` loaded; and the caller's own context, its arguments in
`rdi`, `rsi` and `rdx` included, is saved at `old_stack` for the switch that resumes it. -/
theorem switch_resumes_and_saves {s : Mach} {oldStack cr3 ret : UInt64} {slot : Nat}
    {x : ThreadContext} (hroom : 136 ≤ s.core.rsp.toNat) (hx : Saved s.mem slot x)
    (hslot : oldStack.toNat + 8 ≤ s.core.rsp.toNat - 136 ∨ s.core.rsp.toNat ≤ oldStack.toNat)
    (hsep : Disjoint (Set.Ico (x.rsp.toNat - 136) x.rsp.toNat)
      ((ThreadContext.atCall (s.core.withArgs oldStack (UInt64.ofNat (s.mem.readWord slot)) cr3)
        ret).written oldStack.toNat)) :
    ∃ t, perform s oldStack (UInt64.ofNat (s.mem.readWord slot)) cr3 ret = some t ∧
      t.core = x.resume (s.core.cr0 ||| Cr0.taskSwitched) cr3 ∧
      Saved t.mem oldStack.toNat
        (ThreadContext.atCall (s.core.withArgs oldStack (UInt64.ofNat (s.mem.readWord slot)) cr3)
          ret) :=
  ⟨_, perform_of_saved hroom hx hsep, rfl, saved_save s.mem hroom hslot⟩

/-- A core at stack pointer `0x8000` hands over to a context saved with its frame under
`0x3000` and its slot at `0x100`, and leaves its own context at `0x200`. -/
theorem switch_resumes_and_saves_handOver :
    Saved ((⟨fun _ => 0, 0, 0x3000, 0x1234⟩ : ThreadContext).save (fun _ => 0) 0x100) 0x100
        ⟨fun _ => 0, 0, 0x3000, 0x1234⟩ ∧
      ∃ t, perform ⟨⟨fun _ => 7, 0x8000, 0, 0, 0, 1⟩,
          (⟨fun _ => 0, 0, 0x3000, 0x1234⟩ : ThreadContext).save (fun _ => 0) 0x100⟩ 0x200
          (UInt64.ofNat (((⟨fun _ => 0, 0, 0x3000, 0x1234⟩ : ThreadContext).save (fun _ => 0)
            0x100).readWord 0x100)) 5 0x4444 = some t ∧
        t.core = (⟨fun _ => 0, 0, 0x3000, 0x1234⟩ : ThreadContext).resume
          (0 ||| Cr0.taskSwitched) 5 ∧
        Saved t.mem 0x200 (ThreadContext.atCall ((⟨fun _ => 7, 0x8000, 0, 0, 0, 1⟩ : Core).withArgs
          0x200 (UInt64.ofNat (((⟨fun _ => 0, 0, 0x3000, 0x1234⟩ : ThreadContext).save
            (fun _ => 0) 0x100).readWord 0x100)) 5) 0x4444) := by
  have hx : Saved ((⟨fun _ => 0, 0, 0x3000, 0x1234⟩ : ThreadContext).save (fun _ => 0) 0x100)
      0x100 ⟨fun _ => 0, 0, 0x3000, 0x1234⟩ :=
    saved_save _ (by decide) (by decide)
  refine ⟨hx, switch_resumes_and_saves (by decide) hx (by decide) ?_⟩
  refine Set.disjoint_left.mpr fun a ha hb => ?_
  simp only [ThreadContext.written, ThreadContext.atCall, Core.withArgs_rsp, Set.mem_union,
    Set.mem_Ico, UInt64.reduceToNat] at ha hb
  omega

end Beskar.Arch.Context
