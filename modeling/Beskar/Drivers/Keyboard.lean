import Mathlib
import Beskar.Lib.Bits

/-!
# Key Events

Model of `beskar-core/src/drivers/keyboard.rs`: the key codes and key states with the
conversions from and to `u8` that `num_enum` derives for a `#[repr(u8)]` enum (the
discriminants in declaration order), `KeyEvent::pack_option` and `unpack_option`, which
carry an optional event in each `u64` block of `/dev/keyboard`, and the modifier flags
with `KeyCode::as_char`.

## Main results

- `unpackOption_packOption`: every optional event survives the packing; in particular
  `KeyEvent::NONE` is no event's packing, as its comment demands.
- `packOption_unpackOption`: a word that unpacks to an event is that event's packing in
  its low sixteen bits, so `unpack_option` reads those bits and nothing else.
- `KeyModifiers.get_setFlag`: each of the five setters changes its own flag and no other.
-/

namespace Beskar.Drivers.Keyboard

open Beskar.Lib

/-- `KeyCode`, in the source's order: the discriminants are the constructor indices. -/
inductive KeyCode where
  | a | b | c | d | e | f | g | h | i | j | k | l | m | n | o | p | q | r | s | t | u | v
  | w | x | y | z
  | num0 | num1 | num2 | num3 | num4 | num5 | num6 | num7 | num8 | num9
  | enter | escape | backspace | tab | space | shiftLeft | shiftRight | ctrlLeft | ctrlRight
  | altLeft | altRight | capsLock
  /-- `KeyCode::End` (`end` is a keyword). -/
  | insert | delete | home | endKey | pageUp | pageDown | arrowUp | arrowDown | arrowLeft
  | arrowRight
  | f1 | f2 | f3 | f4 | f5 | f6 | f7 | f8 | f9 | f10 | f11 | f12
  | numLock | numpad0 | numpad1 | numpad2 | numpad3 | numpad4 | numpad5 | numpad6 | numpad7
  | numpad8 | numpad9 | numpadAdd | numpadSub | numpadMul | numpadDiv | numpadEnter | numpadDot
  | minus | equal | leftBracket | rightBracket | backslash | semicolon | apostrophe | tilde
  | comma | dot | slash
  | printScreen | scrollLock | pauseBreak | menu | windowsLeft | windowsRight
deriving DecidableEq, Repr

namespace KeyCode

/-- The number of key codes. -/
def count : Nat := 104

/-- `<KeyCode as Into<u8>>::into`. -/
def toU8 (key : KeyCode) : UInt8 := key.ctorIdx.toUInt8

/-- `KeyCode::try_from(u8)`: `num_enum` accepts exactly the discriminants. -/
def tryFrom (value : UInt8) : Option KeyCode :=
  if value.toNat < count then some (KeyCode.ofNat value.toNat) else none

theorem ctorIdx_lt (key : KeyCode) : key.ctorIdx < count := by
  cases key <;> decide

theorem ctorIdx_ofNat : ∀ n < count, (KeyCode.ofNat n).ctorIdx = n := by
  decide

theorem toNat_toU8 (key : KeyCode) : key.toU8.toNat = key.ctorIdx := by
  have := key.ctorIdx_lt
  unfold toU8
  rw [toNat_toUInt8, Nat.mod_eq_of_lt (by unfold count at this; omega)]

theorem tryFrom_toU8 (key : KeyCode) : tryFrom key.toU8 = some key := by
  rw [tryFrom, toNat_toU8, if_pos key.ctorIdx_lt, KeyCode.ofNat_ctorIdx]

theorem toU8_of_tryFrom {value : UInt8} {key : KeyCode} (h : tryFrom value = some key) :
    key.toU8 = value := by
  unfold tryFrom at h
  split at h
  · cases h
    apply UInt8.toNat_inj.mp
    rw [toNat_toU8, ctorIdx_ofNat _ ‹_›]
  · cases h

end KeyCode

/-- `KeyState`. -/
inductive KeyState where
  | pressed
  | released
deriving DecidableEq, Repr

namespace KeyState

/-- `<KeyState as Into<u8>>::into`. -/
def toU8 : KeyState → UInt8
  | pressed => 0
  | released => 1

/-- `KeyState::try_from(u8)`. -/
def tryFrom (value : UInt8) : Option KeyState :=
  match value.toNat with
  | 0 => some pressed
  | 1 => some released
  | _ => none

theorem tryFrom_toU8 (state : KeyState) : tryFrom state.toU8 = some state := by
  cases state <;> rfl

theorem toU8_of_tryFrom {value : UInt8} {state : KeyState} (h : tryFrom value = some state) :
    state.toU8 = value := by
  unfold tryFrom at h
  split at h <;> rename_i hv <;> cases h <;> exact UInt8.toNat_inj.mp (by simp [toU8, hv])

theorem toNat_toU8_lt (state : KeyState) : state.toU8.toNat < 2 := by
  cases state <;> decide

end KeyState

/-- `KeyEvent`. -/
structure KeyEvent where
  key : KeyCode
  pressed : KeyState
deriving DecidableEq, Repr

namespace KeyEvent

/-- `KeyEvent::NONE`, the packing of no event. -/
def NONE : UInt64 := 0xFFFF

/-- `KeyEvent::pack_option`: the key code in the low byte, the state in the next. -/
def packOption (event : Option KeyEvent) : UInt64 :=
  event.elim NONE fun event => event.key.toU8.toUInt64 ||| (event.pressed.toU8.toUInt64 <<< 8)

/-- `KeyEvent::unpack_option`; `u8::try_from` of a masked byte never fails. -/
def unpackOption (value : UInt64) : Option KeyEvent := do
  let key ← KeyCode.tryFrom (value &&& 0xFF).toUInt8
  let state ← KeyState.tryFrom ((value >>> 8) &&& 0xFF).toUInt8
  some ⟨key, state⟩

/-- A packed event, as a number: the key code plus `256` times the state. -/
theorem toNat_packOption (event : KeyEvent) :
    (packOption (some event)).toNat = event.key.toU8.toNat + 256 * event.pressed.toU8.toNat := by
  have hk := event.key.toU8.toNat_lt
  have hp := event.pressed.toNat_toU8_lt
  simp only [packOption, Option.elim_some, UInt64.toNat_or, UInt64.toNat_shiftLeft,
    UInt8.toNat_toUInt64]
  rw [show (8 : UInt64).toNat % 64 = 8 from rfl, Nat.mod_eq_of_lt (by
      rw [Nat.shiftLeft_eq]; omega), or_shiftLeft_eq_add hk, show (2 : Nat) ^ 8 = 256 from rfl]

/-- The low byte of a word, as the byte `unpack_option` reads. -/
theorem toNat_lowByte (value : UInt64) : (value &&& 0xFF).toUInt8.toNat = value.toNat % 256 := by
  rw [UInt64.toNat_toUInt8, UInt64.toNat_and, show (0xFF : UInt64).toNat = 2 ^ 8 - 1 from rfl,
    Nat.and_two_pow_sub_one_eq_mod, Nat.mod_mod]

/-- The second byte of a word. -/
theorem toNat_highByte (value : UInt64) :
    ((value >>> 8) &&& 0xFF).toUInt8.toNat = value.toNat / 256 % 256 := by
  rw [toNat_lowByte, UInt64.toNat_shiftRight, show (8 : UInt64).toNat % 64 = 8 from rfl,
    Nat.shiftRight_eq_div_pow]

/-- **Round trip**: `unpack_option` inverts `pack_option`, for an event and for `None`. -/
theorem unpackOption_packOption (event : Option KeyEvent) :
    unpackOption (packOption event) = event := by
  cases event with
  | none => rfl
  | some event =>
    have hk := event.key.toU8.toNat_lt
    have hp := event.pressed.toNat_toU8_lt
    -- the two bytes read back are the two bytes written
    have hkey : (packOption (some event) &&& 0xFF).toUInt8 = event.key.toU8 :=
      UInt8.toNat_inj.mp (by rw [toNat_lowByte, toNat_packOption]; omega)
    have hstate : ((packOption (some event) >>> 8) &&& 0xFF).toUInt8 = event.pressed.toU8 :=
      UInt8.toNat_inj.mp (by rw [toNat_highByte, toNat_packOption]; omega)
    simp only [unpackOption, hkey, hstate, KeyCode.tryFrom_toU8, KeyState.tryFrom_toU8,
      Option.bind_eq_bind, Option.bind_some]

/-- **Only the low sixteen bits are read**: a word that unpacks to an event agrees with
that event's packing below bit `16`. -/
theorem packOption_unpackOption {value : UInt64} {event : KeyEvent}
    (h : unpackOption value = some event) : packOption (some event) = value &&& 0xFFFF := by
  simp only [unpackOption, Option.bind_eq_bind, Option.bind_eq_some_iff, Option.some.injEq] at h
  obtain ⟨key, hkey, state, hstate, rfl⟩ := h
  have hk := congrArg UInt8.toNat (KeyCode.toU8_of_tryFrom hkey)
  have hs := congrArg UInt8.toNat (KeyState.toU8_of_tryFrom hstate)
  rw [toNat_lowByte] at hk
  rw [toNat_highByte] at hs
  apply UInt64.toNat_inj.mp
  rw [toNat_packOption, UInt64.toNat_and, show (0xFFFF : UInt64).toNat = 2 ^ 16 - 1 from rfl,
    Nat.and_two_pow_sub_one_eq_mod]
  dsimp only
  omega

/-- The bits above the low sixteen are ignored by `unpack_option` and lost by the round trip. -/
theorem packOption_unpackOption_highBits :
    unpackOption 0xABCD_0105 = some ⟨.f, .released⟩ ∧
      packOption (some ⟨.f, .released⟩) = 0xABCD_0105 &&& 0xFFFF :=
  ⟨by decide, packOption_unpackOption (by decide)⟩

end KeyEvent

/-! ## Modifiers -/

/-- `KeyModifiers`: one bit a modifier. -/
structure KeyModifiers where
  flags : UInt8
deriving DecidableEq, Repr

namespace KeyModifiers

/-- The five flags, with their masks `SHIFT`, `CTRL`, `ALT`, `CAPS_LOCK` and `NUM_LOCK`. -/
inductive Flag where
  | shift | ctrl | alt | capsLock | numLock
deriving DecidableEq, Repr

/-- The bit of a flag. -/
def Flag.bit : Flag → Nat
  | shift => 0
  | ctrl => 1
  | alt => 2
  | capsLock => 3
  | numLock => 4

def SHIFT : UInt8 := 0b0000_0001
def CTRL : UInt8 := 0b0000_0010
def ALT : UInt8 := 0b0000_0100
def CAPS_LOCK : UInt8 := 0b0000_1000
def NUM_LOCK : UInt8 := 0b0001_0000

/-- The mask of a flag, as the source names it. -/
def Flag.mask : Flag → UInt8
  | shift => SHIFT
  | ctrl => CTRL
  | alt => ALT
  | capsLock => CAPS_LOCK
  | numLock => NUM_LOCK

theorem Flag.toNat_mask (f : Flag) : f.mask.toNat = 2 ^ f.bit := by
  cases f <;> rfl

theorem Flag.bit_lt (f : Flag) : f.bit < 8 := by
  cases f <;> decide

theorem Flag.bit_injective {f g : Flag} (h : f.bit = g.bit) : f = g := by
  cases f <;> cases g <;> first | rfl | cases h

/-- `KeyModifiers::new`. -/
def new : KeyModifiers := ⟨0⟩

/-- The `is_*` getters: `self.flags & MASK != 0`. -/
def getFlag (m : KeyModifiers) (mask : UInt8) : Bool := m.flags &&& mask != 0

/-- The `set_*` setters: or the mask in, or mask it out. -/
def setFlag (m : KeyModifiers) (mask : UInt8) (on : Bool) : KeyModifiers :=
  if on then ⟨m.flags ||| mask⟩ else ⟨m.flags &&& ~~~mask⟩

def isShifted (m : KeyModifiers) : Bool := m.getFlag SHIFT
def isCtrled (m : KeyModifiers) : Bool := m.getFlag CTRL
def isAlted (m : KeyModifiers) : Bool := m.getFlag ALT
def isCapsLocked (m : KeyModifiers) : Bool := m.getFlag CAPS_LOCK
def isNumLocked (m : KeyModifiers) : Bool := m.getFlag NUM_LOCK

/-- `KeyModifiers::is_uppercase`: shift and caps lock cancel. -/
def isUppercase (m : KeyModifiers) : Bool := m.isShifted ^^ m.isCapsLocked

def setShifted (m : KeyModifiers) (shifted : Bool) : KeyModifiers := m.setFlag SHIFT shifted
def setCtrled (m : KeyModifiers) (ctrled : Bool) : KeyModifiers := m.setFlag CTRL ctrled
def setAlted (m : KeyModifiers) (alted : Bool) : KeyModifiers := m.setFlag ALT alted
def setCapsLocked (m : KeyModifiers) (capsLocked : Bool) : KeyModifiers :=
  m.setFlag CAPS_LOCK capsLocked
def setNumLocked (m : KeyModifiers) (numLocked : Bool) : KeyModifiers :=
  m.setFlag NUM_LOCK numLocked

/-- A flag is its bit of the byte. -/
theorem getFlag_mask (m : KeyModifiers) (f : Flag) :
    m.getFlag f.mask = m.flags.toNat.testBit f.bit := by
  have h := Nat.and_two_pow m.flags.toNat f.bit
  unfold getFlag
  apply Bool.eq_iff_iff.mpr
  rw [bne_iff_ne, ne_eq, ← UInt8.toNat_inj, UInt8.toNat_and, Flag.toNat_mask, h,
    UInt8.toNat_zero]
  cases m.flags.toNat.testBit f.bit <;> simp

/-- **The flags are independent**: each setter sets its own flag and leaves the others. -/
theorem get_setFlag (m : KeyModifiers) (f g : Flag) (on : Bool) :
    (m.setFlag f.mask on).getFlag g.mask = if f = g then on else m.getFlag g.mask := by
  rw [getFlag_mask, getFlag_mask]
  have hbits : (f.bit = g.bit) = (f = g) := propext ⟨Flag.bit_injective, congrArg Flag.bit⟩
  cases on
  · -- masking out: the complement of the mask is every other bit of the byte
    have hnot : (~~~f.mask).toNat = 2 ^ 8 - (2 ^ f.bit + 1) := by
      have hlt : 2 ^ f.bit < 2 ^ 8 := Nat.pow_lt_pow_right (by decide) f.bit_lt
      rw [UInt8.toNat_not, Flag.toNat_mask, show UInt8.size = 2 ^ 8 from rfl]
      omega
    simp only [setFlag, Bool.false_eq_true, ↓reduceIte, UInt8.toNat_and, hnot,
      Nat.testBit_and, Nat.testBit_two_pow_sub_succ (Nat.pow_lt_pow_right (by decide)
        f.bit_lt), Nat.testBit_two_pow, g.bit_lt, decide_true, Bool.true_and, hbits]
    by_cases hfg : f = g <;> simp [hfg]
  · simp only [setFlag, ↓reduceIte, UInt8.toNat_or, Flag.toNat_mask, Nat.testBit_or,
      Nat.testBit_two_pow, hbits]
    by_cases hfg : f = g <;> simp [hfg]

end KeyModifiers

/-! ## Characters -/

/-- `KeyCode::as_char` before the case: a letter, a digit of the keypad, or a space;
`'\0'` for every other key. -/
def KeyCode.rawChar : KeyCode → Char
  | .a => 'a' | .b => 'b' | .c => 'c' | .d => 'd' | .e => 'e' | .f => 'f' | .g => 'g'
  | .h => 'h' | .i => 'i' | .j => 'j' | .k => 'k' | .l => 'l' | .m => 'm' | .n => 'n'
  | .o => 'o' | .p => 'p' | .q => 'q' | .r => 'r' | .s => 's' | .t => 't' | .u => 'u'
  | .v => 'v' | .w => 'w' | .x => 'x' | .y => 'y' | .z => 'z'
  | .space => ' '
  | .numpad0 => '0' | .numpad1 => '1' | .numpad2 => '2' | .numpad3 => '3' | .numpad4 => '4'
  | .numpad5 => '5' | .numpad6 => '6' | .numpad7 => '7' | .numpad8 => '8' | .numpad9 => '9'
  | _ => '\x00'

/-- `KeyCode::as_char`: letters go upper case when `is_uppercase`. -/
def KeyCode.asChar (key : KeyCode) (modifiers : KeyModifiers) : Char :=
  let raw := key.rawChar
  if raw.isAlpha && modifiers.isUppercase then raw.toUpper else raw

end Beskar.Drivers.Keyboard
