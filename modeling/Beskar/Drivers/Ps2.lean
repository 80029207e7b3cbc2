import Beskar.Drivers.Keyboard
import Beskar.Lib.Machine

/-!
# PS/2 Scancodes

Model of the scancode path of `kernel/src/drivers/ps2.rs`: the Set 1 table of
`Ps2Keyboard::scancode_set1_to_keycode`, and `handle_keyboard_interrupt`, which keeps in
the static `EXTENDED` whether the last byte was an `0xE0` or `0xE1` prefix and hands every
other byte, with that flag, to `handle_real_key`.  One interrupt reads one byte, so the
handler is a step on the flag; the failed `assert!(!previous)` on a second `0xE0` is a
panic, `none`.

A Set 1 keyboard sends, for each press or release of a key, the key's make code, with bit
`7` set for the release, after an `0xE0` for the extended keys.  `set1Code` gives each
key's code as the table lists it, read from the key's side.

## Main results

- `set1Key_set1Code`, `set1Code_set1Key`: the table and the codes are inverse, so no
  two codes name one key and the release of a key is read as that key.
- `ps2_decode_encode`: **the stream round trip**: the bytes a Set 1 keyboard sends for any
  sequence of events on keys of the table are read back, interrupt by interrupt, as
  exactly those events, in order, without a panic and with `EXTENDED` clear at the end.
-/

namespace Beskar.Drivers.Ps2

open Beskar.Drivers.Keyboard Beskar.Lib

/-- `ScancodeSet`. -/
inductive ScancodeSet where
  | set1 | set2 | set3
deriving DecidableEq, Repr

/-- The `match (extended, scancode)` of `scancode_set1_to_keycode`, on the make code. -/
def set1Key : Bool → Nat → Option KeyCode
  | false, 0x01 => some .escape
  | false, 0x1E => some .a
  | false, 0x30 => some .b
  | false, 0x2E => some .c
  | false, 0x20 => some .d
  | false, 0x12 => some .e
  | false, 0x21 => some .f
  | false, 0x22 => some .g
  | false, 0x23 => some .h
  | false, 0x17 => some .i
  | false, 0x24 => some .j
  | false, 0x25 => some .k
  | false, 0x26 => some .l
  | false, 0x32 => some .m
  | false, 0x31 => some .n
  | false, 0x18 => some .o
  | false, 0x19 => some .p
  | false, 0x10 => some .q
  | false, 0x13 => some .r
  | false, 0x1F => some .s
  | false, 0x14 => some .t
  | false, 0x16 => some .u
  | false, 0x2F => some .v
  | false, 0x11 => some .w
  | false, 0x2D => some .x
  | false, 0x15 => some .y
  | false, 0x2C => some .z
  | false, 0x0B => some .num0
  | false, 0x02 => some .num1
  | false, 0x03 => some .num2
  | false, 0x04 => some .num3
  | false, 0x05 => some .num4
  | false, 0x06 => some .num5
  | false, 0x07 => some .num6
  | false, 0x08 => some .num7
  | false, 0x09 => some .num8
  | false, 0x0A => some .num9
  | false, 0x0C => some .minus
  | false, 0x0D => some .equal
  | false, 0x1A => some .leftBracket
  | false, 0x1B => some .rightBracket
  | false, 0x2B => some .backslash
  | false, 0x27 => some .semicolon
  | false, 0x28 => some .apostrophe
  | false, 0x29 => some .tilde
  | false, 0x33 => some .comma
  | false, 0x34 => some .dot
  | false, 0x35 => some .slash
  | false, 0x1C => some .enter
  | false, 0x39 => some .space
  | false, 0x0E => some .backspace
  | false, 0x0F => some .tab
  | false, 0x3A => some .capsLock
  | false, 0x2A => some .shiftLeft
  | false, 0x36 => some .shiftRight
  | false, 0x1D => some .ctrlLeft
  | false, 0x38 => some .altLeft
  | false, 0x3B => some .f1
  | false, 0x3C => some .f2
  | false, 0x3D => some .f3
  | false, 0x3E => some .f4
  | false, 0x3F => some .f5
  | false, 0x40 => some .f6
  | false, 0x41 => some .f7
  | false, 0x42 => some .f8
  | false, 0x43 => some .f9
  | false, 0x44 => some .f10
  | false, 0x57 => some .f11
  | false, 0x58 => some .f12
  | false, 0x52 => some .numpad0
  | false, 0x4F => some .numpad1
  | false, 0x50 => some .numpad2
  | false, 0x51 => some .numpad3
  | false, 0x4B => some .numpad4
  | false, 0x4C => some .numpad5
  | false, 0x4D => some .numpad6
  | false, 0x47 => some .numpad7
  | false, 0x48 => some .numpad8
  | false, 0x49 => some .numpad9
  | false, 0x4E => some .numpadAdd
  | false, 0x4A => some .numpadSub
  | false, 0x37 => some .numpadMul
  | false, 0x53 => some .numpadDot
  | true, 0x1D => some .ctrlRight
  | true, 0x48 => some .arrowUp
  | true, 0x50 => some .arrowDown
  | true, 0x4B => some .arrowLeft
  | true, 0x4D => some .arrowRight
  | _, _ => none

/-- `Ps2Keyboard::scancode_set1_to_keycode`: bit `7` marks a release, and the rest is the
make code. -/
def scancodeSet1ToKeycode (extended : Bool) (scancode : UInt8) : Option KeyEvent :=
  let released := scancode &&& 0x80 ≠ 0
  let state := if released then KeyState.released else KeyState.pressed
  let scancode := if released then scancode &&& 0x7F else scancode
  (set1Key extended scancode.toNat).map fun key => ⟨key, state⟩

/-- `Ps2Keyboard::scancode_to_keycode`: only Set 1 is read. -/
def scancodeToKeycode (set : ScancodeSet) (extended : Bool) (scancode : UInt8) :
    Option KeyEvent :=
  match set with
  | .set1 => scancodeSet1ToKeycode extended scancode
  | _ => none

/-- `Ps2Keyboard::new` sets the keyboard to Set 1. -/
def DEFAULT_SCANCODE_SET : ScancodeSet := .set1

/-- `handle_real_key`: the event pushed to the keyboard manager; an unknown key is only
logged. -/
def handleRealKey (extended : Bool) (key : UInt8) : Option KeyEvent :=
  scancodeToKeycode DEFAULT_SCANCODE_SET extended key

/-- `handle_keyboard_interrupt` on what `poll_key` read: the new `EXTENDED` and the event
handed on, if any; `none` where `assert!(!previous)` fails.  With no byte to read the
handler returns at once. -/
def handleKeyboardInterrupt (extended : Bool) : Option UInt8 → Option (Bool × Option KeyEvent)
  | none => some (extended, none)
  | some scanCode =>
    if scanCode = 0xE0 then
      -- `EXTENDED.swap(true)`, and the previous value must be clear
      if extended then none else some (true, none)
    else if scanCode = 0xE1 then
      some (true, none)
    else
      -- `EXTENDED.swap(false)`; the bytes `0` and `0xFA` are dropped
      if scanCode ≠ 0 ∧ scanCode ≠ 0xFA then some (false, handleRealKey extended scanCode)
      else some (false, none)

/-- One interrupt a poll: the flag after the polls and the events handed on, in order. -/
def decodeStream (extended : Bool) (polls : List (Option UInt8)) :
    Option (Bool × List KeyEvent) :=
  Machine.run handleKeyboardInterrupt extended polls

/-- Decoding runs in two parts. -/
theorem decodeStream_append (extended : Bool) (xs ys : List (Option UInt8)) :
    decodeStream extended (xs ++ ys) =
      (decodeStream extended xs).bind fun p =>
        (decodeStream p.1 ys).map fun q => (q.1, p.2 ++ q.2) :=
  Machine.run_append extended xs ys

/-- An interrupt with no byte to read changes nothing. -/
@[simp]
theorem decodeStream_none_cons (extended : Bool) (polls : List (Option UInt8)) :
    decodeStream extended (none :: polls) = decodeStream extended polls := by
  have hnone : handleKeyboardInterrupt extended none = some (extended, none) := rfl
  rw [decodeStream, Machine.run_cons_of_step hnone, ← decodeStream]
  cases decodeStream extended polls <;> rfl

/-- Only the bytes read count: the polls that found none can be dropped. -/
theorem decodeStream_reduceOption (extended : Bool) (polls : List (Option UInt8)) :
    decodeStream extended polls = decodeStream extended (polls.reduceOption.map some) := by
  induction polls generalizing extended with
  | nil => rfl
  | cons poll polls ih =>
    cases poll with
    | none => rw [decodeStream_none_cons, ih, List.reduceOption_cons_of_none]
    | some b =>
      rw [List.reduceOption_cons_of_some, List.map_cons]
      simp only [decodeStream] at ih ⊢
      cases h : handleKeyboardInterrupt extended (some b) with
      | none => rw [Machine.run_cons_of_step_eq_none h, Machine.run_cons_of_step_eq_none h]
      | some r => rw [Machine.run_cons_of_step h, Machine.run_cons_of_step h, ih]

/-! ## The Codes of the Keys -/

/-- The Set 1 code of each key of the table: whether it comes after `0xE0`, and its make
code.  The keys the table leaves out have none. -/
def set1Code : KeyCode → Option (Bool × Nat)
  | .escape => some (false, 0x01)
  | .a => some (false, 0x1E)
  | .b => some (false, 0x30)
  | .c => some (false, 0x2E)
  | .d => some (false, 0x20)
  | .e => some (false, 0x12)
  | .f => some (false, 0x21)
  | .g => some (false, 0x22)
  | .h => some (false, 0x23)
  | .i => some (false, 0x17)
  | .j => some (false, 0x24)
  | .k => some (false, 0x25)
  | .l => some (false, 0x26)
  | .m => some (false, 0x32)
  | .n => some (false, 0x31)
  | .o => some (false, 0x18)
  | .p => some (false, 0x19)
  | .q => some (false, 0x10)
  | .r => some (false, 0x13)
  | .s => some (false, 0x1F)
  | .t => some (false, 0x14)
  | .u => some (false, 0x16)
  | .v => some (false, 0x2F)
  | .w => some (false, 0x11)
  | .x => some (false, 0x2D)
  | .y => some (false, 0x15)
  | .z => some (false, 0x2C)
  | .num0 => some (false, 0x0B)
  | .num1 => some (false, 0x02)
  | .num2 => some (false, 0x03)
  | .num3 => some (false, 0x04)
  | .num4 => some (false, 0x05)
  | .num5 => some (false, 0x06)
  | .num6 => some (false, 0x07)
  | .num7 => some (false, 0x08)
  | .num8 => some (false, 0x09)
  | .num9 => some (false, 0x0A)
  | .minus => some (false, 0x0C)
  | .equal => some (false, 0x0D)
  | .leftBracket => some (false, 0x1A)
  | .rightBracket => some (false, 0x1B)
  | .backslash => some (false, 0x2B)
  | .semicolon => some (false, 0x27)
  | .apostrophe => some (false, 0x28)
  | .tilde => some (false, 0x29)
  | .comma => some (false, 0x33)
  | .dot => some (false, 0x34)
  | .slash => some (false, 0x35)
  | .enter => some (false, 0x1C)
  | .space => some (false, 0x39)
  | .backspace => some (false, 0x0E)
  | .tab => some (false, 0x0F)
  | .capsLock => some (false, 0x3A)
  | .shiftLeft => some (false, 0x2A)
  | .shiftRight => some (false, 0x36)
  | .ctrlLeft => some (false, 0x1D)
  | .altLeft => some (false, 0x38)
  | .f1 => some (false, 0x3B)
  | .f2 => some (false, 0x3C)
  | .f3 => some (false, 0x3D)
  | .f4 => some (false, 0x3E)
  | .f5 => some (false, 0x3F)
  | .f6 => some (false, 0x40)
  | .f7 => some (false, 0x41)
  | .f8 => some (false, 0x42)
  | .f9 => some (false, 0x43)
  | .f10 => some (false, 0x44)
  | .f11 => some (false, 0x57)
  | .f12 => some (false, 0x58)
  | .numpad0 => some (false, 0x52)
  | .numpad1 => some (false, 0x4F)
  | .numpad2 => some (false, 0x50)
  | .numpad3 => some (false, 0x51)
  | .numpad4 => some (false, 0x4B)
  | .numpad5 => some (false, 0x4C)
  | .numpad6 => some (false, 0x4D)
  | .numpad7 => some (false, 0x47)
  | .numpad8 => some (false, 0x48)
  | .numpad9 => some (false, 0x49)
  | .numpadAdd => some (false, 0x4E)
  | .numpadSub => some (false, 0x4A)
  | .numpadMul => some (false, 0x37)
  | .numpadDot => some (false, 0x53)
  | .ctrlRight => some (true, 0x1D)
  | .arrowUp => some (true, 0x48)
  | .arrowDown => some (true, 0x50)
  | .arrowLeft => some (true, 0x4B)
  | .arrowRight => some (true, 0x4D)
  | _ => none

/-- The code of a key names that key, and is a make code other than `0`. -/
theorem set1Key_set1Code (key : KeyCode) {extended : Bool} {code : Nat}
    (h : set1Code key = some (extended, code)) :
    0 < code ∧ code < 0x59 ∧ set1Key extended code = some key := by
  cases key <;> cases h <;> decide

/-- **No key has two codes**: every code of the table is the code of the key it names. -/
theorem set1Code_set1Key : ∀ extended, ∀ code < 0x80, ∀ key,
    set1Key extended code = some key → set1Code key = some (extended, code) := by
  decide

/-- The byte a Set 1 keyboard sends for a make code: bit `7` set for a release. -/
def set1Byte (code : Nat) (state : KeyState) : UInt8 :=
  (code + if state = .released then 0x80 else 0).toUInt8

/-- The bytes a Set 1 keyboard sends for an event on a key of the table. -/
def scancodes (event : KeyEvent) : Option (List UInt8) :=
  (set1Code event.key).map fun c =>
    if c.1 then [0xE0, set1Byte c.2 event.pressed] else [set1Byte c.2 event.pressed]

/-- The bytes of a sequence of events, when every key has a code. -/
def encodeStream (events : List KeyEvent) : Option (List UInt8) :=
  (events.mapM scancodes).map List.flatten

/-- The byte of a key of the table, read by `handle_keyboard_interrupt`, hands on the event
and clears the flag, whatever the flag was. -/
theorem handleKeyboardInterrupt_set1Byte {key : KeyCode} {extended : Bool} {code : Nat}
    (h : set1Code key = some (extended, code)) (state : KeyState) :
    handleKeyboardInterrupt extended (some (set1Byte code state)) =
      some (false, some ⟨key, state⟩) := by
  obtain ⟨hpos, hlt, hkey⟩ := set1Key_set1Code key h
  -- the byte as a number: the code, plus `0x80` for a release
  have hbyte : (set1Byte code state).toNat = code + if state = .released then 0x80 else 0 := by
    simp only [set1Byte, Beskar.Lib.toNat_toUInt8]
    split <;> omega
  have hne : ∀ n : UInt8, (set1Byte code state).toNat ≠ n.toNat → set1Byte code state ≠ n :=
    fun n hb he => hb (congrArg UInt8.toNat he)
  have hE0 := hne 0xE0 (show _ ≠ 0xE0 by split at hbyte <;> omega)
  have hE1 := hne 0xE1 (show _ ≠ 0xE1 by split at hbyte <;> omega)
  have h0 := hne 0 (show _ ≠ 0 by omega)
  have hFA := hne 0xFA (show _ ≠ 0xFA by split at hbyte <;> omega)
  -- bit `7` is the state, and the low bits are the code
  have hmask : (set1Byte code state &&& 0x80 ≠ 0) ↔ state = .released := by
    rw [ne_eq, ← UInt8.toNat_inj, UInt8.toNat_and, show (0x80 : UInt8).toNat = 2 ^ 7 from rfl,
      Nat.and_two_pow, hbyte]
    cases state <;> simp [Nat.testBit, Nat.shiftRight_eq_div_pow] <;> omega
  have hlow : (set1Byte code state &&& 0x7F).toNat = code := by
    rw [UInt8.toNat_and, show (0x7F : UInt8).toNat = 2 ^ 7 - 1 from rfl,
      Nat.and_two_pow_sub_one_eq_mod, hbyte]
    split <;> omega
  have hreal : handleRealKey extended (set1Byte code state) = some ⟨key, state⟩ := by
    cases state
    · have hp : set1Byte code .pressed &&& 0x80 = 0 := by
        by_contra hc
        cases hmask.mp hc
      have hcode : (set1Byte code .pressed).toNat = code := by simpa using hbyte
      simp only [handleRealKey, DEFAULT_SCANCODE_SET, scancodeToKeycode, scancodeSet1ToKeycode,
        hp, ne_eq, not_true_eq_false, ↓reduceIte, hcode, hkey, Option.map_some]
    · simp only [handleRealKey, DEFAULT_SCANCODE_SET, scancodeToKeycode, scancodeSet1ToKeycode,
        if_pos (hmask.mpr rfl), hlow, hkey, Option.map_some]
  simp only [handleKeyboardInterrupt, hE0, hE1, h0, hFA, if_false, ne_eq, not_false_eq_true,
    and_self, if_true, hreal]

/-- The bytes of one event decode to that event, from a clear flag back to a clear flag. -/
theorem decodeStream_scancodes {event : KeyEvent} {bytes : List UInt8}
    (h : scancodes event = some bytes) : decodeStream false (bytes.map some) = some (false, [event]) := by
  obtain ⟨⟨extended, code⟩, hcode, rfl⟩ := Option.map_eq_some_iff.mp h
  have hbyte := handleKeyboardInterrupt_set1Byte hcode event.pressed
  -- an extended key comes after one `0xE0`, which the clear flag accepts
  have hextend : handleKeyboardInterrupt false (some 0xE0) = some (true, none) := rfl
  cases extended
  · simp only [Bool.false_eq_true, if_false, List.map_cons, List.map_nil, decodeStream,
      Machine.run_cons_of_step hbyte, Machine.run_nil, Option.map_some]
    rfl
  · simp only [if_true, List.map_cons, List.map_nil, decodeStream,
      Machine.run_cons_of_step hextend, Machine.run_cons_of_step hbyte, Machine.run_nil,
      Option.map_some]
    rfl

/-- **Stream round trip**: the bytes a Set 1 keyboard sends for a sequence of events on
keys of the table, read one interrupt a byte and with any number of interrupts that find
no byte between them, decode to exactly those events in order, with no panic and
`EXTENDED` clear at the end. -/
theorem ps2_decode_encode {events : List KeyEvent} {bytes : List UInt8}
    (h : encodeStream events = some bytes) {polls : List (Option UInt8)}
    (hpolls : polls.reduceOption = bytes) : decodeStream false polls = some (false, events) := by
  rw [decodeStream_reduceOption, hpolls]
  clear hpolls
  -- one event's bytes at a time, as the events are encoded
  induction events generalizing bytes with
  | nil =>
    simp only [encodeStream, List.mapM_nil, Option.pure_def, Option.map_some,
      Option.some.injEq] at h
    subst h
    rfl
  | cons event events ih =>
    simp only [encodeStream, List.mapM_cons, Option.bind_eq_bind, Option.pure_def,
      Option.map_eq_some_iff, Option.bind_eq_some_iff, Option.some.injEq] at h
    obtain ⟨_, ⟨first, hfirst, codes, hcodes, rfl⟩, rfl⟩ := h
    rw [List.flatten_cons, List.map_append, decodeStream_append, decodeStream_scancodes hfirst,
      Option.bind_some,
      ih (show encodeStream events = some codes.flatten by simp [encodeStream, hcodes])]
    rfl

/-- Up arrow pressed then released, with an empty poll between the prefix and the make
code. -/
theorem ps2_decode_encode_arrowUp :
    encodeStream [⟨.arrowUp, .pressed⟩, ⟨.arrowUp, .released⟩] =
        some [0xE0, 0x48, 0xE0, 0xC8] ∧
      ([some 0xE0, none, some 0x48, some 0xE0, some 0xC8] : List (Option UInt8)).reduceOption =
        [0xE0, 0x48, 0xE0, 0xC8] ∧
      decodeStream false [some 0xE0, none, some 0x48, some 0xE0, some 0xC8] =
        some (false, [⟨.arrowUp, .pressed⟩, ⟨.arrowUp, .released⟩]) :=
  ⟨by decide, by decide,
    @ps2_decode_encode _ [0xE0, 0x48, 0xE0, 0xC8] (by decide) _ (by decide)⟩

/-- Pause, which the table leaves out, sends `E1 1D 45 E1 9D C5`; its `0xE1` sets the flag
as `0xE0` does, so the handler reads a press and a release of the right Ctrl. -/
example : decodeStream false ([0xE1, 0x1D, 0x45, 0xE1, 0x9D, 0xC5].map some) =
    some (false, [⟨.ctrlRight, .pressed⟩, ⟨.ctrlRight, .released⟩]) := by
  decide

/-! ## When the Handler Panics -/

/-- The bytes that set `EXTENDED`. -/
def isPrefixByte (b : UInt8) : Bool :=
  b == 0xE0 || b == 0xE1

/-- A pair of neighbours in a list is at its head or in its tail. -/
theorem pair_infix_cons_iff {α : Type} (x y a : α) (l : List α) :
    [x, y] <:+: a :: l ↔ (x = a ∧ l.head? = some y) ∨ [x, y] <:+: l := by
  rw [List.infix_cons_iff, List.cons_prefix_cons]
  cases l <;> simp [@eq_comm _ y]

/-- The handler panics on a run of bytes exactly when an `0xE0` comes right after a byte
that set the flag, the flag it starts from counting as such a byte. -/
theorem decodeStream_eq_none_iff (extended : Bool) (bytes : List UInt8) :
    decodeStream extended (bytes.map some) = none ↔
      (extended = true ∧ bytes.head? = some 0xE0) ∨
        ∃ b, isPrefixByte b = true ∧ [b, 0xE0] <:+: bytes := by
  induction bytes generalizing extended with
  | nil => simp [decodeStream]
  | cons b bytes ih =>
    simp only [decodeStream] at ih ⊢
    simp only [List.map_cons, Machine.run, Option.bind_eq_none_iff, Option.map_eq_none_iff,
      pair_infix_cons_iff, List.head?_cons, Option.some.injEq]
    -- one case for each branch of `handle_keyboard_interrupt`
    by_cases hE0 : b = 0xE0
    · subst hE0
      cases extended
      · simp [handleKeyboardInterrupt, ih, isPrefixByte, or_assoc]
      · simp [handleKeyboardInterrupt]
    · by_cases hE1 : b = 0xE1
      · subst hE1
        simp [handleKeyboardInterrupt, ih, isPrefixByte, or_left_comm]
      · have hb : isPrefixByte b = false := by simp [isPrefixByte, hE0, hE1]
        simp only [handleKeyboardInterrupt, hE0, hE1, if_false]
        split <;> simp [ih] <;> grind

/-- **When the keyboard interrupt panics**: over any run of interrupts from a clear flag,
the assertion of `handle_keyboard_interrupt` fails exactly when, among the bytes read, an
`0xE0` comes right after an `0xE0` or an `0xE1`. -/
theorem ps2_panic_iff (polls : List (Option UInt8)) :
    decodeStream false polls = none ↔
      ∃ b, isPrefixByte b = true ∧ [b, 0xE0] <:+: polls.reduceOption := by
  rw [decodeStream_reduceOption, decodeStream_eq_none_iff]
  simp
end Beskar.Drivers.Ps2
