import Mathlib

/-!
# UTF-8

The well-formed UTF-8 byte sequences of RFC 3629 §4, recognised one byte at a time as
`core::str::from_utf8` checks them, and the character boundaries of a string: the
positions a `&str` may be sliced at.

A machine state says what the bytes so far still owe: nothing (`start`), one to three
continuation bytes (`tail1` to `tail3`), or, after the lead bytes `E0`, `ED`, `F0` and
`F4`, a second byte from a narrower range, which rules out overlong forms and surrogates.
A byte string is valid when the machine reads it from `start` back to `start`.

A position is a character boundary when it is `0`, the length, or the index of a byte
that is not a continuation byte (`u8::is_utf8_char_boundary`).
-/

namespace Beskar.Lib.Utf8

/-- `UTF8-tail = %x80-BF`: a continuation byte. -/
def isTail (b : UInt8) : Bool := 0x80 ≤ b && b ≤ 0xBF

/-- What the bytes read so far still owe. -/
inductive State where
  | start
  | tail1
  | tail2
  | tail3
  | afterE0
  | afterED
  | afterF0
  | afterF4
deriving DecidableEq, Repr

/-- The state after the first byte of a character. -/
def first (b : UInt8) : Option State :=
  if b ≤ 0x7F then some .start
  else if 0xC2 ≤ b ∧ b ≤ 0xDF then some .tail1
  else if b = 0xE0 then some .afterE0
  else if 0xE1 ≤ b ∧ b ≤ 0xEC then some .tail2
  else if b = 0xED then some .afterED
  else if 0xEE ≤ b ∧ b ≤ 0xEF then some .tail2
  else if b = 0xF0 then some .afterF0
  else if 0xF1 ≤ b ∧ b ≤ 0xF3 then some .tail3
  else if b = 0xF4 then some .afterF4
  else none

/-- `next` when `lo ≤ b ≤ hi`, and a refusal otherwise. -/
def within (lo hi b : UInt8) (next : State) : Option State :=
  if lo ≤ b ∧ b ≤ hi then some next else none

/-- One byte. -/
def step : State → UInt8 → Option State
  | .start, b => first b
  | .tail1, b => within 0x80 0xBF b .start
  | .tail2, b => within 0x80 0xBF b .tail1
  | .tail3, b => within 0x80 0xBF b .tail2
  | .afterE0, b => within 0xA0 0xBF b .tail1
  | .afterED, b => within 0x80 0x9F b .tail1
  | .afterF0, b => within 0x90 0xBF b .tail2
  | .afterF4, b => within 0x80 0x8F b .tail2

/-- The state after every byte, or `none` at the first byte refused. -/
def run : State → List UInt8 → Option State
  | q, [] => some q
  | q, b :: l =>
    match step q b with
    | some q' => run q' l
    | none => none

/-- `core::str::from_utf8(bytes).is_ok()`. -/
def valid (bytes : List UInt8) : Bool := run .start bytes == some .start

/-- `str::is_char_boundary(index)`: `0`, the length, or a byte that is no continuation
byte; a position past the length is none. -/
def isCharBoundary (s : List UInt8) (i : Nat) : Bool :=
  i == 0 ||
    match s[i]? with
    | some b => !isTail b
    | none => i == s.length

/-- An ASCII byte is no continuation byte. -/
theorem isTail_eq_false_of_lt {b : UInt8} (h : b < 0x80) : isTail b = false := by
  unfold isTail
  rw [Bool.and_eq_false_iff]
  left
  exact decide_eq_false (UInt8.not_le.mpr h)

/-- **Every position of an ASCII string is a character boundary.** -/
theorem isCharBoundary_of_ascii {s : List UInt8} (hs : ∀ b ∈ s, b < 0x80) {i : Nat}
    (hi : i ≤ s.length) : isCharBoundary s i = true := by
  unfold isCharBoundary
  rcases Nat.lt_or_ge i s.length with hlt | hge
  · rw [List.getElem?_eq_getElem hlt]
    dsimp only
    rw [isTail_eq_false_of_lt (hs _ (List.getElem_mem hlt)), Bool.not_false, Bool.or_true]
  · rw [List.getElem?_eq_none (by omega)]
    dsimp only
    rw [show i = s.length by omega, beq_self_eq_true, Bool.or_true]

end Beskar.Lib.Utf8
