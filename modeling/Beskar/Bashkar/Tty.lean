import Beskar.Drivers.Keyboard
import Beskar.Lib.StringBytes
import Beskar.Lib.Machine

/-!
# The Shell's Input Line

Model of the line editing of `Tty::handle_key_event` (`userspace/bashkar/src/video/tty.rs`)
and of the loop of `bashkar`'s `main` around it: each key event is handled, and when it
completes the line the line is drained for the command and the input reset.

The buffer is a `String` edited at a byte index `cursor_pos`: a character goes in with
`String::insert(cursor_pos, c)` and `cursor_pos += 1`, and Backspace decrements
`cursor_pos` and calls `String::remove(cursor_pos)`, or `pop` when the index is past the
end.  Both calls panic off a character boundary, and `+= 1` counts characters, not bytes.

What the line is for is simpler: an `Editor` holds a line of characters and which
modifiers are on; a character is appended, Backspace takes the last one away, and Enter
hands the line on and starts an empty one.

## Main results

- `shellStep_simulates`: one event of the loop, from a state that holds the bytes of the
  editor's line with the cursor at its end, does what the editor does.
- `tty_shell_lines`: **the shell receives the typed lines**: from `Tty::new`, over every
  sequence of key events, the loop never panics, hands each command the bytes of the line
  the editor hands on, and keeps the cursor at the end of the buffer; `String::pop` is
  never reached.

The writer, the grid geometry and the cursor on the grid (`redraw_line`,
`newline_and_flush`, the commands' output) only draw, and are left out.
-/

namespace Beskar.Bashkar

open Beskar.Drivers.Keyboard Beskar.Lib Beskar.Lib.StringBytes KeyModifiers

/-! ## §1 The Code -/

/-- The part of `Tty` that key events change. -/
structure Tty where
  /-- `input_buffer`, as the bytes of the `String`. -/
  inputBuffer : List UInt8
  /-- `cursor_pos`, the index `insert` and `remove` take. -/
  cursorPos : Nat
  modifiers : KeyModifiers

/-- `Tty::new`: an empty line and no modifier on. -/
def Tty.new : Tty := ⟨[], 0, KeyModifiers.new⟩

/-- The keys whose release `handle_key_event` still handles. -/
def isModifierKey : KeyCode → Bool
  | .shiftLeft | .shiftRight | .ctrlLeft | .ctrlRight | .altLeft | .altRight => true
  | _ => false

namespace Tty

/-- `Tty::handle_key_event`: the new state and whether the line is complete; `none` where
`String::insert` or `String::remove` panics. -/
def handleKeyEvent (t : Tty) (event : KeyEvent) : Option (Tty × Bool) :=
  let key := event.key
  let state := event.pressed
  if state ≠ .pressed ∧ !isModifierKey key then some (t, false)
  else
    match key with
    | .backspace =>
      if t.cursorPos > 0 then
        let cursorPos := t.cursorPos - 1
        let inputBuffer :=
          if cursorPos < t.inputBuffer.length then remove t.inputBuffer cursorPos
          else some (pop t.inputBuffer)
        inputBuffer.map fun inputBuffer => ({ t with inputBuffer, cursorPos }, false)
      else some (t, false)
    | .enter => some (t, true)
    | .capsLock =>
      some ({ t with modifiers := t.modifiers.setCapsLocked !t.modifiers.isCapsLocked }, false)
    | .shiftLeft | .shiftRight =>
      some ({ t with modifiers := t.modifiers.setShifted (state == .pressed) }, false)
    | .ctrlLeft | .ctrlRight =>
      some ({ t with modifiers := t.modifiers.setCtrled (state == .pressed) }, false)
    | .altLeft | .altRight =>
      some ({ t with modifiers := t.modifiers.setAlted (state == .pressed) }, false)
    | _ =>
      let c := key.asChar t.modifiers
      if c ≠ '\x00' then
        (insert t.inputBuffer t.cursorPos c).map fun inputBuffer =>
          ({ t with inputBuffer, cursorPos := t.cursorPos + 1 }, false)
      else some (t, false)

/-- `Tty::drain_input_line`: the line, and the state with an empty one. -/
def drainInputLine (t : Tty) : List UInt8 × Tty :=
  (t.inputBuffer, { t with cursorPos := 0, inputBuffer := [] })

/-- `Tty::reset_input`. -/
def resetInput (t : Tty) : Tty := { t with inputBuffer := [], cursorPos := 0 }

end Tty

/-- One event of `main`'s loop: the key handled and, when it completes the line, the line
drained for the command and the input reset. -/
def shellStep (t : Tty) (event : KeyEvent) : Option (Tty × Option (List UInt8)) :=
  (t.handleKeyEvent event).map fun r =>
    if r.2 then (r.1.drainInputLine.2.resetInput, some r.1.drainInputLine.1)
    else (r.1, none)

/-! ## §2 The Editor -/

/-- The character a key types, upper case or not. -/
def typedChar (key : KeyCode) (upper : Bool) : Char :=
  if key.rawChar.isAlpha && upper then key.rawChar.toUpper else key.rawChar

theorem asChar_eq_typed (key : KeyCode) (m : KeyModifiers) :
    key.asChar m = typedChar key (m.getFlag Flag.shift.mask ^^ m.getFlag Flag.capsLock.mask) :=
  rfl

/-- Every key types an ASCII character. -/
theorem typedChar_ascii (key : KeyCode) (upper : Bool) : IsAscii (typedChar key upper) := by
  unfold typedChar
  split <;> cases key <;> decide

/-- A line of ASCII characters. -/
structure Line where
  chars : List Char
  ascii : ∀ c ∈ chars, IsAscii c

def Line.empty : Line := ⟨[], fun _ h => absurd h List.not_mem_nil⟩

def Line.push (l : Line) (c : Char) (hc : IsAscii c) : Line :=
  ⟨l.chars ++ [c], by
    intro x hx
    rcases List.mem_append.mp hx with hx | hx
    · exact l.ascii x hx
    · rw [List.mem_singleton.mp hx]
      exact hc⟩

def Line.dropLast (l : Line) : Line :=
  ⟨l.chars.dropLast, fun c hc => l.ascii c (List.mem_of_mem_dropLast hc)⟩

/-- The line and which modifier flags are on. -/
structure Editor where
  line : Line
  held : Flag → Bool

def Editor.new : Editor := ⟨Line.empty, fun _ => false⟩

/-- What a key event does to the line: a character is appended, Backspace takes the last
one away, Enter hands the line on, and the modifier keys turn their flag on or off. -/
def Editor.step (e : Editor) (event : KeyEvent) : Editor × Option (List Char) :=
  if event.pressed ≠ .pressed ∧ !isModifierKey event.key then (e, none)
  else
    match event.key with
    | .backspace => ({ e with line := e.line.dropLast }, none)
    | .enter => ({ e with line := Line.empty }, some e.line.chars)
    | .capsLock => ({ e with held := Function.update e.held .capsLock !(e.held .capsLock) }, none)
    | .shiftLeft | .shiftRight =>
      ({ e with held := Function.update e.held .shift (event.pressed == .pressed) }, none)
    | .ctrlLeft | .ctrlRight =>
      ({ e with held := Function.update e.held .ctrl (event.pressed == .pressed) }, none)
    | .altLeft | .altRight =>
      ({ e with held := Function.update e.held .alt (event.pressed == .pressed) }, none)
    | key =>
      let c := typedChar key (e.held .shift ^^ e.held .capsLock)
      if c ≠ '\x00' then ({ e with line := e.line.push c (typedChar_ascii key _) }, none)
      else (e, none)

/-! ## §3 The Code Refines the Editor -/

/-- The state holds the bytes of the editor's line with the cursor at its end, and the
modifier byte holds the editor's flags. -/
def Abstracts (t : Tty) (e : Editor) : Prop :=
  t.inputBuffer = encode e.line.chars ∧ t.cursorPos = e.line.chars.length ∧
    ∀ f, t.modifiers.getFlag f.mask = e.held f

/-- The cursor is at the end of the buffer. -/
theorem Abstracts.cursor_eq_length {t : Tty} {e : Editor} (h : Abstracts t e) :
    t.cursorPos = t.inputBuffer.length := by
  rw [h.2.1, h.1, length_encode_of_ascii e.line.ascii]

/-- A setter of the modifier byte is an update of the editor's flags. -/
theorem Abstracts.setFlag {m : KeyModifiers} {held : Flag → Bool}
    (h : ∀ f, m.getFlag f.mask = held f) (g : Flag) (on : Bool) :
    ∀ f, (m.setFlag g.mask on).getFlag f.mask = Function.update held g on f := by
  intro f
  rw [get_setFlag, Function.update_apply, h f]
  by_cases hfg : g = f
  · subst hfg
    simp
  · simp [hfg, Ne.symm hfg]

theorem Abstracts.new : Abstracts Tty.new Editor.new := by
  refine ⟨rfl, rfl, ?_⟩
  intro f
  cases f <;> rfl

/-- Backspace: `remove` at the last index, or nothing on an empty line. -/
theorem Abstracts.backspace {t : Tty} {e : Editor} (h : Abstracts t e) :
    ∃ t', (if t.cursorPos > 0 then
        (if t.cursorPos - 1 < t.inputBuffer.length then remove t.inputBuffer (t.cursorPos - 1)
          else some (pop t.inputBuffer)).map fun inputBuffer =>
            (({ t with inputBuffer, cursorPos := t.cursorPos - 1 } : Tty), false)
      else some (t, false)) = some (t', false) ∧ Abstracts t' { e with line := e.line.dropLast } := by
  obtain ⟨hb, hc, hm⟩ := h
  by_cases hne : e.line.chars = []
  · have h0 : ¬ t.cursorPos > 0 := by rw [hc, hne]; decide
    refine ⟨t, if_neg h0, ?_, ?_, hm⟩ <;> simp [Line.dropLast, hne, hb, hc]
  · -- the cursor is past the last byte, so the index is in the string and `pop` is not reached
    have hpos : t.cursorPos > 0 := by rw [hc]; exact List.length_pos_iff.mpr hne
    have hlt : t.cursorPos - 1 < t.inputBuffer.length := by
      rw [hb, length_encode_of_ascii e.line.ascii, ← hc]
      omega
    have hrem : remove t.inputBuffer (t.cursorPos - 1) = some (encode e.line.chars.dropLast) := by
      rw [hb, hc]
      exact remove_last_of_ascii e.line.ascii hne
    rw [if_pos hpos, if_pos hlt, hrem]
    refine ⟨_, rfl, rfl, ?_, hm⟩
    simp [Line.dropLast, hc]

/-- A modifier key: the setter of its flag. -/
theorem Abstracts.modifier {t : Tty} {e : Editor} (h : Abstracts t e) (f : Flag) (on : Bool) :
    Abstracts { t with modifiers := t.modifiers.setFlag f.mask on }
      { e with held := Function.update e.held f on } :=
  ⟨h.1, h.2.1, Abstracts.setFlag h.2.2 f on⟩

/-- A character key: `insert` at the end, which is always a boundary. -/
theorem Abstracts.push {t : Tty} {e : Editor} (h : Abstracts t e) {c : Char} (hc : IsAscii c) :
    ∃ t', (insert t.inputBuffer t.cursorPos c).map (fun inputBuffer =>
        (({ t with inputBuffer, cursorPos := t.cursorPos + 1 } : Tty), false)) = some (t', false) ∧
      Abstracts t' { e with line := e.line.push c hc } := by
  obtain ⟨hb, hcur, hm⟩ := h
  have hend : t.cursorPos = (encode e.line.chars).length := by
    rw [hcur, length_encode_of_ascii e.line.ascii]
  rw [hb, hend, insert_encode]
  refine ⟨_, rfl, rfl, ?_, hm⟩
  simp [Line.push, length_encode_of_ascii e.line.ascii]

/-- **One event of the loop simulates the editor.** -/
theorem shellStep_simulates {t : Tty} {e : Editor} (h : Abstracts t e) (event : KeyEvent) :
    ∃ t', shellStep t event = some (t', (e.step event).2.map encode) ∧
      Abstracts t' (e.step event).1 := by
  obtain ⟨key, state⟩ := event
  by_cases hskip : state ≠ .pressed ∧ !isModifierKey key
  · -- a released key other than a modifier changes nothing
    exact ⟨t, by simp [shellStep, Tty.handleKeyEvent, Editor.step, hskip],
      by simpa [Editor.step, hskip] using h⟩
  simp only [shellStep, Tty.handleKeyEvent, Editor.step, hskip, if_false]
  -- the code and the editor take the same arm of the match on the key
  split
  · obtain ⟨t', ht', hA⟩ := h.backspace
    rw [ht']
    exact ⟨t', rfl, hA⟩
  · -- Enter: the loop drains the line for the command and resets the input
    exact ⟨t.drainInputLine.2.resetInput, by simp [Tty.drainInputLine, h.1], rfl, rfl, h.2.2⟩
  · rw [show t.modifiers.isCapsLocked = e.held .capsLock from h.2.2 .capsLock]
    exact ⟨_, rfl, h.modifier .capsLock _⟩
  · exact ⟨_, rfl, h.modifier .shift _⟩
  · exact ⟨_, rfl, h.modifier .shift _⟩
  · exact ⟨_, rfl, h.modifier .ctrl _⟩
  · exact ⟨_, rfl, h.modifier .ctrl _⟩
  · exact ⟨_, rfl, h.modifier .alt _⟩
  · exact ⟨_, rfl, h.modifier .alt _⟩
  -- any other key types the character of its upper or lower case, if it has one
  rw [asChar_eq_typed, h.2.2, h.2.2]
  split
  · obtain ⟨t', ht', hA⟩ := h.push (typedChar_ascii key (e.held .shift ^^ e.held .capsLock))
    rw [ht']
    exact ⟨t', rfl, hA⟩
  · exact ⟨t, rfl, h⟩

/-- **The shell receives the typed lines.**  From `Tty::new`, over every sequence of key
events, `main`'s loop never panics, hands each command the bytes of the line the editor
hands on at that Enter, and ends in a state whose cursor is at the end of the buffer. -/
theorem tty_shell_lines (events : List KeyEvent) :
    ∃ t, Machine.run shellStep Tty.new events =
        some (t, (Machine.runTotal Editor.step Editor.new events).2.map encode) ∧
      Abstracts t (Machine.runTotal Editor.step Editor.new events).1 :=
  Machine.run_simulates Abstracts encode (fun _ _ x h => shellStep_simulates h x) Abstracts.new events

end Beskar.Bashkar
