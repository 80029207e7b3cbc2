import Beskar.Lib.Utf8

/-!
# Strings as Their Bytes

`alloc::string::String` holds the UTF-8 bytes of its characters, and its editing
operations take byte indices: `insert` and `remove` panic unless the index is a character
boundary, `remove` also at the end of the string, and `pop` takes off the last character.
A string here is its list of bytes, and a panic is `none`.

The end of a string is always a boundary, so inserting there appends the character's
bytes (`insert_length`).  On a string of ASCII characters every character is one byte,
so its byte length is its number of characters, and removing at the last index drops the
last character (`remove_last_of_ascii`).
-/

namespace Beskar.Lib.StringBytes

open Beskar.Lib.Utf8

/-! ## §1 The Operations -/

/-- The bytes of a string of characters. -/
def encode (line : List Char) : List UInt8 := line.flatMap String.utf8EncodeChar

/-- `char::len_utf8` of the character that starts with the lead byte `b`. -/
def widthOfLead (b : UInt8) : Nat :=
  if b < 0x80 then 1 else if b < 0xE0 then 2 else if b < 0xF0 then 3 else 4

/-- `String::insert(idx, ch)`: `assert!(self.is_char_boundary(idx))`, then the bytes of
`ch` at `idx`. -/
def insert (s : List UInt8) (idx : Nat) (c : Char) : Option (List UInt8) :=
  if isCharBoundary s idx then some (s.take idx ++ String.utf8EncodeChar c ++ s.drop idx)
  else none

/-- `String::remove(idx)`: the character starting at `idx` taken out; slicing at a
position that is no boundary panics, and so does a boundary at the end ("cannot remove a
char from the end of a string"). -/
def remove (s : List UInt8) (idx : Nat) : Option (List UInt8) :=
  if isCharBoundary s idx then s[idx]?.map fun b => s.take idx ++ s.drop (idx + widthOfLead b)
  else none

/-- `String::pop`: the string without its last character, the continuation bytes at its
end and their lead byte; an empty string stays empty. -/
def pop (s : List UInt8) : List UInt8 := (s.rdropWhile isTail).dropLast

/-- A character of one byte. -/
def IsAscii (c : Char) : Prop := c.toNat < 0x80

instance : DecidablePred IsAscii := fun c => inferInstanceAs (Decidable (c.toNat < 0x80))

/-! ## §2 ASCII Strings -/

@[simp]
theorem encode_nil : encode [] = [] := rfl

theorem encode_append (l₁ l₂ : List Char) : encode (l₁ ++ l₂) = encode l₁ ++ encode l₂ :=
  List.flatMap_append

/-- An ASCII character is its one byte. -/
theorem utf8EncodeChar_of_ascii {c : Char} (h : IsAscii c) :
    String.utf8EncodeChar c = [UInt8.ofNat c.toNat] := by
  have hle : c.val.toNat ≤ 127 := by
    unfold IsAscii at h
    exact Nat.le_of_lt_succ h
  simp only [String.utf8EncodeChar, hle, if_true]
  rfl

theorem encode_of_ascii {line : List Char} (h : ∀ c ∈ line, IsAscii c) :
    encode line = line.map fun c => UInt8.ofNat c.toNat := by
  induction line with
  | nil => rfl
  | cons c line ih =>
    simp only [List.forall_mem_cons] at h
    rw [show c :: line = [c] ++ line from rfl, encode_append, List.map_append, ih h.2]
    simp only [encode, List.flatMap_cons, List.flatMap_nil, List.append_nil,
      utf8EncodeChar_of_ascii h.1, List.map_cons, List.map_nil]

theorem length_encode_of_ascii {line : List Char} (h : ∀ c ∈ line, IsAscii c) :
    (encode line).length = line.length := by
  rw [encode_of_ascii h, List.length_map]

/-- The bytes of an ASCII string are ASCII bytes. -/
theorem lt_of_mem_encode {line : List Char} (h : ∀ c ∈ line, IsAscii c) :
    ∀ b ∈ encode line, b < 0x80 := by
  rw [encode_of_ascii h]
  intro b hb
  obtain ⟨c, hc, rfl⟩ := List.mem_map.mp hb
  have hlt : c.toNat < 0x80 := h c hc
  rw [UInt8.lt_iff_toNat_lt, UInt8.toNat_ofNat', Nat.mod_eq_of_lt (by omega)]
  exact hlt

/-! ## §3 Editing at the End -/

/-- The end of a string is a boundary, and inserting there appends. -/
theorem insert_length (s : List UInt8) (c : Char) :
    insert s s.length c = some (s ++ String.utf8EncodeChar c) := by
  have hb : isCharBoundary s s.length = true := by
    simp [isCharBoundary]
  simp only [insert, hb, if_true, List.take_length, List.drop_length, List.append_nil]

/-- Inserting a character at the end of a string's bytes gives the bytes of the string with
the character appended. -/
theorem insert_encode (line : List Char) (c : Char) :
    insert (encode line) (encode line).length c = some (encode (line ++ [c])) := by
  rw [insert_length, encode_append]
  simp [encode]

/-- Removing at the last index of an ASCII string drops its last character. -/
theorem remove_last_of_ascii {line : List Char} (h : ∀ c ∈ line, IsAscii c) (hne : line ≠ []) :
    remove (encode line) (line.length - 1) = some (encode line.dropLast) := by
  have hlen := length_encode_of_ascii h
  have hpos : 0 < line.length := List.length_pos_iff.mpr hne
  have hidx : line.length - 1 < (encode line).length := by omega
  have hb : isCharBoundary (encode line) (line.length - 1) = true :=
    isCharBoundary_of_ascii (lt_of_mem_encode h) (by omega)
  -- the last byte is ASCII, so the character it starts is that byte alone
  have hw : widthOfLead (encode line)[line.length - 1] = 1 := by
    have := lt_of_mem_encode h _ (List.getElem_mem hidx)
    simp only [widthOfLead, this, if_true]
  have hdrop : ∀ c ∈ line.dropLast, IsAscii c := fun c hc => h c (List.mem_of_mem_dropLast hc)
  simp only [remove, hb, if_true, List.getElem?_eq_getElem hidx, Option.map_some, hw]
  rw [show line.length - 1 + 1 = (encode line).length by omega, List.drop_length,
    List.append_nil, encode_of_ascii hdrop, List.dropLast_eq_take, List.map_take,
    encode_of_ascii h]

end Beskar.Lib.StringBytes
