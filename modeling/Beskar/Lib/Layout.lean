import Mathlib
import Beskar.Lib.Slice

/-!
# Buffers Cut into Fields

A packet header is a run of fields of fixed lengths, its *layout*: a list of lengths,
field `k` starting at the sum of the lengths before it (`fieldOffset`).  A buffer holding
such a header is `fs.flatten ++ rest`, where the fields `fs` fill the layout (`Fills`).
On such a buffer a range read or write at the offset of field `k` is a read or a write of
field `k` itself, whatever the other fields hold: the setters and getters of a codec are
then proved correct by citing one lemma, with the offsets computed from the layout.

Fields hold numbers in network byte order: `toBeBytes n v` is `v.to_be_bytes()` for an
`n`-byte integer, the inverse of `fromBeBytes` both ways round.

## Main results

- `copyFromSlice_field`, `store_field`: a write at the offset of a field replaces it.
- `sliceRange_field`, `getElem?_field`: a read at the offset of a field returns it.
- `cutFields_flatten_append`: every buffer long enough for a layout is cut into its fields.
- `fromBeBytes_toBeBytes`, `toBeBytes_fromBeBytes`: big-endian encoding round trips.
-/

namespace Beskar.Lib

universe u

variable {α : Type u}

/-! ## §1 Layouts and Fields -/

/-- Where field `k` of a layout starts: after the fields before it. -/
def fieldOffset (layout : List Nat) (k : Nat) : Nat := (layout.take k).sum

/-- The fields `fs` fill `layout`: one field for each entry, as long as the entry. -/
def Fills (layout : List Nat) (fs : List (List α)) : Prop := fs.map List.length = layout

/-- The fields of `buf` cut by `layout`, from the front. -/
def cutFields : List Nat → List α → List (List α)
  | [], _ => []
  | n :: layout, buf => buf.take n :: cutFields layout (buf.drop n)

/-- A list of fields, flattened, is the fields before `k`, field `k`, and those after. -/
theorem flatten_eq_of_getElem? {fs : List (List α)} {k : Nat} {f : List α}
    (hk : fs[k]? = some f) : fs.flatten = (fs.take k).flatten ++ (f ++ (fs.drop (k + 1)).flatten) := by
  obtain ⟨hlt, rfl⟩ := List.getElem?_eq_some_iff.mp hk
  conv_lhs => rw [← List.take_append_drop k fs, List.drop_eq_getElem_cons hlt]
  rw [List.flatten_append, List.flatten_cons]

/-- Replacing field `k` changes only the middle part. -/
theorem flatten_set_of_lt {fs : List (List α)} {k : Nat} (hk : k < fs.length) (src : List α) :
    (fs.set k src).flatten = (fs.take k).flatten ++ (src ++ (fs.drop (k + 1)).flatten) := by
  rw [List.set_eq_take_append_cons_drop, if_pos hk, List.flatten_append, List.flatten_cons]

namespace Fills

variable {layout : List Nat} {fs : List (List α)}

theorem length_eq (hf : Fills layout fs) : fs.length = layout.length := by
  rw [← hf, List.length_map]

/-- The fields before `k` are as long as the offset of field `k`. -/
theorem length_flatten_take (hf : Fills layout fs) (k : Nat) :
    (fs.take k).flatten.length = fieldOffset layout k := by
  rw [List.length_flatten, List.map_take, hf, fieldOffset]

theorem length_flatten (hf : Fills layout fs) : fs.flatten.length = layout.sum := by
  rw [List.length_flatten, hf]

/-- Field `k` of a filling is there, with the length the layout gives it. -/
theorem getElem? (hf : Fills layout fs) {k n : Nat} (hk : layout[k]? = some n) :
    ∃ f, fs[k]? = some f ∧ f.length = n := by
  rw [← hf, List.getElem?_map] at hk
  cases hfk : fs[k]? with
  | none => simp [hfk] at hk
  | some f =>
    rw [hfk, Option.map_some, Option.some.injEq] at hk
    exact ⟨f, rfl, hk⟩

/-- A field replaced by one of the same length still fills the layout. -/
theorem set (hf : Fills layout fs) {k n : Nat} (hk : layout[k]? = some n) {src : List α}
    (hs : src.length = n) : Fills layout (fs.set k src) := by
  unfold Fills
  rw [List.map_set, hf, hs]
  obtain ⟨hlt, rfl⟩ := List.getElem?_eq_some_iff.mp hk
  exact List.set_getElem_self hlt

end Fills

/-- A buffer long enough for a layout is cut into fields that fill it. -/
theorem fills_cutFields (layout : List Nat) {buf : List α} (h : layout.sum ≤ buf.length) :
    Fills layout (cutFields layout buf) := by
  induction layout generalizing buf with
  | nil => rfl
  | cons n layout ih =>
    rw [List.sum_cons] at h
    have hrest : layout.sum ≤ (buf.drop n).length := by
      rw [List.length_drop]
      omega
    unfold Fills at ih ⊢
    rw [cutFields, List.map_cons, ih hrest, List.length_take, Nat.min_eq_left (by omega)]

/-- The fields cut from a buffer, put back, are the buffer's first `layout.sum` bytes. -/
theorem flatten_cutFields (layout : List Nat) (buf : List α) :
    (cutFields layout buf).flatten = buf.take layout.sum := by
  induction layout generalizing buf with
  | nil => rfl
  | cons n layout ih =>
    rw [cutFields, List.flatten_cons, ih, List.sum_cons, List.take_add]

/-- **Every buffer is its header's fields followed by the rest.** -/
theorem cutFields_flatten_append (layout : List Nat) (buf : List α) :
    buf = (cutFields layout buf).flatten ++ buf.drop layout.sum := by
  rw [flatten_cutFields, List.take_append_drop]

/-! ## §2 Reading and Writing a Field

The offset and the end of a field are hypotheses, so that a lemma applies to the
literal range the code writes, the layout arithmetic closed by `rfl`. -/

section Access

variable {layout : List Nat} {fs : List (List α)} {rest : List α} {k n a b : Nat}

/-- **A write at the offset of field `k` replaces field `k`.** -/
theorem copyFromSlice_field (hf : Fills layout fs) (hk : layout[k]? = some n)
    (ha : fieldOffset layout k = a) (hb : a + n = b) {src : List α} (hs : src.length = n) :
    copyFromSlice (fs.flatten ++ rest) a b src = some ((fs.set k src).flatten ++ rest) := by
  obtain ⟨f, hfk, hfn⟩ := hf.getElem? hk
  have hlt : k < fs.length := (List.getElem?_eq_some_iff.mp hfk).1
  rw [flatten_eq_of_getElem? hfk, flatten_set_of_lt hlt, List.append_assoc, List.append_assoc,
    List.append_assoc, List.append_assoc]
  exact copyFromSlice_append_of (hf.length_flatten_take k ▸ ha) (by omega) (by omega)

/-- **A read of the range of field `k` returns field `k`.** -/
theorem sliceRange_field (hf : Fills layout fs) (hk : layout[k]? = some n)
    (ha : fieldOffset layout k = a) (hb : a + n = b) :
    sliceRange (fs.flatten ++ rest) a b = fs[k]? := by
  obtain ⟨f, hfk, hfn⟩ := hf.getElem? hk
  rw [hfk, flatten_eq_of_getElem? hfk, List.append_assoc, List.append_assoc]
  exact sliceRange_append_of (hf.length_flatten_take k ▸ ha) (by omega)

/-- A big-endian read of the range of field `k` decodes field `k`. -/
theorem readBe_field {fs : List (List UInt8)} {rest : List UInt8} (hf : Fills layout fs)
    (hk : layout[k]? = some n) (ha : fieldOffset layout k = a) (hb : a + n = b) :
    readBe (fs.flatten ++ rest) a b = fs[k]?.map fromBeBytes := by
  rw [readBe, sliceRange_field hf hk ha hb]

/-- A read of the first byte of a non-empty field `k`. -/
theorem getElem?_field (hf : Fills layout fs) (hk : layout[k]? = some n) (hn : 0 < n)
    (ha : fieldOffset layout k = a) :
    (fs.flatten ++ rest)[a]? = fs[k]?.bind (·[0]?) := by
  obtain ⟨f, hfk, hfn⟩ := hf.getElem? hk
  rw [hfk, flatten_eq_of_getElem? hfk, List.append_assoc, List.append_assoc]
  exact getElem?_append_of (hf.length_flatten_take k ▸ ha) (by omega)

/-- A store at the offset of a one-byte field replaces it. -/
theorem store_field (hf : Fills layout fs) (hk : layout[k]? = some 1)
    (ha : fieldOffset layout k = a) (v : α) :
    store (fs.flatten ++ rest) a v = some ((fs.set k [v]).flatten ++ rest) := by
  rw [store_eq_copyFromSlice]
  exact copyFromSlice_field hf hk ha rfl rfl

/-- The bytes after the header. -/
theorem sliceFrom_fills (hf : Fills layout fs) (ha : layout.sum = a) :
    sliceFrom (fs.flatten ++ rest) a = some rest := by
  rw [sliceFrom_of_le (by simp [hf.length_flatten, ha]), List.drop_left' (hf.length_flatten.trans ha)]

/-- The whole header, `&data[..header_len]`. -/
theorem sliceRange_fills (hf : Fills layout fs) (ha : layout.sum = a) :
    sliceRange (fs.flatten ++ rest) 0 a = some fs.flatten := by
  have h : sliceRange ([] ++ (fs.flatten ++ rest)) 0 a = some fs.flatten :=
    sliceRange_append_of rfl (by rw [Nat.zero_add, hf.length_flatten, ha])
  rwa [List.nil_append] at h

theorem length_flatten_append (hf : Fills layout fs) :
    (fs.flatten ++ rest).length = layout.sum + rest.length := by
  rw [List.length_append, hf.length_flatten]

/-- A buffer that starts with the fields holds the whole header. -/
theorem le_length_flatten_append (hf : Fills layout fs) (ha : layout.sum = a) :
    a ≤ (fs.flatten ++ rest).length := by
  rw [length_flatten_append hf, ha]
  exact Nat.le_add_right _ _

end Access

/-! ## §3 Big-Endian Numbers -/

/-- `v.to_be_bytes()` for an `n`-byte integer `v`: its bytes, most significant first. -/
def toBeBytes : Nat → Nat → List UInt8
  | 0, _ => []
  | n + 1, v => toBeBytes n (v / 256) ++ [v.toUInt8]

@[simp] theorem length_toBeBytes (n v : Nat) : (toBeBytes n v).length = n := by
  induction n generalizing v with
  | zero => rfl
  | succ n ih => rw [toBeBytes, List.length_append, ih, List.length_singleton]

theorem fromBeBytes_append_singleton (bytes : List UInt8) (b : UInt8) :
    fromBeBytes (bytes ++ [b]) = fromBeBytes bytes * 256 + b.toNat := by
  rw [fromBeBytes, List.foldl_append, List.foldl_cons, List.foldl_nil, ← fromBeBytes]

/-- **Decoding the bytes of a number gives the number**, cut to `n` bytes. -/
theorem fromBeBytes_toBeBytes (n v : Nat) : fromBeBytes (toBeBytes n v) = v % 256 ^ n := by
  induction n generalizing v with
  | zero => simp [toBeBytes, fromBeBytes, Nat.mod_one]
  | succ n ih =>
    have hlow : v.toUInt8.toNat = v % 256 := UInt8.toNat_ofNat'
    -- `v` is its low byte plus `256` times the rest
    rw [toBeBytes, fromBeBytes_append_singleton, ih, hlow, Nat.pow_succ', Nat.mod_mul,
      Nat.add_comm, Nat.mul_comm]

/-- **Encoding a decoded string of `n` bytes gives the string back.** -/
theorem toBeBytes_fromBeBytes {bytes : List UInt8} {n : Nat} (h : bytes.length = n) :
    toBeBytes n (fromBeBytes bytes) = bytes := by
  -- the last byte is the low digit, so the induction takes the bytes from the end
  induction bytes using List.reverseRecOn generalizing n with
  | nil =>
    subst h
    rfl
  | append_singleton bytes b ih =>
    subst h
    have hb : b.toNat < 256 := b.toNat_lt
    rw [List.length_append, List.length_singleton, toBeBytes, fromBeBytes_append_singleton,
      Nat.mul_comm, Nat.mul_add_div (by decide), Nat.div_eq_of_lt hb, Nat.add_zero, ih rfl]
    congr
    apply UInt8.toNat.inj
    rw [UInt8.toNat_ofNat', show 2 ^ 8 = 256 from rfl, Nat.mul_add_mod, Nat.mod_eq_of_lt hb]

/-- A number of `n` bytes read back from its bytes. -/
theorem fromBeBytes_toBeBytes_of_lt {n v : Nat} (h : v < 256 ^ n) :
    fromBeBytes (toBeBytes n v) = v := by
  rw [fromBeBytes_toBeBytes, Nat.mod_eq_of_lt h]

/-- `n` bytes read as a big-endian number fit `n` bytes. -/
theorem fromBeBytes_lt (bytes : List UInt8) : fromBeBytes bytes < 256 ^ bytes.length := by
  have h := fromBeBytes_toBeBytes bytes.length (fromBeBytes bytes)
  rw [toBeBytes_fromBeBytes rfl] at h
  calc fromBeBytes bytes = fromBeBytes bytes % 256 ^ bytes.length := h
    _ < 256 ^ bytes.length := Nat.mod_lt _ (Nat.pow_pos (by decide))

/-- A field of the bytes `a..b` fits `b - a` bytes. -/
theorem beField_lt (data : List UInt8) (a b : Nat) : beField data a b < 256 ^ (b - a) := by
  have hlen : ((data.drop a).take (b - a)).length ≤ b - a := List.length_take_le _ _
  exact Nat.lt_of_lt_of_le (fromBeBytes_lt _) (Nat.pow_le_pow_right (by decide) hlen)

end Beskar.Lib
