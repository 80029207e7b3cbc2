import Mathlib
import Beskar.Lib.Slice

/-!
# Words in Byte Memory

`u64` words in the byte memory of `Lib.Slice`, stored little-endian as a `mov` or a
`push` of a 64-bit register stores them.  Three facts carry every proof about such stores:
a read depends only on its eight bytes (`readWord_congr`), a store reads back
(`readWord_writeWord_self`), and a store leaves every byte outside its eight as it was
(`eqOn_writeWord`).  Agreement outside a set of addresses is Mathlib's `Set.EqOn` on the
complement, so frames compose with `Set.EqOn.trans` and `Set.EqOn.mono`.

Runs of words come after:

- `readWords m a n` reads the `n` words from `a` on, as the fields of a `repr(C)` record
  of `u64`s are laid out;
- `pushWords m top vs` stores the words of `vs` one below the other from `top` down, as a
  sequence of pushes onto a descending stack does;
- `readWords_pushWords`: a pushed run reads back from its lowest address in reverse order;
- `readWords_writeBytes_flatMap`: the byte image of a record, copied into memory, reads
  back field by field.

Nothing here mentions a particular program.
-/

namespace Beskar.Lib

namespace Memory

/-! ## §1 One Word -/

/-- The little-endian `u64` at `a`. -/
def readWord (m : Memory) (a : Nat) : Nat :=
  fromLeBytes ((List.range 8).map fun i => m (a + i))

/-- A store of the `u64` `v` at `a`. -/
def writeWord (m : Memory) (a v : Nat) : Memory :=
  m.writeBytes a (leBytes v)

variable {m m' : Memory} {a b k v : Nat}

/-- A read sees only its eight bytes. -/
theorem readWord_congr (h : Set.EqOn m m' (Set.Ico a (a + 8))) : m.readWord a = m'.readWord a := by
  unfold readWord
  congr 1
  refine List.map_congr_left fun i hi => h ?_
  have hi8 : i < 8 := List.mem_range.mp hi
  simp only [Set.mem_Ico]
  omega

/-- A store changes no byte outside its eight. -/
theorem eqOn_writeWord : Set.EqOn (m.writeWord a v) m (Set.Ico a (a + 8))ᶜ := by
  intro x hx
  simp only [Set.mem_compl_iff, Set.mem_Ico, not_and_or, not_le, not_lt] at hx
  exact Memory.writeBytes_outside (by rw [length_leBytes]; omega)

/-- The word at `a + k` of a copied buffer is the little-endian field at `k` of the buffer. -/
theorem readWord_writeBytes {data : List UInt8} (h : k + 8 ≤ data.length) :
    (m.writeBytes a data).readWord (a + k) = leField data k 8 := by
  unfold readWord leField
  congr 1
  apply List.ext_getElem (by simp; omega)
  intro i h₁ h₂
  have hi : i < 8 := by simpa using h₁
  rw [List.getElem_map, List.getElem_range, Memory.writeBytes_inside (by omega) (by omega),
    List.getElem_take, List.getElem_drop, List.getD_eq_getElem _ _ (by omega)]
  congr 1
  omega

/-- The field of a buffer that holds the bytes of a word at that place is the word. -/
theorem leField_append_leBytes {pre post : List UInt8} (hv : v < 2 ^ 64) :
    leField (pre ++ leBytes v ++ post) pre.length 8 = v := by
  rw [leField, List.append_assoc, List.drop_left, List.take_left' (length_leBytes v),
    fromLeBytes_leBytes hv]

/-- A stored word reads back. -/
theorem readWord_writeWord_self (hv : v < 2 ^ 64) : (m.writeWord a v).readWord a = v := by
  have h : (m.writeBytes a ([] ++ leBytes v ++ [])).readWord (a + ([] : List UInt8).length) = v := by
    rw [readWord_writeBytes (by simp), leField_append_leBytes hv]
  simpa [writeWord] using h

/-! ## §2 Runs of Words -/

/-- The `n` words from `a` on. -/
def readWords (m : Memory) (a n : Nat) : List Nat :=
  (List.range n).map fun i => m.readWord (a + 8 * i)

/-- The words of `vs` stored one below the other from `top` down, the first at `top - 8`:
what a sequence of pushes of `vs` from stack pointer `top` stores. -/
def pushWords (m : Memory) (top : Nat) : List Nat → Memory
  | [] => m
  | v :: vs => pushWords (m.writeWord (top - 8) v) (top - 8) vs

@[simp] theorem length_readWords (m : Memory) (a n : Nat) : (m.readWords a n).length = n := by
  simp [readWords]

theorem readWords_succ (m : Memory) (a n : Nat) :
    m.readWords a (n + 1) = m.readWord a :: m.readWords (a + 8) n := by
  rw [readWords, readWords, List.range_succ_eq_map, List.map_cons, List.map_map]
  -- the head `a + 8 * 0` is `a` by computation; the tail is shifted by one word
  congr 1
  refine List.map_congr_left fun i _ => ?_
  simp only [Function.comp_apply]
  congr 1
  omega

theorem readWords_succ' (m : Memory) (a n : Nat) :
    m.readWords a (n + 1) = m.readWords a n ++ [m.readWord (a + 8 * n)] := by
  simp [readWords, List.range_succ]

theorem getElem_readWords {n i : Nat} (h : i < (m.readWords a n).length) :
    (m.readWords a n)[i] = m.readWord (a + 8 * i) := by
  simp [readWords]

theorem readWords_take {n k : Nat} (h : k ≤ n) : (m.readWords a n).take k = m.readWords a k := by
  rw [readWords, readWords, ← List.map_take, List.take_range, Nat.min_eq_left h]

/-- A run of reads sees only the bytes of its words. -/
theorem readWords_congr {n : Nat} (h : Set.EqOn m m' (Set.Ico a (a + 8 * n))) :
    m.readWords a n = m'.readWords a n := by
  unfold readWords
  refine List.map_congr_left fun i hi => readWord_congr (h.mono fun x hx => ?_)
  have hin : i < n := List.mem_range.mp hi
  simp only [Set.mem_Ico] at hx ⊢
  omega

/-- Pushes change no byte outside the stack range they fill. -/
theorem eqOn_pushWords {top : Nat} {vs : List Nat} (h : 8 * vs.length ≤ top) :
    Set.EqOn (pushWords m top vs) m (Set.Ico (top - 8 * vs.length) top)ᶜ := by
  induction vs generalizing m top with
  | nil => exact fun _ _ => rfl
  | cons v vs ih =>
    simp only [List.length_cons] at h
    intro x hx
    simp only [Set.mem_compl_iff, Set.mem_Ico, not_and_or, not_le, not_lt,
      List.length_cons] at hx
    rw [pushWords, ih (by omega) (by simp only [Set.mem_compl_iff, Set.mem_Ico]; omega)]
    exact eqOn_writeWord (by simp only [Set.mem_compl_iff, Set.mem_Ico]; omega)

/-- **Pushes read back**: from the final stack pointer up, the pushed words come back in
the reverse of the order they were pushed in. -/
theorem readWords_pushWords {top : Nat} {vs : List Nat} (h : 8 * vs.length ≤ top)
    (hvs : ∀ v ∈ vs, v < 2 ^ 64) :
    (pushWords m top vs).readWords (top - 8 * vs.length) vs.length = vs.reverse := by
  induction vs generalizing m top with
  | nil => rfl
  | cons v vs ih =>
    simp only [List.length_cons] at h
    have hv : v < 2 ^ 64 := hvs v List.mem_cons_self
    have hrest : (pushWords (m.writeWord (top - 8) v) (top - 8) vs).readWords
        (top - 8 - 8 * vs.length) vs.length = vs.reverse :=
      ih (by omega) fun w hw => hvs w (List.mem_cons_of_mem v hw)
    -- the first push sits at `top - 8`, above everything the later pushes store
    have hfirst : (pushWords (m.writeWord (top - 8) v) (top - 8) vs).readWord (top - 8) = v := by
      have hkeep : (pushWords (m.writeWord (top - 8) v) (top - 8) vs).readWord (top - 8) =
          (m.writeWord (top - 8) v).readWord (top - 8) := by
        refine readWord_congr ((eqOn_pushWords (by omega)).mono fun x hx => ?_)
        simp only [Set.mem_Ico] at hx
        simp only [Set.mem_compl_iff, Set.mem_Ico]
        omega
      rw [hkeep, readWord_writeWord_self hv]
    have hlow : top - 8 * (vs.length + 1) = top - 8 - 8 * vs.length := by omega
    have hhigh : top - 8 - 8 * vs.length + 8 * vs.length = top - 8 := by omega
    rw [List.length_cons, pushWords, readWords_succ', hlow, hrest, hhigh, hfirst,
      List.reverse_cons]

/-- **A record's bytes read back**: the words whose byte images are copied one after the
other into memory read back, each at its offset. -/
theorem readWords_writeBytes_flatMap {pre post : List UInt8} {ws : List Nat}
    (hws : ∀ w ∈ ws, w < 2 ^ 64) :
    (m.writeBytes a (pre ++ ws.flatMap leBytes ++ post)).readWords (a + pre.length) ws.length =
      ws := by
  induction ws generalizing pre with
  | nil => rfl
  | cons w ws ih =>
    have hw : w < 2 ^ 64 := hws w List.mem_cons_self
    have hdata : pre ++ (w :: ws).flatMap leBytes ++ post =
        (pre ++ leBytes w) ++ ws.flatMap leBytes ++ post := by
      simp [List.flatMap_cons, List.append_assoc]
    have hfirst : (m.writeBytes a (pre ++ (w :: ws).flatMap leBytes ++ post)).readWord
        (a + pre.length) = w := by
      rw [readWord_writeBytes (by simp), hdata, List.append_assoc (pre ++ leBytes w),
        leField_append_leBytes hw]
    have hrest : (m.writeBytes a ((pre ++ leBytes w) ++ ws.flatMap leBytes ++ post)).readWords
        (a + (pre ++ leBytes w).length) ws.length = ws :=
      ih fun u hu => hws u (List.mem_cons_of_mem w hu)
    rw [List.length_append, length_leBytes, ← Nat.add_assoc, ← hdata] at hrest
    rw [List.length_cons, readWords_succ, hfirst, hrest]

end Memory

end Beskar.Lib
