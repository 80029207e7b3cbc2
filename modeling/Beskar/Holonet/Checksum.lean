import Beskar.Lib.Checked
import Beskar.Lib.OnesComplement

/-!
# Holonet: the Internet Checksum

Model of `utils::checksum` (`kernel/foundry/holonet/src/utils.rs`).  The function adds
the buffer's 16-bit big-endian words into a `u32` with `wrapping_add`, folds the carries
back into the low sixteen bits (`while sum >> 16 > 0`), and returns the complement.

A sender fills the checksum word of a header with the checksum computed while the word
is zero.  The receiver's check is that the checksum of the filled header is zero: the
filled sum is the old sum plus its own folded complement, which folds to `0xFFFF`.

## Main results

- `foldCarries_lt`, `foldCarries_mod`, `foldCarries_pos`: the carry loop ends below
  `2^16`, with the residue of the sum modulo `2^16 - 1`, and non-zero for a non-zero sum.
- `checksum_eq_onesSum`: on a buffer that does not wrap the `u32`, the checksum is the
  complement of the one's complement sum of the words.
- `checksumWithPseudo_eq`: the pseudo-header variant is the checksum of the concatenation.
- `checksum_verifies`, `verifies_of_fill`: a buffer whose checksum word holds the checksum
  computed with the word zero has checksum zero.
-/

namespace Beskar.Holonet

open Beskar.Lib

/-! ## §1 The Two Loops -/

/-- The first loop of `checksum`: the words `u16::from_be_bytes([buffer[i], buffer[i + 1]])`,
an odd last byte padded with zero, added to `sum` with `u32::wrapping_add`. -/
def sumWords : List UInt8 → Nat → Nat
  | a :: b :: rest, sum => sumWords rest (addWrapping 32 sum (fromBeBytes [a, b]))
  | [a], sum => addWrapping 32 sum (fromBeBytes [a, 0])
  | [], sum => sum

/-- One round of the second loop: `sum >> 16 > 0` is a carry. -/
theorem shiftRight_sixteen_pos_iff (sum : Nat) : sum >>> 16 > 0 ↔ 2 ^ 16 ≤ sum := by
  rw [Nat.shiftRight_eq_div_pow, gt_iff_lt, Nat.div_pos_iff]
  exact ⟨fun h => h.2, fun h => ⟨Nat.two_pow_pos 16, h⟩⟩

/-- The body of the second loop is the end-around carry. -/
theorem carry_eq (sum : Nat) : (sum &&& 0xFFFF) + (sum >>> 16) = sum % 2 ^ 16 + sum / 2 ^ 16 := by
  rw [show (0xFFFF : Nat) = 2 ^ 16 - 1 from rfl, Nat.and_two_pow_sub_one_eq_mod,
    Nat.shiftRight_eq_div_pow]

/-- The second loop: `while sum >> 16 > 0 { sum = (sum & 0xFFFF) + (sum >> 16) }`. -/
def foldCarries (sum : Nat) : Nat :=
  if sum >>> 16 > 0 then foldCarries ((sum &&& 0xFFFF) + (sum >>> 16)) else sum
termination_by sum
decreasing_by
  -- a round takes a sum with a carry to a smaller one
  rename_i h
  rw [carry_eq]
  exact mod_add_div_lt 65535 (by decide) ((shiftRight_sixteen_pos_iff sum).mp h)

/-- `utils::checksum`: the complement of the folded sum.  `u16::try_from(sum).unwrap()`
cannot panic, since the loop leaves `sum < 2^16` (`foldCarries_lt`). -/
def checksum (buffer : List UInt8) : UInt16 :=
  ~~~(foldCarries (sumWords buffer 0)).toUInt16

/-! ## §2 What the Loops Compute -/

/-- **The first loop is the sum of the words modulo `2^32`.** -/
theorem sumWords_eq (l : List UInt8) {sum : Nat} (hs : sum < 2 ^ 32) :
    sumWords l sum = (sum + wordTotal l) % 2 ^ 32 := by
  induction l, sum using sumWords.induct with
  | case1 a b rest sum ih =>
    have hword : fromBeBytes [a, b] = a.toNat * 256 + b.toNat := by simp [fromBeBytes]
    rw [sumWords, ih (Nat.mod_lt _ (by decide)), addWrapping, Nat.mod_add_mod, hword,
      wordTotal_cons_cons, Nat.add_assoc]
  | case2 a sum =>
    have hword : fromBeBytes [a, 0] = a.toNat * 256 := by simp [fromBeBytes]
    rw [sumWords, addWrapping, hword, wordTotal]
  | case3 sum => rw [sumWords, wordTotal, Nat.add_zero, Nat.mod_eq_of_lt hs]

theorem foldCarries_of_lt {sum : Nat} (h : sum < 2 ^ 16) : foldCarries sum = sum := by
  rw [foldCarries, if_neg (fun hc => absurd ((shiftRight_sixteen_pos_iff sum).mp hc) (by omega))]

theorem foldCarries_of_le {sum : Nat} (h : 2 ^ 16 ≤ sum) :
    foldCarries sum = foldCarries (sum % 2 ^ 16 + sum / 2 ^ 16) := by
  rw [foldCarries, if_pos ((shiftRight_sixteen_pos_iff sum).mpr h), carry_eq]

/-- The loop leaves no carry, so the `unwrap` never panics. -/
theorem foldCarries_lt (sum : Nat) : foldCarries sum < 2 ^ 16 := by
  induction sum using Nat.strong_induction_on with
  | _ sum ih =>
    by_cases h : 2 ^ 16 ≤ sum
    · rw [foldCarries_of_le h]
      exact ih _ (mod_add_div_lt 65535 (by decide) h)
    · rw [foldCarries_of_lt (by omega)]
      omega

/-- The loop keeps the residue of the sum modulo `2^16 - 1`. -/
theorem foldCarries_mod (sum : Nat) : foldCarries sum % 65535 = sum % 65535 := by
  induction sum using Nat.strong_induction_on with
  | _ sum ih =>
    by_cases h : 2 ^ 16 ≤ sum
    · rw [foldCarries_of_le h,
        ih (sum % 2 ^ 16 + sum / 2 ^ 16) (mod_add_div_lt 65535 (by decide) h)]
      exact mod_add_div_mod 65535 sum
    · rw [foldCarries_of_lt (by omega)]

/-- A non-zero sum folds to a non-zero one. -/
theorem foldCarries_pos {sum : Nat} (hs : 0 < sum) : 0 < foldCarries sum := by
  induction sum using Nat.strong_induction_on with
  | _ sum ih =>
    by_cases h : 2 ^ 16 ≤ sum
    · rw [foldCarries_of_le h]
      exact ih _ (mod_add_div_lt 65535 (by decide) h) (mod_add_div_pos 65535 hs)
    · rw [foldCarries_of_lt (by omega)]
      exact hs

/-- **A sum plus its folded complement folds to `0xFFFF`**, the one's complement zero. -/
theorem foldCarries_add_complement (sum : Nat) :
    foldCarries (sum + (65535 - foldCarries sum)) = 65535 := by
  have hlt := foldCarries_lt sum
  have hmod := foldCarries_mod sum
  -- the new sum is a non-zero multiple of `2^16 - 1`, and so is what it folds to
  have hpos : 0 < sum + (65535 - foldCarries sum) := by
    rcases Nat.eq_zero_or_pos sum with h0 | h0
    · rw [h0, foldCarries_of_lt (by decide)]
      decide
    · omega
  have hlt' := foldCarries_lt (sum + (65535 - foldCarries sum))
  have hmod' := foldCarries_mod (sum + (65535 - foldCarries sum))
  have hpos' := foldCarries_pos hpos
  omega

/-- The loops compute the complement's argument: `checksum` as a number. -/
theorem toNat_checksum (l : List UInt8) :
    (checksum l).toNat = 65535 - foldCarries (sumWords l 0) := by
  have hlt := foldCarries_lt (sumWords l 0)
  rw [checksum, UInt16.toNat_not, UInt16.toNat_ofNat', Nat.mod_eq_of_lt hlt]
  rfl

/-- The checksum of nothing is `0xFFFF`. -/
theorem checksum_nil : checksum [] = 0xFFFF := by
  rw [checksum, sumWords, foldCarries_of_lt (by decide)]
  decide

/-- A checksum is zero exactly when the folded sum is `0xFFFF`. -/
theorem checksum_eq_zero_iff (l : List UInt8) :
    checksum l = 0 ↔ foldCarries (sumWords l 0) = 65535 := by
  have hlt := foldCarries_lt (sumWords l 0)
  have h := toNat_checksum l
  constructor
  · intro h0
    rw [h0] at h
    change 0 = 65535 - foldCarries (sumWords l 0) at h
    omega
  · intro hf
    apply UInt16.toNat.inj
    rw [h, hf]
    rfl

theorem foldCarries_pos_iff (sum : Nat) : 0 < foldCarries sum ↔ 0 < sum := by
  refine ⟨fun h => Nat.pos_of_ne_zero fun h0 => ?_, foldCarries_pos⟩
  rw [h0, foldCarries_of_lt (by decide)] at h
  exact Nat.lt_irrefl 0 h

/-- A non-zero sum folds to `0xFFFF`, the one's complement zero, exactly when it is a
multiple of `2^16 - 1`. -/
theorem foldCarries_eq_max_iff {sum : Nat} (hs : 0 < sum) :
    foldCarries sum = 65535 ↔ sum % 65535 = 0 := by
  have hlt := foldCarries_lt sum
  have hmod := foldCarries_mod sum
  have hpos := foldCarries_pos hs
  constructor
  · intro h
    rw [h] at hmod
    omega
  · intro h
    omega

/-- A `u32` sum plus its folded complement does not wrap: the complement of a sum near
`2^32` is small. -/
theorem add_complement_lt {sum : Nat} (hs : sum < 2 ^ 32) :
    sum + (65535 - foldCarries sum) < 2 ^ 32 := by
  have hlt := foldCarries_lt sum
  have hmod := foldCarries_mod sum
  rcases Nat.eq_zero_or_pos sum with h0 | h0
  · rw [h0, foldCarries_of_lt (by decide)]
    decide
  · -- a sum `2^32 - k` has the residue `1 - k`, so its complement is `k - 1`
    have hpos := foldCarries_pos h0
    omega

/-! ## §3 What the Checksum Is -/

/-- The folded sum of words below `2^16` is their one's complement sum. -/
theorem foldCarries_eq_onesSum {ws : List Nat} (hws : ∀ w ∈ ws, w ≤ 65535) :
    foldCarries ws.sum = onesSum 65535 ws :=
  eq_onesSum_of hws (Nat.le_of_lt_succ (foldCarries_lt ws.sum)) (foldCarries_mod ws.sum)
    (foldCarries_pos_iff ws.sum)

/-- The sum of a buffer that fits the `u32` without wrapping: no more than `2^16` words. -/
theorem sumWords_of_length_le {l : List UInt8} (h : l.length ≤ 2 ^ 17) :
    sumWords l 0 = wordTotal l := by
  have hle := wordTotal_le l
  have hwords : (l.length + 1) / 2 ≤ 2 ^ 16 := by omega
  have hsmall : wordTotal l < 2 ^ 32 :=
    Nat.lt_of_le_of_lt (Nat.le_trans hle (Nat.mul_le_mul_left 65535 hwords)) (by decide)
  rw [sumWords_eq l (by decide), Nat.zero_add, Nat.mod_eq_of_lt hsmall]

/-- **`checksum` is the complement of the one's complement sum of the words** of a buffer
that does not wrap the `u32`, no more than `2^17` bytes. -/
theorem checksum_eq_onesSum {l : List UInt8} (h : l.length ≤ 2 ^ 17) :
    checksum l = ~~~(onesSum 65535 (words l)).toUInt16 := by
  rw [checksum, sumWords_of_length_le h, wordTotal_eq_sum_words,
    foldCarries_eq_onesSum fun _ hw => le_of_mem_words hw]

/-- `utils::checksum_with_pseudo`: the first loop of `checksum` over the pseudo-header, the
same loop over the data from the sum it reached, then the carries. -/
def checksumWithPseudo (pseudoHeader data : List UInt8) : UInt16 :=
  ~~~(foldCarries (sumWords data (sumWords pseudoHeader 0))).toUInt16

/-- The first loop over a concatenation whose first part ends on a word boundary. -/
theorem sumWords_append {l₁ : List UInt8} (h : l₁.length % 2 = 0) (l₂ : List UInt8) (sum : Nat) :
    sumWords (l₁ ++ l₂) sum = sumWords l₂ (sumWords l₁ sum) := by
  induction l₁, sum using sumWords.induct with
  | case1 a b rest sum ih =>
    have hrest : rest.length % 2 = 0 := by
      rw [List.length_cons, List.length_cons] at h
      omega
    rw [List.cons_append, List.cons_append, sumWords, sumWords, ih hrest]
  | case2 a sum => simp at h
  | case3 sum => rw [List.nil_append, sumWords]

/-- **The pseudo-header checksum is the checksum of the concatenation**, for a pseudo-header
of even length. -/
theorem checksumWithPseudo_eq {pseudoHeader : List UInt8} (h : pseudoHeader.length % 2 = 0)
    (data : List UInt8) : checksumWithPseudo pseudoHeader data = checksum (pseudoHeader ++ data) := by
  rw [checksumWithPseudo, checksum, sumWords_append h]

/-! ## §4 A Filled Checksum Verifies -/

/-- The first loop over a buffer around one word, as a number. -/
theorem sumWords_word {pre post : List UInt8} (hpre : pre.length % 2 = 0) (w : Nat) :
    sumWords (pre ++ (toBeBytes 2 w ++ post)) 0 =
      (wordTotal pre + w % 2 ^ 16 + wordTotal post) % 2 ^ 32 := by
  rw [sumWords_eq _ (by decide), Nat.zero_add, wordTotal_append hpre,
    wordTotal_append (by simp), wordTotal_toBeBytes_two, Nat.add_assoc]

/-- **A checksum written into its zeroed word verifies.**  For a buffer of `pre`, a checksum
word and `post`, with the word on a word boundary: the checksum of the buffer holding the
checksum computed with the word zero is zero.  No length bound is needed: the `u32` wraps
the same way in both sums, and the second does not wrap past the first (`add_complement_lt`). -/
theorem checksum_verifies {pre post : List UInt8} (hpre : pre.length % 2 = 0) :
    checksum (pre ++ (toBeBytes 2 (checksum (pre ++ (toBeBytes 2 0 ++ post))).toNat ++ post)) =
      0 := by
  set total := (wordTotal pre + wordTotal post) % 2 ^ 32 with htotal
  have hlt : total < 2 ^ 32 := Nat.mod_lt _ (by decide)
  have hzero : (checksum (pre ++ (toBeBytes 2 0 ++ post))).toNat = 65535 - foldCarries total := by
    rw [toNat_checksum, sumWords_word hpre, Nat.zero_mod, Nat.add_zero]
  have hfilled : sumWords (pre ++ (toBeBytes 2 (65535 - foldCarries total) ++ post)) 0 =
      total + (65535 - foldCarries total) := by
    rw [sumWords_word hpre, Nat.mod_eq_of_lt (show 65535 - foldCarries total < 2 ^ 16 by omega),
      Nat.add_right_comm, Nat.add_mod, ← htotal,
      Nat.mod_eq_of_lt (show 65535 - foldCarries total < 2 ^ 32 by omega),
      Nat.mod_eq_of_lt (add_complement_lt hlt)]
  rw [checksum_eq_zero_iff, hzero, hfilled, foldCarries_add_complement]

/-- **The word `0xFFFF`, the other one's complement zero, verifies where `0` does**, in a
buffer that does not wrap the `u32`. -/
theorem checksum_max_verifies {pre post : List UInt8} (hpre : pre.length % 2 = 0)
    (hlen : pre.length + 2 + post.length ≤ 2 ^ 17) (h0 : checksum (pre ++ (toBeBytes 2 0 ++ post)) = 0) :
    checksum (pre ++ (toBeBytes 2 65535 ++ post)) = 0 := by
  have hlen' : ∀ w, (pre ++ (toBeBytes 2 w ++ post)).length ≤ 2 ^ 17 := by
    intro w
    simp only [List.length_append, length_toBeBytes]
    omega
  have hword : ∀ w, wordTotal (pre ++ (toBeBytes 2 w ++ post)) =
      wordTotal pre + w % 2 ^ 16 + wordTotal post := by
    intro w
    rw [wordTotal_append hpre, wordTotal_append (by simp), wordTotal_toBeBytes_two, Nat.add_assoc]
  rw [checksum_eq_zero_iff, sumWords_of_length_le (hlen' 0), hword] at h0
  -- the zeroed sum is a non-zero multiple of `2^16 - 1`, and so is the filled one
  have hpos : 0 < wordTotal pre + 0 % 2 ^ 16 + wordTotal post := by
    rw [← foldCarries_pos_iff, h0]
    decide
  have hmul := (foldCarries_eq_max_iff hpos).mp h0
  rw [checksum_eq_zero_iff, sumWords_of_length_le (hlen' _), hword,
    foldCarries_eq_max_iff (by omega)]
  omega

/-- A word `a..a+2` zeroed and then filled with `v`, seen through the first `n ≥ a + 2`
bytes behind an even prefix: the same bytes around the zero word and around `v`. -/
theorem fill_shape {pre data zeroed filled : List UInt8} {a n v : Nat} (hpre : pre.length % 2 = 0)
    (ha : a % 2 = 0) (hn : a + 2 ≤ n)
    (hz : copyFromSlice data a (a + 2) (toBeBytes 2 0) = some zeroed)
    (hf : copyFromSlice zeroed a (a + 2) (toBeBytes 2 v) = some filled) :
    ∃ front back, front.length % 2 = 0 ∧ pre ++ zeroed.take n = front ++ (toBeBytes 2 0 ++ back) ∧
      pre ++ filled.take n = front ++ (toBeBytes 2 v ++ back) := by
  obtain ⟨⟨-, hlen, -⟩, rfl⟩ := copyFromSlice_eq_some_iff.mp hz
  obtain ⟨-, rfl⟩ := copyFromSlice_eq_some_iff.mp hf
  have htake : (data.take a).length = a := by
    rw [List.length_take]
    omega
  -- the word sits after `a` bytes of `data`, and the first `n` bytes end past it
  have hview : ∀ w : Nat, (data.take a ++ toBeBytes 2 w ++ data.drop (a + 2)).take n =
      data.take a ++ (toBeBytes 2 w ++ (data.drop (a + 2)).take (n - (a + 2))) := by
    intro w
    rw [List.append_assoc, List.take_append, List.take_of_length_le (l := data.take a)
      (by rw [htake]; omega), htake, List.take_append,
      List.take_of_length_le (l := toBeBytes 2 w) (by rw [length_toBeBytes]; omega),
      length_toBeBytes, Nat.sub_sub]
  refine ⟨pre ++ data.take a, (data.drop (a + 2)).take (n - (a + 2)), ?_, ?_, ?_⟩
  · rw [List.length_append, htake]
    omega
  · rw [hview, List.append_assoc]
  · have hfront : (data.take a ++ toBeBytes 2 0 ++ data.drop (a + 2)).take a = data.take a := by
      rw [List.append_assoc, List.take_left' htake]
    have hback : (data.take a ++ toBeBytes 2 0 ++ data.drop (a + 2)).drop (a + 2) =
        data.drop (a + 2) :=
      List.drop_left' (by rw [List.length_append, htake, length_toBeBytes])
    rw [hfront, hback, hview, List.append_assoc]

/-- **`fill_checksum` verifies**, for a word `a..a+2` inside the first `n` bytes of a buffer
behind an even prefix: zero the word, write the checksum of the prefix and those bytes,
and the checksum of the prefix and those bytes is zero. -/
theorem verifies_of_fill {pre data zeroed filled : List UInt8} {a n : Nat}
    (hpre : pre.length % 2 = 0) (ha : a % 2 = 0) (hn : a + 2 ≤ n)
    (hz : copyFromSlice data a (a + 2) (toBeBytes 2 0) = some zeroed)
    (hf : copyFromSlice zeroed a (a + 2)
      (toBeBytes 2 (checksum (pre ++ zeroed.take n)).toNat) = some filled) :
    checksum (pre ++ filled.take n) = 0 := by
  obtain ⟨front, back, hfront, hzero, hfill⟩ := fill_shape hpre ha hn hz hf
  rw [hfill, hzero]
  exact checksum_verifies hfront

/-- Over the whole buffer: a write keeps the length, so the first `data.length` bytes are
all of them. -/
theorem take_length_of_fill {data zeroed filled src src' : List UInt8} {a b : Nat}
    (hz : copyFromSlice data a b src = some zeroed) (hf : copyFromSlice zeroed a b src' = some filled) :
    zeroed.take data.length = zeroed ∧ filled.take data.length = filled := by
  have hz' := length_of_copyFromSlice_eq_some hz
  have hf' := length_of_copyFromSlice_eq_some hf
  exact ⟨List.take_of_length_le (by omega), List.take_of_length_le (by omega)⟩

/-- `verifies_of_fill` for a checksum over the whole buffer. -/
theorem verifies_of_fill_whole {pre data zeroed filled : List UInt8} {a : Nat}
    (hpre : pre.length % 2 = 0) (ha : a % 2 = 0)
    (hz : copyFromSlice data a (a + 2) (toBeBytes 2 0) = some zeroed)
    (hf : copyFromSlice zeroed a (a + 2) (toBeBytes 2 (checksum (pre ++ zeroed)).toNat) =
      some filled) :
    checksum (pre ++ filled) = 0 := by
  have hn : a + 2 ≤ data.length := (copyFromSlice_eq_some_iff.mp hz).1.2.1
  obtain ⟨hzt, hft⟩ := take_length_of_fill hz hf
  have h := verifies_of_fill hpre ha hn hz (by rwa [hzt])
  rwa [hft] at h

/-- **`fill_checksum` with a zero checksum sent as `0xFFFF` verifies too**, over a whole
buffer that with the prefix does not wrap the `u32`. -/
theorem verifies_of_fill_max {pre data zeroed filled : List UInt8} {a : Nat}
    (hpre : pre.length % 2 = 0) (ha : a % 2 = 0) (hlen : pre.length + data.length ≤ 2 ^ 17)
    (hz : copyFromSlice data a (a + 2) (toBeBytes 2 0) = some zeroed)
    (hf : copyFromSlice zeroed a (a + 2)
      (toBeBytes 2 (if checksum (pre ++ zeroed) = 0 then 0xFFFF
        else checksum (pre ++ zeroed)).toNat) = some filled) :
    checksum (pre ++ filled) = 0 := by
  have hn : a + 2 ≤ data.length := (copyFromSlice_eq_some_iff.mp hz).1.2.1
  obtain ⟨hzt, hft⟩ := take_length_of_fill hz hf
  by_cases h0 : checksum (pre ++ zeroed) = 0
  · rw [if_pos h0] at hf
    obtain ⟨front, back, hfront, hzero, hfill⟩ := fill_shape hpre ha hn hz hf
    rw [hzt] at hzero
    rw [hft] at hfill
    have hbound : front.length + 2 + back.length ≤ 2 ^ 17 := by
      have h := congrArg List.length hzero
      have hz' := length_of_copyFromSlice_eq_some hz
      simp only [List.length_append, length_toBeBytes] at h
      omega
    rw [hfill]
    exact checksum_max_verifies hfront hbound (hzero ▸ h0)
  · rw [if_neg h0] at hf
    exact verifies_of_fill_whole hpre ha hz hf

end Beskar.Holonet
