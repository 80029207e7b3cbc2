import Beskar.Paging.Entry

/-!
# The Recursive Mapping

The kernel reaches its page tables through the recursive slot of the level-4 table
(`kernel/src/mem/address_space.rs`): `address_space::init` takes the address
`VirtAddr::from_pt_indices(r, r, r, r, 0)` of the level-4 table itself, and
`Entry::next` (`beskar-hal/src/x86_64/paging/page_table.rs`) finds the table an entry points
to by `Entry::next_unchecked`, which shifts the entry's own address nine bits up and
sign-extends it again.

A table reached from the level-4 table through the entries `path` lies at the address whose
leading indices are `r` and whose last ones are the path (`recursiveTable`). The shift drops
the leading `r`, moves every index one level up and puts the entry's index, which sits at
bits 3 to 11 of its address, in the lowest index (`nextUnchecked_fromPtIndices`). The
arithmetic is the same for every slot `r`: only the low 48 bits of the shifted value are
read, and the sign of the result comes from its new bit 47.

## Main results
- `nextUnchecked_fromPtIndices`: `next_unchecked` of the address of entry `i` of the table
  at `from_pt_indices(a, b, c, d, 0)` is `from_pt_indices(b, c, d, i, 0)`.
- `nextUnchecked_recursiveEntry`: for every recursive slot and every table reached through
  it, `next_unchecked` of an entry's address is the recursive address of its child, a
  canonical address; and every canonical address is rebuilt from its indices.
-/

namespace Beskar.Paging

open Beskar.Arch

/-- `Entry::next_unchecked`: the address shifted nine bits up as a `u64`, sign-extended
from bit 47. -/
def Entry.nextUnchecked (raw : VirtAddr) : VirtAddr :=
  VirtAddr.newExtend ((raw.raw <<< 9) % 2 ^ 64)

/-- The four indices of the table reached through the entries `path`: the recursive slot
`r` in the positions the path leaves free, then the path. -/
def recursiveIndices (r : Nat) (path : List Nat) : List Nat :=
  List.replicate (4 - path.length) r ++ path

/-- The recursive address of the table reached from the level-4 table through the entries
`path`; with the empty path, the address `address_space::init` gives the level-4 table. -/
def recursiveTable (r : Nat) (path : List Nat) : VirtAddr :=
  let ix := recursiveIndices r path
  VirtAddr.fromPtIndices (ix.getD 0 0) (ix.getD 1 0) (ix.getD 2 0) (ix.getD 3 0) 0

/-- The address of entry `i` of that table, eight bytes an entry into it. -/
def recursiveEntry (r : Nat) (path : List Nat) (i : Nat) : VirtAddr :=
  let ix := recursiveIndices r path
  VirtAddr.fromPtIndices (ix.getD 0 0) (ix.getD 1 0) (ix.getD 2 0) (ix.getD 3 0) (8 * i)

/-- Entry `i` lies `8 * i` bytes into its table: the offset is below a page, so the sign
extension of the table's address carries over. -/
theorem fromPtIndices_raw_entry (a b c d : Nat) {i : Nat} (hi : i < 512) :
    (VirtAddr.fromPtIndices a b c d (8 * i)).raw = (VirtAddr.fromPtIndices a b c d 0).raw + 8 * i := by
  rw [VirtAddr.fromPtIndices_raw, VirtAddr.fromPtIndices_raw, Nat.zero_mod, Nat.add_zero,
    Nat.mod_eq_of_lt (show 8 * i < 4096 by omega)]
  have ha := Nat.mod_lt a (show 0 < 512 by decide)
  have hb := Nat.mod_lt b (show 0 < 512 by decide)
  have hc := Nat.mod_lt c (show 0 < 512 by decide)
  have hd := Nat.mod_lt d (show 0 < 512 by decide)
  unfold canonicalize
  split_ifs <;> omega

/-- **`next_unchecked` moves every index one level up.** The address of entry `i` of the
table at `from_pt_indices(a, b, c, d, 0)` goes to `from_pt_indices(b, c, d, i, 0)`. -/
theorem nextUnchecked_fromPtIndices (a b c d i : Nat) :
    Entry.nextUnchecked (VirtAddr.fromPtIndices a b c d (8 * i)) =
      VirtAddr.fromPtIndices b c d i 0 := by
  apply VirtAddr.ext_raw
  rw [Entry.nextUnchecked, VirtAddr.newExtend_raw, VirtAddr.fromPtIndices_raw,
    VirtAddr.fromPtIndices_raw, Nat.shiftLeft_eq]
  apply canonicalize_congr
  -- below bit 39 the canonical form is the packed value itself: the shift keeps those bits
  have hlow := canonicalize_mod_of_dvd (show 2 ^ 39 ∣ 2 ^ 48 from pow_dvd_pow 2 (by norm_num))
    (2 ^ 39 * (a % 512) + 2 ^ 30 * (b % 512) + 2 ^ 21 * (c % 512) + 2 ^ 12 * (d % 512) +
      8 * i % 4096)
  have hb := Nat.mod_lt b (show 0 < 512 by decide)
  have hc := Nat.mod_lt c (show 0 < 512 by decide)
  have hd := Nat.mod_lt d (show 0 < 512 by decide)
  omega

/-- The recursive address of a table is canonical. -/
theorem canonicalize_recursiveTable (r : Nat) (path : List Nat) :
    canonicalize (recursiveTable r path).raw = (recursiveTable r path).raw :=
  canonicalize_canonicalize _

/-- **The recursive mapping reaches every table.** For every recursive slot `r`, every
table reached from the level-4 table through fewer than four entries, that is a table of
level 4 down to 1, and every index `i` of it: the entry's address is `8 * i` bytes into the
table, `next_unchecked` of it is the recursive address of the table the entry leads to, and
that address is canonical. And every canonical address is the `from_pt_indices` of its
indices and page offset. -/
theorem nextUnchecked_recursiveEntry :
    (∀ (r : Nat) (path : List Nat) (i : Nat), path.length < 4 → i < 512 →
      (recursiveEntry r path i).raw = (recursiveTable r path).raw + 8 * i ∧
        Entry.nextUnchecked (recursiveEntry r path i) = recursiveTable r (path ++ [i]) ∧
        canonicalize (recursiveTable r (path ++ [i])).raw = (recursiveTable r (path ++ [i])).raw) ∧
    ∀ v : VirtAddr, canonicalize v.raw = v.raw →
      VirtAddr.fromPtIndices v.p4Index v.p3Index v.p2Index v.p1Index v.pageOffset = v := by
  refine ⟨fun r path i hlen hi => ⟨?_, ?_, canonicalize_recursiveTable r _⟩,
    fun v hv => VirtAddr.fromPtIndices_indices hv⟩
  · exact fromPtIndices_raw_entry _ _ _ _ hi
  · -- the table's indices are `r` up to the path; the child's drop one `r` and add `i`
    rcases path with _ | ⟨x, _ | ⟨y, _ | ⟨z, _ | ⟨w, rest⟩⟩⟩⟩
    · exact nextUnchecked_fromPtIndices r r r r i
    · exact nextUnchecked_fromPtIndices r r r x i
    · exact nextUnchecked_fromPtIndices r r x y i
    · exact nextUnchecked_fromPtIndices r x y z i
    · simp only [List.length_cons] at hlen
      omega

/-- Through slot 510, entry 7 of the table reached by entries 256 and 3 leads to the
table reached by 256, 3 and 7; and the level-4 table's own address is rebuilt from its
indices. -/
theorem nextUnchecked_recursiveEntry_slot510 :
    ((recursiveEntry 510 [256, 3] 7).raw = (recursiveTable 510 [256, 3]).raw + 8 * 7 ∧
      Entry.nextUnchecked (recursiveEntry 510 [256, 3] 7) = recursiveTable 510 ([256, 3] ++ [7]) ∧
      canonicalize (recursiveTable 510 ([256, 3] ++ [7])).raw =
        (recursiveTable 510 ([256, 3] ++ [7])).raw) ∧
    VirtAddr.fromPtIndices (recursiveTable 510 []).p4Index (recursiveTable 510 []).p3Index
        (recursiveTable 510 []).p2Index (recursiveTable 510 []).p1Index
        (recursiveTable 510 []).pageOffset = recursiveTable 510 [] :=
  ⟨nextUnchecked_recursiveEntry.1 510 [256, 3] 7 (by decide) (by decide),
    nextUnchecked_recursiveEntry.2 _ (canonicalize_recursiveTable 510 [])⟩

end Beskar.Paging
