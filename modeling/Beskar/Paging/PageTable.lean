import Mathlib
import Beskar.Paging.Entry

/-!
# Paging: the Page Table and its Mappers

Model of `PageTable` and of its `Mapper<M4KiB>`, `Mapper<M2MiB>`, `Mapper<M1GiB>` and
`Translator` implementations (`beskar-hal/src/x86_64/paging/page_table.rs`).

The kernel reaches its tables through the recursive mapping: `Entry::next_mut` turns the
virtual address of an entry into that of the table in the frame the entry points to.  The
model takes the tables as they lie in physical memory: a `PageTable` is the frame of the
level-4 table and the table stored in every frame.  A frame allocator is the list of the
frames it hands out, in order.  The cache flushes the mappers return are left out.

`map` of the three sizes walks `next_or_create` down to the table of the page's level
(`createPath`), refuses a slot in use and writes the leaf; `unmap`, `update_flags` and
`translate` walk `next_mut` (`walk`).  Where the members differ they keep their own
bodies: `unmap` and `update_flags` of 4 KiB pages do not check `HUGE_PAGE`.
-/

namespace Beskar.Paging

/-- `PageTable`: the frame of the level-4 table, and the table in every frame. -/
structure PageTable where
  root : Nat
  mem : Nat → Fin 512 → Entry

/-- A frame allocator: the 4 KiB frames `allocate_frame` hands out, in order. -/
abbrev FrameAllocator := List (Frame .size4KiB)

namespace PageTable

/-- Write entry `i` of the table in frame `t`. -/
def write (pt : PageTable) (t : Nat) (i : Fin 512) (e : Entry) : PageTable :=
  { pt with mem := Function.update pt.mem t (Function.update (pt.mem t) i e) }

/-- `Entries::clear` on the table in frame `t`. -/
def clear (pt : PageTable) (t : Nat) : PageTable :=
  { pt with mem := Function.update pt.mem t fun _ => Entry.empty }

@[simp] theorem write_root (pt : PageTable) (t : Nat) (i : Fin 512) (e : Entry) :
    (pt.write t i e).root = pt.root := rfl

@[simp] theorem clear_root (pt : PageTable) (t : Nat) : (pt.clear t).root = pt.root := rfl

/-- `PageTable::next_or_create` on entry `i` of the table in frame `t`: go on through a
present entry, after widening its flags, or point the entry at a new, cleared table. -/
def nextOrCreate (pt : PageTable) (alloc : FrameAllocator) (t : Nat) (i : Fin 512)
    (insertFlags : Flags) : PageTable × FrameAllocator × Except MappingError Nat :=
  if insertFlags.contains Flags.hugePage then (pt, alloc, .error .unexpectedLargePage)
  else
    let entry := pt.mem t i
    if entry.isPresent then
      let entry := entry.addFlags insertFlags
      (pt.write t i entry, alloc, entry.next)
    else
      match alloc with
      | [] => (pt, alloc, .error .frameAllocationFailed)
      | frame :: rest =>
        let entry := Entry.set frame.start (insertFlags.union Flags.present)
        let pt := pt.write t i entry
        match entry.next with
        | .ok next => (pt.clear next, rest, .ok next)
        | .error e => (pt, rest, .error e)

/-- The `next_or_create` calls of `map`, `k` of them from the table `t`, for the address
`v`, ending at the table of level `leaf`. -/
def createPath (v leaf : Nat) (insertFlags : Flags) :
    Nat → PageTable → FrameAllocator → Nat → PageTable × FrameAllocator × Except MappingError Nat
  | 0, pt, alloc, t => (pt, alloc, .ok t)
  | k + 1, pt, alloc, t =>
    match nextOrCreate pt alloc t (index (leaf + k + 1) v) insertFlags with
    | (pt, alloc, .ok next) => createPath v leaf insertFlags k pt alloc next
    | (pt, alloc, .error e) => (pt, alloc, .error e)

/-- The `next_mut` (or `next`) calls of `unmap`, `update_flags` and `translate`: `k` of them
from the table `t`, for the address `v`, ending at the table of level `leaf`. -/
def walk (pt : PageTable) (v leaf : Nat) : Nat → Nat → Except MappingError Nat
  | 0, t => .ok t
  | k + 1, t =>
    match (pt.mem t (index (leaf + k + 1) v)).next with
    | .ok next => walk pt v leaf k next
    | .error e => .error e

/-- `parent_flags` of `map`: user access reaches the parents of a user page. -/
def parentFlags (flags : Flags) : Flags :=
  if flags.contains Flags.userAccessible then Flags.parent.union Flags.userAccessible
  else Flags.parent

/-- The body of the three `map`s: the tables down to the page's level, then the leaf
entry, which must be null, set to the frame with `leafFlags`. -/
def mapWith (S : PageSize) (leafFlags : Flags) (pt : PageTable) (alloc : FrameAllocator)
    (page : Page S) (frame : Frame S) (flags : Flags) :
    PageTable × FrameAllocator × Except MappingError Unit :=
  match createPath page.start S.level (parentFlags flags) (4 - S.level) pt alloc pt.root with
  | (pt, alloc, .error e) => (pt, alloc, .error e)
  | (pt, alloc, .ok t) =>
    let i := index S.level page.start
    let entry := pt.mem t i
    if entry.isNull = false then
      (pt, alloc, .error (.alreadyMapped (Frame.containingAddress S entry.addr).start))
    else (pt.write t i (Entry.set frame.start leafFlags), alloc, .ok ())

/-- `Mapper<M4KiB>::map`: the leaf is present and not a huge page. -/
def map4KiB (pt : PageTable) (alloc : FrameAllocator) (page : Page .size4KiB)
    (frame : Frame .size4KiB) (flags : Flags) :
    PageTable × FrameAllocator × Except MappingError Unit :=
  mapWith .size4KiB ((flags.union Flags.present).without Flags.hugePage) pt alloc page frame flags

/-- `Mapper<M2MiB>::map`: the leaf is a present huge page. -/
def map2MiB (pt : PageTable) (alloc : FrameAllocator) (page : Page .size2MiB)
    (frame : Frame .size2MiB) (flags : Flags) :
    PageTable × FrameAllocator × Except MappingError Unit :=
  mapWith .size2MiB ((flags.union Flags.present).union Flags.hugePage) pt alloc page frame flags

/-- `Mapper<M1GiB>::map`: the leaf is a present huge page. -/
def map1GiB (pt : PageTable) (alloc : FrameAllocator) (page : Page .size1GiB)
    (frame : Frame .size1GiB) (flags : Flags) :
    PageTable × FrameAllocator × Except MappingError Unit :=
  mapWith .size1GiB ((flags.union Flags.present).union Flags.hugePage) pt alloc page frame flags

/-- `Mapper<M4KiB>::unmap`: clear a present leaf. -/
def unmap4KiB (pt : PageTable) (page : Page .size4KiB) :
    Except MappingError (Frame .size4KiB × PageTable) := do
  let t ← pt.walk page.start 1 3 pt.root
  let i := index 1 page.start
  let entry := pt.mem t i
  match entry.presentAddr with
  | none => .error .notMapped
  | some addr => .ok (Frame.containingAddress .size4KiB addr, pt.write t i (Entry.set 0 Flags.empty))

/-- `Mapper<M2MiB>::unmap` and `Mapper<M1GiB>::unmap`: clear a present huge page. -/
def unmapHuge (S : PageSize) (pt : PageTable) (page : Page S) :
    Except MappingError (Frame S × PageTable) := do
  let t ← pt.walk page.start S.level (4 - S.level) pt.root
  let i := index S.level page.start
  let entry := pt.mem t i
  match entry.presentAddr with
  | none => .error .notMapped
  | some addr =>
    if entry.flags.contains Flags.hugePage = false then .error .unexpectedNotLargePage
    else .ok (Frame.containingAddress S addr, pt.write t i (Entry.set 0 Flags.empty))

/-- `Mapper<M2MiB>::unmap`. -/
def unmap2MiB (pt : PageTable) (page : Page .size2MiB) :
    Except MappingError (Frame .size2MiB × PageTable) :=
  unmapHuge .size2MiB pt page

/-- `Mapper<M1GiB>::unmap`. -/
def unmap1GiB (pt : PageTable) (page : Page .size1GiB) :
    Except MappingError (Frame .size1GiB × PageTable) :=
  unmapHuge .size1GiB pt page

/-- `Mapper<M4KiB>::update_flags`: replace the flags of a present leaf. -/
def updateFlags4KiB (pt : PageTable) (page : Page .size4KiB) (flags : Flags) :
    Except MappingError PageTable := do
  let t ← pt.walk page.start 1 3 pt.root
  let i := index 1 page.start
  let entry := pt.mem t i
  if entry.isPresent = false then .error .notMapped
  else .ok (pt.write t i (entry.setFlags flags))

/-- `Mapper<M2MiB>::update_flags` and `Mapper<M1GiB>::update_flags`: replace the flags of
a present huge page. -/
def updateFlagsHuge (S : PageSize) (pt : PageTable) (page : Page S) (flags : Flags) :
    Except MappingError PageTable := do
  let t ← pt.walk page.start S.level (4 - S.level) pt.root
  let i := index S.level page.start
  let entry := pt.mem t i
  if entry.isPresent = false then .error .notMapped
  else if entry.isLarge = false then .error .unexpectedNotLargePage
  else .ok (pt.write t i (entry.setFlags flags))

/-- `Mapper<M2MiB>::update_flags`. -/
def updateFlags2MiB (pt : PageTable) (page : Page .size2MiB) (flags : Flags) :
    Except MappingError PageTable :=
  updateFlagsHuge .size2MiB pt page flags

/-- `Mapper<M1GiB>::update_flags`. -/
def updateFlags1GiB (pt : PageTable) (page : Page .size1GiB) (flags : Flags) :
    Except MappingError PageTable :=
  updateFlagsHuge .size1GiB pt page flags

/-- The body of the three `translate`s: the frame and flags of a present entry at the
page's level. -/
def translateWith (S : PageSize) (pt : PageTable) (page : Page S) : Option (Frame S × Flags) :=
  match pt.walk page.start S.level (4 - S.level) pt.root with
  | .error _ => none
  | .ok t =>
    let entry := pt.mem t (index S.level page.start)
    if entry.isPresent then some (Frame.containingAddress S entry.addr, entry.flags) else none

/-- `Mapper<M4KiB>::translate`. -/
def translate4KiB (pt : PageTable) (page : Page .size4KiB) : Option (Frame .size4KiB × Flags) :=
  translateWith .size4KiB pt page

/-- `Mapper<M2MiB>::translate`. -/
def translate2MiB (pt : PageTable) (page : Page .size2MiB) : Option (Frame .size2MiB × Flags) :=
  translateWith .size2MiB pt page

/-- `Mapper<M1GiB>::translate`. -/
def translate1GiB (pt : PageTable) (page : Page .size1GiB) : Option (Frame .size1GiB × Flags) :=
  translateWith .size1GiB pt page

/-! The `Mapper<S>` implementation of each page size. -/

/-- `Mapper<S>::map`. -/
def map : (S : PageSize) → PageTable → FrameAllocator → Page S → Frame S → Flags →
    PageTable × FrameAllocator × Except MappingError Unit
  | .size4KiB => map4KiB
  | .size2MiB => map2MiB
  | .size1GiB => map1GiB

/-- `Mapper<S>::unmap`. -/
def unmap : (S : PageSize) → PageTable → Page S → Except MappingError (Frame S × PageTable)
  | .size4KiB => unmap4KiB
  | .size2MiB => unmap2MiB
  | .size1GiB => unmap1GiB

/-- `Mapper<S>::update_flags`. -/
def updateFlags : (S : PageSize) → PageTable → Page S → Flags → Except MappingError PageTable
  | .size4KiB => updateFlags4KiB
  | .size2MiB => updateFlags2MiB
  | .size1GiB => updateFlags1GiB

/-- `Mapper<S>::translate`. -/
def translate : (S : PageSize) → PageTable → Page S → Option (Frame S × Flags)
  | .size4KiB => translate4KiB
  | .size2MiB => translate2MiB
  | .size1GiB => translate1GiB

/-- `Translator::translate_addr`: a huge page of level 3 or 2 on the way, or a present
entry of level 1; the physical address is truncated to 52 bits. -/
def translateAddr (pt : PageTable) (addr : Arch.VirtAddr) : Option (Nat × Flags) :=
  let a := addr.raw
  match (pt.mem pt.root (index 4 a)).next with
  | .error _ => none
  | .ok p3 =>
    let p3Entry := pt.mem p3 (index 3 a)
    if p3Entry.isPresent && p3Entry.isLarge then
      some ((p3Entry.addr + a % levelSize 3) % 2 ^ 52, p3Entry.flags)
    else
      match p3Entry.next with
      | .error _ => none
      | .ok p2 =>
        let p2Entry := pt.mem p2 (index 2 a)
        if p2Entry.isPresent && p2Entry.isLarge then
          some ((p2Entry.addr + a % levelSize 2) % 2 ^ 52, p2Entry.flags)
        else
          match p2Entry.next with
          | .error _ => none
          | .ok p1 =>
            let p1Entry := pt.mem p1 (index 1 a)
            if p1Entry.isPresent = false then none
            else some ((p1Entry.addr + a % levelSize 1) % 2 ^ 52, p1Entry.flags)

end PageTable

end Beskar.Paging
