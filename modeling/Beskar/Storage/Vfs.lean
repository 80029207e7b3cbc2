import Beskar.Lib.Fallible
import Beskar.Lib.Utf8

/-!
# The Virtual File System

Model of `Vfs` (`kernel/foundry/storage/src/vfs.rs`). It holds the mount table and the
table of open handles, and passes each call through them to a mounted file system.

- A path is the bytes of its string. A call goes to the longest mount point that is a
  prefix of the path at a path boundary (`path_to_fs`), with the rest of the path.
- A handle is a number taken from the global `HANDLE_COUNTER`. `Handle::new` asserts
  that it is not negative, so the `2 ^ 63`-th handle panics.
- The process making a call is an argument, standing for `H::get_current_process_id()`.
- A mounted file system is a value of a state type `α`. The `FileSystem` methods these
  calls use each return their result and the new state.

Each call is one step: the `RwLock`s around the two maps are not modelled.

## Main results
- `pathToFs_openHandles`: going to a file system never touches the handle table.
- `open_error_registers_handle`: an `open` that fails after `new_handle` leaves its handle
  in the table, so the same process can neither open nor delete the path again.
- `pathToFs_spec`: when no mount point ends inside a character of the path, `path_to_fs`
  goes to the longest matching mount point, and returns `InvalidPath` when there is none.
- `path_to_fs_panics_mid_character`: a mount point that ends inside a character of a valid
  UTF-8 path makes `path_to_fs` panic.
-/

namespace Beskar.Storage

open Beskar.Lib Fallible

/-- A path, as the bytes of its string. -/
abbrev Path := List UInt8

/-- `FileError`. -/
inductive FileError
  | io | notFound | invalidPath | invalidHandle | alreadyExists | notEnoughSpace
  | unexpectedEof | permissionDenied | corruptedFS | unsupportedOperation
deriving DecidableEq, Repr

/-- The methods of `trait FileSystem` that the handle calls use, over the state `α` of a
file system. -/
structure FileSystem (α : Type) where
  delete : α → Path → Except FileError Unit × α
  «open» : α → Path → Except FileError Unit × α
  close : α → Path → Except FileError Unit × α

/-- `OpenFileInfo`. -/
structure OpenFileInfo where
  processId : Nat
  path : Path
deriving DecidableEq

/-- The state of a `Vfs`: the mount table, the open handles keyed by handle id, and the
global handle counter. -/
structure VfsState (α : Type) where
  mounts : List (Path × α)
  openHandles : List (Nat × OpenFileInfo)
  handleCounter : Nat

/-- A call of the `Vfs`. -/
abbrev VfsM (α β : Type) := Fallible FileError (VfsState α) β

namespace Vfs

variable {α β : Type}

/-- `b'/'`. -/
def slash : UInt8 := 0x2f

/-! ## Section 1: Finding the File System of a Path -/

/-- The test of `path_to_fs`: the mount point is a prefix of the path that ends at a path
boundary. -/
def matchesAt (mountPath path : Path) : Bool :=
  mountPath.length ≤ path.length && path.take mountPath.length == mountPath &&
    (mountPath.length == path.length || path[mountPath.length]? == some slash ||
      mountPath.getLast? == some slash)

/-- The loop of `path_to_fs` over the mounts, with its accumulators `best_match` and
`best_len`; `none` is a panic. Only a strictly longer mount point replaces the best one, so
an empty mount point never matches. `&path_str[..mount_len]` slices a `str`, which panics
when `mount_len` is not a character boundary of the path. -/
def bestMount (path : Path) :
    List (Path × α) → Option (Path × α) → Nat → Option (Option (Path × α))
  | [], best, _ => some best
  | (mountPath, fs) :: ms, best, bestLen =>
    if mountPath.length ≤ bestLen then bestMount path ms best bestLen
    else if mountPath.length ≤ path.length ∧ Utf8.isCharBoundary path mountPath.length = false then
      none
    else if matchesAt mountPath path then bestMount path ms (some (mountPath, fs)) mountPath.length
    else bestMount path ms best bestLen

/-- `Vfs::path_to_fs`: call `f` on the file system of the path, with the rest of the path.
The file system keeps its new state whatever `f` returns. -/
def pathToFs (path : Path) (f : α → Path → Except FileError β × α) : VfsM α β := do
  let st ← get
  let best ← ofOption (bestMount path st.mounts none 0)
  let (mountPath, fsState) ← okOr best .invalidPath
  let r := f fsState (path.drop mountPath.length)
  set { st with mounts := st.mounts.map fun (m : Path × α) => if m.1 = mountPath then (m.1, r.2) else m }
  MonadExcept.ofExcept r.1

/-! ## Section 2: The Handle Table -/

/-- `Vfs::check_file_opened`: the process has the path open. -/
def checkFileOpened (st : VfsState α) (pid : Nat) (path : Path) : Bool :=
  st.openHandles.any fun h => h.2.path == path && h.2.processId == pid

/-- `BTreeMap::insert` on the handle table. -/
def insertHandle (handles : List (Nat × OpenFileInfo)) (id : Nat) (info : OpenFileInfo) :
    List (Nat × OpenFileInfo) :=
  handles.filter (·.1 != id) ++ [(id, info)]

/-- `Vfs::new_handle`: refuse a path the process has open, take a fresh handle and
register it. -/
def newHandle (pid : Nat) (path : Path) : VfsM α Nat := do
  let st ← get
  if checkFileOpened st pid path then throw .permissionDenied
  let id := st.handleCounter
  -- `assert!(id >= 0)` in `Handle::new`, after the `i64` counter passed `i64::MAX`
  if 2 ^ 63 ≤ id then abort
  set { st with handleCounter := id + 1, openHandles := insertHandle st.openHandles id ⟨pid, path⟩ }
  pure id

/-- `Vfs::delete_handle`. -/
def deleteHandle (handle : Nat) : VfsM α Unit := do
  let st ← get
  if st.openHandles.any (·.1 == handle) then
    set { st with openHandles := st.openHandles.filter (·.1 != handle) }
  else throw .invalidHandle

/-- `Vfs::handle_to_path`: the path of a handle the process holds. -/
def handleToPath (pid handle : Nat) : VfsM α Path := do
  let st ← get
  let info ← okOr (st.openHandles.lookup handle) .invalidHandle
  if info.processId = pid then pure info.path else throw .permissionDenied

/-! ## Section 3: The Calls -/

/-- `Vfs::open`: the handle is registered first, then the file system opens the file. -/
def «open» (fs : FileSystem α) (pid : Nat) (path : Path) : VfsM α Nat := do
  let handle ← newHandle pid path
  pathToFs path fs.open
  pure handle

/-- `Vfs::close`. -/
def close (fs : FileSystem α) (pid handle : Nat) : VfsM α Unit := do
  let path ← handleToPath pid handle
  deleteHandle handle
  pathToFs path fs.close

/-- The `retain` of `Vfs::close_all_from_process`: the handles of other processes are
kept. Each handle of the process is closed on its file system, and the `.unwrap()`
panics if that fails. -/
def closeAllLoop (fs : FileSystem α) (pid : Nat) :
    List (Nat × OpenFileInfo) → VfsM α (List (Nat × OpenFileInfo))
  | [] => pure []
  | h :: hs => do
    if h.2.processId ≠ pid then
      let rest ← closeAllLoop fs pid hs
      pure (h :: rest)
    else
      tryCatch (pathToFs h.2.path fs.close) fun _ => abort
      closeAllLoop fs pid hs

/-- `Vfs::close_all_from_process`. -/
def closeAllFromProcess (fs : FileSystem α) (pid : Nat) : VfsM α Unit := do
  let st ← get
  let kept ← closeAllLoop fs pid st.openHandles
  modify fun st => { st with openHandles := kept }

/-- `Vfs::delete`: refused while the process has the path open. -/
def delete (fs : FileSystem α) (pid : Nat) (path : Path) : VfsM α Unit := do
  let st ← get
  if checkFileOpened st pid path then throw .permissionDenied
  pathToFs path fs.delete

/-! ## Section 4: A Failed Open Stays Registered -/

/-- Going to a file system changes the mounted state only. -/
theorem pathToFs_openHandles {path : Path} {f : α → Path → Except FileError β × α}
    {st st' : VfsState α} {r : Except FileError β}
    (h : (pathToFs path f).run st = some (r, st')) : st'.openHandles = st.openHandles := by
  simp only [pathToFs, run_bind, run_get] at h
  -- a panic has no outcome; without a mount the state is returned as it was; with one,
  -- only `mounts` is set
  rcases hm : bestMount path st.mounts none 0 with _ | _ | ⟨mountPath, fsState⟩ <;>
    simp only [hm, run_ofOption_none, run_ofOption_some, run_okOr_none, run_okOr_some,
      run_set] at h
  · cases h
  · cases h
    rfl
  · rcases hr : (f fsState (path.drop mountPath.length)).1 with e | b <;>
      simp only [hr, run_ofExcept_error, run_ofExcept_ok, Option.some.injEq, Prod.mk.injEq] at h <;>
      rw [← h.2]

/-- `new_handle` on a path the process does not have open registers the next handle. -/
theorem newHandle_eq_ok {pid : Nat} {path : Path} {st : VfsState α}
    (hfree : checkFileOpened st pid path = false) (hcount : st.handleCounter < 2 ^ 63) :
    (newHandle pid path).run st = some (.ok st.handleCounter,
      { st with handleCounter := st.handleCounter + 1,
                openHandles := insertHandle st.openHandles st.handleCounter ⟨pid, path⟩ }) := by
  have hle : ¬ 2 ^ 63 ≤ st.handleCounter := Nat.not_le.mpr hcount
  simp only [newHandle, run_bind, run_get, hfree, Bool.false_eq_true, if_false, hle, run_set,
    run_pure]

/-- A call refused because the process has the path open changes nothing. -/
theorem open_of_checkFileOpened (fs : FileSystem α) {pid : Nat} {path : Path}
    {st : VfsState α} (hopen : checkFileOpened st pid path = true) :
    («open» fs pid path).run st = some (.error .permissionDenied, st) ∧
      (delete fs pid path).run st = some (.error .permissionDenied, st) := by
  constructor
  · simp [«open», newHandle, hopen]
  · simp [delete, hopen]

/-- When `open` fails once the handle is taken, the handle stays registered with the
process and the path. The failure comes from a path with no mount, or from the file
system's `open`. The process is then refused both a new `open` and a `delete` of the
path, though it holds no handle `open` returned. -/
theorem open_error_registers_handle (fs : FileSystem α) {pid : Nat} {path : Path}
    {st st' : VfsState α} {e : FileError}
    (hfree : checkFileOpened st pid path = false) (hcount : st.handleCounter < 2 ^ 63)
    (hfail : («open» fs pid path).run st = some (.error e, st')) :
    (st.handleCounter, ⟨pid, path⟩) ∈ st'.openHandles ∧
      («open» fs pid path).run st' = some (.error .permissionDenied, st') ∧
      (delete fs pid path).run st' = some (.error .permissionDenied, st') := by
  -- the table after `new_handle` is the one `open` returns with its error
  have hreg : st'.openHandles = insertHandle st.openHandles st.handleCounter ⟨pid, path⟩ := by
    simp only [«open», run_bind, newHandle_eq_ok hfree hcount] at hfail
    rcases hp : (pathToFs path fs.open).run
        { st with handleCounter := st.handleCounter + 1,
                  openHandles := insertHandle st.openHandles st.handleCounter ⟨pid, path⟩ }
      with _ | ⟨_ | _, st''⟩ <;> rw [hp] at hfail
    · cases hfail
    · cases hfail
      exact pathToFs_openHandles hp
    · cases hfail
  have hmem : (st.handleCounter, ⟨pid, path⟩) ∈ st'.openHandles := by
    rw [hreg, insertHandle]
    exact List.mem_append_right _ (List.mem_singleton_self _)
  have hopened : checkFileOpened st' pid path = true := by
    simp only [checkFileOpened, List.any_eq_true]
    exact ⟨_, hmem, by simp⟩
  exact ⟨hmem, open_of_checkFileOpened fs hopened⟩

/-- A file system that finds nothing. -/
def emptyFileSystem : FileSystem Unit where
  delete _ _ := (.error .notFound, ())
  «open» _ _ := (.error .notFound, ())
  close _ _ := (.error .notFound, ())

/-- With nothing mounted, process `1` opening `/a` from a fresh `Vfs` fails with
`InvalidPath`, and is then refused a second `open` and a `delete` of `/a`. -/
theorem open_error_registers_handle_unmounted :
    checkFileOpened (⟨[], [], 0⟩ : VfsState Unit) 1 [slash, 0x61] = false ∧
      (0 : Nat) < 2 ^ 63 ∧
      («open» emptyFileSystem 1 [slash, 0x61]).run ⟨[], [], 0⟩ =
        some (.error .invalidPath, ⟨[], [(0, ⟨1, [slash, 0x61]⟩)], 1⟩) ∧
      ((0, ⟨1, [slash, 0x61]⟩) ∈ (⟨[], [(0, ⟨1, [slash, 0x61]⟩)], 1⟩ : VfsState Unit).openHandles ∧
        («open» emptyFileSystem 1 [slash, 0x61]).run ⟨[], [(0, ⟨1, [slash, 0x61]⟩)], 1⟩ =
          some (.error .permissionDenied, ⟨[], [(0, ⟨1, [slash, 0x61]⟩)], 1⟩) ∧
        (delete emptyFileSystem 1 [slash, 0x61]).run ⟨[], [(0, ⟨1, [slash, 0x61]⟩)], 1⟩ =
          some (.error .permissionDenied, ⟨[], [(0, ⟨1, [slash, 0x61]⟩)], 1⟩)) := by
  have hfree : checkFileOpened (⟨[], [], 0⟩ : VfsState Unit) 1 [slash, 0x61] = false := rfl
  have hfail : («open» emptyFileSystem 1 [slash, 0x61]).run ⟨[], [], 0⟩ =
      some (.error .invalidPath, ⟨[], [(0, ⟨1, [slash, 0x61]⟩)], 1⟩) := rfl
  exact ⟨hfree, Nat.two_pow_pos 63, hfail,
    open_error_registers_handle emptyFileSystem hfree (Nat.two_pow_pos 63) hfail⟩

/-! ## Section 5: Which Mount a Path Goes To -/

/-- What the loop of `path_to_fs` has found over the mounts `ms`, from the best match
`best` of length `bestLen`: either nothing better, or a strictly longer match that no
other mount of `ms` outgrows. -/
def LongestMatch (path : Path) (ms : List (Path × α)) (best : Option (Path × α))
    (bestLen : Nat) (r : Option (Path × α)) : Prop :=
  (r = best ∧ ∀ m ∈ ms, matchesAt m.1 path = true → m.1.length ≤ bestLen) ∨
    ∃ m ∈ ms, r = some m ∧ matchesAt m.1 path = true ∧ bestLen < m.1.length ∧
      ∀ m' ∈ ms, matchesAt m'.1 path = true → m'.1.length ≤ m.1.length

section LongestMatch

variable {path : Path} {m : Path × α} {ms : List (Path × α)} {best r : Option (Path × α)}
  {bestLen : Nat}

/-- A mount the loop passes over keeps what the rest of the loop finds. -/
theorem LongestMatch.cons_skip (hm : matchesAt m.1 path = true → m.1.length ≤ bestLen)
    (h : LongestMatch path ms best bestLen r) : LongestMatch path (m :: ms) best bestLen r := by
  rcases h with ⟨rfl, hall⟩ | ⟨m', hm', rfl, hmatch, hlt, hall⟩
  · left
    refine ⟨rfl, ?_⟩
    rintro m'' (_ | ⟨_, hm''⟩)
    · exact hm
    · exact hall m'' hm''
  · right
    refine ⟨m', List.mem_cons_of_mem _ hm', rfl, hmatch, hlt, ?_⟩
    rintro m'' (_ | ⟨_, hm''⟩)
    · intro h
      exact Nat.le_trans (hm h) (Nat.le_of_lt hlt)
    · exact hall m'' hm''

/-- A mount the loop takes as its new best match. -/
theorem LongestMatch.cons_take (hm : matchesAt m.1 path = true) (hlt : bestLen < m.1.length)
    (h : LongestMatch path ms (some m) m.1.length r) :
    LongestMatch path (m :: ms) best bestLen r := by
  right
  rcases h with ⟨rfl, hall⟩ | ⟨m', hm', rfl, hmatch, hlt', hall⟩
  · refine ⟨m, List.mem_cons_self, rfl, hm, hlt, ?_⟩
    rintro m'' (_ | ⟨_, hm''⟩)
    · exact fun _ => Nat.le_refl _
    · exact hall m'' hm''
  · refine ⟨m', List.mem_cons_of_mem _ hm', rfl, hmatch, Nat.lt_trans hlt hlt', ?_⟩
    rintro m'' (_ | ⟨_, hm''⟩)
    · exact fun _ => Nat.le_of_lt hlt'
    · exact hall m'' hm''

end LongestMatch

/-- **The loop of `path_to_fs` finds the longest matching mount**, when it does not panic. -/
theorem bestMount_longestMatch {path : Path} {ms : List (Path × α)} {best r : Option (Path × α)}
    {bestLen : Nat} (h : bestMount path ms best bestLen = some r) :
    LongestMatch path ms best bestLen r := by
  induction ms generalizing best bestLen with
  | nil =>
    cases h
    exact .inl ⟨rfl, fun _ hm => absurd hm List.not_mem_nil⟩
  | cons m ms ih =>
    obtain ⟨mountPath, fs⟩ := m
    unfold bestMount at h
    -- the branch that slices off a character boundary returns `none`, which `h` rules out
    split_ifs at h with hshort hpanic hmatch
    · -- no longer than the best match: passed over
      exact (ih h).cons_skip fun _ => hshort
    · exact (ih h).cons_take hmatch (Nat.lt_of_not_le hshort)
    · exact (ih h).cons_skip fun h' => absurd h' hmatch

/-- The loop does not panic when every mount point no longer than the path ends at a
character boundary of it. -/
theorem bestMount_isSome {path : Path} {ms : List (Path × α)}
    (hb : ∀ m ∈ ms, m.1.length ≤ path.length → Utf8.isCharBoundary path m.1.length = true)
    (best : Option (Path × α)) (bestLen : Nat) : (bestMount path ms best bestLen).isSome := by
  induction ms generalizing best bestLen with
  | nil => rfl
  | cons m ms ih =>
    obtain ⟨mountPath, fs⟩ := m
    have hrest : ∀ m ∈ ms, m.1.length ≤ path.length →
        Utf8.isCharBoundary path m.1.length = true :=
      fun m hm => hb m (List.mem_cons_of_mem _ hm)
    have hhead : ¬ (mountPath.length ≤ path.length ∧
        Utf8.isCharBoundary path mountPath.length = false) := by
      rintro ⟨hle, hfalse⟩
      rw [hb _ List.mem_cons_self hle] at hfalse
      cases hfalse
    unfold bestMount
    rw [if_neg hhead]
    split_ifs
    · exact ih hrest _ _
    · exact ih hrest _ _
    · exact ih hrest _ _

/-- An ASCII path never makes the loop panic. -/
theorem bestMount_isSome_of_ascii {path : Path} (hpath : ∀ b ∈ path, b < 0x80)
    (ms : List (Path × α)) (best : Option (Path × α)) (bestLen : Nat) :
    (bestMount path ms best bestLen).isSome :=
  bestMount_isSome (fun _ _ hle => Utf8.isCharBoundary_of_ascii hpath hle) best bestLen

section PathToFs

variable {path : Path} {f : α → Path → Except FileError β × α} {st : VfsState α}

/-- A panic of the loop is a panic of `path_to_fs`. -/
theorem pathToFs_of_bestMount_none (hm : bestMount path st.mounts none 0 = none) :
    (pathToFs path f).run st = none := by
  simp only [pathToFs, run_bind, run_get, hm, run_ofOption_none]

/-- No match is an `InvalidPath` that changes nothing. -/
theorem pathToFs_of_bestMount_unmatched (hm : bestMount path st.mounts none 0 = some none) :
    (pathToFs path f).run st = some (.error .invalidPath, st) := by
  simp only [pathToFs, run_bind, run_get, hm, run_ofOption_some, run_okOr_none]

/-- A match passes the rest of the path to its file system, and keeps its new state. -/
theorem pathToFs_of_bestMount_some {mountPath : Path} {fsState : α}
    (hm : bestMount path st.mounts none 0 = some (some (mountPath, fsState))) :
    (pathToFs path f).run st = some ((f fsState (path.drop mountPath.length)).1,
      { st with mounts := st.mounts.map fun m =>
          if m.1 = mountPath then (m.1, (f fsState (path.drop mountPath.length)).2) else m }) := by
  simp only [pathToFs, run_bind, run_get, hm, run_ofOption_some, run_okOr_some, run_set]
  rcases (f fsState (path.drop mountPath.length)).1 with e | b
  · exact run_ofExcept_error e _
  · exact run_ofExcept_ok b _

/-- **Where `path_to_fs` sends a path.** When every mount point no longer than the path
ends at a character boundary of it, the call does not panic. It returns `InvalidPath`
and changes nothing when no mount point but an empty one matches; otherwise it calls the
file system of the longest matching mount point, which is not empty, on the rest of the
path. -/
theorem pathToFs_spec
    (hb : ∀ m ∈ st.mounts, m.1.length ≤ path.length →
      Utf8.isCharBoundary path m.1.length = true) :
    ((∀ m ∈ st.mounts, matchesAt m.1 path = true → m.1 = []) ∧
        (pathToFs path f).run st = some (.error .invalidPath, st)) ∨
      ∃ m ∈ st.mounts, matchesAt m.1 path = true ∧ 0 < m.1.length ∧
        (∀ m' ∈ st.mounts, matchesAt m'.1 path = true → m'.1.length ≤ m.1.length) ∧
        (pathToFs path f).run st = some ((f m.2 (path.drop m.1.length)).1,
          { st with mounts := st.mounts.map fun m' =>
              if m'.1 = m.1 then (m'.1, (f m.2 (path.drop m.1.length)).2) else m' }) := by
  obtain ⟨r, hr⟩ := Option.isSome_iff_exists.mp (bestMount_isSome hb none 0)
  rcases bestMount_longestMatch hr with ⟨rfl, hall⟩ | ⟨m, hm, rfl, hmatch, hpos, hall⟩
  · -- only empty mount points can match, and the loop skips them
    refine .inl ⟨fun m hm hmatch => List.eq_nil_of_length_eq_zero ?_,
      pathToFs_of_bestMount_unmatched hr⟩
    exact Nat.le_zero.mp (hall m hm hmatch)
  · exact .inr ⟨m, hm, hmatch, hpos, hall, pathToFs_of_bestMount_some hr⟩

end PathToFs

/-- `"/é"` is valid UTF-8, and its `é` is the two bytes `C3 A9`. With a file system
mounted at `"/a"`, `path_to_fs("/é")` slices the path at byte `2`, inside the `é`, and
panics, whatever the call. -/
theorem path_to_fs_panics_mid_character (f : Unit → Path → Except FileError β × Unit) :
    Utf8.valid [slash, 0xC3, 0xA9] = true ∧
      (pathToFs [slash, 0xC3, 0xA9] f).run ⟨[([slash, 0x61], ())], [], 0⟩ = none :=
  ⟨by decide, pathToFs_of_bestMount_none rfl⟩

end Vfs

end Beskar.Storage
