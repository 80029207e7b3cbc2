import Beskar.Storage.Fat.Dirent
import Beskar.Storage.Fat.Cursor

/-!
# FAT Directories

`Directory` and `DirectoryEntry` of `fs/fat/dir.rs`. A directory is a cursor over the
32-byte records of its cluster chain: `current_cluster` and `cluster_offset`, with an entry
index `position`. Records are read and written through the callbacks `read_data` and
`write_data`, programs over a state `δ` of their own, as for files (`Storage.Fat.File`).

`write_entry` writes a name of `n` UTF-16 units as `⌈n / 13⌉` long name records, in
descending sequence order with `LAST_ENTRY` on the first, and then the short record.
`read_entry` collects long name records while the last one collected carries
`LAST_ENTRY`. The source reads each next record into `next_entry_data` but casts
`entry_data`, the first record, again: the loop collects copies of the first record until
a read fails, and never returns an entry.

`read_entry` recurses once per deleted record and loops once per long name record, so it
runs with fuel; out of fuel is no outcome, as a loop that does not end.

## Main results
- `lfnLoop_ne_some`: for every fuel, the long name loop never returns an entry.
- `readEntry_ne_some`: neither does `read_entry`, when the record at the cursor is the end
  of the directory or a long name record with `LAST_ENTRY`.
- `writeEntry_endsRead`: `write_entry` of `DirectoryEntry::new(name)`, with room in the
  cluster, leaves such a record at the cursor. For a non-empty name it is the first long
  name record. For an empty one it is the short record, whose name `new` never set.
- `readEntry_after_writeEntry_ne_some`: so a read from where the write started returns no
  entry.
- `readEntry_past_end_never_returns`: at the end of the chain `read_entry_data` keeps the
  cluster and lets the offset grow past it. On a directory whose first cluster ends its
  chain, with a callback that answers every read with a deleted record or a long name
  record with `LAST_ENTRY`, `read_entry` never returns, for every fuel.
-/

namespace Beskar.Storage.Fat

open Beskar.Lib Beskar.Lib.Fallible

/-! ## §1 Entries with Long Names -/

/-- `str::encode_utf16`: one unit below `0x10000`, a surrogate pair above. -/
def encodeUtf16 (s : String) : List UInt16 :=
  s.toList.flatMap fun c =>
    let v : UInt32 := c.val
    if v < 0x10000 then [v.toUInt16]
    else
      let v := v - 0x10000
      [((0xD800 : UInt32) + (v >>> 10)).toUInt16, ((0xDC00 : UInt32) + (v &&& 0x3FF)).toUInt16]

/-- `DirectoryEntry`. -/
structure DirectoryEntry where
  shortEntry : DirEntry
  longName : Option String

namespace DirectoryEntry

/-- `DirectoryEntry::new`. Every path returns `Ok`; `none` is a panic of the asserts of
`Date::new` and `Time::new`, which hold for its constants. The 8.3 name it computes from
`name` into `name_buf` and `ext_buf` is never stored, so the short record keeps the zero
name of `DirEntry::new`. -/
def new (name : String) (attributes : Attributes) : Option DirectoryEntry := do
  let shortEntry := DirEntry.new.setAttributes attributes
  let today ← Date.new 2025 1 1
  let now ← Time.new 0 0 0 0
  let todayNow := DateTime.mk today now
  let shortEntry := shortEntry.setCreationDatetime todayNow
  let shortEntry := shortEntry.setLastAccessDate today
  let shortEntry := shortEntry.setLastWriteDatetime todayNow
  pure ⟨shortEntry, some name⟩

end DirectoryEntry

/-- The number of long name records of a name: `chars.len().div_ceil(CHARS_PER_ENTRY)`. -/
def lfnEntriesCount (chars : List UInt16) : Nat :=
  (chars.length + LongNameEntry.charsPerEntry - 1) / LongNameEntry.charsPerEntry

/-- The inner loop of `build_long_filename` over the units of one record: `0` ends the
name, `0xFFFF` is padding, and a unit that is not a scalar value (a surrogate) is dropped
by `char::from_u32`. -/
def nameUnitsLoop (entry : LongNameEntry) : List Nat → String → Except FatError String
  | [], result => .ok result
  | i :: is, result => do
    let ch ← entry.getName i
    if ch = 0 then .ok result
    else if ch = 0xFFFF then nameUnitsLoop entry is result
    else if h : ch.toNat.isValidChar then
      nameUnitsLoop entry is (result.push (Char.ofNatAux ch.toNat h))
    else nameUnitsLoop entry is result

/-- `build_long_filename`: the records in ascending sequence order, by a stable sort. -/
def buildLongFilename (entries : List LongNameEntry) : Except FatError String :=
  let sortedEntries := entries.mergeSort fun a b => a.seqNum' ≤ b.seqNum'
  sortedEntries.foldlM (fun result entry =>
    nameUnitsLoop entry (List.range LongNameEntry.charsPerEntry) result) ""

/-! ## §2 The Directory -/

/-- `Directory`, apart from the table it borrows. -/
structure Directory where
  firstCluster : Nat
  position : Nat
  bytesPerCluster : Nat
  currentCluster : Nat
  clusterOffset : Nat
deriving DecidableEq, Repr

/-- What the methods of a directory change: the table, the directory, and the state of the
data callbacks. -/
structure DirSys (τ δ : Type) where
  fat : τ
  dir : Directory
  data : δ

/-- A method of `Directory`. -/
abbrev DirM (τ δ α : Type) := Fallible FatError (DirSys τ δ) α

namespace Directory

variable {τ δ : Type}

/-- `Directory::new`. -/
def new (fat : FatEntries τ) (t : τ) (firstCluster bytesPerCluster : Nat) :
    Except FatError Directory :=
  if !Cluster.isValid (fat.fatType t) firstCluster && firstCluster != 0 then
    .error .invalidCluster
  else .ok ⟨firstCluster, 0, bytesPerCluster, firstCluster, 0⟩

/-- `self`, as a method reads it. -/
def getDir : DirM τ δ Directory := do
  return (← getThe (DirSys τ δ)).dir

def setDir (d : Directory) : DirM τ δ Unit :=
  modifyThe (DirSys τ δ) fun s => { s with dir := d }

/-- A call on `self.fat`. -/
def onFat {α : Type} (x : Fallible FatError τ α) : DirM τ δ α :=
  focus DirSys.fat (fun s t => { s with fat := t }) x

/-- A call of a data callback. -/
def onData {α : Type} (x : Fallible FatError δ α) : DirM τ δ α :=
  focus DirSys.data (fun s d => { s with data := d }) x

/-- `self.fat.get(cluster)?`. -/
def getEntry (fat : FatEntries τ) (cluster : Nat) : DirM τ δ FatEntry := do
  MonadExcept.ofExcept (fat.get (← getThe (DirSys τ δ)).fat cluster)

/-- The cursor step after `len` bytes, which `read_entry_data` and `write_entry` each
write out: past the end of the cluster, on to the next cluster of the chain, and at the
end of the chain `atEnd`. The `u32` offset panics on overflow. -/
def advance (fat : FatEntries τ) (len : Nat) (atEnd : DirM τ δ Unit) : DirM τ δ Unit := do
  let d ← getDir
  let clusterOffset ← ofOption (addChecked 32 d.clusterOffset len)
  setDir { d with clusterOffset := clusterOffset }
  if clusterOffset ≥ d.bytesPerCluster then
    match ← getEntry fat d.currentCluster with
    | .next next => setDir { d with currentCluster := next, clusterOffset := 0 }
    | .endOfChain => atEnd
    | _ => throw .invalidCluster
  else pure ()

/-- The `EndOfChain` arm of the long name loop of `write_entry`: a new cluster, linked from
the current one. -/
def extendChain (fat : FatEntries τ) : DirM τ δ Unit := do
  let newCluster ← onFat fat.allocCluster
  let d ← getDir
  onFat (fat.set d.currentCluster (.next newCluster))
  setDir { d with currentCluster := newCluster, clusterOffset := 0 }

/-- `Directory::read_entry_data`: the buffer as the callback fills it. -/
def readEntryData (fat : FatEntries τ) (buffer : List UInt8)
    (readData : Nat → Nat → List UInt8 → Fallible FatError δ (List UInt8)) :
    DirM τ δ (List UInt8) := do
  let d ← getDir
  let filled ← onData (readData d.currentCluster d.clusterOffset buffer)
  -- at the end of the chain the offset keeps growing
  advance fat buffer.length (pure ())
  pure filled

/-- The `while` loop of `read_entry` over long name records, with the records collected
so far. -/
def lfnLoop (fat : FatEntries τ)
    (readData : Nat → Nat → List UInt8 → Fallible FatError δ (List UInt8))
    (entryData : List UInt8) : Nat → List LongNameEntry → DirM τ δ (Option DirectoryEntry)
  | 0, _ => abort
  | fuel + 1, lfnEntries => do
    let last ← ofOption lfnEntries.getLast?
    if last.isLast then
      let _nextEntryData ← readEntryData fat (List.replicate 32 0) readData
      -- the source casts `entry_data` here, not `next_entry_data`
      let nextEntry := DirEntry.ofBytes entryData
      if nextEntry.isLongName then
        lfnLoop fat readData entryData fuel (lfnEntries ++ [LongNameEntry.ofBytes entryData])
      else
        let longName ← MonadExcept.ofExcept (buildLongFilename lfnEntries)
        pure (some ⟨nextEntry, some longName⟩)
    else throw .invalidDirEntry

/-- `Directory::read_entry`. -/
def readEntry (fat : FatEntries τ)
    (readData : Nat → Nat → List UInt8 → Fallible FatError δ (List UInt8)) :
    Nat → DirM τ δ (Option DirectoryEntry)
  | 0 => abort
  | fuel + 1 => do
    let entryData ← readEntryData fat (List.replicate 32 0) readData
    if entryData.getD 0 0 = DirEntry.endOfEntries then pure none
    else if entryData.getD 0 0 = DirEntry.deletedEntry then
      -- skip a deleted record
      let d ← getDir
      setDir { d with position := d.position + 1 }
      readEntry fat readData fuel
    else
      let entry := DirEntry.ofBytes entryData
      if entry.isLongName then
        let longEntry := LongNameEntry.ofBytes entryData
        lfnLoop fat readData entryData fuel [longEntry]
      else
        let d ← getDir
        setDir { d with position := d.position + 1 }
        pure (some ⟨entry, none⟩)

/-- `DirEntryIterator::next`. -/
def iteratorNext (fat : FatEntries τ)
    (readData : Nat → Nat → List UInt8 → Fallible FatError δ (List UInt8)) (fuel : Nat) :
    DirM τ δ (Option (Except FatError DirectoryEntry)) :=
  tryCatch (do
      match ← readEntry fat readData fuel with
      | some entry => pure (some (.ok entry))
      | none => pure none)
    fun e => pure (some (.error e))

/-- The `for j in 0..CHARS_PER_ENTRY` loop of `write_entry`: the units of the name from
`startIdx`, then `0x0000`, and `0xFFFF` in the last place. -/
def fillLoop (chars : List UInt16) (startIdx : Nat) :
    List Nat → LongNameEntry → Except FatError LongNameEntry
  | [], lfnEntry => .ok lfnEntry
  | j :: js, lfnEntry => do
    let charIdx := startIdx + j
    let lfnEntry ←
      if h : charIdx < chars.length then lfnEntry.setName j chars[charIdx]
      else if j < LongNameEntry.charsPerEntry - 1 then lfnEntry.setName j 0
      else lfnEntry.setName j 0xFFFF
    fillLoop chars startIdx js lfnEntry

/-- The long name record `i` of a name. -/
def lfnEntryAt (chars : List UInt16) (lfnEntriesCount : Nat) (checksum : UInt8) (i : Nat) :
    Except FatError LongNameEntry :=
  let seqNum := lfnEntriesCount - i
  let isLast := i == 0
  let lfnEntry := LongNameEntry.new seqNum.toUInt8 checksum isLast
  fillLoop chars (i * LongNameEntry.charsPerEntry) (List.range LongNameEntry.charsPerEntry)
    lfnEntry

/-- The `for i in 0..lfn_entries_count` loop of `write_entry`. -/
def writeLfnLoop (fat : FatEntries τ)
    (writeData : Nat → Nat → List UInt8 → Fallible FatError δ Unit) (chars : List UInt16)
    (lfnEntriesCount : Nat) (checksum : UInt8) : List Nat → DirM τ δ Unit
  | [] => pure ()
  | i :: is => do
    let lfnEntry ← MonadExcept.ofExcept (lfnEntryAt chars lfnEntriesCount checksum i)
    let lfnBuffer := lfnEntry.toBytes
    let d ← getDir
    onData (writeData d.currentCluster d.clusterOffset lfnBuffer)
    advance fat lfnBuffer.length (extendChain fat)
    writeLfnLoop fat writeData chars lfnEntriesCount checksum is

/-- The first half of `write_entry`: the long name records, if there is a long name. -/
def writeLongName (fat : FatEntries τ) (entry : DirectoryEntry)
    (writeData : Nat → Nat → List UInt8 → Fallible FatError δ Unit) : DirM τ δ Unit :=
  match entry.longName with
  | some longName => do
    let chars := encodeUtf16 longName
    let lfnEntriesCount ← ofOption (narrowChecked 8 (lfnEntriesCount chars))
    let checksum := calcShortNameChecksum entry.shortEntry.filenameRaw
    writeLfnLoop fat writeData chars lfnEntriesCount checksum (List.range lfnEntriesCount)
  | none => pure ()

/-- The second half of `write_entry`: the short record. -/
def writeShortEntry (fat : FatEntries τ) (entry : DirectoryEntry)
    (writeData : Nat → Nat → List UInt8 → Fallible FatError δ Unit) : DirM τ δ Unit := do
  let entryBuffer := entry.shortEntry.toBytes
  let d ← getDir
  onData (writeData d.currentCluster d.clusterOffset entryBuffer)
  advance fat entryBuffer.length (pure ())

/-- `Directory::write_entry`. -/
def writeEntry (fat : FatEntries τ) (entry : DirectoryEntry)
    (writeData : Nat → Nat → List UInt8 → Fallible FatError δ Unit) : DirM τ δ Unit := do
  writeLongName fat entry writeData
  writeShortEntry fat entry writeData

/-! ## §3 What `read_entry` Returns -/

section Read

variable (fat : FatEntries τ) (readData : Nat → Nat → List UInt8 → Fallible FatError δ (List UInt8))

/-- A long name record that carries `LAST_ENTRY`, cast both ways. -/
def LastLong (b : List UInt8) : Prop :=
  (DirEntry.ofBytes b).isLongName = true ∧ (LongNameEntry.ofBytes b).isLast = true

/-- One turn of the long name loop when the last record collected carries `LAST_ENTRY` and
`entry_data` is a long name record: a read, and the loop again with one more copy of the
first record. -/
theorem lfnLoop_succ_of_last {entryData : List UInt8}
    (hlong : (DirEntry.ofBytes entryData).isLongName = true) {lfnEntries : List LongNameEntry}
    {last : LongNameEntry} (hl : lfnEntries.getLast? = some last) (hlast : last.isLast = true)
    (fuel : Nat) :
    lfnLoop fat readData entryData (fuel + 1) lfnEntries =
      readEntryData fat (List.replicate 32 0) readData >>= fun _ =>
        lfnLoop fat readData entryData fuel (lfnEntries ++ [LongNameEntry.ofBytes entryData]) := by
  simp only [lfnLoop, hl, ofOption_some, pure_bind, hlast, hlong, if_true]

/-- **The long name loop never returns an entry**, for every fuel: from a first record that
is a long name record with `LAST_ENTRY`, each turn appends a copy of it, so the last record
collected always carries the flag, and the loop ends only by a failed read or a panic. -/
theorem lfnLoop_ne_some {entryData : List UInt8} (hfirst : LastLong entryData) (fuel : Nat) :
    ∀ (lfnEntries : List LongNameEntry), lfnEntries.getLast? = some (LongNameEntry.ofBytes entryData) →
      ∀ s d s', (lfnLoop fat readData entryData fuel lfnEntries).run s ≠ some (.ok (some d), s') := by
  induction fuel with
  | zero =>
    intro lfnEntries _ s d s' h
    cases h
  | succ fuel ih =>
    intro lfnEntries hl s d s' h
    rw [lfnLoop_succ_of_last fat readData hfirst.1 hl hfirst.2, run_bind_eq_ok] at h
    obtain ⟨_, s₁, -, hrest⟩ := h
    exact ih _ List.getLast?_concat s₁ d s' hrest

/-- **`read_entry` returns no entry** when the record at the cursor is the end of the
directory or a long name record with `LAST_ENTRY`. -/
theorem readEntry_ne_some {s : DirSys τ δ}
    (hfirst : ∀ b s₁, (readEntryData fat (List.replicate 32 0) readData).run s = some (.ok b, s₁) →
      b.getD 0 0 = DirEntry.endOfEntries ∨ (b.getD 0 0 ≠ DirEntry.deletedEntry ∧ LastLong b))
    (fuel : Nat) (d : DirectoryEntry) (s' : DirSys τ δ) :
    (readEntry fat readData fuel).run s ≠ some (.ok (some d), s') := by
  intro h
  cases fuel with
  | zero => cases h
  | succ fuel =>
    rw [readEntry, run_bind_eq_ok] at h
    obtain ⟨b, s₁, hb, h⟩ := h
    by_cases hend : b.getD 0 0 = DirEntry.endOfEntries
    · -- the end of the directory: `Ok(None)`
      rw [if_pos hend] at h
      cases h
    · obtain ⟨hdel, hlast⟩ := (hfirst b s₁ hb).resolve_left hend
      rw [if_neg hend, if_neg hdel] at h
      simp only [hlast.1, if_true] at h
      exact lfnLoop_ne_some fat readData hlast fuel _ List.getLast?_singleton s₁ d s' h

/-- The cursor is on a cluster that ends its chain. -/
def AtEnd (s : DirSys τ δ) : Prop := fat.get s.fat s.dir.currentCluster = .ok .endOfChain

/-- On the last cluster of its chain the cursor step keeps the cluster: it panics on the
`u32` offset, or moves the offset alone, past the end of the cluster too. -/
theorem advance_atEnd {s : DirSys τ δ} (len : Nat) (hend : AtEnd fat s) :
    (advance fat len (pure ())).run s = none ∨
      (advance fat len (pure ())).run s =
        some (.ok (), { s with dir := { s.dir with clusterOffset := s.dir.clusterOffset + len } }) := by
  by_cases hfit : s.dir.clusterOffset + len < 2 ^ 32
  · -- the offset fits its `u32`; past the cluster the entry is the end of the chain
    have hadd : addChecked 32 s.dir.clusterOffset len = some (s.dir.clusterOffset + len) :=
      if_pos hfit
    right
    by_cases hge : s.dir.bytesPerCluster ≤ s.dir.clusterOffset + len
    · simp only [advance, getDir, setDir, getEntry, run_bind, run_getThe, run_pure, hadd,
        run_ofOption_some, run_modifyThe, ge_iff_le, if_pos hge]
      rw [AtEnd] at hend
      simp [hend]
    · simp only [advance, getDir, setDir, run_bind, run_getThe, run_pure, hadd,
        run_ofOption_some, run_modifyThe, ge_iff_le, if_neg hge]
  · have hadd : addChecked 32 s.dir.clusterOffset len = none := if_neg hfit
    left
    simp only [advance, getDir, run_bind, run_getThe, run_pure, hadd, run_ofOption_none]

/-- On the last cluster of its chain, a read that the callback answers panics or returns
the record, with the cursor still on that cluster. -/
theorem readEntryData_atEnd {s : DirSys τ δ} {b : List UInt8} {e : δ} (hend : AtEnd fat s)
    (hread : (readData s.dir.currentCluster s.dir.clusterOffset (List.replicate 32 0)).run s.data =
      some (.ok b, e)) :
    (readEntryData fat (List.replicate 32 0) readData).run s = none ∨
      ∃ s₁, (readEntryData fat (List.replicate 32 0) readData).run s = some (.ok b, s₁) ∧
        AtEnd fat s₁ := by
  simp only [readEntryData, getDir, run_bind, run_getThe, run_pure, onData, run_focus,
    hread, Option.map_some, List.length_replicate]
  rcases advance_atEnd fat 32 (s := { s with data := e }) hend with h | h
  · left
    rw [h]
  · right
    exact ⟨{ s with data := e, dir := { s.dir with clusterOffset := s.dir.clusterOffset + 32 } },
      by rw [h], hend⟩

/-- On the last cluster of its chain, with a callback that always answers, the long name
loop from a record with `LAST_ENTRY` never stops: every fuel runs out, or the offset
overflows. -/
theorem lfnLoop_atEnd_none {entryData : List UInt8} (hfirst : LastLong entryData)
    (hread : ∀ c o e, ∃ b e', (readData c o (List.replicate 32 0)).run e = some (.ok b, e')) :
    ∀ fuel (lfnEntries : List LongNameEntry) (s : DirSys τ δ),
      lfnEntries.getLast? = some (LongNameEntry.ofBytes entryData) → AtEnd fat s →
      (lfnLoop fat readData entryData fuel lfnEntries).run s = none := by
  intro fuel
  induction fuel with
  | zero => intro _ _ _ _; rfl
  | succ fuel ih =>
    intro lfnEntries s hl hend
    obtain ⟨b, e, hb⟩ := hread s.dir.currentCluster s.dir.clusterOffset s.data
    rw [lfnLoop_succ_of_last fat readData hfirst.1 hl hfirst.2, run_bind]
    rcases readEntryData_atEnd fat readData hend hb with h | ⟨s₁, h, hend₁⟩
    · rw [h]
    · rw [h]
      exact ih _ s₁ List.getLast?_concat hend₁

/-- On the last cluster of its chain, with a callback that answers every read with a
deleted record or a long name record with `LAST_ENTRY`, `read_entry` never returns. -/
theorem readEntry_atEnd_none
    (hread : ∀ c o e, ∃ b e', (readData c o (List.replicate 32 0)).run e = some (.ok b, e') ∧
      b.getD 0 0 ≠ DirEntry.endOfEntries ∧ (b.getD 0 0 = DirEntry.deletedEntry ∨ LastLong b)) :
    ∀ fuel (s : DirSys τ δ), AtEnd fat s → (readEntry fat readData fuel).run s = none := by
  intro fuel
  induction fuel with
  | zero => intro _ _; rfl
  | succ fuel ih =>
    intro s hend
    obtain ⟨b, e, hb, hnot, hkind⟩ := hread s.dir.currentCluster s.dir.clusterOffset s.data
    rw [readEntry, run_bind]
    rcases readEntryData_atEnd fat readData hend hb with h | ⟨s₁, h, hend₁⟩
    · rw [h]
    · rw [h]
      dsimp only
      rw [if_neg hnot]
      by_cases hdel : b.getD 0 0 = DirEntry.deletedEntry
      · -- a deleted record: the recursion, from a cursor still on the last cluster
        rw [if_pos hdel]
        simp only [getDir, setDir, run_bind, run_getThe, run_modifyThe]
        exact ih _ hend₁
      · -- a long name record with `LAST_ENTRY`: the long name loop
        have hlast := hkind.resolve_left hdel
        rw [if_neg hdel]
        simp only [hlast.1, if_true]
        exact lfnLoop_atEnd_none fat readData hlast
          (fun c o e => (hread c o e).imp fun _ ⟨e', h, _⟩ => ⟨e', h⟩) fuel _ s₁
          List.getLast?_singleton hend₁

theorem readEntry_past_end_never_returns {first bytesPerCluster : Nat} {t : τ} {d : Directory}
    {data : δ} (hnew : Directory.new fat t first bytesPerCluster = .ok d)
    (hend : fat.get t first = .ok .endOfChain)
    (hread : ∀ c o e, ∃ b e', (readData c o (List.replicate 32 0)).run e = some (.ok b, e') ∧
      b.getD 0 0 ≠ DirEntry.endOfEntries ∧ (b.getD 0 0 = DirEntry.deletedEntry ∨ LastLong b))
    (fuel : Nat) : (readEntry fat readData fuel).run ⟨t, d, data⟩ = none := by
  unfold Directory.new at hnew
  split at hnew
  · cases hnew
  · cases hnew
    exact readEntry_atEnd_none fat readData hread fuel _ hend

end Read

/-- A callback that reads every record as deleted. -/
def readDeleted (_ _ : Nat) (buffer : List UInt8) : Fallible FatError Unit (List UInt8) :=
  pure (buffer.map fun _ => DirEntry.deletedEntry)

theorem readEntry_past_end_never_returns_deleted :
    (readEntry FatTable.entries readDeleted 4096).run ⟨twoClusters, ⟨3, 0, 512, 3, 0⟩, ()⟩ = none :=
  readEntry_past_end_never_returns FatTable.entries readDeleted
    (show Directory.new FatTable.entries twoClusters 3 512 = .ok ⟨3, 0, 512, 3, 0⟩ from rfl)
    (show FatTable.entries.get twoClusters 3 = .ok .endOfChain from rfl)
    (fun _ _ _ => ⟨_, _, rfl, by decide, .inl (by decide)⟩) 4096

/-! ## §4 What `write_entry` Leaves on a Disk

The record at the cursor once `write_entry` is done, for the callbacks of `Disk`, which
store bytes by cluster and offset. With room in the cluster for every record, no write
moves to another cluster, and every write after the first lands past it. -/

section Write

variable (fat : FatEntries τ)

/-- What `Disk.readData` returns for one record at `offset` of `cluster`. -/
def recordAt (d : Disk) (cluster offset : Nat) : List UInt8 :=
  (List.range 32).map fun k => d.bytes cluster (offset + k)

/-- A record at which `read_entry` finds no entry. -/
def EndsRead (b : List UInt8) : Prop :=
  b.getD 0 0 = DirEntry.endOfEntries ∨ (b.getD 0 0 ≠ DirEntry.deletedEntry ∧ LastLong b)

theorem fillLoop_ok (chars : List UInt16) (startIdx : Nat) :
    ∀ (js : List Nat) (lfnEntry : LongNameEntry), (∀ j ∈ js, j < LongNameEntry.charsPerEntry) →
      ∃ e, fillLoop chars startIdx js lfnEntry = .ok e ∧ e.seqNum = lfnEntry.seqNum ∧
        e.attr = lfnEntry.attr := by
  intro js
  induction js with
  | nil => exact fun lfnEntry _ => ⟨lfnEntry, rfl, rfl, rfl⟩
  | cons j js ih =>
    intro lfnEntry hjs
    have hj := hjs j List.mem_cons_self
    -- each of the three stores is a `set_name` of unit `j`, followed by the rest of the loop
    have hstore : ∀ ch, ∃ e, (lfnEntry.setName j ch >>= fillLoop chars startIdx js) = .ok e ∧
        e.seqNum = lfnEntry.seqNum ∧ e.attr = lfnEntry.attr := by
      intro ch
      obtain ⟨e₁, he₁, hseq₁, hattr₁⟩ := lfnEntry.setName_ok hj ch
      obtain ⟨e, he, hseq, hattr⟩ := ih e₁ fun j' hj' => hjs j' (List.mem_cons_of_mem _ hj')
      refine ⟨e, ?_, hseq.trans hseq₁, hattr.trans hattr₁⟩
      rw [he₁]
      exact he
    simp only [fillLoop]
    split_ifs
    · exact hstore _
    · exact hstore 0
    · exact hstore 0xFFFF

/-- Record `i` of a long name keeps the sequence number and the attributes `new` gives it. -/
theorem lfnEntryAt_ok (chars : List UInt16) (lfnEntriesCount : Nat) (checksum : UInt8) (i : Nat) :
    ∃ e, lfnEntryAt chars lfnEntriesCount checksum i = .ok e ∧
      e.seqNum = (LongNameEntry.new (lfnEntriesCount - i).toUInt8 checksum (i == 0)).seqNum ∧
      e.attr = Attributes.longName :=
  fillLoop_ok chars _ _ _ fun _ hj => List.mem_range.mp hj

/-- A write of `Disk` stores the slice and leaves every byte before it. -/
theorem Disk.writeData_run (d : Disk) (cluster offset : Nat) (slice : List UInt8) :
    ∃ d', (Disk.writeData cluster offset slice).run d = some (.ok (), d') ∧
      (∀ k < slice.length, d'.bytes cluster (offset + k) = slice.getD k 0) ∧
      ∀ o < offset, d'.bytes cluster o = d.bytes cluster o := by
  refine ⟨_, rfl, fun k hk => ?_, fun o ho => ?_⟩
  · show (if cluster = cluster ∧ offset ≤ offset + k ∧ offset + k < offset + slice.length
      then slice.getD (offset + k - offset) 0 else d.bytes cluster (offset + k)) = _
    rw [if_pos ⟨rfl, Nat.le_add_right _ _, Nat.add_lt_add_left hk _⟩, Nat.add_sub_cancel_left]
  · show (if cluster = cluster ∧ offset ≤ o ∧ o < offset + slice.length
      then slice.getD (o - offset) 0 else d.bytes cluster o) = _
    rw [if_neg fun h => absurd h.2.1 (Nat.not_le_of_lt ho)]

theorem Disk.readData_run (d : Disk) (cluster offset : Nat) :
    ∃ d', (Disk.readData cluster offset (List.replicate 32 0)).run d =
      some (.ok (recordAt d cluster offset), d') :=
  ⟨_, rfl⟩

/-- The cursor step inside the cluster. -/
theorem advance_of_lt {δ : Type} (len : Nat) (atEnd : DirM τ δ Unit) {s : DirSys τ δ}
    (hlt : s.dir.clusterOffset + len < s.dir.bytesPerCluster) (hbpc : s.dir.bytesPerCluster < 2 ^ 32) :
    (advance fat len atEnd).run s =
      some (.ok (), { s with dir := { s.dir with clusterOffset := s.dir.clusterOffset + len } }) := by
  have hadd : addChecked 32 s.dir.clusterOffset len = some (s.dir.clusterOffset + len) :=
    if_pos (by omega)
  simp only [advance, getDir, setDir, run_bind, run_getThe, run_pure, hadd, run_ofOption_some,
    run_modifyThe, if_neg (Nat.not_le_of_lt hlt)]

/-- The cursor step never writes to the callbacks' state. -/
theorem advance_keeps_data {δ : Type} {len : Nat} {atEnd : DirM τ δ Unit} {D : δ}
    (hatEnd : Keeps (fun s : DirSys τ δ => s.data = D) atEnd) :
    Keeps (fun s : DirSys τ δ => s.data = D) (advance fat len atEnd) := by
  unfold advance getDir setDir getEntry
  refine Keeps.bind (Keeps.getThe_bind fun _ _ => Keeps.pure _) fun d => ?_
  refine Keeps.bind (Keeps.ofOption _) fun clusterOffset => ?_
  refine Keeps.bind (Keeps.modifyThe fun _ h => h) fun _ => Keeps.ite ?_ (Keeps.pure _)
  refine Keeps.bind (Keeps.getThe_bind fun _ _ => Keeps.ofExcept _) fun entry => ?_
  cases entry with
  | next next => exact Keeps.modifyThe fun _ h => h
  | endOfChain => exact hatEnd
  | free => exact Keeps.throw _
  | bad => exact Keeps.throw _
  | reserved => exact Keeps.throw _

theorem extendChain_keeps_data {δ : Type} {D : δ} :
    Keeps (fun s : DirSys τ δ => s.data = D) (extendChain fat) := by
  unfold extendChain getDir setDir onFat
  refine Keeps.bind (Keeps.focus _ fun _ _ h => h) fun _ => ?_
  refine Keeps.bind (Keeps.getThe_bind fun _ _ => Keeps.pure _) fun _ => ?_
  exact Keeps.bind (Keeps.focus _ fun _ _ h => h) fun _ => Keeps.modifyThe fun _ h => h

/-- One turn of the long name loop inside the cluster: the record is stored at the cursor,
and the cursor moves past it. -/
theorem writeLfnLoop_cons_disk {chars : List UInt16} {lfnEntriesCount : Nat} {checksum : UInt8}
    {i : Nat} (is : List Nat) {e : LongNameEntry}
    (he : lfnEntryAt chars lfnEntriesCount checksum i = .ok e) {s : DirSys τ Disk}
    (hlt : s.dir.clusterOffset + 32 < s.dir.bytesPerCluster) (hbpc : s.dir.bytesPerCluster < 2 ^ 32) :
    ∃ d₁ : Disk, (∀ k < 32, d₁.bytes s.dir.currentCluster (s.dir.clusterOffset + k) = e.toBytes.getD k 0) ∧
      (∀ o < s.dir.clusterOffset, d₁.bytes s.dir.currentCluster o = s.data.bytes s.dir.currentCluster o) ∧
      (writeLfnLoop fat Disk.writeData chars lfnEntriesCount checksum (i :: is)).run s =
        (writeLfnLoop fat Disk.writeData chars lfnEntriesCount checksum is).run
          { s with data := d₁, dir := { s.dir with clusterOffset := s.dir.clusterOffset + 32 } } := by
  obtain ⟨d₁, hw, hbytes, hkeep⟩ :=
    Disk.writeData_run s.data s.dir.currentCluster s.dir.clusterOffset e.toBytes
  rw [e.length_toBytes] at hbytes
  refine ⟨d₁, hbytes, hkeep, ?_⟩
  have hadv := advance_of_lt fat 32 (extendChain fat) (s := { s with data := d₁ }) hlt hbpc
  simp only [writeLfnLoop, he, run_bind, run_ofExcept_ok, getDir, run_getThe, run_pure, onData,
    run_focus, hw, Option.map_some, e.length_toBytes, hadv]

/-- **The long name loop inside the cluster**: with room for its records and one more, it
succeeds, moves the cursor past its records, and leaves every byte before the cursor. -/
theorem writeLfnLoop_disk (chars : List UInt16) (lfnEntriesCount : Nat) (checksum : UInt8) :
    ∀ (is : List Nat) (s : DirSys τ Disk),
      s.dir.clusterOffset + 32 * (is.length + 1) ≤ s.dir.bytesPerCluster →
      s.dir.bytesPerCluster < 2 ^ 32 →
      ∃ s', (writeLfnLoop fat Disk.writeData chars lfnEntriesCount checksum is).run s =
          some (.ok (), s') ∧
        s'.dir = { s.dir with clusterOffset := s.dir.clusterOffset + 32 * is.length } ∧
        ∀ o < s.dir.clusterOffset,
          s'.data.bytes s.dir.currentCluster o = s.data.bytes s.dir.currentCluster o := by
  intro is
  induction is with
  | nil => exact fun s _ _ => ⟨s, rfl, rfl, fun _ _ => rfl⟩
  | cons i is ih =>
    intro s hroom hbpc
    rw [List.length_cons] at hroom
    obtain ⟨e, he, -, -⟩ := lfnEntryAt_ok chars lfnEntriesCount checksum i
    obtain ⟨d₁, -, hkeep₁, hstep⟩ := writeLfnLoop_cons_disk fat is he (s := s)
      (by omega) hbpc
    obtain ⟨s', hrun, hdir, hframe⟩ :=
      ih { s with data := d₁, dir := { s.dir with clusterOffset := s.dir.clusterOffset + 32 } }
        (by dsimp only; omega) hbpc
    refine ⟨s', hstep.trans hrun, ?_, fun o ho => ?_⟩
    · rw [hdir, List.length_cons]
      dsimp only
      congr 1
      omega
    · rw [hframe o (by dsimp only; omega)]
      exact hkeep₁ o ho

/-- The short record lands at the cursor, and nothing after it writes to the disk. -/
theorem writeShortEntry_disk (entry : DirectoryEntry) {s s' : DirSys τ Disk}
    {r : Except FatError Unit} (h : (writeShortEntry fat entry Disk.writeData).run s = some (r, s')) :
    (∀ k < 32, s'.data.bytes s.dir.currentCluster (s.dir.clusterOffset + k) =
      entry.shortEntry.toBytes.getD k 0) ∧
    ∀ o < s.dir.clusterOffset, s'.data.bytes s.dir.currentCluster o = s.data.bytes s.dir.currentCluster o := by
  obtain ⟨d₁, hw, hbytes, hkeep⟩ :=
    Disk.writeData_run s.data s.dir.currentCluster s.dir.clusterOffset entry.shortEntry.toBytes
  rw [entry.shortEntry.length_toBytes] at hbytes
  simp only [writeShortEntry, getDir, run_bind, run_getThe, run_pure, onData, run_focus, hw,
    Option.map_some] at h
  have hdata : s'.data = d₁ := advance_keeps_data fat (Keeps.pure _) _ _ _ rfl h
  rw [hdata]
  exact ⟨hbytes, hkeep⟩

/-- A record of `read_entry_data` on `Disk` is the one at the cursor. -/
theorem readEntryData_disk {s s₁ : DirSys τ Disk} {b : List UInt8}
    (h : (readEntryData fat (List.replicate 32 0) Disk.readData).run s = some (.ok b, s₁)) :
    b = recordAt s.data s.dir.currentCluster s.dir.clusterOffset := by
  obtain ⟨d', hread⟩ := Disk.readData_run s.data s.dir.currentCluster s.dir.clusterOffset
  simp only [readEntryData, getDir, run_bind, run_getThe, run_pure, onData, run_focus, hread,
    Option.map_some] at h
  -- the cursor step fails, panics, or lets the record through
  split at h
  · cases h
  · cases h
    rfl
  · cases h

/-- What `DirectoryEntry::new` builds: the long name, and a short record whose name is
still the zero name of `DirEntry::new`. -/
theorem DirectoryEntry.new_eq {name : String} {attributes : Attributes} {entry : DirectoryEntry}
    (h : DirectoryEntry.new name attributes = some entry) :
    entry.longName = some name ∧ entry.shortEntry.name = Vector.replicate 8 0 := by
  have hdate : ∃ today, Date.new 2025 1 1 = some today := ⟨_, rfl⟩
  have htime : ∃ now, Time.new 0 0 0 0 = some now := ⟨_, rfl⟩
  obtain ⟨today, hd⟩ := hdate
  obtain ⟨now, ht⟩ := htime
  simp only [DirectoryEntry.new, hd, ht, Option.bind_eq_bind, Option.bind_some, Option.pure_def,
    Option.some.injEq] at h
  subst h
  exact ⟨rfl, rfl⟩

/-- A name of at most 255 units has at most twenty long name records. -/
theorem lfnEntriesCount_le {chars : List UInt16} (h : chars.length ≤ 255) :
    lfnEntriesCount chars ≤ 20 := by
  unfold lfnEntriesCount LongNameEntry.charsPerEntry
  omega

theorem lfnEntriesCount_pos {chars : List UInt16} (h : 0 < chars.length) :
    0 < lfnEntriesCount chars := by
  unfold lfnEntriesCount LongNameEntry.charsPerEntry
  omega

/-- **The long name records of a non-empty name, inside the cluster**: the first, with
`LAST_ENTRY` and the count as sequence number, is at the cursor, and the cursor ends past
the last one. -/
theorem writeLongName_disk {entry : DirectoryEntry} {name : String}
    (hname : entry.longName = some name) (hpos : 0 < (encodeUtf16 name).length)
    (hlen : (encodeUtf16 name).length ≤ 255) {s : DirSys τ Disk}
    (hroom : s.dir.clusterOffset + 32 * (lfnEntriesCount (encodeUtf16 name) + 1) ≤
      s.dir.bytesPerCluster)
    (hbpc : s.dir.bytesPerCluster < 2 ^ 32) :
    ∃ (s₂ : DirSys τ Disk) (first : LongNameEntry),
      (writeLongName fat entry Disk.writeData).run s = some (.ok (), s₂) ∧
      s₂.dir = { s.dir with clusterOffset :=
        s.dir.clusterOffset + 32 * lfnEntriesCount (encodeUtf16 name) } ∧
      (∀ k < 32, s₂.data.bytes s.dir.currentCluster (s.dir.clusterOffset + k) =
        first.toBytes.getD k 0) ∧
      first.seqNum = (lfnEntriesCount (encodeUtf16 name)).toUInt8 ||| LongNameEntry.lastEntry ∧
      first.attr = Attributes.longName := by
  have hcount := lfnEntriesCount_pos hpos
  have hnarrow : narrowChecked 8 (lfnEntriesCount (encodeUtf16 name)) =
      some (lfnEntriesCount (encodeUtf16 name)) :=
    narrowChecked_of_lt (Nat.lt_of_le_of_lt (lfnEntriesCount_le hlen) (by decide))
  -- the loop starts with record `0`, the one with `LAST_ENTRY`
  have hrange : List.range (lfnEntriesCount (encodeUtf16 name)) =
      0 :: List.range' 1 (lfnEntriesCount (encodeUtf16 name) - 1) := by
    obtain ⟨m, hm⟩ : ∃ m, lfnEntriesCount (encodeUtf16 name) = m + 1 :=
      ⟨_, (Nat.succ_pred_eq_of_pos hcount).symm⟩
    rw [hm, List.range_eq_range', List.range'_succ, Nat.add_sub_cancel]
  obtain ⟨first, hfirst, hseq, hattr⟩ := lfnEntryAt_ok (encodeUtf16 name)
    (lfnEntriesCount (encodeUtf16 name))
    (calcShortNameChecksum entry.shortEntry.filenameRaw) 0
  obtain ⟨d₁, hbytes₁, -, hstep⟩ := writeLfnLoop_cons_disk fat
    (List.range' 1 (lfnEntriesCount (encodeUtf16 name) - 1)) hfirst (s := s) (by omega) hbpc
  obtain ⟨s₂, hrun, hdir, hframe⟩ := writeLfnLoop_disk fat (encodeUtf16 name)
    (lfnEntriesCount (encodeUtf16 name)) (calcShortNameChecksum entry.shortEntry.filenameRaw)
    (List.range' 1 (lfnEntriesCount (encodeUtf16 name) - 1))
    { s with data := d₁, dir := { s.dir with clusterOffset := s.dir.clusterOffset + 32 } }
    (by rw [List.length_range']; dsimp only; omega) hbpc
  refine ⟨s₂, first, ?_, ?_, fun k hk => ?_, ?_, hattr⟩
  · simp only [writeLongName, hname, run_bind, hnarrow, run_ofOption_some]
    rw [hrange, hstep, hrun]
  · rw [hdir, List.length_range']
    dsimp only
    congr 1
    omega
  · rw [hframe (s.dir.clusterOffset + k) (by dsimp only; omega)]
    exact hbytes₁ k hk
  · rw [hseq]
    rfl

theorem recordAt_getD (d : Disk) (cluster offset : Nat) {k : Nat} (hk : k < 32) :
    (recordAt d cluster offset).getD k 0 = d.bytes cluster (offset + k) := by
  simp [recordAt, List.getD_eq_getElem?_getD, hk]

/-- The first long name record of a name of at most twenty records is neither free nor
deleted, and carries `LAST_ENTRY`. -/
theorem first_seqNum_of_le {n : Nat} (hn : n ≤ 20) :
    ((n.toUInt8 ||| LongNameEntry.lastEntry) &&& LongNameEntry.lastEntry != 0) = true ∧
      n.toUInt8 ||| LongNameEntry.lastEntry ≠ DirEntry.deletedEntry ∧
      n.toUInt8 ||| LongNameEntry.lastEntry ≠ DirEntry.endOfEntries := by
  revert n
  decide

/-- **What `write_entry` of a new entry leaves at the cursor**, with room in the cluster for
its records: a record at which `read_entry` finds no entry. -/
theorem writeEntry_endsRead {name : String} {attributes : Attributes} {entry : DirectoryEntry}
    (he : DirectoryEntry.new name attributes = some entry) (hlen : (encodeUtf16 name).length ≤ 255)
    {s : DirSys τ Disk}
    (hroom : s.dir.clusterOffset + 32 * (lfnEntriesCount (encodeUtf16 name) + 1) ≤
      s.dir.bytesPerCluster)
    (hbpc : s.dir.bytesPerCluster < 2 ^ 32) {r : Except FatError Unit} {s' : DirSys τ Disk}
    (hw : (writeEntry fat entry Disk.writeData).run s = some (r, s')) :
    EndsRead (recordAt s'.data s.dir.currentCluster s.dir.clusterOffset) := by
  obtain ⟨hname, hzero⟩ := DirectoryEntry.new_eq he
  unfold writeEntry at hw
  rw [run_bind] at hw
  by_cases hpos : 0 < (encodeUtf16 name).length
  · -- a long name: its first record stays at the cursor
    obtain ⟨s₂, first, hlong, hdir, hbytes, hseq, hattr⟩ :=
      writeLongName_disk fat hname hpos hlen hroom hbpc
    rw [hlong] at hw
    have hkeep := (writeShortEntry_disk fat entry hw).2
    rw [hdir] at hkeep
    have hrec : ∀ k < 32, (recordAt s'.data s.dir.currentCluster s.dir.clusterOffset).getD k 0 =
        first.toBytes.getD k 0 := by
      intro k hk
      have hcount := lfnEntriesCount_pos hpos
      rw [recordAt_getD _ _ _ hk, ← hbytes k hk]
      exact hkeep (s.dir.clusterOffset + k) (by dsimp only; omega)
    have hbyte := first_seqNum_of_le (lfnEntriesCount_le hlen)
    refine .inr ⟨?_, ?_, ?_⟩
    · rw [hrec 0 (by decide), LongNameEntry.toBytes_getD_zero, hseq]
      exact hbyte.2.1
    · show ((recordAt s'.data s.dir.currentCluster s.dir.clusterOffset).getD 11 0 &&&
        Attributes.longNameMask == Attributes.longName) = true
      rw [hrec 11 (by decide), LongNameEntry.toBytes_getD_eleven, hattr]
      decide
    · show ((recordAt s'.data s.dir.currentCluster s.dir.clusterOffset).getD 0 0 &&&
        LongNameEntry.lastEntry != 0) = true
      rw [hrec 0 (by decide), LongNameEntry.toBytes_getD_zero, hseq]
      exact hbyte.1
  · -- an empty name: no long name record, and the short record has a zero name
    have hempty : lfnEntriesCount (encodeUtf16 name) = 0 := by
      unfold lfnEntriesCount LongNameEntry.charsPerEntry
      omega
    have hlong : (writeLongName fat entry Disk.writeData).run s = some (.ok (), s) := by
      simp only [writeLongName, hname, hempty, run_bind]
      rfl
    rw [hlong] at hw
    have hbytes := (writeShortEntry_disk fat entry hw).1
    refine .inl ?_
    rw [recordAt_getD _ _ _ (by decide), hbytes 0 (by decide), DirEntry.toBytes_getD_zero, hzero]
    rfl

/-- **`read_entry` after `write_entry` returns no entry**: for every name of at most 255
UTF-16 units, every table and every directory with room in its cluster, reading from the
position the write started at never returns an entry, for any fuel. A non-empty name is read
back as its first long name record over and over; an empty one as the end of the
directory. -/
theorem readEntry_after_writeEntry_ne_some {name : String} {attributes : Attributes}
    {entry : DirectoryEntry} (he : DirectoryEntry.new name attributes = some entry)
    (hlen : (encodeUtf16 name).length ≤ 255) {s : DirSys τ Disk}
    (hroom : s.dir.clusterOffset + 32 * (lfnEntriesCount (encodeUtf16 name) + 1) ≤
      s.dir.bytesPerCluster)
    (hbpc : s.dir.bytesPerCluster < 2 ^ 32) {r : Except FatError Unit} {s' : DirSys τ Disk}
    (hw : (writeEntry fat entry Disk.writeData).run s = some (r, s')) (fuel : Nat)
    (d : DirectoryEntry) (s'' : DirSys τ Disk) :
    (readEntry fat Disk.readData fuel).run { s' with dir := s.dir } ≠ some (.ok (some d), s'') := by
  apply readEntry_ne_some
  intro b s₁ hb
  rw [readEntryData_disk fat hb]
  -- elaborated before it meets the goal, so that `hw` fixes the state
  exact (writeEntry_endsRead fat he hlen hroom hbpc hw :)

end Write

/-- A directory at the start of cluster 2 of 512-byte clusters, on an empty disk. -/
def sampleDirSys : DirSys FatTable Disk := ⟨sampleTable, ⟨2, 0, 512, 2, 0⟩, ⟨fun _ _ => 0, []⟩⟩

/-- The entry `DirectoryEntry::new("a", ARCHIVE)` builds. -/
def sampleEntry : DirectoryEntry := (DirectoryEntry.new "a" ⟨0x20⟩).getD ⟨DirEntry.new, none⟩

/-- The name `"a"` written as a new archive entry and read back from the same position: the
write succeeds, and no read returns an entry. -/
theorem readEntry_after_writeEntry_of_a :
    (encodeUtf16 "a").length ≤ 255 ∧
      sampleDirSys.dir.clusterOffset + 32 * (lfnEntriesCount (encodeUtf16 "a") + 1) ≤
        sampleDirSys.dir.bytesPerCluster ∧
      sampleDirSys.dir.bytesPerCluster < 2 ^ 32 ∧
      DirectoryEntry.new "a" ⟨0x20⟩ = some sampleEntry ∧
      ∃ s', (writeEntry FatTable.entries sampleEntry Disk.writeData).run sampleDirSys =
          some (.ok (), s') ∧
        ∀ fuel d s'', (readEntry FatTable.entries Disk.readData fuel).run
          { s' with dir := sampleDirSys.dir } ≠ some (.ok (some d), s'') := by
  have hlen : (encodeUtf16 "a").length ≤ 255 := by decide
  have hroom : sampleDirSys.dir.clusterOffset + 32 * (lfnEntriesCount (encodeUtf16 "a") + 1) ≤
      sampleDirSys.dir.bytesPerCluster := by decide
  have hbpc : sampleDirSys.dir.bytesPerCluster < 2 ^ 32 := by decide
  have he : DirectoryEntry.new "a" ⟨0x20⟩ = some sampleEntry := rfl
  -- the run is evaluated by the kernel alone
  have hok : ((writeEntry FatTable.entries sampleEntry Disk.writeData).run sampleDirSys).map
      (·.1) = some (.ok ()) := by decide +kernel
  obtain ⟨⟨r, s'⟩, hw, hr⟩ := Option.map_eq_some_iff.mp hok
  dsimp only at hr
  subst hr
  exact ⟨hlen, hroom, hbpc, he, s', hw, fun fuel d s'' =>
    readEntry_after_writeEntry_ne_some FatTable.entries he hlen hroom hbpc hw fuel d s''⟩

end Directory

end Beskar.Storage.Fat
