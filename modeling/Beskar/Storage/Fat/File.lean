import Beskar.Storage.Fat.Table

/-!
# FAT Files

`FatFile` of `fs/fat/file.rs`: a cursor over the cluster chain of one file. The file
keeps its position twice, as `position` and as the pair `current_cluster` and
`cluster_offset`, and `seek`, `read`, `write` and `truncate` each move both on their own.

A file works over any `FatEntries` (§1). The data of its clusters is reached through
the callbacks `read_data(cluster, offset, slice)` and `write_data(cluster, offset,
slice)`, modelled as programs over a state `δ` of their own (§2). `Disk` (§4) is the
map from (cluster, offset) to bytes that the tests use, with a log of every call.

`ByteFile` (§4) is what a file should behave as: a byte vector with a position.
`file_diverges_from_byte_model` is a run where the file does not. When `seek` reaches
the end of a chain whose size is a multiple of the cluster size, it sets
`cluster_offset` to `0` instead of the cluster size. The next write then lands on the
first byte of the last cluster. A write that ends on a cluster boundary leaves
`cluster_offset` equal to the cluster size, so the next write calls `write_data` at that
offset.

The loops run with fuel. With `bytes_per_cluster ≥ 1`, a pass that moves no byte moves to
another cluster, and the pass after it moves at least one. Twice the bytes to move, plus
two, is then enough passes.
-/

namespace Beskar.Storage.Fat

open Beskar.Lib Beskar.Lib.Fallible

/-! ## §1 The Table Interface -/

/-- `trait FatEntries`, over the state `τ` of an implementation: the methods a file
calls. -/
structure FatEntries (τ : Type) where
  fatType : τ → FatType
  get : τ → Nat → Except FatError FatEntry
  set : Nat → FatEntry → Fallible FatError τ Unit
  allocCluster : Fallible FatError τ Nat
  freeClusterChain : Nat → Fallible FatError τ Unit

/-- `impl FatEntries for FatTable`. -/
def FatTable.entries : FatEntries FatTable where
  fatType := FatTable.fatType
  get := FatTable.get
  set := FatTable.set
  allocCluster := FatTable.allocCluster
  freeClusterChain := FatTable.freeClusterChain

/-! ## §2 The File -/

/-- `FatFile`, apart from the table it borrows. -/
structure FatFile where
  firstCluster : Nat
  position : Nat
  size : Nat
  bytesPerCluster : Nat
  currentCluster : Nat
  clusterOffset : Nat
deriving DecidableEq, Repr

/-- What the methods of a file change: the table, the file, and the state of the data
callbacks. -/
structure FileSys (τ δ : Type) where
  fat : τ
  file : FatFile
  data : δ

/-- A method of `FatFile`. -/
abbrev FileM (τ δ α : Type) := Fallible FatError (FileSys τ δ) α

namespace FatFile

variable {τ δ : Type}

/-- `self`, as a method reads it. -/
def getFile : FileM τ δ FatFile := do
  return (← getThe (FileSys τ δ)).file

def setFile (f : FatFile) : FileM τ δ Unit :=
  modifyThe (FileSys τ δ) fun s => { s with file := f }

@[simp] theorem run_getFile (s : FileSys τ δ) :
    (getFile : FileM τ δ FatFile).run s = some (.ok s.file, s) := rfl

@[simp] theorem run_setFile (f : FatFile) (s : FileSys τ δ) :
    (setFile f : FileM τ δ Unit).run s = some (.ok (), { s with file := f }) := rfl

/-- A call on `self.fat`. -/
def onFat {α : Type} (x : Fallible FatError τ α) : FileM τ δ α :=
  focus FileSys.fat (fun s t => { s with fat := t }) x

/-- A call of a data callback. -/
def onData {α : Type} (x : Fallible FatError δ α) : FileM τ δ α :=
  focus FileSys.data (fun s d => { s with data := d }) x

/-- `self.fat.get(cluster)?`. -/
def getEntry (fat : FatEntries τ) (cluster : Nat) : FileM τ δ FatEntry := do
  MonadExcept.ofExcept (fat.get (← getThe (FileSys τ δ)).fat cluster)

@[simp] theorem run_getEntry (fat : FatEntries τ) (cluster : Nat) (s : FileSys τ δ) :
    (getEntry fat cluster : FileM τ δ FatEntry).run s = some (fat.get s.fat cluster, s) := by
  cases h : fat.get s.fat cluster <;> simp [getEntry, h]

/-- `FatFile::new`. -/
def new (fat : FatEntries τ) (t : τ) (firstCluster size bytesPerCluster : Nat) :
    Except FatError FatFile :=
  if !Cluster.isValid (fat.fatType t) firstCluster && firstCluster != 0 then
    .error .invalidCluster
  else .ok ⟨firstCluster, 0, size, bytesPerCluster, firstCluster, 0⟩

/-- A new file starts at the first byte of its first cluster. -/
theorem new_eq_ok {fat : FatEntries τ} {t : τ} {firstCluster size bytesPerCluster : Nat}
    {f : FatFile} (h : new fat t firstCluster size bytesPerCluster = .ok f) :
    f = ⟨firstCluster, 0, size, bytesPerCluster, firstCluster, 0⟩ := by
  unfold new at h
  split at h
  · cases h
  · exact (Except.ok.inj h).symm

/-- The `while self.position < position` loop of `seek`. -/
def seekLoop (fat : FatEntries τ) (target : Nat) : Nat → FileM τ δ Unit
  | 0 => abort
  | fuel + 1 => do
    let f ← getFile
    if f.position < target then
      let currentClusterSize := f.bytesPerCluster
      let remainingInCluster ← ofOption (subChecked currentClusterSize f.clusterOffset)
      if f.position + remainingInCluster ≤ target then
        -- skip the entire cluster
        match ← getEntry fat f.currentCluster with
        | .next next =>
          setFile { f with
            currentCluster := next, clusterOffset := 0, position := f.position + remainingInCluster }
          seekLoop fat target fuel
        | .endOfChain =>
          -- the end of the chain: seek to the end of the file
          if currentClusterSize = 0 then abort
          else setFile { f with clusterOffset := f.size % currentClusterSize, position := f.size }
        | _ => throw .invalidCluster
      else
        -- a partial cluster skip
        let delta := target - f.position
        setFile { f with clusterOffset := f.clusterOffset + delta, position := f.position + delta }
    else pure ()

/-- `FatFile::seek`. -/
def seek (fat : FatEntries τ) (position : Nat) : FileM τ δ Nat := do
  let f ← getFile
  -- never beyond the file size
  let position := min position f.size
  -- moving backwards starts from the beginning
  if position < f.position then
    setFile { f with currentCluster := f.firstCluster, clusterOffset := 0, position := 0 }
  seekLoop fat position (position + 2)
  return (← getFile).position

/-- The `while bytes_read < bytes_to_read` loop of `read`, with the bytes read so far and
the buffer. -/
def readLoop (fat : FatEntries τ)
    (readData : Nat → Nat → List UInt8 → Fallible FatError δ (List UInt8)) (bytesToRead : Nat) :
    Nat → Nat → List UInt8 → FileM τ δ (Nat × List UInt8)
  | 0, _, _ => abort
  | fuel + 1, bytesRead, buffer => do
    let f ← getFile
    if bytesRead < bytesToRead then
      let clusterRemaining ← ofOption (subChecked f.bytesPerCluster f.clusterOffset)
      let chunkSize := min (bytesToRead - bytesRead) clusterRemaining
      -- `read_data` fills `buffer[bytes_read..bytes_read + chunk_size]`
      let slice ← onData (readData f.currentCluster f.clusterOffset
        ((buffer.drop bytesRead).take chunkSize))
      let buffer := buffer.take bytesRead ++ slice ++ buffer.drop (bytesRead + chunkSize)
      let bytesRead := bytesRead + chunkSize
      let f := { f with
        position := f.position + chunkSize, clusterOffset := f.clusterOffset + chunkSize }
      setFile f
      if f.clusterOffset ≥ f.bytesPerCluster ∧ bytesRead < bytesToRead then
        match ← getEntry fat f.currentCluster with
        | .next next =>
          setFile { f with currentCluster := next, clusterOffset := 0 }
          readLoop fat readData bytesToRead fuel bytesRead buffer
        -- the end of the file
        | .endOfChain => pure (bytesRead, buffer)
        | _ => throw .invalidCluster
      else readLoop fat readData bytesToRead fuel bytesRead buffer
    else pure (bytesRead, buffer)

/-- `FatFile::read`: the number of bytes read, and the buffer they were read into. -/
def read (fat : FatEntries τ) (buffer : List UInt8)
    (readData : Nat → Nat → List UInt8 → Fallible FatError δ (List UInt8)) :
    FileM τ δ (Nat × List UInt8) := do
  let f ← getFile
  if f.position ≥ f.size then pure (0, buffer)
  else
    let bytesToRead := min buffer.length (f.size - f.position)
    readLoop fat readData bytesToRead (2 * bytesToRead + 2) 0 buffer

/-- The `while bytes_written < write_size` loop of `write`. -/
def writeLoop (fat : FatEntries τ)
    (writeData : Nat → Nat → List UInt8 → Fallible FatError δ Unit) (buffer : List UInt8) :
    Nat → Nat → FileM τ δ Nat
  | 0, _ => abort
  | fuel + 1, bytesWritten => do
    let f ← getFile
    if bytesWritten < buffer.length then
      let clusterRemaining ← ofOption (subChecked f.bytesPerCluster f.clusterOffset)
      let chunkSize := min (buffer.length - bytesWritten) clusterRemaining
      onData (writeData f.currentCluster f.clusterOffset
        ((buffer.drop bytesWritten).take chunkSize))
      let bytesWritten := bytesWritten + chunkSize
      let f := { f with
        position := f.position + chunkSize, clusterOffset := f.clusterOffset + chunkSize }
      -- the file grows when the write passes its end
      let f := if f.position > f.size then { f with size := f.position } else f
      setFile f
      if f.clusterOffset ≥ f.bytesPerCluster ∧ bytesWritten < buffer.length then
        let next ← match ← getEntry fat f.currentCluster with
          | .next next => pure next
          | .endOfChain => do
            -- a new cluster, linked from the current one
            let newCluster ← onFat fat.allocCluster
            onFat (fat.set f.currentCluster (.next newCluster))
            pure newCluster
          | _ => throw .invalidCluster
        setFile { f with currentCluster := next, clusterOffset := 0 }
      writeLoop fat writeData buffer fuel bytesWritten
    else pure bytesWritten

/-- `FatFile::write`. -/
def write (fat : FatEntries τ) (buffer : List UInt8)
    (writeData : Nat → Nat → List UInt8 → Fallible FatError δ Unit) : FileM τ δ Nat := do
  if buffer.isEmpty then pure 0
  else do
    let f ← getFile
    -- a file without clusters gets its first one
    if f.firstCluster = 0 then
      let first ← onFat fat.allocCluster
      setFile { f with firstCluster := first, currentCluster := first }
    writeLoop fat writeData buffer (2 * buffer.length + 2) 0

/-- `FatFile::truncate`. -/
def truncate (fat : FatEntries τ) (newSize : Nat) : FileM τ δ Unit := do
  let f ← getFile
  -- nothing to do unless the file shrinks
  if newSize ≥ f.size then pure ()
  else if newSize = 0 then do
    -- truncating to nothing frees the whole chain
    if f.firstCluster ≠ 0 then do
      onFat (fat.freeClusterChain f.firstCluster)
      setFile { f with firstCluster := 0, currentCluster := 0, clusterOffset := 0 }
    let f ← getFile
    setFile { f with size := 0, position := 0 }
  else do
    let _ ← seek fat newSize
    let f ← getFile
    -- cut the chain after the cluster the new end is in
    match ← getEntry fat f.currentCluster with
    | .next next =>
      onFat (fat.set f.currentCluster .endOfChain)
      onFat (fat.freeClusterChain next)
    | _ => pure ()
    let f ← getFile
    setFile { f with
      size := newSize, position := if f.position > newSize then newSize else f.position }

end FatFile

/-! ## §3 Callbacks Backed by a Map -/

/-- The data callbacks of the tests: a map from (cluster, offset) to bytes, and a log of
every call as (cluster, offset, length). -/
structure Disk where
  bytes : Nat → Nat → UInt8
  calls : List (Nat × Nat × Nat)

namespace Disk

/-- A reader that copies the slice from the map. -/
def readData (cluster offset : Nat) (slice : List UInt8) : Fallible FatError Disk (List UInt8) := do
  let d ← getThe Disk
  modifyThe Disk fun d => { d with calls := d.calls ++ [(cluster, offset, slice.length)] }
  pure ((List.range slice.length).map fun i => d.bytes cluster (offset + i))

/-- A writer that copies the slice into the map. -/
def writeData (cluster offset : Nat) (slice : List UInt8) : Fallible FatError Disk Unit :=
  modifyThe Disk fun d =>
    { bytes := fun c o =>
        if c = cluster ∧ offset ≤ o ∧ o < offset + slice.length then slice.getD (o - offset) 0
        else d.bytes c o
      calls := d.calls ++ [(cluster, offset, slice.length)] }

end Disk

/-! ## §4 The Byte Vector a File Should Be -/

/-- A file as a byte vector with a position. -/
structure ByteFile where
  bytes : List UInt8
  position : Nat
deriving DecidableEq, Repr

namespace ByteFile

def empty : ByteFile := ⟨[], 0⟩

/-- A write overwrites from the position, extends the vector past its end, and moves the
position past what it wrote. -/
def write (f : ByteFile) (buffer : List UInt8) : ByteFile :=
  ⟨f.bytes.take f.position ++ buffer ++ f.bytes.drop (f.position + buffer.length),
    f.position + buffer.length⟩

/-- A seek stops at the end. -/
def seek (f : ByteFile) (position : Nat) : ByteFile :=
  { f with position := min position f.bytes.length }

/-- A read returns the bytes from the position on, as many as asked for and there are. -/
def read (f : ByteFile) (n : Nat) : List UInt8 × ByteFile :=
  let out := (f.bytes.drop f.position).take n
  (out, { f with position := f.position + out.length })

/-- A truncation cuts the vector, and the position with it. -/
def truncate (f : ByteFile) (n : Nat) : ByteFile :=
  if n ≥ f.bytes.length then f else ⟨f.bytes.take n, min f.position n⟩

end ByteFile

/-! ## §5 A Run That Is Not a Byte Vector -/

/-- A FAT16 table of eight free entries. -/
def sampleTable : FatTable := FatTable.new .fat16 (List.replicate 16 0)

/-- An empty file without clusters, four bytes per cluster, on an empty disk. -/
def sampleSys : FileSys FatTable Disk :=
  ⟨sampleTable, ⟨0, 0, 0, 4, 0, 0⟩, ⟨fun _ _ => 0, []⟩⟩

/-- Write four bytes, seek to the start and to the end, write one more byte, and read the
whole file from the start. -/
def seekThenWrite : FileM FatTable Disk (Nat × List UInt8) := do
  let _ ← FatFile.write FatTable.entries [1, 2, 3, 4] Disk.writeData
  let _ ← FatFile.seek FatTable.entries 0
  let _ ← FatFile.seek FatTable.entries 4
  let _ ← FatFile.write FatTable.entries [5] Disk.writeData
  let _ ← FatFile.seek FatTable.entries 0
  FatFile.read FatTable.entries (List.replicate 5 0) Disk.readData

/-- Write four bytes, then one more. -/
def writeTwice : FileM FatTable Disk Nat := do
  let _ ← FatFile.write FatTable.entries [1, 2, 3, 4] Disk.writeData
  FatFile.write FatTable.entries [5] Disk.writeData

/-- The file opened by `FatFile::new` on an empty chain reads back `[5, 2, 3, 4]` after
`seekThenWrite`, four bytes of a file of size five, where the byte vector reads
`[1, 2, 3, 4, 5]`. Two writes in a row call `write_data` at offset 4 of cluster 2, an
offset equal to the cluster size, with an empty slice. -/
theorem file_diverges_from_byte_model :
    FatFile.new FatTable.entries sampleTable 0 0 4 = .ok sampleSys.file ∧
      (seekThenWrite.run sampleSys).map (fun p => p.1.toOption) =
        some (some (4, [5, 2, 3, 4, 0])) ∧
      (((((ByteFile.empty.write [1, 2, 3, 4]).seek 0).seek 4).write [5]).seek 0).read 5 =
        ([1, 2, 3, 4, 5], ⟨[1, 2, 3, 4, 5], 5⟩) ∧
      (writeTwice.run sampleSys).map (fun p => (p.1.toOption, p.2.data.calls)) =
        some (some 1, [(2, 0, 4), (2, 4, 0), (3, 0, 1)]) := by
  refine ⟨rfl, ?_, ?_, ?_⟩
  -- each run is evaluated whole: the table, the file and the disk are closed data
  · decide +kernel
  · decide
  · decide +kernel

end Beskar.Storage.Fat
