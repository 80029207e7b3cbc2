import Mathlib
import Beskar.Storage.Vfs
import Beskar.Lib.Slice

/-!
# The In-Memory File System

Model of `InMemoryFS` (`kernel/foundry/storage/src/fs/in_mem.rs`), the read-only file
system of a ramdisk image. The image is a sequence of files, each a packed `RawHeader`
(a 32-byte name and a `usize` size: 40 bytes on x86_64) followed by as many payload
bytes as the size says. `new` walks the headers and records where each payload starts;
`read` copies part of a payload into a buffer.

Sizes and offsets are `Nat`. `file.offset + offset` in `read` is a sum of `usize`s: a
debug build panics when it overflows, and in the model a sum past `2 ^ 64` lies past the
end of every image, so the slice after it panics there too.

## Main results
- `new_inBounds`: every file `new` accepts lies inside the image and has a UTF-8 name, so
  no call panics in `FileInfo::name`.
- `read_of_le`: a read from an offset no larger than the file's size copies
  `min(buffer.len(), size - offset)` bytes of the payload from that offset.
- `read_isSome_iff`: a read of a file `new` accepted panics exactly when the offset is
  past the file's size and past the end of the image.
- `new_image`: `new` reads back every image laid out header after payload.
-/

namespace Beskar.Storage.InMem

open Beskar.Lib

/-! ## Section 1: The Model -/

/-- `size_of::<RawHeader>()`: the 32 name bytes and a `usize`, packed. -/
def rawHeaderSize : Nat := 40

/-- `FileInfo`: the raw name of a file, its size, and where its payload starts. -/
structure FileInfo where
  rawName : List UInt8
  size : Nat
  offset : Nat
deriving DecidableEq, Repr

/-- `FileInfo::name`: `from_utf8(&self.name).unwrap().trim_end_matches('\0')`; `none` is
the panic of the `unwrap`. -/
def FileInfo.name (file : FileInfo) : Option Path :=
  if Utf8.valid file.rawName then some (file.rawName.rdropWhile (· == 0)) else none

/-- `InMemoryFSError`. -/
inductive InMemoryFSError
  | bufferTooSmall | invalidHeaderSize | invalidHeaderName
deriving DecidableEq, Repr

/-- `InMemoryFS`: the image and the files found in it. -/
structure InMemoryFS where
  raw : List UInt8
  infos : List FileInfo

/-- The `while cursor < data.len()` loop of `InMemoryFS::new`, with the files found so
far. The header at `cursor` is read in place: its name is the 32 bytes there, its size the
little-endian `usize` after them. -/
def newLoop (data : List UInt8) (cursor : Nat) (infos : List FileInfo) :
    Except InMemoryFSError (List FileInfo) :=
  if h : cursor < data.length then
    if data.length < cursor + rawHeaderSize then .error .bufferTooSmall
    else
      let rawName := (data.drop cursor).take 32
      let size := leField data (cursor + 32) 8
      if size + (cursor + rawHeaderSize) > data.length then .error .invalidHeaderSize
      else if Utf8.valid rawName = false then .error .invalidHeaderName
      else newLoop data (cursor + rawHeaderSize + size)
        (infos ++ [⟨rawName, size, cursor + rawHeaderSize⟩])
  else .ok infos
termination_by data.length - cursor
decreasing_by
  simp only [rawHeaderSize]
  omega

/-- `InMemoryFS::new`. -/
def new (data : List UInt8) : Except InMemoryFSError InMemoryFS := do
  let infos ← if data.isEmpty then pure [] else newLoop data 0 []
  pure ⟨data, infos⟩

/-- `self.infos.iter().find(|file| file.name() == path.as_str())`: the first file of that
name; `none` is a panic of `name` on a file before it. -/
def find (path : Path) : List FileInfo → Option (Option FileInfo)
  | [] => some none
  | file :: files => do
    let name ← file.name
    if name = path then pure (some file) else find path files

/-- `InMemoryFS::read`: the number of bytes read and the buffer after the copy. -/
def read (fs : InMemoryFS) (path : Path) (buffer : List UInt8) (offset : Nat) :
    Option (Except FileError Nat × List UInt8) := do
  let some file ← find path fs.infos | pure (.error .notFound, buffer)
  -- `file.size().saturating_sub(offset).min(buffer.len())`
  let readBytes := min (file.size - offset) buffer.length
  let startOffset := file.offset + offset
  let src ← sliceRange fs.raw startOffset (startOffset + readBytes)
  let buffer ← copyFromSlice buffer 0 readBytes src
  pure (.ok readBytes, buffer)

/-- `InMemoryFS::exists`: `any` stops at the first file of the name, as `find` does. -/
def «exists» (fs : InMemoryFS) (path : Path) : Option Bool :=
  (find path fs.infos).map Option.isSome

/-- `InMemoryFS::metadata`: the size of the file; its type is always `FileType::File`. -/
def metadata (fs : InMemoryFS) (path : Path) : Option (Except FileError Nat) := do
  let some file ← find path fs.infos | pure (.error .notFound)
  pure (.ok file.size)

/-- `InMemoryFS::read_dir`: the names of all files, for the root `"/"` only. -/
def readDir (fs : InMemoryFS) (path : Path) : Option (Except FileError (List Path)) :=
  if path ≠ [Vfs.slash] then some (.error .notFound) else (fs.infos.mapM FileInfo.name).map .ok

/-! ## Section 2: What `new` Accepts -/

/-- A file lies inside the image and its raw name is UTF-8. -/
def FileInfo.InBounds (data : List UInt8) (file : FileInfo) : Prop :=
  file.offset + file.size ≤ data.length ∧ Utf8.valid file.rawName = true

/-- The name of a file with a UTF-8 raw name: no panic. -/
theorem FileInfo.name_of_valid {file : FileInfo} (h : Utf8.valid file.rawName = true) :
    file.name = some (file.rawName.rdropWhile (· == 0)) := by
  rw [FileInfo.name, if_pos h]

section NewLoop

variable {data : List UInt8} {cursor : Nat} {infos infos' : List FileInfo}

/-- The loop stops at the end of the image. -/
theorem newLoop_of_le (h : data.length ≤ cursor) : newLoop data cursor infos = .ok infos := by
  rw [newLoop, dif_neg (Nat.not_lt.mpr h)]

/-- A header that fits, with a payload that fits and a UTF-8 name: the loop records the
file and goes on after its payload. -/
theorem newLoop_step (hlt : cursor < data.length)
    (hsize : leField data (cursor + 32) 8 + (cursor + rawHeaderSize) ≤ data.length)
    (hname : Utf8.valid ((data.drop cursor).take 32) = true) :
    newLoop data cursor infos =
      newLoop data (cursor + rawHeaderSize + leField data (cursor + 32) 8)
        (infos ++ [⟨(data.drop cursor).take 32, leField data (cursor + 32) 8,
          cursor + rawHeaderSize⟩]) := by
  have hhdr : ¬ data.length < cursor + rawHeaderSize := by omega
  have hfit : ¬ leField data (cursor + 32) 8 + (cursor + rawHeaderSize) > data.length := by
    omega
  rw [newLoop, dif_pos hlt, if_neg hhdr, if_neg hfit, if_neg (by rw [hname]; decide)]

/-- **Every file the loop records lies inside the image, with a UTF-8 name.** -/
theorem newLoop_inBounds (h : newLoop data cursor infos = .ok infos')
    (hinfos : ∀ f ∈ infos, f.InBounds data) : ∀ f ∈ infos', f.InBounds data := by
  fun_induction newLoop data cursor infos with
  | case1 | case2 | case3 => cases h
  | case4 cursor infos _ _ rawName size hfit hname ih =>
    -- the new file is the one whose header the loop has just checked
    refine ih h fun f hf => ?_
    rcases List.mem_append.mp hf with hf | hf
    · exact hinfos f hf
    · rw [List.mem_singleton.mp hf]
      refine ⟨?_, Bool.not_eq_false _ ▸ hname⟩
      dsimp only
      omega
  | case5 => cases h; exact hinfos

end NewLoop

/-- **`new` accepts only images whose files lie inside them.** -/
theorem new_inBounds {data : List UInt8} {fs : InMemoryFS} (h : new data = .ok fs) :
    fs.raw = data ∧ ∀ f ∈ fs.infos, f.InBounds data := by
  unfold new at h
  by_cases hempty : data.isEmpty
  · simp only [hempty, if_true] at h
    cases h
    exact ⟨rfl, fun _ hf => absurd hf List.not_mem_nil⟩
  · rcases hloop : newLoop data 0 [] with e | infos <;>
      simp only [hempty, hloop, Bool.false_eq_true, if_false] at h
    · cases h
    · cases h
      exact ⟨rfl, newLoop_inBounds hloop fun _ hf => absurd hf List.not_mem_nil⟩

/-- Over files with UTF-8 names, `find` does not panic: it returns the first file whose
trimmed name is the path. -/
theorem find_of_valid {path : Path} {files : List FileInfo}
    (h : ∀ f ∈ files, Utf8.valid f.rawName = true) :
    find path files = some (files.find? fun f => f.rawName.rdropWhile (· == 0) = path) := by
  induction files with
  | nil => rfl
  | cons file files ih =>
    have hrest : ∀ f ∈ files, Utf8.valid f.rawName = true :=
      fun f hf => h f (List.mem_cons_of_mem _ hf)
    rw [find, FileInfo.name_of_valid (h file List.mem_cons_self), List.find?_cons]
    by_cases hname : file.rawName.rdropWhile (· == 0) = path
    · simp [hname]
    · simp [hname, ih hrest]

/-- The file `find` returns is one of the files. -/
theorem mem_of_find_eq_some {path : Path} {files : List FileInfo} {file : FileInfo}
    (h : find path files = some (some file)) : file ∈ files := by
  induction files with
  | nil => cases h
  | cons f files ih =>
    rcases hname : f.name with _ | name
    · simp [find, hname] at h
    · by_cases heq : name = path
      · simp only [find, hname, heq, Option.bind_eq_bind, Option.bind_some, if_true] at h
        cases h
        exact List.mem_cons_self
      · simp only [find, hname, heq, Option.bind_eq_bind, Option.bind_some, if_false] at h
        exact List.mem_cons_of_mem _ (ih h)

/-! ## Section 3: Reading a File -/

section Read

variable {fs : InMemoryFS} {path : Path} {buffer : List UInt8} {offset : Nat} {file : FileInfo}

/-- A read of a path that no file has: `NotFound`, and the buffer as it was. -/
theorem read_of_find_none (h : find path fs.infos = some none) :
    read fs path buffer offset = some (.error .notFound, buffer) := by
  simp [read, h]

/-- A read of a file whose window `[file.offset + offset, + n)` lies inside the image, for
`n = min(size - offset, buffer.len())`: the window copied over the front of the buffer. -/
theorem read_of_find_some_of_le (h : find path fs.infos = some (some file))
    (hin : file.offset + offset + min (file.size - offset) buffer.length ≤ fs.raw.length) :
    read fs path buffer offset =
      some (.ok (min (file.size - offset) buffer.length),
        (fs.raw.drop (file.offset + offset)).take (min (file.size - offset) buffer.length) ++
          buffer.drop (min (file.size - offset) buffer.length)) := by
  have hsrc : sliceRange fs.raw (file.offset + offset)
      (file.offset + offset + min (file.size - offset) buffer.length) =
      some ((fs.raw.drop (file.offset + offset)).take
        (min (file.size - offset) buffer.length)) := by
    rw [sliceRange_of_le (Nat.le_add_right _ _) hin, Nat.add_sub_cancel_left]
  have hlen : ((fs.raw.drop (file.offset + offset)).take
      (min (file.size - offset) buffer.length)).length =
      min (file.size - offset) buffer.length := by
    simp only [List.length_take, List.length_drop]
    omega
  have hdst : copyFromSlice buffer 0 (min (file.size - offset) buffer.length)
      ((fs.raw.drop (file.offset + offset)).take (min (file.size - offset) buffer.length)) =
      some ((fs.raw.drop (file.offset + offset)).take (min (file.size - offset) buffer.length) ++
        buffer.drop (min (file.size - offset) buffer.length)) := by
    rw [copyFromSlice, if_pos ⟨Nat.zero_le _, Nat.min_le_right _ _, hlen⟩]
    simp
  simp only [read, h, hsrc, hdst, Option.bind_eq_bind, Option.bind_some]
  rfl

/-- A read whose window leaves the image panics at `&self.raw[start_offset..]`. -/
theorem read_of_find_some_of_lt (h : find path fs.infos = some (some file))
    (hout : fs.raw.length < file.offset + offset + min (file.size - offset) buffer.length) :
    read fs path buffer offset = none := by
  have hsrc : sliceRange fs.raw (file.offset + offset)
      (file.offset + offset + min (file.size - offset) buffer.length) = none :=
    sliceRange_eq_none_iff.mpr fun ⟨_, hle⟩ => absurd hle (Nat.not_le.mpr hout)
  simp only [read, h, hsrc, Option.bind_eq_bind, Option.bind_some]
  rfl

end Read

section ReadNew

variable {data : List UInt8} {fs : InMemoryFS} {path : Path} {buffer : List UInt8}
  {offset : Nat} {file : FileInfo}

/-- **A read inside a file.** For a file of an image `new` accepted and an offset no larger
than its size, `read` does not panic: it copies `n = min(size - offset, buffer.len())` bytes
of the image from `file.offset + offset` over the front of the buffer, and returns `n`. -/
theorem read_of_le (hnew : new data = .ok fs) (h : find path fs.infos = some (some file))
    (hoff : offset ≤ file.size) :
    read fs path buffer offset =
      some (.ok (min (file.size - offset) buffer.length),
        (data.drop (file.offset + offset)).take (min (file.size - offset) buffer.length) ++
          buffer.drop (min (file.size - offset) buffer.length)) := by
  obtain ⟨hraw, hfiles⟩ := new_inBounds hnew
  have hin : file.offset + file.size ≤ data.length := (hfiles file (mem_of_find_eq_some h)).1
  subst hraw
  exact read_of_find_some_of_le h (by omega)

/-- **When a read panics.** For a file of an image `new` accepted, `read` panics exactly
when the offset is past the file's size and `file.offset + offset` is past the end of the
image. -/
theorem read_isSome_iff (hnew : new data = .ok fs) (h : find path fs.infos = some (some file)) :
    (read fs path buffer offset).isSome ↔ offset ≤ file.size ∨ file.offset + offset ≤ data.length := by
  obtain ⟨hraw, hfiles⟩ := new_inBounds hnew
  have hin : file.offset + file.size ≤ data.length := (hfiles file (mem_of_find_eq_some h)).1
  subst hraw
  by_cases hwin : file.offset + offset + min (file.size - offset) buffer.length ≤ fs.raw.length
  · -- the window is inside the image, which it is for every offset up to the size
    rw [read_of_find_some_of_le h hwin]
    simp only [Option.isSome_some, true_iff]
    omega
  · rw [read_of_find_some_of_lt h (Nat.lt_of_not_le hwin)]
    simp only [Option.isSome_none, Bool.false_eq_true, false_iff]
    omega

end ReadNew

/-! ## Section 4: Images Read Back -/

/-- The image of a list of files, each a raw name and a payload: each file's header, its
raw name and then its size as a little-endian `usize`, followed by its payload. -/
def image : List (List UInt8 × List UInt8) → List UInt8
  | [] => []
  | (rawName, payload) :: files => rawName ++ leBytes payload.length ++ payload ++ image files

/-- The files of an image laid out from `cursor`, as `new` records them. -/
def imageInfos (cursor : Nat) : List (List UInt8 × List UInt8) → List FileInfo
  | [] => []
  | (rawName, payload) :: files =>
    ⟨rawName, payload.length, cursor + rawHeaderSize⟩ ::
      imageInfos (cursor + rawHeaderSize + payload.length) files

/-- A file an image can hold: a UTF-8 raw name of 32 bytes and a size that fits a `usize`. -/
def ImageFile (file : List UInt8 × List UInt8) : Prop :=
  file.1.length = 32 ∧ Utf8.valid file.1 = true ∧ file.2.length < 2 ^ 64

section Image

variable {files : List (List UInt8 × List UInt8)}

/-- An image after a prefix, cut after its first file. -/
theorem append_image_cons (pre rawName payload : List UInt8) :
    pre ++ image ((rawName, payload) :: files) =
      (pre ++ rawName ++ leBytes payload.length ++ payload) ++ image files := by
  simp [image]

/-- A header of a 32-byte name ends `rawHeaderSize` bytes after it starts. -/
theorem length_append_header {rawName : List UInt8} (hlen : rawName.length = 32)
    (pre : List UInt8) (size : Nat) :
    (pre ++ rawName ++ leBytes size).length = pre.length + rawHeaderSize := by
  simp only [List.length_append, hlen, length_leBytes, rawHeaderSize]

/-- **The loop reads back every image.** From the end of any prefix, it records the files
of the image after it. -/
theorem newLoop_image (hfiles : ∀ f ∈ files, ImageFile f) (pre : List UInt8)
    (infos : List FileInfo) :
    newLoop (pre ++ image files) pre.length infos = .ok (infos ++ imageInfos pre.length files) := by
  induction files generalizing pre infos with
  | nil =>
    rw [image, List.append_nil, imageInfos, List.append_nil]
    exact newLoop_of_le (Nat.le_refl _)
  | cons file files ih =>
    obtain ⟨rawName, payload⟩ := file
    obtain ⟨hlen, hname, hsize⟩ := hfiles _ List.mem_cons_self
    have hrest : ∀ f ∈ files, ImageFile f := fun f hf => hfiles f (List.mem_cons_of_mem _ hf)
    -- the header and payload of the first file, and the rest of the image after them
    have hdata : pre ++ image ((rawName, payload) :: files) =
        pre ++ (rawName ++ (leBytes payload.length ++ (payload ++ image files))) := by
      simp [image]
    have hraw : ((pre ++ image ((rawName, payload) :: files)).drop pre.length).take 32 =
        rawName := by
      rw [hdata, List.drop_left, List.take_left' hlen]
    have hfield : leField (pre ++ image ((rawName, payload) :: files)) (pre.length + 32) 8 =
        payload.length := by
      rw [leField, hdata, ← List.append_assoc, ← hlen, ← List.length_append, List.drop_left,
        List.take_left' (length_leBytes _), fromLeBytes_leBytes hsize]
    have hlength : (pre ++ image ((rawName, payload) :: files)).length =
        pre.length + rawHeaderSize + payload.length + (image files).length := by
      simp only [hdata, List.length_append, hlen, length_leBytes, rawHeaderSize]
      omega
    have hcursor : (pre ++ rawName ++ leBytes payload.length ++ payload).length =
        pre.length + rawHeaderSize + payload.length := by
      rw [List.length_append, length_append_header hlen]
    rw [newLoop_step (by rw [hlength, rawHeaderSize]; omega) (by rw [hfield, hlength]; omega)
      (by rw [hraw]; exact hname), hraw, hfield, append_image_cons, ← hcursor, ih hrest,
      hcursor]
    simp [imageInfos]

/-- **`new` reads back every image**, the empty one included. -/
theorem new_image (hfiles : ∀ f ∈ files, ImageFile f) :
    new (image files) = .ok ⟨image files, imageInfos 0 files⟩ := by
  cases files with
  | nil => rfl
  | cons file files =>
    obtain ⟨rawName, payload⟩ := file
    have hne : (image ((rawName, payload) :: files)).isEmpty = false := by
      rw [image, List.isEmpty_eq_false_iff, ← List.length_pos_iff]
      simp only [List.length_append, length_leBytes]
      omega
    have hloop := newLoop_image hfiles [] []
    rw [List.nil_append, List.length_nil, List.nil_append] at hloop
    simp only [new, hne, Bool.false_eq_true, if_false, hloop]
    rfl

/-- Each file the image records holds its own payload. -/
theorem mem_imageInfos (hfiles : ∀ f ∈ files, ImageFile f) (pre : List UInt8)
    {info : FileInfo} (h : info ∈ imageInfos pre.length files) :
    ∃ f ∈ files, info.rawName = f.1 ∧ info.size = f.2.length ∧
      ((pre ++ image files).drop info.offset).take info.size = f.2 := by
  induction files generalizing pre with
  | nil => cases h
  | cons file files ih =>
    obtain ⟨rawName, payload⟩ := file
    have hlen : rawName.length = 32 := (hfiles _ List.mem_cons_self).1
    have hrest : ∀ f ∈ files, ImageFile f := fun f hf => hfiles f (List.mem_cons_of_mem _ hf)
    rw [append_image_cons]
    rcases List.mem_cons.mp h with rfl | h
    · -- the first file: its payload follows its header
      refine ⟨(rawName, payload), List.mem_cons_self, rfl, rfl, ?_⟩
      rw [List.append_assoc _ payload, ← length_append_header hlen pre payload.length,
        List.drop_left, List.take_left' rfl]
    · rw [← length_append_header hlen pre payload.length, ← List.length_append] at h
      obtain ⟨f, hf, hrn, hsz, hpay⟩ := ih hrest _ h
      exact ⟨f, List.mem_cons_of_mem _ hf, hrn, hsz, hpay⟩

/-- **A read of an image returns the payload.** Reading a file of an image from an offset
no larger than its size copies the next `n = min(size - offset, buffer.len())` bytes of its
payload over the front of the buffer. -/
theorem read_image (hfiles : ∀ f ∈ files, ImageFile f) {path : Path} {file : FileInfo}
    (h : find path (imageInfos 0 files) = some (some file)) {offset : Nat}
    (hoff : offset ≤ file.size) (buffer : List UInt8) :
    ∃ f ∈ files, file.rawName = f.1 ∧ file.size = f.2.length ∧
      read ⟨image files, imageInfos 0 files⟩ path buffer offset =
        some (.ok (min (f.2.length - offset) buffer.length),
          (f.2.drop offset).take (min (f.2.length - offset) buffer.length) ++
            buffer.drop (min (f.2.length - offset) buffer.length)) := by
  obtain ⟨f, hf, hrn, hsz, hpay⟩ := mem_imageInfos hfiles [] (mem_of_find_eq_some h)
  refine ⟨f, hf, hrn, hsz, ?_⟩
  rw [read_of_le (new_image hfiles) h hoff, ← hsz]
  -- the window of the read lies inside the payload, which starts at `file.offset`
  have hwin : ((image files).drop (file.offset + offset)).take (min (file.size - offset) buffer.length) =
      (f.2.drop offset).take (min (file.size - offset) buffer.length) := by
    rw [List.nil_append] at hpay
    rw [← hpay, List.drop_take, List.drop_drop, List.take_take,
      Nat.min_eq_left (Nat.min_le_left _ _)]
  rw [hwin]

end Image

/-- The image of one file named `"a"` with no payload: the name padded to 32 bytes with
NULs, then the size `0`. `new` accepts it, and `exists("a")` holds; a read of `"a"` from
offset `1` slices the image from byte `41` of `40`, and panics whatever the buffer. -/
theorem read_past_end_panics (buffer : List UInt8) :
    new (0x61 :: List.replicate 39 0) =
        .ok ⟨0x61 :: List.replicate 39 0, [⟨0x61 :: List.replicate 31 0, 0, 40⟩]⟩ ∧
      «exists» ⟨0x61 :: List.replicate 39 0, [⟨0x61 :: List.replicate 31 0, 0, 40⟩]⟩ [0x61] =
        some true ∧
      read ⟨0x61 :: List.replicate 39 0, [⟨0x61 :: List.replicate 31 0, 0, 40⟩]⟩ [0x61]
        buffer 1 = none := by
  have hloop : newLoop (0x61 :: List.replicate 39 0) 0 [] =
      .ok [⟨0x61 :: List.replicate 31 0, 0, 40⟩] := by
    rw [newLoop_step (by decide) (by decide) (by decide)]
    exact newLoop_of_le (by decide)
  have hfind : find [0x61] [⟨0x61 :: List.replicate 31 0, 0, 40⟩] =
      some (some ⟨0x61 :: List.replicate 31 0, 0, 40⟩) := by decide
  refine ⟨?_, by rw [«exists», hfind]; rfl, read_of_find_some_of_lt hfind (by simp)⟩
  simp only [new, hloop]
  rfl

end Beskar.Storage.InMem
