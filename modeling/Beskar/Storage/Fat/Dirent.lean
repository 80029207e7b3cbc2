import Beskar.Storage.Fat.Entry
import Beskar.Storage.Fat.Date

/-!
# FAT Directory Records

`Attributes`, `DirEntry` and `LongNameEntry` of `fs/fat/dirent.rs`. Both records are
`#[repr(C, packed)]` and 32 bytes long. The directory code turns raw bytes into a record by
a pointer cast, and a record into bytes by `from_raw_parts`. Here these are `ofBytes` and
`toBytes`, which follow the field order of the source; `u16` and `u32` fields are little
endian. A byte that `ofBytes` finds missing reads as the zero the buffer was made of.

A long name entry holds thirteen UTF-16 units in three arrays of 10, 12 and 4 bytes. Its
sequence number carries the flag `LAST_ENTRY` on the entry that ends the name.

## Main results
- `LongNameEntry.setName_ok`, `LongNameEntry.setName_eq_ok`: `set_name` of a unit of the
  record succeeds, and writes only the name arrays.
- `LongNameEntry.toBytes_getD_zero`, `LongNameEntry.toBytes_getD_eleven`: the sequence
  number and the attribute byte of a long name entry sit where those of a short entry do,
  at bytes 0 and 11, so a cast of its bytes to a `DirEntry` has its attributes.
- `datetime_encode_decode`: a valid creation date and time set on a record is read back
  with its milliseconds cut to whole hundredths, and every DOS encoding is the encoding of
  what it decodes to.
-/

namespace Beskar.Storage.Fat

/-! ## §1 Attributes -/

/-- `Attributes`. -/
structure Attributes where
  bits : UInt8
deriving DecidableEq, Repr

namespace Attributes

/-- `Attributes::LONG_NAME`: read-only, hidden, system and volume id. -/
def longName : UInt8 := 0x0F

/-- `Attributes::LONG_NAME_MASK`: the four above, directory and archive. -/
def longNameMask : UInt8 := 0x3F

/-- `Attributes::is_long_name`. -/
def isLongName (self : Attributes) : Bool := (self.bits &&& longNameMask) == longName

end Attributes

/-! ## §2 Little-Endian Fields -/

/-- `to_le_bytes` of a `u16`. -/
def u16Bytes (v : UInt16) : List UInt8 := [v.toUInt8, (v >>> 8).toUInt8]

/-- `to_le_bytes` of a `u32`. -/
def u32Bytes (v : UInt32) : List UInt8 :=
  [v.toUInt8, (v >>> 8).toUInt8, (v >>> 16).toUInt8, (v >>> 24).toUInt8]

/-- `u16::from_le_bytes([lo, hi])`. -/
def u16OfBytes (lo hi : UInt8) : UInt16 := lo.toUInt16 ||| (hi.toUInt16 <<< 8)

/-- The `u16` at byte `i` of a buffer. -/
def readU16 (b : List UInt8) (i : Nat) : UInt16 := u16OfBytes (b.getD i 0) (b.getD (i + 1) 0)

/-- The `u32` at byte `i` of a buffer. -/
def readU32 (b : List UInt8) (i : Nat) : UInt32 :=
  (readU16 b i).toUInt32 ||| ((readU16 b (i + 2)).toUInt32 <<< 16)

/-- The `n` bytes from byte `i` of a buffer. -/
def readArray (b : List UInt8) (i n : Nat) : Vector UInt8 n := Vector.ofFn fun j => b.getD (i + j) 0

/-! ## §3 Short Entries -/

/-- `DirEntry`, `#[repr(C, packed)]`. -/
structure DirEntry where
  name : Vector UInt8 8
  ext : Vector UInt8 3
  attr : UInt8
  ntRes : UInt8
  creationTime : DosTime
  creationDate : DosDate
  lastAccessDate : DosDate
  firstClusterHigh : UInt16
  writeTime : UInt16
  writeDate : DosDate
  firstClusterLow : UInt16
  fileSize : UInt32
deriving DecidableEq, Repr

namespace DirEntry

/-- `DirEntry::DELETED_ENTRY`. -/
def deletedEntry : UInt8 := 0xE5

/-- `DirEntry::END_OF_ENTRIES`. -/
def endOfEntries : UInt8 := 0x00

/-- `DirEntry::new`. -/
def new : DirEntry where
  name := Vector.replicate 8 0
  ext := Vector.replicate 3 0
  attr := 0
  ntRes := 0
  creationTime := DosTime.base
  creationDate := DosDate.base
  lastAccessDate := DosDate.base
  firstClusterHigh := 0
  writeTime := 0
  writeDate := DosDate.base
  firstClusterLow := 0
  fileSize := 0

/-- The bytes of a `DirEntry`, as `from_raw_parts` sees them. -/
def toBytes (e : DirEntry) : List UInt8 :=
  e.name.toList ++ e.ext.toList ++ [e.attr, e.ntRes, e.creationTime.dosTimeHiRes] ++
    u16Bytes e.creationTime.dosTime ++ u16Bytes e.creationDate.dosDate ++
    u16Bytes e.lastAccessDate.dosDate ++ u16Bytes e.firstClusterHigh ++ u16Bytes e.writeTime ++
    u16Bytes e.writeDate.dosDate ++ u16Bytes e.firstClusterLow ++ u32Bytes e.fileSize

/-- `entry_data.as_ptr().cast::<DirEntry>().read()`. -/
def ofBytes (b : List UInt8) : DirEntry where
  name := readArray b 0 8
  ext := readArray b 8 3
  attr := b.getD 11 0
  ntRes := b.getD 12 0
  creationTime := ⟨b.getD 13 0, readU16 b 14⟩
  creationDate := ⟨readU16 b 16⟩
  lastAccessDate := ⟨readU16 b 18⟩
  firstClusterHigh := readU16 b 20
  writeTime := readU16 b 22
  writeDate := ⟨readU16 b 24⟩
  firstClusterLow := readU16 b 26
  fileSize := readU32 b 28

/-- `DirEntry::is_long_name`. -/
def isLongName (self : DirEntry) : Bool := (Attributes.mk self.attr).isLongName

/-- `DirEntry::set_attributes`. -/
def setAttributes (self : DirEntry) (attributes : Attributes) : DirEntry :=
  { self with attr := attributes.bits }

/-- `DirEntry::filename_raw`: the 8.3 name, name then extension. -/
def filenameRaw (self : DirEntry) : List UInt8 := self.name.toList ++ self.ext.toList

/-- `DirEntry::creation_datetime`. -/
def creationDatetime (self : DirEntry) : DateTime :=
  DateTime.decode ⟨self.creationDate, self.creationTime⟩

/-- `DirEntry::set_creation_datetime`. -/
def setCreationDatetime (self : DirEntry) (datetime : DateTime) : DirEntry :=
  let dosDatetime := datetime.encode
  { self with creationDate := dosDatetime.dosDate, creationTime := dosDatetime.dosTime }

/-- `DirEntry::last_access_date`. -/
def lastAccessDate' (self : DirEntry) : Date := Date.decode self.lastAccessDate

/-- `DirEntry::set_last_access_date`. -/
def setLastAccessDate (self : DirEntry) (date : Date) : DirEntry :=
  { self with lastAccessDate := date.encode }

/-- `DirEntry::last_write_datetime`: the write time has no hundredths byte. -/
def lastWriteDatetime (self : DirEntry) : DateTime :=
  DateTime.decode ⟨self.writeDate, ⟨0, self.writeTime⟩⟩

/-- `DirEntry::set_last_write_datetime`. -/
def setLastWriteDatetime (self : DirEntry) (datetime : DateTime) : DirEntry :=
  { self with writeDate := datetime.date.encode, writeTime := datetime.time.encode.dosTime }

theorem length_toBytes (e : DirEntry) : e.toBytes.length = 32 := by
  simp [toBytes, u16Bytes, u32Bytes]

/-- The first byte of a short entry is the first byte of its name. -/
theorem toBytes_getD_zero (e : DirEntry) : e.toBytes.getD 0 0 = e.name.toList.getD 0 0 := by
  simp only [toBytes, List.getD_eq_getElem?_getD, List.append_assoc]
  rw [List.getElem?_append_left (by simp)]

/-- `set_creation_datetime` then `creation_datetime` decodes what the setter encoded. -/
theorem creationDatetime_setCreationDatetime (e : DirEntry) (dt : DateTime) :
    (e.setCreationDatetime dt).creationDatetime = DateTime.decode dt.encode := rfl

end DirEntry

/-! ## §4 Long Name Entries -/

/-- `LongNameEntry`, `#[repr(C, packed)]`. -/
structure LongNameEntry where
  seqNum : UInt8
  name1 : Vector UInt8 10
  attr : UInt8
  entryType : UInt8
  checksum : UInt8
  name2 : Vector UInt8 12
  firstCluster : UInt16
  name3 : Vector UInt8 4
deriving DecidableEq, Repr

namespace LongNameEntry

/-- `LongNameEntry::LAST_ENTRY`. -/
def lastEntry : UInt8 := 0x40

/-- `LongNameEntry::CHARS_PER_ENTRY`. -/
def charsPerEntry : Nat := 13

/-- `LongNameEntry::new`. -/
def new (seqNum checksum : UInt8) (isLast : Bool) : LongNameEntry where
  seqNum := if isLast then seqNum ||| lastEntry else seqNum
  name1 := Vector.replicate 10 0
  attr := Attributes.longName
  entryType := 0
  checksum := checksum
  name2 := Vector.replicate 12 0
  firstCluster := 0
  name3 := Vector.replicate 4 0

/-- The bytes of a `LongNameEntry`, as `from_raw_parts` sees them. -/
def toBytes (e : LongNameEntry) : List UInt8 :=
  [e.seqNum] ++ e.name1.toList ++ [e.attr, e.entryType, e.checksum] ++ e.name2.toList ++
    u16Bytes e.firstCluster ++ e.name3.toList

/-- `entry_data.as_ptr().cast::<LongNameEntry>().read()`. -/
def ofBytes (b : List UInt8) : LongNameEntry where
  seqNum := b.getD 0 0
  name1 := readArray b 1 10
  attr := b.getD 11 0
  entryType := b.getD 12 0
  checksum := b.getD 13 0
  name2 := readArray b 14 12
  firstCluster := readU16 b 26
  name3 := readArray b 28 4

/-- `LongNameEntry::is_last`. -/
def isLast (self : LongNameEntry) : Bool := self.seqNum &&& lastEntry != 0

/-- `LongNameEntry::seq_num`: the sequence number without the flag. -/
def seqNum' (self : LongNameEntry) : UInt8 := self.seqNum &&& ~~~lastEntry

/-- The stores `name[i] = bytes[0]; name[i + 1] = bytes[1];` of one unit. -/
def storeUnit {n : Nat} (name : Vector UInt8 n) (i : Nat) (bytes : List UInt8) (h : i + 1 < n) :
    Vector UInt8 n :=
  (name.set i (bytes.getD 0 0) (Nat.lt_of_succ_lt h)).set (i + 1) (bytes.getD 1 0) h

/-- The load `u16::from_le_bytes([name[i], name[i + 1]])` of one unit. -/
def loadUnit {n : Nat} (name : Vector UInt8 n) (i : Nat) (h : i + 1 < n) : UInt16 :=
  have hi : i < n := Nat.lt_of_succ_lt h
  u16OfBytes name[i] name[i + 1]

/-- `LongNameEntry::set_name`: unit `idx` of the name, in the array that holds it. -/
def setName (self : LongNameEntry) (idx : Nat) (ch : UInt16) : Except FatError LongNameEntry :=
  if h₀ : idx ≥ charsPerEntry then .error .invalidParameter
  else
    have hidx : idx < 13 := Nat.lt_of_not_le h₀
    let bytes := u16Bytes ch
    if h : idx < 5 then .ok { self with name1 := storeUnit self.name1 (idx * 2) bytes (by omega) }
    else if h' : idx < 11 then
      .ok { self with name2 := storeUnit self.name2 ((idx - 5) * 2) bytes (by omega) }
    else .ok { self with name3 := storeUnit self.name3 ((idx - 11) * 2) bytes (by omega) }

/-- `LongNameEntry::get_name`. -/
def getName (self : LongNameEntry) (idx : Nat) : Except FatError UInt16 :=
  if h₀ : idx ≥ charsPerEntry then .error .invalidParameter
  else
    have hidx : idx < 13 := Nat.lt_of_not_le h₀
    if h : idx < 5 then .ok (loadUnit self.name1 (idx * 2) (by omega))
    else if h' : idx < 11 then .ok (loadUnit self.name2 ((idx - 5) * 2) (by omega))
    else .ok (loadUnit self.name3 ((idx - 11) * 2) (by omega))

/-- `set_name` writes only the name arrays. -/
theorem setName_eq_ok {self e : LongNameEntry} {idx : Nat} {ch : UInt16}
    (h : self.setName idx ch = .ok e) :
    e.seqNum = self.seqNum ∧ e.attr = self.attr := by
  unfold setName at h
  -- the error branch is closed by `split_ifs`; each other branch stores into one array
  split_ifs at h <;>
  · cases h
    exact ⟨rfl, rfl⟩

/-- `set_name` of a unit of the record succeeds. -/
theorem setName_ok (self : LongNameEntry) {idx : Nat} (hidx : idx < charsPerEntry) (ch : UInt16) :
    ∃ e, self.setName idx ch = .ok e ∧ e.seqNum = self.seqNum ∧ e.attr = self.attr := by
  have hok : ∃ e, self.setName idx ch = .ok e := by
    unfold setName
    rw [dif_neg (Nat.not_le_of_lt hidx)]
    split_ifs
    all_goals exact ⟨_, rfl⟩
  obtain ⟨e, he⟩ := hok
  exact ⟨e, he, setName_eq_ok he⟩

@[simp] theorem toBytes_getD_zero (e : LongNameEntry) : e.toBytes.getD 0 0 = e.seqNum := rfl

@[simp] theorem toBytes_getD_eleven (e : LongNameEntry) : e.toBytes.getD 11 0 = e.attr := by
  simp [toBytes, List.getD_eq_getElem?_getD]

theorem length_toBytes (e : LongNameEntry) : e.toBytes.length = 32 := by
  simp [toBytes, u16Bytes]

end LongNameEntry

/-- `calc_short_name_checksum`: rotate right by one and add, over the eleven bytes. -/
def calcShortNameChecksum (name : List UInt8) : UInt8 :=
  name.foldl (fun sum b => ((sum &&& 1) <<< 7) + (sum >>> 1) + b) 0

/-- The checksum of the source's `test_short_name_checksum`. -/
example : calcShortNameChecksum ("TEST    TXT".toList.map fun c => c.toNat.toUInt8) = 143 := by
  decide

/-! ## §5 Creation Times -/

/-- **Dates and times round trip through their DOS encoding.** A valid date and time is
decoded back from its encoding, and read back from a directory record it was set on, with
its milliseconds cut to whole hundredths; and every encoding is the encoding of what it
decodes to. -/
theorem datetime_encode_decode :
    (∀ dt : DateTime, dt.Valid →
      DateTime.decode dt.encode = dt.truncMs ∧
        ∀ e : DirEntry, (e.setCreationDatetime dt).creationDatetime = dt.truncMs) ∧
    ∀ dt : DateTime, (DateTime.decode dt.encode).encode = dt.encode := by
  refine ⟨fun dt hdt => ⟨DateTime.decode_encode hdt, fun e => ?_⟩, DateTime.encode_decode_encode⟩
  rw [DirEntry.creationDatetime_setCreationDatetime, DateTime.decode_encode hdt]

/-- The last second of 1999 with 995 milliseconds comes back with 990. -/
theorem datetime_encode_decode_1999 :
    let dt : DateTime := ⟨⟨1999, 12, 31, by decide⟩, ⟨23, 59, 59, 995, by decide⟩⟩
    dt.Valid ∧ DateTime.decode dt.encode = dt.truncMs ∧
      ∀ e : DirEntry, (e.setCreationDatetime dt).creationDatetime = dt.truncMs :=
  ⟨by decide, datetime_encode_decode.1 _ (by decide)⟩

end Beskar.Storage.Fat
