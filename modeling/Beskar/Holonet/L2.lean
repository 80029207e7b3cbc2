import Beskar.Lib.Layout

/-!
# Holonet: Results and Ethernet II Frames

Model of `NetworkError` (`kernel/foundry/holonet/src/lib.rs`) and of the Ethernet II
frame parser (`l2/ethernet.rs`).

Every holonet parser wraps a received buffer without checking it (`new_unchecked`),
checks a minimum length (`check_len()?`), and then reads the fields it needs through
getters that slice the buffer and `unwrap` the conversion of wire codes into enums.
A parse therefore has three outcomes, which the model keeps apart:
`Option (Except NetworkError α)` with `none` for a panic, `some (.error e)` for
`Err(e)` and `some (.ok r)` for `Ok(r)`.

`Repr::emit` writes a representation into a frame through the setters.  Its result is
described by the header it lays down, `Repr.header`, a list of fields: `emit` writes that
header over any long enough frame and keeps the rest, and `parse` reads it back.

## Main results

- `Ethernet.parse_emit`: `parse` after `emit` gives back the representation.
- `Ethernet.parse_eq_error_iff`: `ethernet::Repr::parse` returns `Err(Invalid)` exactly on
  frames shorter than the 14-byte header.
- `Ethernet.parse_eq_none_iff`: it panics exactly on the frames with a full header whose
  EtherType is none of IPv4, ARP and IPv6.
-/

namespace Beskar.Holonet

open Beskar.Lib

/-- `NetworkError`, the variants the parsers return; `Absent` and `Uninitialized` are
raised by the drivers only. -/
inductive NetworkError where
  | invalid
  | unsupported
deriving DecidableEq, Repr

/-- `check?` followed by the rest of a parser: an `Err` from the check returns early. -/
def propagate {α : Type} (check : Except NetworkError Unit)
    (rest : Option (Except NetworkError α)) : Option (Except NetworkError α) :=
  match check with
  | .error e => some (.error e)
  | .ok () => rest

/-- `check_len` of the fixed-header packets: `(len >= HEADER_LEN).then_some(()).ok_or(Invalid)`. -/
def checkMinLen (buffer : List UInt8) (headerLen : Nat) : Except NetworkError Unit :=
  if headerLen ≤ buffer.length then .ok () else .error .invalid

@[simp] theorem propagate_error {α : Type} (e : NetworkError) (rest : Option (Except NetworkError α)) :
    propagate (.error e) rest = some (.error e) := rfl

@[simp] theorem propagate_ok {α : Type} (rest : Option (Except NetworkError α)) :
    propagate (.ok ()) rest = rest := rfl

theorem checkMinLen_of_le {buffer : List UInt8} {headerLen : Nat} (h : headerLen ≤ buffer.length) :
    checkMinLen buffer headerLen = .ok () :=
  if_pos h

theorem checkMinLen_of_lt {buffer : List UInt8} {headerLen : Nat} (h : buffer.length < headerLen) :
    checkMinLen buffer headerLen = .error .invalid :=
  if_neg (Nat.not_le.mpr h)

/-- A length-checked parser whose body returns `Ok` or panics errs exactly on short
buffers, and then with `Invalid`. -/
theorem propagate_checkMinLen_eq_error {α : Type} {buffer : List UInt8} {headerLen : Nat}
    {body : Option α} {e : NetworkError} :
    propagate (checkMinLen buffer headerLen) (body.map .ok) = some (.error e) ↔
      buffer.length < headerLen ∧ e = .invalid := by
  by_cases hlen : headerLen ≤ buffer.length
  · rw [checkMinLen_of_le hlen, propagate_ok]
    constructor
    · intro h
      cases body <;> simp at h
    · rintro ⟨hlt, -⟩
      omega
  · rw [checkMinLen_of_lt (Nat.lt_of_not_le hlen), propagate_error]
    simp only [Option.some.injEq, Except.error.injEq]
    exact ⟨fun h => ⟨Nat.lt_of_not_le hlen, h.symm⟩, fun h => h.2.symm⟩

/-- A length-checked parser panics exactly when its body does on a long enough buffer. -/
theorem propagate_checkMinLen_eq_none {α : Type} {buffer : List UInt8} {headerLen : Nat}
    {rest : Option (Except NetworkError α)} :
    propagate (checkMinLen buffer headerLen) rest = none ↔
      headerLen ≤ buffer.length ∧ rest = none := by
  by_cases hlen : headerLen ≤ buffer.length
  · rw [checkMinLen_of_le hlen, propagate_ok]
    exact ⟨fun h => ⟨hlen, h⟩, fun h => h.2⟩
  · rw [checkMinLen_of_lt (Nat.lt_of_not_le hlen), propagate_error]
    simp [hlen]

/-- `MacAddress`: six octets. -/
structure MacAddress where
  octets : List UInt8
  length_eq : octets.length = 6
deriving DecidableEq

/-- `MacAddress::from_bytes`: `copy_from_slice` panics unless the slice has six bytes. -/
def MacAddress.fromBytes (data : List UInt8) : Option MacAddress :=
  if h : data.length = 6 then some ⟨data, h⟩ else none

/-- `MacAddress::from_bytes(&m.as_bytes())` is `m`. -/
@[simp] theorem MacAddress.fromBytes_octets (m : MacAddress) :
    MacAddress.fromBytes m.octets = some m := by
  rw [MacAddress.fromBytes, dif_pos m.length_eq]

/-- A six-byte range of a buffer long enough for it is a MAC address. -/
theorem macAddress_of_range (buffer : List UInt8) (a b : Nat) (hab : a + 6 = b)
    (h : b ≤ buffer.length) :
    ∃ m, (sliceRange buffer a b).bind MacAddress.fromBytes = some m := by
  have hslice := sliceRange_of_le (show a ≤ b by omega) h
  have hlen := length_of_sliceRange_eq_some hslice
  rw [hslice, Option.bind_some, MacAddress.fromBytes, dif_pos (by omega)]
  exact ⟨_, rfl⟩

namespace Ethernet

/-- `EtherType`. -/
inductive EtherType where
  | ipV4
  | arp
  | ipV6
deriving DecidableEq, Repr

/-- `impl TryFrom<u16> for EtherType`. -/
def EtherType.tryFrom (value : Nat) : Except NetworkError EtherType :=
  match value with
  | 0x0800 => .ok .ipV4
  | 0x0806 => .ok .arp
  | 0x86DD => .ok .ipV6
  | _ => .error .invalid

/-- `impl From<EtherType> for u16`: the wire code. -/
def EtherType.toU16 : EtherType → Nat
  | .ipV4 => 0x0800
  | .arp => 0x0806
  | .ipV6 => 0x86DD

@[simp] theorem EtherType.tryFrom_toU16 (t : EtherType) : EtherType.tryFrom t.toU16 = .ok t := by
  cases t <;> rfl

theorem EtherType.toU16_lt (t : EtherType) : t.toU16 < 256 ^ 2 := by
  cases t <;> decide

/-- `try_from` only ever fails with `Invalid`. -/
theorem EtherType.tryFrom_eq_error {value : Nat} {e : NetworkError}
    (h : EtherType.tryFrom value = .error e) : e = .invalid := by
  unfold EtherType.tryFrom at h
  split at h <;> cases h
  rfl

/-- `ethernet::HEADER_LEN`: two addresses and the EtherType. -/
def headerLen : Nat := 14

/-- `Frame<T>`: the buffer of a received frame. -/
structure Frame where
  buffer : List UInt8

/-- `Frame::new_unchecked`. -/
def Frame.newUnchecked (buffer : List UInt8) : Frame := ⟨buffer⟩

def Frame.checkLen (frame : Frame) : Except NetworkError Unit :=
  checkMinLen frame.buffer headerLen

/-- `dst_addr`: `MacAddress::from_bytes(&data[DESTINATION])`, bytes `0..6`. -/
def Frame.dstAddr (frame : Frame) : Option MacAddress :=
  (sliceRange frame.buffer 0 6).bind MacAddress.fromBytes

/-- `src_addr`: bytes `6..12`. -/
def Frame.srcAddr (frame : Frame) : Option MacAddress :=
  (sliceRange frame.buffer 6 12).bind MacAddress.fromBytes

/-- `ethertype`: `EtherType::try_from(u16_from_inet_bytes(data[12..14])).unwrap()`. -/
def Frame.ethertype (frame : Frame) : Option EtherType :=
  (readBe frame.buffer 12 14).bind fun raw => (EtherType.tryFrom raw).toOption

/-- `ethernet::Repr`. -/
structure Repr where
  srcAddr : MacAddress
  dstAddr : MacAddress
  ethertype : EtherType
deriving DecidableEq

/-- `ethernet::Repr::parse`. -/
def Repr.parse (frame : Frame) : Option (Except NetworkError Repr) :=
  propagate frame.checkLen <| Option.map .ok do
    let srcAddr ← frame.srcAddr
    let dstAddr ← frame.dstAddr
    let ethertype ← frame.ethertype
    some ⟨srcAddr, dstAddr, ethertype⟩

/-- On a full header both addresses are read, and the EtherType is read as
`EtherType::try_from` of bytes `12..14`. -/
theorem parse_body_eq_none_iff {frame : Frame} (h : headerLen ≤ frame.buffer.length) :
    (do
      let srcAddr ← frame.srcAddr
      let dstAddr ← frame.dstAddr
      let ethertype ← frame.ethertype
      some (Repr.mk srcAddr dstAddr ethertype)) = none ↔
      (EtherType.tryFrom (beField frame.buffer 12 14)).toOption = none := by
  simp only [headerLen] at h
  obtain ⟨src, hsrc⟩ := macAddress_of_range frame.buffer 6 12 rfl (by omega)
  obtain ⟨dst, hdst⟩ := macAddress_of_range frame.buffer 0 6 rfl (by omega)
  simp only [Frame.srcAddr, hsrc, Frame.dstAddr, hdst, Frame.ethertype,
    readBe_of_le (by omega : 12 ≤ 14) h, Option.bind_eq_bind, Option.bind_some]
  cases EtherType.tryFrom (beField frame.buffer 12 14) <;> simp [Except.toOption]

/-- **`ethernet::Repr::parse` returns `Err` only on short frames**, and then `Invalid`. -/
theorem parse_eq_error_iff (frame : Frame) (e : NetworkError) :
    Repr.parse frame = some (.error e) ↔ frame.buffer.length < headerLen ∧ e = .invalid :=
  propagate_checkMinLen_eq_error

/-- **`ethernet::Repr::parse` panics exactly on an unknown EtherType**: on every frame of
at least 14 bytes whose bytes `12..14` are none of `0x0800`, `0x0806`, `0x86DD`, the
`unwrap` in `Frame::ethertype` fails. -/
theorem parse_eq_none_iff (frame : Frame) :
    Repr.parse frame = none ↔
      headerLen ≤ frame.buffer.length ∧
        (EtherType.tryFrom (beField frame.buffer 12 14)).toOption = none := by
  rw [Repr.parse, Frame.checkLen, propagate_checkMinLen_eq_none, Option.map_eq_none_iff]
  exact ⟨fun ⟨hlen, hbody⟩ => ⟨hlen, (parse_body_eq_none_iff hlen).mp hbody⟩,
    fun ⟨hlen, hcode⟩ => ⟨hlen, (parse_body_eq_none_iff hlen).mpr hcode⟩⟩

/-! ### Emitting a frame -/

/-- `set_dst_addr`: bytes `0..6`. -/
def Frame.setDstAddr (frame : Frame) (value : MacAddress) : Option Frame :=
  (copyFromSlice frame.buffer 0 6 value.octets).map Frame.mk

/-- `set_src_addr`: bytes `6..12`. -/
def Frame.setSrcAddr (frame : Frame) (value : MacAddress) : Option Frame :=
  (copyFromSlice frame.buffer 6 12 value.octets).map Frame.mk

/-- `set_ethertype`: bytes `12..14`, `u16_to_inet_bytes(value.into())`. -/
def Frame.setEthertype (frame : Frame) (value : EtherType) : Option Frame :=
  (copyFromSlice frame.buffer 12 14 (toBeBytes 2 value.toU16)).map Frame.mk

/-- `ethernet::Repr::buffer_len`: the header alone. -/
def Repr.bufferLen (_r : Repr) : Nat := headerLen

/-- `ethernet::Repr::emit`. -/
def Repr.emit (r : Repr) (frame : Frame) : Option Frame :=
  -- `assert!(frame.buffer.as_ref().len() >= self.buffer_len())`
  if frame.buffer.length < r.bufferLen then none
  else do
    let frame ← frame.setSrcAddr r.srcAddr
    let frame ← frame.setDstAddr r.dstAddr
    frame.setEthertype r.ethertype

/-- The fields of the header: destination, source, EtherType. -/
def layout : List Nat := [6, 6, 2]

/-- The header `emit` lays down for `r`, field by field. -/
def Repr.header (r : Repr) : List (List UInt8) :=
  [r.dstAddr.octets, r.srcAddr.octets, toBeBytes 2 r.ethertype.toU16]

theorem Repr.fills_header (r : Repr) : Fills layout r.header := by
  simp [Fills, Repr.header, layout, r.dstAddr.length_eq, r.srcAddr.length_eq]

/-- **`emit` lays down the header** over the first fourteen bytes of any frame that holds
them, and keeps the bytes after. -/
theorem emit_eq (r : Repr) {buf : List UInt8} (h : headerLen ≤ buf.length) :
    r.emit ⟨buf⟩ = some ⟨r.header.flatten ++ buf.drop headerLen⟩ := by
  have hf : Fills layout (cutFields layout buf) := fills_cutFields layout h
  rw [Repr.emit, if_neg (Nat.not_lt.mpr (show r.bufferLen ≤ (Frame.mk buf).buffer.length from h))]
  simp only [Frame.setSrcAddr, Frame.setDstAddr, Frame.setEthertype]
  conv_lhs => rw [cutFields_flatten_append layout buf]
  -- the three setters, each a write of one field of the cut frame
  rw [copyFromSlice_field hf (k := 1) (a := 6) (b := 12) rfl rfl rfl r.srcAddr.length_eq]
  simp only [Option.map_some, Option.bind_eq_bind, Option.bind_some]
  have hf₁ := hf.set (k := 1) rfl r.srcAddr.length_eq
  rw [copyFromSlice_field hf₁ (k := 0) (a := 0) (b := 6) rfl rfl rfl r.dstAddr.length_eq]
  simp only [Option.map_some, Option.bind_some]
  have hf₂ := hf₁.set (k := 0) rfl r.dstAddr.length_eq
  rw [copyFromSlice_field hf₂ (k := 2) (a := 12) (b := 14) rfl rfl rfl (length_toBeBytes 2 _),
    Option.map_some]
  -- every field is written, so nothing of the old header is left
  rfl

/-- **`parse` reads the header back**, whatever follows it. -/
theorem parse_header (r : Repr) (rest : List UInt8) :
    Repr.parse ⟨r.header.flatten ++ rest⟩ = some (.ok r) := by
  have hf := r.fills_header
  have hlen : headerLen ≤ (r.header.flatten ++ rest).length := le_length_flatten_append hf rfl
  rw [Repr.parse, Frame.checkLen, checkMinLen_of_le hlen, propagate_ok]
  simp only [Frame.srcAddr, Frame.dstAddr, Frame.ethertype,
    sliceRange_field hf (k := 1) (a := 6) (b := 12) rfl rfl rfl,
    sliceRange_field hf (k := 0) (a := 0) (b := 6) rfl rfl rfl,
    readBe_field hf (k := 2) (a := 12) (b := 14) rfl rfl rfl]
  simp [Repr.header, fromBeBytes_toBeBytes_of_lt r.ethertype.toU16_lt, Except.toOption]

/-- **Ethernet round trip**: on a frame of at least `buffer_len()` bytes, whatever they
held, `emit` then `parse` gives back the representation. -/
theorem parse_emit (r : Repr) {buf : List UInt8} (h : r.bufferLen ≤ buf.length) :
    ∃ frame, r.emit ⟨buf⟩ = some frame ∧ Repr.parse frame = some (.ok r) :=
  ⟨_, emit_eq r h, parse_header r _⟩

end Ethernet

end Beskar.Holonet
