import Beskar.Holonet.L3

/-!
# Holonet: ICMP, UDP and TCP Packets

Model of the transport parsers (`l4/icmp.rs`, `l4/udp.rs`, `l4/tcp.rs`).  Each checks a
fixed minimum length and then reads its fields.  ICMP converts its type byte with an
`unwrap`; UDP cuts its payload at the length the packet announces; TCP slices its payload
at the data offset the packet announces.

Each `emit` lays down a header (`Repr.header`, a list of fields) over a long enough buffer
and keeps the payload; UDP and TCP leave their checksum field as it was.

## Main results

- `Icmp.parse_emit`, `Udp.parse_emit`, `Tcp.parse_emit`: `parse` after `emit` gives back the
  representation.
- `Icmp.parse_eq_none_iff`, `Udp.parse_eq_none_iff`, `Tcp.parse_eq_none_iff`: the exact
  inputs on which each parser panics.
- `holonet_parsers_panic`: one input each on which the six holonet parsers panic.
- `Icmp.fillChecksum_verifies`, `Udp.fillChecksum_verifies`, `Tcp.fillChecksum_verifies`:
  the checksum `fill_checksum` writes verifies, the pseudo-header included.
-/

namespace Beskar.Holonet

open Beskar.Lib

/-- The IPv4 pseudo-header the `fill_checksum` of UDP and TCP sums before the segment: the
source and destination addresses, a zero byte, the protocol number and the length. -/
def pseudoHeader (srcAddr dstAddr : Ipv4Addr) (protocol : UInt8) (len : Nat) : List UInt8 :=
  srcAddr.octets ++ dstAddr.octets ++ [0, protocol] ++ toBeBytes 2 len

theorem length_pseudoHeader (srcAddr dstAddr : Ipv4Addr) (protocol : UInt8) (len : Nat) :
    (pseudoHeader srcAddr dstAddr protocol len).length = 12 := by
  simp [pseudoHeader, srcAddr.length_eq, dstAddr.length_eq]

namespace Icmp

/-- `icmp::HEADER_LEN`. -/
def headerLen : Nat := 8

/-- `icmp::MessageType`. -/
inductive MessageType where
  | echoReply
  | destinationUnreachable
  | sourceQuench
  | redirect
  | echoRequest
  | routerAdvertisement
  | routerSolicitation
  | timeExceeded
  | parameterProblem
  | timestamp
  | timestampReply
  | informationRequest
  | informationReply
deriving DecidableEq, Repr

def MessageType.tryFrom (value : Nat) : Except NetworkError MessageType :=
  match value with
  | 0 => .ok .echoReply
  | 3 => .ok .destinationUnreachable
  | 4 => .ok .sourceQuench
  | 5 => .ok .redirect
  | 8 => .ok .echoRequest
  | 9 => .ok .routerAdvertisement
  | 10 => .ok .routerSolicitation
  | 11 => .ok .timeExceeded
  | 12 => .ok .parameterProblem
  | 13 => .ok .timestamp
  | 14 => .ok .timestampReply
  | 15 => .ok .informationRequest
  | 16 => .ok .informationReply
  | _ => .error .invalid

/-- `icmp::Packet<T>`. -/
structure Packet where
  buffer : List UInt8

def Packet.newUnchecked (buffer : List UInt8) : Packet := ⟨buffer⟩

def Packet.checkLen (p : Packet) : Except NetworkError Unit :=
  checkMinLen p.buffer headerLen

/-- `msg_type`: `MessageType::try_from(data[0]).unwrap()`. -/
def Packet.msgType (p : Packet) : Option MessageType :=
  p.buffer[0]?.bind fun b => (MessageType.tryFrom b.toNat).toOption

def Packet.code (p : Packet) : Option UInt8 := p.buffer[1]?

/-- `payload`: `&data[HEADER_LEN..]`. -/
def Packet.payload (p : Packet) : Option (List UInt8) :=
  sliceFrom p.buffer headerLen

/-- `icmp::Repr`. -/
structure Repr where
  msgType : MessageType
  code : UInt8
  payloadLen : Nat
deriving DecidableEq

/-- `icmp::Repr::parse`. -/
def Repr.parse (p : Packet) : Option (Except NetworkError Repr) :=
  propagate p.checkLen <| Option.map .ok do
    let msgType ← p.msgType
    let code ← p.code
    let payload ← p.payload
    some ⟨msgType, code, payload.length⟩

/-- **`icmp::Repr::parse` panics exactly** on packets of a full header whose type byte is
not one of the thirteen message types. -/
theorem parse_eq_none_iff (p : Packet) :
    Repr.parse p = none ↔
      headerLen ≤ p.buffer.length ∧
        (MessageType.tryFrom (p.buffer.getD 0 0).toNat).toOption = none := by
  rw [Repr.parse, Packet.checkLen, propagate_checkMinLen_eq_none, Option.map_eq_none_iff]
  refine and_congr_right fun hlen => ?_
  have h8 : 8 ≤ p.buffer.length := hlen
  simp only [Packet.msgType, Packet.code, Packet.payload,
    getElem?_of_lt 0 (show 0 < p.buffer.length by omega),
    getElem?_of_lt 0 (show 1 < p.buffer.length by omega), sliceFrom_of_le hlen,
    Option.bind_eq_bind, Option.bind_some]
  cases MessageType.tryFrom (p.buffer.getD 0 0).toNat <;> simp [Except.toOption]

/-! ### Emitting a packet -/

/-- `impl From<MessageType> for u8`. -/
def MessageType.toU8 : MessageType → UInt8
  | .echoReply => 0
  | .destinationUnreachable => 3
  | .sourceQuench => 4
  | .redirect => 5
  | .echoRequest => 8
  | .routerAdvertisement => 9
  | .routerSolicitation => 10
  | .timeExceeded => 11
  | .parameterProblem => 12
  | .timestamp => 13
  | .timestampReply => 14
  | .informationRequest => 15
  | .informationReply => 16

@[simp] theorem MessageType.tryFrom_toU8 (t : MessageType) :
    MessageType.tryFrom t.toU8.toNat = .ok t := by
  cases t <;> rfl

/-- `set_msg_type`: byte 0. -/
def Packet.setMsgType (p : Packet) (value : MessageType) : Option Packet :=
  (store p.buffer 0 value.toU8).map Packet.mk

/-- `set_code`: byte 1. -/
def Packet.setCode (p : Packet) (value : UInt8) : Option Packet :=
  (store p.buffer 1 value).map Packet.mk

/-- `set_checksum`: bytes `2..4`. -/
def Packet.setChecksum (p : Packet) (value : UInt16) : Option Packet :=
  (copyFromSlice p.buffer 2 4 (toBeBytes 2 value.toNat)).map Packet.mk

/-- `set_rest_of_header`: bytes `4..8`, `value.to_be_bytes()`. -/
def Packet.setRestOfHeader (p : Packet) (value : UInt32) : Option Packet :=
  (copyFromSlice p.buffer 4 8 (toBeBytes 4 value.toNat)).map Packet.mk

/-- `fill_checksum`: the checksum of the whole buffer, header and payload, with the checksum
word zero. -/
def Packet.fillChecksum (p : Packet) : Option Packet := do
  let p ← p.setChecksum 0
  p.setChecksum (checksum p.buffer)

/-- `icmp::Repr::buffer_len`. -/
def Repr.bufferLen (r : Repr) : Nat := headerLen + r.payloadLen

/-- `icmp::Repr::emit`. -/
def Repr.emit (r : Repr) (p : Packet) : Option Packet :=
  -- `assert!(packet.buffer.as_ref().len() >= self.buffer_len())`
  if p.buffer.length < r.bufferLen then none
  else do
    let p ← p.setMsgType r.msgType
    let p ← p.setCode r.code
    let p ← p.setRestOfHeader 0
    p.fillChecksum

/-- The fields of the header: type, code, checksum, rest of header. -/
def layout : List Nat := [1, 1, 2, 4]

/-- The header of `r` with the checksum word `ck`. -/
def Repr.header (r : Repr) (ck : List UInt8) : List (List UInt8) :=
  [[r.msgType.toU8], [r.code], ck, toBeBytes 4 0]

/-- The checksum `fill_checksum` writes before `payload`: that of the packet with the word
zero. -/
def Repr.packetChecksum (r : Repr) (payload : List UInt8) : UInt16 :=
  checksum ((r.header (toBeBytes 2 0)).flatten ++ payload)

theorem Repr.fills_header (r : Repr) {ck : List UInt8} (hck : ck.length = 2) :
    Fills layout (r.header ck) := by
  simp [Fills, Repr.header, layout, hck]

/-- **`emit` lays down the header** with the checksum of the whole packet, and keeps the
payload. -/
theorem emit_eq (r : Repr) {buf : List UInt8} (h : r.bufferLen ≤ buf.length) :
    r.emit ⟨buf⟩ = some ⟨(r.header (toBeBytes 2 (r.packetChecksum (buf.drop headerLen)).toNat)).flatten ++
      buf.drop headerLen⟩ := by
  have hlen : layout.sum ≤ buf.length := Nat.le_trans (Nat.le_add_right _ _) h
  have hf : Fills layout (cutFields layout buf) := fills_cutFields layout hlen
  rw [Repr.emit, if_neg (Nat.not_lt.mpr (show r.bufferLen ≤ (Packet.mk buf).buffer.length from h))]
  simp only [Packet.setMsgType, Packet.setCode, Packet.setRestOfHeader, Packet.fillChecksum,
    Packet.setChecksum]
  conv_lhs => rw [cutFields_flatten_append layout buf]
  -- type, code and the rest of the header
  rw [store_field hf (k := 0) (a := 0) rfl rfl]
  simp only [Option.map_some, Option.bind_eq_bind, Option.bind_some]
  have hf₁ := hf.set (k := 0) rfl (List.length_singleton (a := r.msgType.toU8))
  rw [store_field hf₁ (k := 1) (a := 1) rfl rfl]
  simp only [Option.map_some, Option.bind_some]
  have hf₂ := hf₁.set (k := 1) rfl (List.length_singleton (a := r.code))
  rw [copyFromSlice_field hf₂ (k := 3) (a := 4) (b := 8) rfl rfl rfl (length_toBeBytes 4 _)]
  simp only [Option.map_some, Option.bind_some]
  have hf₃ := hf₂.set (k := 3) rfl (length_toBeBytes 4 (0 : UInt32).toNat)
  -- `fill_checksum`: zero the word, sum the whole buffer, write the checksum
  rw [copyFromSlice_field hf₃ (k := 2) (a := 2) (b := 4) rfl rfl rfl (length_toBeBytes 2 _)]
  simp only [Option.map_some, Option.bind_some]
  have hf₄ := hf₃.set (k := 2) rfl (length_toBeBytes 2 (0 : UInt16).toNat)
  rw [copyFromSlice_field hf₄ (k := 2) (a := 2) (b := 4) rfl rfl rfl (length_toBeBytes 2 _),
    Option.map_some]
  -- every field is written, so nothing of the old header is left
  rfl

/-- **`parse` reads the header back**, with the length of what follows it. -/
theorem parse_header (r : Repr) {ck : List UInt8} (hck : ck.length = 2) (rest : List UInt8) :
    Repr.parse ⟨(r.header ck).flatten ++ rest⟩ = some (.ok { r with payloadLen := rest.length }) := by
  have hf := r.fills_header hck
  have hlen : headerLen ≤ ((r.header ck).flatten ++ rest).length :=
    le_length_flatten_append hf rfl
  rw [Repr.parse, Packet.checkLen, checkMinLen_of_le hlen, propagate_ok]
  simp only [Packet.msgType, Packet.code, Packet.payload, Option.bind_eq_bind,
    getElem?_field hf (k := 0) (a := 0) rfl (by decide) rfl,
    getElem?_field hf (k := 1) (a := 1) rfl (by decide) rfl, sliceFrom_fills hf (a := headerLen) rfl]
  simp [Repr.header, Except.toOption]

/-- **ICMP round trip**: on a buffer of `buffer_len()` bytes, whatever they held, `emit` then
`parse` gives back the representation. -/
theorem parse_emit (r : Repr) {buf : List UInt8} (h : buf.length = r.bufferLen) :
    ∃ p, r.emit ⟨buf⟩ = some p ∧ Repr.parse p = some (.ok r) := by
  have hrest : (buf.drop headerLen).length = r.payloadLen := by
    rw [List.length_drop, h, Repr.bufferLen, Nat.add_sub_cancel_left]
  refine ⟨_, emit_eq r (Nat.le_of_eq h.symm), ?_⟩
  rw [parse_header r (length_toBeBytes 2 _), hrest]

/-- **`fill_checksum` verifies**: the checksum of the whole packet it leaves is zero. -/
theorem fillChecksum_verifies {p p' : Packet} (h : p.fillChecksum = some p') :
    checksum p'.buffer = 0 := by
  simp only [Packet.fillChecksum, Option.bind_eq_bind, Option.bind_eq_some_iff] at h
  obtain ⟨p₁, h₁, h'⟩ := h
  obtain ⟨zeroed, hz, rfl⟩ := Option.map_eq_some_iff.mp h₁
  obtain ⟨filled, hf, rfl⟩ := Option.map_eq_some_iff.mp h'
  exact @verifies_of_fill_whole [] _ _ _ _ rfl (by decide) hz hf

end Icmp

namespace Udp

/-- `udp::HEADER_LEN`. -/
def headerLen : Nat := 8

/-- `udp::Packet<T>`. -/
structure Packet where
  buffer : List UInt8

def Packet.newUnchecked (buffer : List UInt8) : Packet := ⟨buffer⟩

def Packet.checkLen (p : Packet) : Except NetworkError Unit :=
  checkMinLen p.buffer headerLen

/-- `src_port`: bytes `0..2`, a `u16`. -/
def Packet.srcPort (p : Packet) : Option UInt16 := (readBe p.buffer 0 2).map Nat.toUInt16
/-- `dst_port`: bytes `2..4`. -/
def Packet.dstPort (p : Packet) : Option UInt16 := (readBe p.buffer 2 4).map Nat.toUInt16

/-- `len`: the length field, bytes `4..6`. -/
def Packet.len (p : Packet) : Option Nat := readBe p.buffer 4 6

/-- `payload`: `data[HEADER_LEN..].split_at(usize::from(self.len()).saturating_sub(HEADER_LEN)).0`. -/
def Packet.payload (p : Packet) : Option (List UInt8) := do
  let rest ← sliceFrom p.buffer headerLen
  let length ← p.len
  let (front, _) ← splitAt rest (length - headerLen)
  some front

/-- `udp::Repr`. -/
structure Repr where
  srcPort : UInt16
  dstPort : UInt16
  payloadLen : Nat
deriving DecidableEq

/-- `udp::Repr::parse`. -/
def Repr.parse (p : Packet) : Option (Except NetworkError Repr) :=
  propagate p.checkLen <| Option.map .ok do
    let srcPort ← p.srcPort
    let dstPort ← p.dstPort
    let payload ← p.payload
    some ⟨srcPort, dstPort, payload.length⟩

/-- **`udp::Repr::parse` panics exactly** on packets of a full header whose length field
exceeds the buffer: `split_at` is asked to cut past the end. -/
theorem parse_eq_none_iff (p : Packet) :
    Repr.parse p = none ↔ headerLen ≤ p.buffer.length ∧ p.buffer.length < beField p.buffer 4 6 := by
  rw [Repr.parse, Packet.checkLen, propagate_checkMinLen_eq_none, Option.map_eq_none_iff]
  refine and_congr_right fun hlen => ?_
  simp only [headerLen] at hlen
  simp only [Packet.srcPort, Packet.dstPort, Packet.payload, Packet.len,
    readBe_of_le (show 0 ≤ 2 by omega) (show 2 ≤ p.buffer.length by omega),
    readBe_of_le (show 2 ≤ 4 by omega) (show 4 ≤ p.buffer.length by omega),
    readBe_of_le (show 4 ≤ 6 by omega) (show 6 ≤ p.buffer.length by omega),
    sliceFrom_of_le hlen, Option.map_some, Option.bind_eq_bind, Option.bind_some, headerLen]
  generalize beField p.buffer 4 6 = length
  -- the rest after the header has `len - 8` bytes; the cut is at `length - 8`
  by_cases hcut : length - 8 ≤ (p.buffer.drop 8).length
  · rw [splitAt_of_le hcut]
    simp only [Option.bind_some, reduceCtorEq, false_iff, Nat.not_lt]
    simp only [List.length_drop] at hcut
    omega
  · rw [splitAt_eq_none_iff.mpr (by omega)]
    simp only [Option.bind_none, true_iff]
    simp only [List.length_drop] at hcut
    omega

/-! ### Emitting a packet -/

/-- `set_src_port`: bytes `0..2`. -/
def Packet.setSrcPort (p : Packet) (value : UInt16) : Option Packet :=
  (copyFromSlice p.buffer 0 2 (toBeBytes 2 value.toNat)).map Packet.mk

/-- `set_dst_port`: bytes `2..4`. -/
def Packet.setDstPort (p : Packet) (value : UInt16) : Option Packet :=
  (copyFromSlice p.buffer 2 4 (toBeBytes 2 value.toNat)).map Packet.mk

/-- `set_len`: bytes `4..6`. -/
def Packet.setLen (p : Packet) (value : Nat) : Option Packet :=
  (copyFromSlice p.buffer 4 6 (toBeBytes 2 value)).map Packet.mk

/-- `set_checksum`: bytes `6..8`. -/
def Packet.setChecksum (p : Packet) (value : UInt16) : Option Packet :=
  (copyFromSlice p.buffer 6 8 (toBeBytes 2 value.toNat)).map Packet.mk

/-- `fill_checksum`: the checksum over the pseudo-header with the length field and over the
whole buffer with the checksum word zero.  A zero checksum is sent as `0xFFFF`, since a
zero UDP checksum means none in IPv4. -/
def Packet.fillChecksum (p : Packet) (srcAddr dstAddr : Ipv4Addr) : Option Packet := do
  let len ← p.len
  let p ← p.setChecksum 0
  let cksum := checksumWithPseudo (pseudoHeader srcAddr dstAddr 17 len) p.buffer
  p.setChecksum (if cksum = 0 then 0xFFFF else cksum)

/-- `udp::Repr::buffer_len`. -/
def Repr.bufferLen (r : Repr) : Nat := headerLen + r.payloadLen

/-- `udp::Repr::emit`: the ports and the length; the checksum is left as it was.
`u16::try_from(HEADER_LEN + self.payload_len).unwrap()` panics on a payload too long for the
length field. -/
def Repr.emit (r : Repr) (p : Packet) : Option Packet :=
  -- `assert!(packet.buffer.as_ref().len() >= self.buffer_len())`
  if p.buffer.length < r.bufferLen then none
  else do
    let p ← p.setSrcPort r.srcPort
    let p ← p.setDstPort r.dstPort
    let len ← narrowChecked 16 (headerLen + r.payloadLen)
    p.setLen len

/-- The fields of the header: the two ports, the length and the checksum. -/
def layout : List Nat := [2, 2, 2, 2]

/-- The header of `r` with the checksum field `ck`. -/
def Repr.header (r : Repr) (ck : List UInt8) : List (List UInt8) :=
  [toBeBytes 2 r.srcPort.toNat, toBeBytes 2 r.dstPort.toNat, toBeBytes 2 (headerLen + r.payloadLen), ck]

theorem Repr.fills_header (r : Repr) {ck : List UInt8} (hck : ck.length = 2) :
    Fills layout (r.header ck) := by
  simp [Fills, Repr.header, layout, hck]

/-- The fields of a buffer cut by the header layout, one by one. -/
theorem cutFields_layout (buf : List UInt8) :
    cutFields layout buf =
      [buf.take 2, (buf.drop 2).take 2, (buf.drop 4).take 2, (buf.drop 6).take 2] := by
  simp [cutFields, layout, List.drop_drop]

/-- **`emit` lays down the header** over the first eight bytes of any buffer that holds the
packet, keeping the two checksum bytes it does not write, and keeps the payload. -/
theorem emit_eq (r : Repr) {buf : List UInt8} (h : r.bufferLen ≤ buf.length)
    (hfit : headerLen + r.payloadLen < 2 ^ 16) :
    r.emit ⟨buf⟩ = some ⟨(r.header ((buf.drop 6).take 2)).flatten ++ buf.drop headerLen⟩ := by
  have hlen : layout.sum ≤ buf.length := Nat.le_trans (Nat.le_add_right _ _) h
  have hf := fills_cutFields layout hlen
  rw [cutFields_layout] at hf
  rw [Repr.emit, if_neg (Nat.not_lt.mpr (show r.bufferLen ≤ (Packet.mk buf).buffer.length from h)),
    narrowChecked_of_lt hfit]
  simp only [Packet.setSrcPort, Packet.setDstPort, Packet.setLen]
  conv_lhs => rw [cutFields_flatten_append layout buf, cutFields_layout]
  -- the two ports and the length
  rw [copyFromSlice_field hf (k := 0) (a := 0) (b := 2) rfl rfl rfl (length_toBeBytes 2 _)]
  simp only [Option.map_some, Option.bind_eq_bind, Option.bind_some]
  have hf₁ := hf.set (k := 0) rfl (length_toBeBytes 2 r.srcPort.toNat)
  rw [copyFromSlice_field hf₁ (k := 1) (a := 2) (b := 4) rfl rfl rfl (length_toBeBytes 2 _)]
  simp only [Option.map_some, Option.bind_some]
  have hf₂ := hf₁.set (k := 1) rfl (length_toBeBytes 2 r.dstPort.toNat)
  rw [copyFromSlice_field hf₂ (k := 2) (a := 4) (b := 6) rfl rfl rfl (length_toBeBytes 2 _),
    Option.map_some]
  -- the checksum field is the buffer's own
  rfl

/-- **`parse` reads the header back**: the payload it reports is the one the length field
announces, whatever follows it, as long as the buffer holds it. -/
theorem parse_header (r : Repr) {ck : List UInt8} (hck : ck.length = 2)
    (hfit : headerLen + r.payloadLen < 2 ^ 16) {rest : List UInt8}
    (hrest : r.payloadLen ≤ rest.length) :
    Repr.parse ⟨(r.header ck).flatten ++ rest⟩ = some (.ok r) := by
  have hf := r.fills_header hck
  have hlen : headerLen ≤ ((r.header ck).flatten ++ rest).length :=
    le_length_flatten_append hf rfl
  rw [Repr.parse, Packet.checkLen, checkMinLen_of_le hlen, propagate_ok]
  simp only [Packet.srcPort, Packet.dstPort, Packet.payload, Packet.len, Option.bind_eq_bind,
    readBe_field hf (k := 0) (a := 0) (b := 2) rfl rfl rfl,
    readBe_field hf (k := 1) (a := 2) (b := 4) rfl rfl rfl,
    readBe_field hf (k := 2) (a := 4) (b := 6) rfl rfl rfl, sliceFrom_fills hf (a := headerLen) rfl]
  -- the length field holds `8 + payload_len`, and the payload is cut at `payload_len`
  simp only [Repr.header, List.getElem?_cons_zero, List.getElem?_cons_succ, Option.map_some,
    Option.bind_some, fromBeBytes_toBeBytes_of_lt (n := 2) r.srcPort.toNat_lt,
    fromBeBytes_toBeBytes_of_lt (n := 2) r.dstPort.toNat_lt,
    fromBeBytes_toBeBytes_of_lt (n := 2) hfit,
    Nat.add_sub_cancel_left, splitAt_of_le hrest, List.length_take, Nat.min_eq_left hrest]
  simp

/-- **UDP round trip**: on a buffer of `buffer_len()` bytes, whatever they held, with a
payload short enough for the length field, `emit` then `parse` gives back the
representation. -/
theorem parse_emit (r : Repr) {buf : List UInt8} (h : buf.length = r.bufferLen)
    (hfit : headerLen + r.payloadLen < 2 ^ 16) :
    ∃ p, r.emit ⟨buf⟩ = some p ∧ Repr.parse p = some (.ok r) := by
  have hck : ((buf.drop 6).take 2).length = 2 := by
    simp only [List.length_take, List.length_drop, h, Repr.bufferLen, headerLen]
    omega
  have hrest : r.payloadLen ≤ (buf.drop headerLen).length := by
    rw [List.length_drop, h, Repr.bufferLen, Nat.add_sub_cancel_left]
  exact ⟨_, emit_eq r (Nat.le_of_eq h.symm) hfit, parse_header r hck hfit hrest⟩

/-- **`fill_checksum` verifies on a packet as long as its length field**: the checksum over
the same pseudo-header and the whole packet it leaves is zero, the `0xFFFF` sent for a zero
checksum included. -/
theorem fillChecksum_verifies {p p' : Packet} {srcAddr dstAddr : Ipv4Addr}
    (h : p.fillChecksum srcAddr dstAddr = some p') (hlen : p.buffer.length = beField p.buffer 4 6) :
    checksumWithPseudo (pseudoHeader srcAddr dstAddr 17 (beField p.buffer 4 6)) p'.buffer = 0 := by
  simp only [Packet.fillChecksum, Option.bind_eq_bind, Option.bind_eq_some_iff] at h
  obtain ⟨len, hread, p₁, h₁, h'⟩ := h
  rw [eq_beField_of_readBe_eq_some hread] at h'
  obtain ⟨zeroed, hz, rfl⟩ := Option.map_eq_some_iff.mp h₁
  obtain ⟨filled, hf, rfl⟩ := Option.map_eq_some_iff.mp h'
  have heven : (pseudoHeader srcAddr dstAddr 17 (beField p.buffer 4 6)).length % 2 = 0 := by
    rw [length_pseudoHeader]
  -- a length field of two bytes keeps the pseudo-header and the packet from wrapping the `u32`
  have hbound : (pseudoHeader srcAddr dstAddr 17 (beField p.buffer 4 6)).length +
      p.buffer.length ≤ 2 ^ 17 := by
    have hlt := beField_lt p.buffer 4 6
    rw [length_pseudoHeader, hlen]
    simp only [Nat.reduceSub, Nat.reducePow] at hlt
    omega
  rw [checksumWithPseudo_eq heven] at hf ⊢
  exact verifies_of_fill_max heven (by decide) hbound hz hf

end Udp

namespace Tcp

/-- `tcp::HEADER_LEN`, the header without options. -/
def headerLen : Nat := 20

/-- `tcp::Flags`: the six flag bits of byte 13.  Its field is private to `tcp.rs`, where
only `from_bits` builds a value, so the bits above the six flags are clear. -/
structure Flags where
  bits : UInt8
  bits_lt : bits < 0x40
deriving DecidableEq, Repr

theorem and_low_six_lt (value : UInt8) : value &&& 0x3F < 0x40 := by
  rw [UInt8.lt_iff_toNat_lt, UInt8.toNat_and]
  exact Nat.lt_of_le_of_lt Nat.and_le_right (by decide)

/-- `Flags::from_bits`: `value & 0x3F`. -/
def Flags.fromBits (value : UInt8) : Flags := ⟨value &&& 0x3F, and_low_six_lt value⟩

/-- `tcp::Packet<T>`. -/
structure Packet where
  buffer : List UInt8

def Packet.newUnchecked (buffer : List UInt8) : Packet := ⟨buffer⟩

def Packet.checkLen (p : Packet) : Except NetworkError Unit :=
  checkMinLen p.buffer headerLen

-- The number fields, as their `u16` and `u32` types.
def Packet.srcPort (p : Packet) : Option UInt16 := (readBe p.buffer 0 2).map Nat.toUInt16
def Packet.dstPort (p : Packet) : Option UInt16 := (readBe p.buffer 2 4).map Nat.toUInt16
def Packet.seqNum (p : Packet) : Option UInt32 := (readBe p.buffer 4 8).map Nat.toUInt32
def Packet.ackNum (p : Packet) : Option UInt32 := (readBe p.buffer 8 12).map Nat.toUInt32
def Packet.windowSize (p : Packet) : Option UInt16 := (readBe p.buffer 14 16).map Nat.toUInt16

/-- `data_offset`: `data[12] >> 4`, in 32-bit words. -/
def Packet.dataOffset (p : Packet) : Option UInt8 :=
  p.buffer[12]?.map fun b : UInt8 => b >>> (4 : UInt8)

/-- `header_len`: the data offset in bytes. -/
def Packet.headerLen (p : Packet) : Option Nat :=
  p.dataOffset.map fun d => d.toNat * 4

def Packet.flags (p : Packet) : Option Flags :=
  p.buffer[13]?.map Flags.fromBits

/-- `payload`: `&data[self.header_len()..]`. -/
def Packet.payload (p : Packet) : Option (List UInt8) :=
  p.headerLen.bind (sliceFrom p.buffer)

/-- `tcp::Repr`. -/
structure Repr where
  srcPort : UInt16
  dstPort : UInt16
  seqNum : UInt32
  ackNum : UInt32
  flags : Flags
  windowSize : UInt16
  payloadLen : Nat
deriving DecidableEq

/-- `tcp::Repr::parse`. -/
def Repr.parse (p : Packet) : Option (Except NetworkError Repr) :=
  propagate p.checkLen <| Option.map .ok do
    let srcPort ← p.srcPort
    let dstPort ← p.dstPort
    let seqNum ← p.seqNum
    let ackNum ← p.ackNum
    let flags ← p.flags
    let windowSize ← p.windowSize
    let payload ← p.payload
    some ⟨srcPort, dstPort, seqNum, ackNum, flags, windowSize, payload.length⟩

/-- **`tcp::Repr::parse` panics exactly** on packets of a full header whose data offset
points past the end of the buffer. -/
theorem parse_eq_none_iff (p : Packet) :
    Repr.parse p = none ↔
      headerLen ≤ p.buffer.length ∧
        p.buffer.length < ((p.buffer.getD 12 0) >>> (4 : UInt8)).toNat * 4 := by
  rw [Repr.parse, Packet.checkLen, propagate_checkMinLen_eq_none, Option.map_eq_none_iff]
  refine and_congr_right fun hlen => ?_
  simp only [headerLen] at hlen
  simp only [Packet.srcPort, Packet.dstPort, Packet.seqNum, Packet.ackNum, Packet.windowSize,
    Packet.flags, Packet.payload, Packet.headerLen, Packet.dataOffset,
    readBe_of_le (show 0 ≤ 2 by omega) (show 2 ≤ p.buffer.length by omega),
    readBe_of_le (show 2 ≤ 4 by omega) (show 4 ≤ p.buffer.length by omega),
    readBe_of_le (show 4 ≤ 8 by omega) (show 8 ≤ p.buffer.length by omega),
    readBe_of_le (show 8 ≤ 12 by omega) (show 12 ≤ p.buffer.length by omega),
    readBe_of_le (show 14 ≤ 16 by omega) (show 16 ≤ p.buffer.length by omega),
    getElem?_of_lt 0 (show 12 < p.buffer.length by omega),
    getElem?_of_lt 0 (show 13 < p.buffer.length by omega),
    Option.bind_eq_bind, Option.bind_some, Option.map_some]
  generalize ((p.buffer.getD 12 0) >>> (4 : UInt8)).toNat * 4 = offset
  by_cases hpay : offset ≤ p.buffer.length
  · rw [sliceFrom_of_le hpay]
    simp only [Option.bind_some, reduceCtorEq, false_iff, Nat.not_lt]
    exact hpay
  · rw [sliceFrom_eq_none_iff.mpr (by omega)]
    simp only [Option.bind_none, true_iff]
    omega

/-! ### Emitting a segment -/

/-- `Flags::to_bits`. -/
def Flags.toBits (f : Flags) : UInt8 := f.bits

/-- `Flags::from_bits(flags.to_bits())` is `flags`: the bits above the six flags are clear. -/
theorem Flags.fromBits_toBits (f : Flags) : Flags.fromBits f.toBits = f := by
  obtain ⟨bits, hlt⟩ := f
  have hmask : bits &&& 0x3F = bits := by
    apply UInt8.toNat.inj
    rw [UInt8.toNat_and, show (0x3F : UInt8).toNat = 2 ^ 6 - 1 from rfl,
      Nat.and_two_pow_sub_one_eq_mod]
    exact Nat.mod_eq_of_lt (UInt8.lt_iff_toNat_lt.mp hlt)
  simp only [Flags.fromBits, Flags.toBits, hmask]

/-- `set_src_port`: bytes `0..2`. -/
def Packet.setSrcPort (p : Packet) (value : UInt16) : Option Packet :=
  (copyFromSlice p.buffer 0 2 (toBeBytes 2 value.toNat)).map Packet.mk

/-- `set_dst_port`: bytes `2..4`. -/
def Packet.setDstPort (p : Packet) (value : UInt16) : Option Packet :=
  (copyFromSlice p.buffer 2 4 (toBeBytes 2 value.toNat)).map Packet.mk

/-- `set_seq_num`: bytes `4..8`. -/
def Packet.setSeqNum (p : Packet) (value : UInt32) : Option Packet :=
  (copyFromSlice p.buffer 4 8 (toBeBytes 4 value.toNat)).map Packet.mk

/-- `set_ack_num`: bytes `8..12`. -/
def Packet.setAckNum (p : Packet) (value : UInt32) : Option Packet :=
  (copyFromSlice p.buffer 8 12 (toBeBytes 4 value.toNat)).map Packet.mk

/-- `set_data_offset`: byte 12, `(value & 0x0F) << 4`. -/
def Packet.setDataOffset (p : Packet) (value : UInt8) : Option Packet :=
  (store p.buffer 12 ((value &&& 0x0F) <<< 4)).map Packet.mk

/-- `set_flags`: byte 13. -/
def Packet.setFlags (p : Packet) (flags : Flags) : Option Packet :=
  (store p.buffer 13 flags.toBits).map Packet.mk

/-- `set_window_size`: bytes `14..16`. -/
def Packet.setWindowSize (p : Packet) (value : UInt16) : Option Packet :=
  (copyFromSlice p.buffer 14 16 (toBeBytes 2 value.toNat)).map Packet.mk

/-- `set_urgent_ptr`: bytes `18..20`. -/
def Packet.setUrgentPtr (p : Packet) (value : UInt16) : Option Packet :=
  (copyFromSlice p.buffer 18 20 (toBeBytes 2 value.toNat)).map Packet.mk

/-- `set_checksum`: bytes `16..18`. -/
def Packet.setChecksum (p : Packet) (value : UInt16) : Option Packet :=
  (copyFromSlice p.buffer 16 18 (toBeBytes 2 value.toNat)).map Packet.mk

/-- `fill_checksum`: the checksum over the pseudo-header, with the length
`u16::try_from(self.header_len() + self.payload().len()).unwrap()`, and over the whole
buffer with the checksum word zero. -/
def Packet.fillChecksum (p : Packet) (srcAddr dstAddr : Ipv4Addr) : Option Packet := do
  let headerLen ← p.headerLen
  let payload ← p.payload
  let totalLen ← narrowChecked 16 (headerLen + payload.length)
  let p ← p.setChecksum 0
  p.setChecksum (checksumWithPseudo (pseudoHeader srcAddr dstAddr 6 totalLen) p.buffer)

/-- `tcp::Repr::buffer_len`. -/
def Repr.bufferLen (r : Repr) : Nat := headerLen + r.payloadLen

/-- `tcp::Repr::emit`: a 20-byte header without options; the checksum is left as it was. -/
def Repr.emit (r : Repr) (p : Packet) : Option Packet :=
  -- `assert!(packet.buffer.as_ref().len() >= self.buffer_len())`
  if p.buffer.length < r.bufferLen then none
  else do
    let p ← p.setSrcPort r.srcPort
    let p ← p.setDstPort r.dstPort
    let p ← p.setSeqNum r.seqNum
    let p ← p.setAckNum r.ackNum
    let p ← p.setDataOffset 5
    let p ← p.setFlags r.flags
    let p ← p.setWindowSize r.windowSize
    p.setUrgentPtr 0

/-- The fields of the header: the ports, the two numbers, the data offset, the flags, the
window, the checksum and the urgent pointer. -/
def layout : List Nat := [2, 2, 4, 4, 1, 1, 2, 2, 2]

/-- The header of `r` with the checksum field `ck`. -/
def Repr.header (r : Repr) (ck : List UInt8) : List (List UInt8) :=
  [toBeBytes 2 r.srcPort.toNat, toBeBytes 2 r.dstPort.toNat, toBeBytes 4 r.seqNum.toNat,
    toBeBytes 4 r.ackNum.toNat, [0x50], [r.flags.toBits], toBeBytes 2 r.windowSize.toNat, ck,
    toBeBytes 2 0]

theorem Repr.fills_header (r : Repr) {ck : List UInt8} (hck : ck.length = 2) :
    Fills layout (r.header ck) := by
  simp [Fills, Repr.header, layout, hck]

/-- The fields of a buffer cut by the header layout, one by one. -/
theorem cutFields_layout (buf : List UInt8) :
    cutFields layout buf =
      [buf.take 2, (buf.drop 2).take 2, (buf.drop 4).take 4, (buf.drop 8).take 4,
        (buf.drop 12).take 1, (buf.drop 13).take 1, (buf.drop 14).take 2, (buf.drop 16).take 2,
        (buf.drop 18).take 2] := by
  simp [cutFields, layout, List.drop_drop]

/-- **`emit` lays down the header** over the first twenty bytes of any buffer that holds the
segment, keeping the two checksum bytes it does not write, and keeps the payload. -/
theorem emit_eq (r : Repr) {buf : List UInt8} (h : r.bufferLen ≤ buf.length) :
    r.emit ⟨buf⟩ = some ⟨(r.header ((buf.drop 16).take 2)).flatten ++ buf.drop headerLen⟩ := by
  have hlen : layout.sum ≤ buf.length := Nat.le_trans (Nat.le_add_right _ _) h
  have hf := fills_cutFields layout hlen
  rw [cutFields_layout] at hf
  rw [Repr.emit, if_neg (Nat.not_lt.mpr (show r.bufferLen ≤ (Packet.mk buf).buffer.length from h))]
  simp only [Packet.setSrcPort, Packet.setDstPort, Packet.setSeqNum, Packet.setAckNum,
    Packet.setDataOffset, Packet.setFlags, Packet.setWindowSize, Packet.setUrgentPtr]
  conv_lhs => rw [cutFields_flatten_append layout buf, cutFields_layout]
  -- the eight setters, each a write of one field
  rw [copyFromSlice_field hf (k := 0) (a := 0) (b := 2) rfl rfl rfl (length_toBeBytes 2 _)]
  simp only [Option.map_some, Option.bind_eq_bind, Option.bind_some]
  have hf₁ := hf.set (k := 0) rfl (length_toBeBytes 2 r.srcPort.toNat)
  rw [copyFromSlice_field hf₁ (k := 1) (a := 2) (b := 4) rfl rfl rfl (length_toBeBytes 2 _)]
  simp only [Option.map_some, Option.bind_some]
  have hf₂ := hf₁.set (k := 1) rfl (length_toBeBytes 2 r.dstPort.toNat)
  rw [copyFromSlice_field hf₂ (k := 2) (a := 4) (b := 8) rfl rfl rfl (length_toBeBytes 4 _)]
  simp only [Option.map_some, Option.bind_some]
  have hf₃ := hf₂.set (k := 2) rfl (length_toBeBytes 4 r.seqNum.toNat)
  rw [copyFromSlice_field hf₃ (k := 3) (a := 8) (b := 12) rfl rfl rfl (length_toBeBytes 4 _)]
  simp only [Option.map_some, Option.bind_some]
  have hf₄ := hf₃.set (k := 3) rfl (length_toBeBytes 4 r.ackNum.toNat)
  rw [store_field hf₄ (k := 4) (a := 12) rfl rfl]
  simp only [Option.map_some, Option.bind_some]
  have hf₅ := hf₄.set (k := 4) rfl (List.length_singleton (a := ((5 : UInt8) &&& 0x0F) <<< 4))
  rw [store_field hf₅ (k := 5) (a := 13) rfl rfl]
  simp only [Option.map_some, Option.bind_some]
  have hf₆ := hf₅.set (k := 5) rfl (List.length_singleton (a := r.flags.toBits))
  rw [copyFromSlice_field hf₆ (k := 6) (a := 14) (b := 16) rfl rfl rfl (length_toBeBytes 2 _)]
  simp only [Option.map_some, Option.bind_some]
  have hf₇ := hf₆.set (k := 6) rfl (length_toBeBytes 2 r.windowSize.toNat)
  rw [copyFromSlice_field hf₇ (k := 8) (a := 18) (b := 20) rfl rfl rfl (length_toBeBytes 2 _),
    Option.map_some]
  -- the checksum field is the buffer's own
  rfl

/-- **`parse` reads the header back**, with the length of what follows it. -/
theorem parse_header (r : Repr) {ck : List UInt8} (hck : ck.length = 2) (rest : List UInt8) :
    Repr.parse ⟨(r.header ck).flatten ++ rest⟩ = some (.ok { r with payloadLen := rest.length }) := by
  have hf := r.fills_header hck
  have hlen : headerLen ≤ ((r.header ck).flatten ++ rest).length :=
    le_length_flatten_append hf rfl
  rw [Repr.parse, Packet.checkLen, checkMinLen_of_le hlen, propagate_ok]
  simp only [Packet.srcPort, Packet.dstPort, Packet.seqNum, Packet.ackNum, Packet.flags,
    Packet.windowSize, Packet.payload, Packet.headerLen, Packet.dataOffset, Option.bind_eq_bind,
    readBe_field hf (k := 0) (a := 0) (b := 2) rfl rfl rfl,
    readBe_field hf (k := 1) (a := 2) (b := 4) rfl rfl rfl,
    readBe_field hf (k := 2) (a := 4) (b := 8) rfl rfl rfl,
    readBe_field hf (k := 3) (a := 8) (b := 12) rfl rfl rfl,
    readBe_field hf (k := 6) (a := 14) (b := 16) rfl rfl rfl,
    getElem?_field hf (k := 4) (a := 12) rfl (by decide) rfl,
    getElem?_field hf (k := 5) (a := 13) rfl (by decide) rfl]
  -- the data offset says twenty bytes, and the numbers and flags read back
  simp only [Repr.header, List.getElem?_cons_zero, List.getElem?_cons_succ, Option.map_some,
    Option.bind_some, fromBeBytes_toBeBytes_of_lt (n := 2) r.srcPort.toNat_lt,
    fromBeBytes_toBeBytes_of_lt (n := 2) r.dstPort.toNat_lt,
    fromBeBytes_toBeBytes_of_lt (n := 4) r.seqNum.toNat_lt,
    fromBeBytes_toBeBytes_of_lt (n := 4) r.ackNum.toNat_lt,
    fromBeBytes_toBeBytes_of_lt (n := 2) r.windowSize.toNat_lt, Flags.fromBits_toBits]
  rw [show ((0x50 : UInt8) >>> (4 : UInt8)).toNat * 4 = layout.sum from rfl, ← Repr.header,
    sliceFrom_fills hf rfl]
  simp

/-- **TCP round trip**: on a buffer of `buffer_len()` bytes, whatever they held, `emit` then
`parse` gives back the representation. -/
theorem parse_emit (r : Repr) {buf : List UInt8} (h : buf.length = r.bufferLen) :
    ∃ p, r.emit ⟨buf⟩ = some p ∧ Repr.parse p = some (.ok r) := by
  have hck : ((buf.drop 16).take 2).length = 2 := by
    simp only [List.length_take, List.length_drop, h, Repr.bufferLen, headerLen]
    omega
  have hrest : (buf.drop headerLen).length = r.payloadLen := by
    rw [List.length_drop, h, Repr.bufferLen, Nat.add_sub_cancel_left]
  refine ⟨_, emit_eq r (Nat.le_of_eq h.symm), ?_⟩
  rw [parse_header r hck, hrest]

/-- The length `fill_checksum` puts in the pseudo-header is the buffer's: the header length
plus the payload after it. -/
theorem fillChecksum_totalLen {p : Packet} {hl : Nat} {payload : List UInt8} {totalLen : Nat}
    (hhl : p.headerLen = some hl) (hpayload : p.payload = some payload)
    (htotal : narrowChecked 16 (hl + payload.length) = some totalLen) :
    totalLen = p.buffer.length := by
  rw [Packet.payload, hhl, Option.bind_some, sliceFrom_eq_some_iff] at hpayload
  obtain ⟨hle, rfl⟩ := hpayload
  obtain ⟨-, rfl⟩ := narrowChecked_eq_some.mp htotal
  rw [List.length_drop]
  omega

/-- **`fill_checksum` verifies**: the checksum over the same pseudo-header, with the
segment's length, and the whole segment it leaves is zero. -/
theorem fillChecksum_verifies {p p' : Packet} {srcAddr dstAddr : Ipv4Addr}
    (h : p.fillChecksum srcAddr dstAddr = some p') :
    checksumWithPseudo (pseudoHeader srcAddr dstAddr 6 p.buffer.length) p'.buffer = 0 := by
  simp only [Packet.fillChecksum, Option.bind_eq_bind, Option.bind_eq_some_iff] at h
  obtain ⟨hl, hhl, payload, hpayload, totalLen, htotal, p₁, h₁, h'⟩ := h
  rw [fillChecksum_totalLen hhl hpayload htotal] at h'
  obtain ⟨zeroed, hz, rfl⟩ := Option.map_eq_some_iff.mp h₁
  obtain ⟨filled, hf, rfl⟩ := Option.map_eq_some_iff.mp h'
  have heven : (pseudoHeader srcAddr dstAddr 6 p.buffer.length).length % 2 = 0 := by
    rw [length_pseudoHeader]
  rw [checksumWithPseudo_eq heven] at hf ⊢
  exact verifies_of_fill_whole heven (by decide) hz hf

end Tcp

/-- One input each on which the six holonet parsers panic: an LLDP frame (EtherType
`0x88CC`), an empty ARP packet (`check_len` reads byte 4), an IPv4 header announcing 60
header bytes in 20, an ICMP packet of type 1, a UDP header announcing 9 bytes in 8, and a
TCP header whose data offset announces 60 bytes in 20. -/
theorem holonet_parsers_panic :
    Ethernet.Repr.parse (.newUnchecked
        [0xFF, 0xFF, 0xFF, 0xFF, 0xFF, 0xFF, 0x02, 0, 0, 0, 0, 0x01, 0x88, 0xCC]) = none ∧
      Arp.Repr.parse (.newUnchecked []) = none ∧
      Ip.Repr.parse (.newUnchecked
        [0x4F, 0, 0, 20, 0, 0, 0, 0, 64, 6, 0, 0, 10, 0, 0, 1, 10, 0, 0, 2]) = none ∧
      Icmp.Repr.parse (.newUnchecked [1, 0, 0, 0, 0, 0, 0, 0]) = none ∧
      Udp.Repr.parse (.newUnchecked [0, 53, 0, 53, 0, 9, 0, 0]) = none ∧
      Tcp.Repr.parse (.newUnchecked
        [0, 80, 0, 80, 0, 0, 0, 0, 0, 0, 0, 0, 0xF0, 0x02, 0, 0, 0, 0, 0, 0]) = none := by
  refine ⟨rfl, rfl, rfl, rfl, rfl, rfl⟩

/-- **The Internet checksum, and every checksum `fill_checksum` writes verifies.**  On a
buffer of at most `65535` bytes `checksum` is the complement of the one's complement sum of
its words; with an even pseudo-header `checksum_with_pseudo` is `checksum` of the
concatenation; and after `fill_checksum` the checksum over the checksummed range is zero:
for IPv4 the first `header_len` bytes, when they hold the checksum word; for ICMP the
packet; for TCP and UDP the same pseudo-header and the segment, a UDP packet being as long
as its length field. -/
theorem checksum_fill_verifies :
    (∀ b : List UInt8, b.length ≤ 65535 → checksum b = ~~~(onesSum 65535 (words b)).toUInt16) ∧
    (∀ pseudo data : List UInt8, pseudo.length % 2 = 0 →
      checksumWithPseudo pseudo data = checksum (pseudo ++ data)) ∧
    (∀ (p p' : Ip.Packet) (hl : Nat), p.fillChecksum = some p' → p.headerLen = some hl →
      12 ≤ hl → checksum (p'.buffer.take hl) = 0) ∧
    (∀ p p' : Icmp.Packet, p.fillChecksum = some p' → checksum p'.buffer = 0) ∧
    (∀ (p p' : Tcp.Packet) (srcAddr dstAddr : Ipv4Addr), p.fillChecksum srcAddr dstAddr = some p' →
      checksumWithPseudo (pseudoHeader srcAddr dstAddr 6 p.buffer.length) p'.buffer = 0) ∧
    (∀ (p p' : Udp.Packet) (srcAddr dstAddr : Ipv4Addr), p.fillChecksum srcAddr dstAddr = some p' →
      p.buffer.length = beField p.buffer 4 6 →
      checksumWithPseudo (pseudoHeader srcAddr dstAddr 17 (beField p.buffer 4 6)) p'.buffer = 0) :=
  ⟨fun _ hb => checksum_eq_onesSum (Nat.le_trans hb (by decide)),
    fun _ data h => checksumWithPseudo_eq h data,
    fun _ _ _ h hhl h12 => Ip.fillChecksum_verifies h hhl h12,
    fun _ _ h => Icmp.fillChecksum_verifies h,
    fun _ _ _ _ h => Tcp.fillChecksum_verifies h,
    fun _ _ _ _ h hlen => Udp.fillChecksum_verifies h hlen⟩

/-- The checksums of `checksum_fill_verifies` at small packets: a 20-byte IPv4 header, an
8-byte ICMP packet, a 20-byte TCP segment and an 8-byte UDP packet, between `10.0.0.1` and
`10.0.0.2`. -/
theorem checksum_fill_verifies_small :
    checksum [1, 2, 3] = ~~~(onesSum 65535 (words [1, 2, 3])).toUInt16 ∧
    checksumWithPseudo [0, 17] [1, 2, 3] = checksum ([0, 17] ++ [1, 2, 3]) ∧
    (∃ p', (Ip.Packet.mk ([0x45, 0, 0, 20] ++ List.replicate 16 0)).fillChecksum = some p' ∧
      checksum (p'.buffer.take 20) = 0) ∧
    (∃ p', (Icmp.Packet.mk (List.replicate 8 0)).fillChecksum = some p' ∧ checksum p'.buffer = 0) ∧
    (∃ p', (Tcp.Packet.mk (List.replicate 12 0 ++ [0x50] ++ List.replicate 7 0)).fillChecksum
        ⟨[10, 0, 0, 1], rfl⟩ ⟨[10, 0, 0, 2], rfl⟩ = some p' ∧
      checksumWithPseudo (pseudoHeader ⟨[10, 0, 0, 1], rfl⟩ ⟨[10, 0, 0, 2], rfl⟩ 6 20) p'.buffer = 0) ∧
    (∃ p', (Udp.Packet.mk [0, 0, 0, 0, 0, 8, 0, 0]).fillChecksum
        ⟨[10, 0, 0, 1], rfl⟩ ⟨[10, 0, 0, 2], rfl⟩ = some p' ∧
      checksumWithPseudo (pseudoHeader ⟨[10, 0, 0, 1], rfl⟩ ⟨[10, 0, 0, 2], rfl⟩ 17 8) p'.buffer = 0) := by
  obtain ⟨ip, hip⟩ := Option.isSome_iff_exists.mp
    (show ((Ip.Packet.mk ([0x45, 0, 0, 20] ++ List.replicate 16 0)).fillChecksum).isSome by decide)
  obtain ⟨icmp, hicmp⟩ := Option.isSome_iff_exists.mp
    (show ((Icmp.Packet.mk (List.replicate 8 0)).fillChecksum).isSome by decide)
  obtain ⟨tcp, htcp⟩ := Option.isSome_iff_exists.mp
    (show ((Tcp.Packet.mk (List.replicate 12 0 ++ [0x50] ++ List.replicate 7 0)).fillChecksum
      ⟨[10, 0, 0, 1], rfl⟩ ⟨[10, 0, 0, 2], rfl⟩).isSome by decide)
  obtain ⟨udp, hudp⟩ := Option.isSome_iff_exists.mp
    (show ((Udp.Packet.mk [0, 0, 0, 0, 0, 8, 0, 0]).fillChecksum
      ⟨[10, 0, 0, 1], rfl⟩ ⟨[10, 0, 0, 2], rfl⟩).isSome by decide)
  -- the segment's length is twenty bytes
  have htcp' := checksum_fill_verifies.2.2.2.2.1 _ _ _ _ htcp
  simp only [List.length_append, List.length_replicate, List.length_singleton, Nat.reduceAdd]
    at htcp'
  -- the length field of the UDP packet holds its eight bytes
  have hfield : beField [0, 0, 0, 0, 0, 8, 0, 0] 4 6 = 8 := by decide
  have hudp' := checksum_fill_verifies.2.2.2.2.2 _ _ _ _ hudp (by rw [hfield]; rfl)
  rw [hfield] at hudp'
  exact ⟨checksum_fill_verifies.1 _ (by decide), checksum_fill_verifies.2.1 _ _ (by decide),
    ⟨ip, hip, checksum_fill_verifies.2.2.1 _ _ 20 hip rfl (by decide)⟩,
    ⟨icmp, hicmp, checksum_fill_verifies.2.2.2.1 _ _ hicmp⟩, ⟨tcp, htcp, htcp'⟩,
    ⟨udp, hudp, hudp'⟩⟩

end Beskar.Holonet
