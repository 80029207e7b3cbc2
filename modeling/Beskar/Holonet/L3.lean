import Beskar.Holonet.L2
import Beskar.Holonet.Checksum

/-!
# Holonet: ARP and IPv4 Packets

Model of the ARP parser (`l3/arp.rs`) and of the IPv4 header parser (`l3/ip.rs`).

The ARP header carries its own address lengths: `check_len` reads the hardware and
protocol lengths (bytes 4 and 5) to compute how long the packet must be, and `parse`
then evaluates all four components of the tuple it matches on (hardware type, protocol
type and the two lengths) before the match picks the Ethernet/IPv4 arm or returns
`Unsupported`.  The IPv4 parser checks the fixed 20-byte header and the version, then
reads the protocol and slices the payload at the header length the packet announces.

`emit` is described by the header it lays down (`Repr.header`, a list of fields): it writes
that header over any long enough buffer and keeps the rest, and `parse` reads it back.  The
IPv4 header carries a checksum, computed over the header with its word zero.

## Main results

- `Arp.parse_emit`: `parse` after `emit` gives back the ARP representation.
- `Ip.parse_emit`: `parse` after `emit` gives back the IPv4 representation with its flags
  cleared (`Ip.fromBits_flagsAndFragmentOffset`: the flags are written three bits too low),
  and the header checksum verifies (`Ip.header_checksum_verifies`).
- `Arp.parse_eq_none_iff`: `arp::Repr::parse` panics exactly on packets too short to hold
  the two length bytes, and on long enough packets with an unknown hardware type, an
  unknown protocol type, or an Ethernet/IPv4 header with an unknown operation.
- `Ip.parse_eq_none_iff`: `ip::Repr::parse` panics exactly on version-4 headers with an
  unknown protocol number or a header length past the end of the buffer.
-/

namespace Beskar.Holonet

open Beskar.Lib
open Ethernet (EtherType)

/-- `Ipv4Addr`: four octets.  `Ipv4Addr::from([u8; 4])` and `Ipv4Addr::from(u32)` of the
big-endian value of the same four bytes give the same address. -/
structure Ipv4Addr where
  octets : List UInt8
  length_eq : octets.length = 4
deriving DecidableEq

/-- `Ipv4Addr::from(<[u8; 4]>::try_from(slice).unwrap())`: a panic unless four bytes. -/
def Ipv4Addr.fromOctets (data : List UInt8) : Option Ipv4Addr :=
  if h : data.length = 4 then some ⟨data, h⟩ else none

/-- `Ipv4Addr::from(ip.octets())` is `ip`. -/
@[simp] theorem Ipv4Addr.fromOctets_octets (ip : Ipv4Addr) :
    Ipv4Addr.fromOctets ip.octets = some ip := by
  rw [Ipv4Addr.fromOctets, dif_pos ip.length_eq]

/-- A four-byte range of a buffer long enough for it is an IPv4 address. -/
theorem ipv4Addr_of_range (buffer : List UInt8) (a b : Nat) (hab : a + 4 = b)
    (h : b ≤ buffer.length) :
    ∃ ip, (sliceRange buffer a b).bind Ipv4Addr.fromOctets = some ip := by
  have hslice := sliceRange_of_le (show a ≤ b by omega) h
  have hlen := length_of_sliceRange_eq_some hslice
  rw [hslice, Option.bind_some, Ipv4Addr.fromOctets, dif_pos (by omega)]
  exact ⟨_, rfl⟩

namespace Arp

/-- `FIXED_HEADER_LEN`: the end of the operation field. -/
def fixedHeaderLen : Nat := 8

-- The four address ranges after the fixed header, for hardware length `hl` and protocol
-- length `pl`, as `(start, end)`.
def sourceHardwareAddrRange (hl : Nat) : Nat × Nat :=
  (fixedHeaderLen, fixedHeaderLen + hl)
def sourceProtocolAddrRange (hl pl : Nat) : Nat × Nat :=
  (fixedHeaderLen + hl, fixedHeaderLen + hl + pl)
def targetHardwareAddrRange (hl pl : Nat) : Nat × Nat :=
  (fixedHeaderLen + hl + pl, fixedHeaderLen + hl + pl + hl)
def targetProtocolAddrRange (hl pl : Nat) : Nat × Nat :=
  (fixedHeaderLen + 2 * hl + pl, fixedHeaderLen + 2 * hl + pl + pl)

/-- `arp::Hardware`. -/
inductive Hardware where
  | ethernet
deriving DecidableEq, Repr

def Hardware.tryFrom (raw : Nat) : Except NetworkError Hardware :=
  match raw with
  | 1 => .ok .ethernet
  | _ => .error .invalid

/-- `arp::Operation`. -/
inductive Operation where
  | request
  | reply
deriving DecidableEq, Repr

def Operation.tryFrom (raw : Nat) : Except NetworkError Operation :=
  match raw with
  | 1 => .ok .request
  | 2 => .ok .reply
  | _ => .error .invalid

/-- `arp::Packet<T>`. -/
structure Packet where
  buffer : List UInt8

def Packet.newUnchecked (buffer : List UInt8) : Packet := ⟨buffer⟩

/-- `hardware_len`: `self.buffer.as_ref()[HARDWARE_LEN_IDX]`, byte 4. -/
def Packet.hardwareLen (p : Packet) : Option UInt8 := p.buffer[4]?

/-- `protocol_len`: byte 5. -/
def Packet.protocolLen (p : Packet) : Option UInt8 := p.buffer[5]?

/-- `check_len`: the packet must reach the end of the target protocol address, computed
from the two length bytes, which are themselves read without a bounds check. -/
def Packet.checkLen (p : Packet) : Option (Except NetworkError Unit) := do
  let hl ← p.hardwareLen
  let pl ← p.protocolLen
  some (checkMinLen p.buffer (targetProtocolAddrRange hl.toNat pl.toNat).2)

/-- `hardware_type`: `Hardware::try_from(data[0..2]).unwrap()`. -/
def Packet.hardwareType (p : Packet) : Option Hardware :=
  (readBe p.buffer 0 2).bind fun raw => (Hardware.tryFrom raw).toOption

/-- `protocol_type`: `EtherType::try_from(data[2..4]).unwrap()`. -/
def Packet.protocolType (p : Packet) : Option EtherType :=
  (readBe p.buffer 2 4).bind fun raw => (EtherType.tryFrom raw).toOption

/-- `operation`: `Operation::try_from(data[6..8]).unwrap()`. -/
def Packet.operation (p : Packet) : Option Operation :=
  (readBe p.buffer 6 8).bind fun raw => (Operation.tryFrom raw).toOption

/-- `source_hardware_addr`: the only address getter that reads the hardware length alone. -/
def Packet.sourceHardwareAddr (p : Packet) : Option (List UInt8) := do
  let hl ← p.hardwareLen
  let r := sourceHardwareAddrRange hl.toNat
  sliceRange p.buffer r.1 r.2

/-- The other address getters: `&data[RANGE(self.hardware_len(), self.protocol_len())]`. -/
def Packet.addrField (p : Packet) (range : Nat → Nat → Nat × Nat) : Option (List UInt8) := do
  let hl ← p.hardwareLen
  let pl ← p.protocolLen
  let r := range hl.toNat pl.toNat
  sliceRange p.buffer r.1 r.2

def Packet.sourceProtocolAddr (p : Packet) : Option (List UInt8) :=
  p.addrField sourceProtocolAddrRange
def Packet.targetHardwareAddr (p : Packet) : Option (List UInt8) :=
  p.addrField targetHardwareAddrRange
def Packet.targetProtocolAddr (p : Packet) : Option (List UInt8) :=
  p.addrField targetProtocolAddrRange

/-- `arp::Repr`. -/
inductive Repr where
  | ethernetIpv4 (operation : Operation) (sourceHardwareAddr : MacAddress)
      (sourceProtocolAddr : Ipv4Addr) (targetHardwareAddr : MacAddress)
      (targetProtocolAddr : Ipv4Addr)
deriving DecidableEq

/-- The arm `(Hardware::Ethernet, EtherType::IpV4, 6, 4)` of `arp::Repr::parse`. -/
def Repr.parseEthernetIpv4 (p : Packet) : Option Repr := do
  let operation ← p.operation
  let sha ← p.sourceHardwareAddr.bind MacAddress.fromBytes
  let spa ← p.sourceProtocolAddr.bind Ipv4Addr.fromOctets
  let tha ← p.targetHardwareAddr.bind MacAddress.fromBytes
  let tpa ← p.targetProtocolAddr.bind Ipv4Addr.fromOctets
  some (.ethernetIpv4 operation sha spa tha tpa)

/-- `arp::Repr::parse`. -/
def Repr.parse (p : Packet) : Option (Except NetworkError Repr) := do
  let check ← p.checkLen
  propagate check do
    -- the tuple is built before the match, so every getter in it runs
    let _hardwareType ← p.hardwareType
    let protocolType ← p.protocolType
    let hardwareLen ← p.hardwareLen
    let protocolLen ← p.protocolLen
    -- `Hardware` has the one variant `Ethernet`, so only the other three are tested
    if protocolType = .ipV4 ∧ hardwareLen = 6 ∧ protocolLen = 4 then
      (Repr.parseEthernetIpv4 p).map .ok
    else some (.error .unsupported)

/-! ### When the ARP parser panics -/

/-- The length `check_len` asks of a packet, from its own length bytes. -/
def minLen (p : Packet) : Nat :=
  (targetProtocolAddrRange (p.buffer.getD 4 0).toNat (p.buffer.getD 5 0).toNat).2

theorem checkLen_of_short {p : Packet} (h : p.buffer.length < 6) : p.checkLen = none := by
  unfold Packet.checkLen Packet.protocolLen
  rw [List.getElem?_eq_none (by omega)]
  cases p.hardwareLen <;> rfl

theorem checkLen_of_le {p : Packet} (h : 6 ≤ p.buffer.length) :
    p.checkLen = some (checkMinLen p.buffer (minLen p)) := by
  unfold Packet.checkLen Packet.hardwareLen Packet.protocolLen
  rw [getElem?_of_lt 0 (show 4 < p.buffer.length by omega),
    getElem?_of_lt 0 (show 5 < p.buffer.length by omega)]
  rfl

/-- On a packet that passed `check_len`, the Ethernet/IPv4 arm panics exactly on an
unknown operation: the four address ranges lie inside the 28 bytes checked. -/
theorem parseEthernetIpv4_eq_none_iff {p : Packet} (hlen : 28 ≤ p.buffer.length)
    (hhl : p.buffer.getD 4 0 = 6) (hpl : p.buffer.getD 5 0 = 4) :
    Repr.parseEthernetIpv4 p = none ↔
      (Operation.tryFrom (beField p.buffer 6 8)).toOption = none := by
  have h4 : p.hardwareLen = some 6 := by
    rw [Packet.hardwareLen, getElem?_of_lt 0 (show 4 < p.buffer.length by omega), hhl]
  have h5 : p.protocolLen = some 4 := by
    rw [Packet.protocolLen, getElem?_of_lt 0 (show 5 < p.buffer.length by omega), hpl]
  -- each address range is in bounds and has the length its conversion needs
  obtain ⟨sha, hsha⟩ := macAddress_of_range p.buffer 8 14 rfl (by omega)
  obtain ⟨spa, hspa⟩ := ipv4Addr_of_range p.buffer 14 18 rfl (by omega)
  obtain ⟨tha, htha⟩ := macAddress_of_range p.buffer 18 24 rfl (by omega)
  obtain ⟨tpa, htpa⟩ := ipv4Addr_of_range p.buffer 24 28 rfl (by omega)
  have hsrcHw : p.sourceHardwareAddr.bind MacAddress.fromBytes = some sha := by
    simpa [Packet.sourceHardwareAddr, h4, sourceHardwareAddrRange, fixedHeaderLen] using hsha
  have hsrcIp : p.sourceProtocolAddr.bind Ipv4Addr.fromOctets = some spa := by
    simpa [Packet.sourceProtocolAddr, Packet.addrField, h4, h5, sourceProtocolAddrRange,
      fixedHeaderLen] using hspa
  have htgtHw : p.targetHardwareAddr.bind MacAddress.fromBytes = some tha := by
    simpa [Packet.targetHardwareAddr, Packet.addrField, h4, h5, targetHardwareAddrRange,
      fixedHeaderLen] using htha
  have htgtIp : p.targetProtocolAddr.bind Ipv4Addr.fromOctets = some tpa := by
    simpa [Packet.targetProtocolAddr, Packet.addrField, h4, h5, targetProtocolAddrRange,
      fixedHeaderLen] using htpa
  simp only [Repr.parseEthernetIpv4, Packet.operation, readBe_of_le (by omega : 6 ≤ 8)
    (by omega : 8 ≤ p.buffer.length), hsrcHw, hsrcIp, htgtHw, htgtIp, Option.bind_eq_bind,
    Option.bind_some]
  cases Operation.tryFrom (beField p.buffer 6 8) <;> simp [Except.toOption]

/-- Past `check_len`, the tuple's getters panic exactly on an unknown hardware or protocol
type, and the Ethernet/IPv4 arm exactly on an unknown operation. -/
theorem parse_checked_eq_none_iff {p : Packet} (h6 : 6 ≤ p.buffer.length)
    (hmin : minLen p ≤ p.buffer.length) :
    Repr.parse p = none ↔
      (Hardware.tryFrom (beField p.buffer 0 2)).toOption = none ∨
      (EtherType.tryFrom (beField p.buffer 2 4)).toOption = none ∨
      (EtherType.tryFrom (beField p.buffer 2 4) = .ok .ipV4 ∧ p.buffer.getD 4 0 = 6 ∧
        p.buffer.getD 5 0 = 4 ∧ (Operation.tryFrom (beField p.buffer 6 8)).toOption = none) := by
  have h8 : 8 ≤ p.buffer.length :=
    Nat.le_trans (by simp only [minLen, targetProtocolAddrRange, fixedHeaderLen]; omega) hmin
  rw [Repr.parse, checkLen_of_le h6, Option.bind_eq_bind, Option.bind_some,
    checkMinLen_of_le hmin, propagate_ok]
  simp only [Packet.hardwareType, Packet.protocolType, Packet.hardwareLen, Packet.protocolLen,
    readBe_of_le (by omega : 0 ≤ 2) (by omega : 2 ≤ p.buffer.length),
    readBe_of_le (by omega : 2 ≤ 4) (by omega : 4 ≤ p.buffer.length),
    getElem?_of_lt 0 (by omega : 4 < p.buffer.length),
    getElem?_of_lt 0 (by omega : 5 < p.buffer.length), Option.bind_eq_bind, Option.bind_some]
  -- split on the two wire codes the tuple converts, then on the match
  cases hhw : Hardware.tryFrom (beField p.buffer 0 2) with
  | error => simp [Except.toOption]
  | ok hw =>
    cases hpt : EtherType.tryFrom (beField p.buffer 2 4) with
    | error => simp [Except.toOption]
    | ok pt =>
      simp only [Except.toOption, Option.bind_some, reduceCtorEq, false_or, Except.ok.injEq]
      by_cases harm : pt = .ipV4 ∧ p.buffer.getD 4 0 = 6 ∧ p.buffer.getD 5 0 = 4
      · obtain ⟨rfl, hhl, hpl⟩ := harm
        -- the lengths are 6 and 4, so `check_len` asked for 28 bytes
        have h28 : 28 ≤ p.buffer.length := by
          rw [minLen, hhl, hpl] at hmin
          exact hmin
        rw [if_pos ⟨rfl, hhl, hpl⟩, Option.map_eq_none_iff,
          parseEthernetIpv4_eq_none_iff h28 hhl hpl]
        simp only [hhl, hpl, true_and, Except.toOption]
      · rw [if_neg harm]
        simp only [reduceCtorEq, false_iff]
        exact fun h => harm ⟨h.1, h.2.1, h.2.2.1⟩

/-- **`arp::Repr::parse` panics exactly** on packets too short to hold the two length bytes,
and on packets that pass `check_len` with an unknown hardware type, an unknown protocol
type, or an Ethernet/IPv4 header with an unknown operation. -/
theorem parse_eq_none_iff (p : Packet) :
    Repr.parse p = none ↔
      p.buffer.length < 6 ∨
      (minLen p ≤ p.buffer.length ∧
        ((Hardware.tryFrom (beField p.buffer 0 2)).toOption = none ∨
          (EtherType.tryFrom (beField p.buffer 2 4)).toOption = none ∨
          (EtherType.tryFrom (beField p.buffer 2 4) = .ok .ipV4 ∧ p.buffer.getD 4 0 = 6 ∧
            p.buffer.getD 5 0 = 4 ∧ (Operation.tryFrom (beField p.buffer 6 8)).toOption = none))) := by
  by_cases h6 : 6 ≤ p.buffer.length
  · by_cases hmin : minLen p ≤ p.buffer.length
    · rw [parse_checked_eq_none_iff h6 hmin]
      exact ⟨fun h => .inr ⟨hmin, h⟩, fun h => (h.resolve_left (by omega)).2⟩
    · -- `check_len` returns `Err(Invalid)`
      rw [Repr.parse, checkLen_of_le h6, Option.bind_eq_bind, Option.bind_some,
        checkMinLen_of_lt (by omega), propagate_error]
      simp only [reduceCtorEq, false_iff, not_or, not_and]
      exact ⟨by omega, fun h => absurd h hmin⟩
  · -- `check_len` itself indexes past the end
    rw [Repr.parse, checkLen_of_short (by omega), Option.bind_eq_bind, Option.bind_none]
    simp only [true_iff]
    exact .inl (by omega)

/-! ### Emitting a packet -/

/-- `impl From<Hardware> for u16`. -/
def Hardware.toU16 : Hardware → Nat
  | .ethernet => 1

@[simp] theorem Hardware.tryFrom_toU16 (hw : Hardware) : Hardware.tryFrom hw.toU16 = .ok hw := by
  cases hw; rfl

theorem Hardware.toU16_lt (hw : Hardware) : hw.toU16 < 256 ^ 2 := by
  cases hw; decide

/-- `impl From<Operation> for u16`. -/
def Operation.toU16 : Operation → Nat
  | .request => 1
  | .reply => 2

@[simp] theorem Operation.tryFrom_toU16 (op : Operation) : Operation.tryFrom op.toU16 = .ok op := by
  cases op <;> rfl

theorem Operation.toU16_lt (op : Operation) : op.toU16 < 256 ^ 2 := by
  cases op <;> decide

/-- `set_hardware_type`: bytes `0..2`. -/
def Packet.setHardwareType (p : Packet) (value : Hardware) : Option Packet :=
  (copyFromSlice p.buffer 0 2 (toBeBytes 2 value.toU16)).map Packet.mk

/-- `set_protocol_type`: bytes `2..4`. -/
def Packet.setProtocolType (p : Packet) (value : EtherType) : Option Packet :=
  (copyFromSlice p.buffer 2 4 (toBeBytes 2 value.toU16)).map Packet.mk

/-- `set_hardware_len`: byte 4. -/
def Packet.setHardwareLen (p : Packet) (value : UInt8) : Option Packet :=
  (store p.buffer 4 value).map Packet.mk

/-- `set_protocol_len`: byte 5. -/
def Packet.setProtocolLen (p : Packet) (value : UInt8) : Option Packet :=
  (store p.buffer 5 value).map Packet.mk

/-- `set_operation`: bytes `6..8`. -/
def Packet.setOperation (p : Packet) (value : Operation) : Option Packet :=
  (copyFromSlice p.buffer 6 8 (toBeBytes 2 value.toU16)).map Packet.mk

/-- `set_source_hardware_addr`: the range for the hardware length the packet holds. -/
def Packet.setSourceHardwareAddr (p : Packet) (value : List UInt8) : Option Packet := do
  let hl ← p.hardwareLen
  let r := sourceHardwareAddrRange hl.toNat
  (copyFromSlice p.buffer r.1 r.2 value).map Packet.mk

/-- The other address setters: the range for both lengths the packet holds. -/
def Packet.setAddrField (p : Packet) (range : Nat → Nat → Nat × Nat) (value : List UInt8) :
    Option Packet := do
  let hl ← p.hardwareLen
  let pl ← p.protocolLen
  let r := range hl.toNat pl.toNat
  (copyFromSlice p.buffer r.1 r.2 value).map Packet.mk

def Packet.setSourceProtocolAddr (p : Packet) (value : List UInt8) : Option Packet :=
  p.setAddrField sourceProtocolAddrRange value
def Packet.setTargetHardwareAddr (p : Packet) (value : List UInt8) : Option Packet :=
  p.setAddrField targetHardwareAddrRange value
def Packet.setTargetProtocolAddr (p : Packet) (value : List UInt8) : Option Packet :=
  p.setAddrField targetProtocolAddrRange value

/-- `arp::Repr::buffer_len`: `TARGET_PROTOCOL_ADDR_RANGE(6, 4).end`. -/
def Repr.bufferLen (_r : Repr) : Nat := (targetProtocolAddrRange 6 4).2

/-- `arp::Repr::emit`: the fixed header, then the four addresses at the ranges for the
lengths it has just written.  It asserts nothing about the buffer's length. -/
def Repr.emit (r : Repr) (p : Packet) : Option Packet :=
  match r with
  | .ethernetIpv4 operation sha spa tha tpa => do
    let p ← p.setHardwareType .ethernet
    let p ← p.setProtocolType .ipV4
    let p ← p.setHardwareLen 6
    let p ← p.setProtocolLen 4
    let p ← p.setOperation operation
    let p ← p.setSourceHardwareAddr sha.octets
    let p ← p.setSourceProtocolAddr spa.octets
    let p ← p.setTargetHardwareAddr tha.octets
    p.setTargetProtocolAddr tpa.octets

/-- The fields of an Ethernet/IPv4 packet: the two types, the two lengths, the operation,
and the four addresses. -/
def layout : List Nat := [2, 2, 1, 1, 2, 6, 4, 6, 4]

/-- The packet `emit` lays down for `r`, field by field. -/
def Repr.header : Repr → List (List UInt8)
  | .ethernetIpv4 operation sha spa tha tpa =>
    [toBeBytes 2 Hardware.ethernet.toU16, toBeBytes 2 EtherType.ipV4.toU16, [6], [4],
      toBeBytes 2 operation.toU16, sha.octets, spa.octets, tha.octets, tpa.octets]

theorem Repr.fills_header (r : Repr) : Fills layout r.header := by
  cases r with
  | ethernetIpv4 operation sha spa tha tpa =>
    simp [Fills, Repr.header, layout, sha.length_eq, spa.length_eq, tha.length_eq,
      tpa.length_eq]

section Fields

variable {fs : List (List UInt8)} {rest : List UInt8}

/-- The hardware length of a packet whose length field holds `6`. -/
theorem hardwareLen_fills (hf : Fills layout fs) (h6 : fs[2]? = some [6]) :
    Packet.hardwareLen ⟨fs.flatten ++ rest⟩ = some 6 := by
  rw [Packet.hardwareLen, getElem?_field hf (k := 2) (a := 4) rfl (by decide) rfl, h6]
  rfl

/-- The protocol length of a packet whose length field holds `4`. -/
theorem protocolLen_fills (hf : Fills layout fs) (h4 : fs[3]? = some [4]) :
    Packet.protocolLen ⟨fs.flatten ++ rest⟩ = some 4 := by
  rw [Packet.protocolLen, getElem?_field hf (k := 3) (a := 5) rfl (by decide) rfl, h4]
  rfl

/-- On a packet whose hardware length is `6`, `set_source_hardware_addr` writes its field. -/
theorem setSourceHardwareAddr_fills (hf : Fills layout fs) (h6 : fs[2]? = some [6])
    {value : List UInt8} (hv : value.length = 6) :
    Packet.setSourceHardwareAddr ⟨fs.flatten ++ rest⟩ value =
      some ⟨(fs.set 5 value).flatten ++ rest⟩ := by
  rw [Packet.setSourceHardwareAddr, hardwareLen_fills hf h6]
  simp only [Option.bind_eq_bind, Option.bind_some, show UInt8.toNat 6 = 6 from rfl]
  rw [copyFromSlice_field hf (k := 5) (a := (sourceHardwareAddrRange 6).1)
    (b := (sourceHardwareAddrRange 6).2) rfl rfl rfl hv, Option.map_some]

/-- On a packet whose lengths are `6` and `4`, an address setter writes its field. -/
theorem setAddrField_fills (hf : Fills layout fs) (h6 : fs[2]? = some [6])
    (h4 : fs[3]? = some [4]) {range : Nat → Nat → Nat × Nat} {k n : Nat}
    (hk : layout[k]? = some n) (ha : fieldOffset layout k = (range 6 4).1)
    (hb : (range 6 4).1 + n = (range 6 4).2) {value : List UInt8} (hv : value.length = n) :
    Packet.setAddrField ⟨fs.flatten ++ rest⟩ range value =
      some ⟨(fs.set k value).flatten ++ rest⟩ := by
  rw [Packet.setAddrField, hardwareLen_fills hf h6, protocolLen_fills hf h4]
  simp only [Option.bind_eq_bind, Option.bind_some, show UInt8.toNat 6 = 6 from rfl,
    show UInt8.toNat 4 = 4 from rfl]
  rw [copyFromSlice_field hf hk ha hb hv, Option.map_some]

end Fields

/-- **`emit` lays down the packet** over the first 28 bytes of any buffer that holds them,
and keeps the bytes after. -/
theorem emit_eq (r : Repr) {buf : List UInt8} (h : r.bufferLen ≤ buf.length) :
    r.emit ⟨buf⟩ = some ⟨r.header.flatten ++ buf.drop r.bufferLen⟩ := by
  obtain ⟨operation, sha, spa, tha, tpa⟩ := r
  have hf : Fills layout (cutFields layout buf) := fills_cutFields layout h
  rw [Repr.emit]
  simp only [Packet.setHardwareType, Packet.setProtocolType, Packet.setHardwareLen,
    Packet.setProtocolLen, Packet.setOperation]
  conv_lhs => rw [cutFields_flatten_append layout buf]
  -- the fixed header: two types, two lengths and the operation
  rw [copyFromSlice_field hf (k := 0) (a := 0) (b := 2) rfl rfl rfl (length_toBeBytes 2 _)]
  simp only [Option.map_some, Option.bind_eq_bind, Option.bind_some]
  have hf₁ := hf.set (k := 0) rfl (length_toBeBytes 2 Hardware.ethernet.toU16)
  rw [copyFromSlice_field hf₁ (k := 1) (a := 2) (b := 4) rfl rfl rfl (length_toBeBytes 2 _)]
  simp only [Option.map_some, Option.bind_some]
  have hf₂ := hf₁.set (k := 1) rfl (length_toBeBytes 2 EtherType.ipV4.toU16)
  rw [store_field hf₂ (k := 2) (a := 4) rfl rfl]
  simp only [Option.map_some, Option.bind_some]
  have hf₃ := hf₂.set (k := 2) rfl (List.length_singleton (a := 6))
  rw [store_field hf₃ (k := 3) (a := 5) rfl rfl]
  simp only [Option.map_some, Option.bind_some]
  have hf₄ := hf₃.set (k := 3) rfl (List.length_singleton (a := 4))
  rw [copyFromSlice_field hf₄ (k := 4) (a := 6) (b := 8) rfl rfl rfl (length_toBeBytes 2 _)]
  simp only [Option.map_some, Option.bind_some]
  have hf₅ := hf₄.set (k := 4) rfl (length_toBeBytes 2 operation.toU16)
  -- the addresses, at the ranges for the lengths `6` and `4` just written
  rw [setSourceHardwareAddr_fills hf₅ rfl sha.length_eq]
  simp only [Option.bind_some]
  have hf₆ := hf₅.set (k := 5) rfl sha.length_eq
  rw [Packet.setSourceProtocolAddr, setAddrField_fills hf₆ rfl rfl (k := 6) rfl rfl rfl
    spa.length_eq]
  simp only [Option.bind_some]
  have hf₇ := hf₆.set (k := 6) rfl spa.length_eq
  rw [Packet.setTargetHardwareAddr, setAddrField_fills hf₇ rfl rfl (k := 7) rfl rfl rfl
    tha.length_eq]
  simp only [Option.bind_some]
  have hf₈ := hf₇.set (k := 7) rfl tha.length_eq
  rw [Packet.setTargetProtocolAddr, setAddrField_fills hf₈ rfl rfl (k := 8) rfl rfl rfl
    tpa.length_eq]
  -- every field is written, so nothing of the old packet is left
  rfl

/-- **`parse` reads the packet back**, whatever follows it. -/
theorem parse_header (r : Repr) (rest : List UInt8) :
    Repr.parse ⟨r.header.flatten ++ rest⟩ = some (.ok r) := by
  have hf := r.fills_header
  have hlen : 28 ≤ (r.header.flatten ++ rest).length := le_length_flatten_append hf rfl
  have h6 : r.header[2]? = some [6] := by cases r; rfl
  have h4 : r.header[3]? = some [4] := by cases r; rfl
  have hl : (r.header.flatten ++ rest)[4]? = _ := getElem?_field hf (k := 2) rfl (by decide) rfl
  have hp : (r.header.flatten ++ rest)[5]? = _ := getElem?_field hf (k := 3) rfl (by decide) rfl
  rw [h6] at hl
  rw [h4] at hp
  -- `check_len` asks for the 28 bytes the two lengths give
  have hmin : minLen ⟨r.header.flatten ++ rest⟩ = 28 := by
    rw [minLen, List.getD_eq_getElem?_getD, List.getD_eq_getElem?_getD, hl, hp]
    rfl
  rw [Repr.parse, checkLen_of_le (Nat.le_trans (by decide) hlen), hmin, checkMinLen_of_le hlen]
  simp only [Option.bind_eq_bind, Option.bind_some, propagate_ok, Packet.hardwareType,
    Packet.protocolType, hardwareLen_fills hf h6, protocolLen_fills hf h4,
    readBe_field hf (k := 0) (a := 0) (b := 2) rfl rfl rfl,
    readBe_field hf (k := 1) (a := 2) (b := 4) rfl rfl rfl]
  simp only [Repr.parseEthernetIpv4, Packet.operation, Packet.sourceHardwareAddr,
    Packet.sourceProtocolAddr, Packet.targetHardwareAddr, Packet.targetProtocolAddr,
    Packet.addrField, hardwareLen_fills hf h6, protocolLen_fills hf h4, Option.bind_eq_bind,
    Option.bind_some,
    readBe_field hf (k := 4) (a := 6) (b := 8) rfl rfl rfl,
    show UInt8.toNat 6 = 6 from rfl, show UInt8.toNat 4 = 4 from rfl,
    sliceRange_field hf (k := 5) (a := (sourceHardwareAddrRange 6).1)
      (b := (sourceHardwareAddrRange 6).2) rfl rfl rfl,
    sliceRange_field hf (k := 6) (a := (sourceProtocolAddrRange 6 4).1)
      (b := (sourceProtocolAddrRange 6 4).2) rfl rfl rfl,
    sliceRange_field hf (k := 7) (a := (targetHardwareAddrRange 6 4).1)
      (b := (targetHardwareAddrRange 6 4).2) rfl rfl rfl,
    sliceRange_field hf (k := 8) (a := (targetProtocolAddrRange 6 4).1)
      (b := (targetProtocolAddrRange 6 4).2) rfl rfl rfl]
  -- the fields hold the representation's values
  cases r with
  | ethernetIpv4 operation sha spa tha tpa =>
    simp [Repr.header, fromBeBytes_toBeBytes_of_lt (Hardware.toU16_lt _),
      fromBeBytes_toBeBytes_of_lt (EtherType.toU16_lt _),
      fromBeBytes_toBeBytes_of_lt operation.toU16_lt, Except.toOption]

/-- **ARP round trip**: on a buffer of at least `buffer_len()` bytes, whatever they held,
`emit` then `parse` gives back the representation. -/
theorem parse_emit (r : Repr) {buf : List UInt8} (h : r.bufferLen ≤ buf.length) :
    ∃ p, r.emit ⟨buf⟩ = some p ∧ Repr.parse p = some (.ok r) :=
  ⟨_, emit_eq r h, parse_header r _⟩

end Arp

namespace Ip

/-- `ip::HEADER_LEN`: the fixed header. -/
def headerLen : Nat := 20

/-- `ip::Protocol`. -/
inductive Protocol where
  | icmp
  | igmp
  | tcp
  | udp
deriving DecidableEq, Repr

def Protocol.tryFrom (value : Nat) : Except NetworkError Protocol :=
  match value with
  | 1 => .ok .icmp
  | 2 => .ok .igmp
  | 6 => .ok .tcp
  | 17 => .ok .udp
  | _ => .error .invalid

/-- `ip::Flags`. -/
structure Flags where
  reserved : Bool
  dontFragment : Bool
  moreFragments : Bool
deriving DecidableEq, Repr

/-- `Flags::from_bits`. -/
def Flags.fromBits (value : UInt8) : Flags :=
  ⟨value &&& 0x80 != 0, value &&& 0x40 != 0, value &&& 0x20 != 0⟩

/-- `ip::Packet<T>`. -/
structure Packet where
  buffer : List UInt8

def Packet.newUnchecked (buffer : List UInt8) : Packet := ⟨buffer⟩

def Packet.checkLen (p : Packet) : Except NetworkError Unit :=
  checkMinLen p.buffer headerLen

/-- `header_len`: `((data[0] & 0x0F) as usize) * 4`, the IHL in bytes. -/
def Packet.headerLen (p : Packet) : Option Nat :=
  p.buffer[0]?.map fun b => (b &&& 0x0F).toNat * 4

/-- `version`: `data[0] >> 4`. -/
def Packet.version (p : Packet) : Option UInt8 :=
  p.buffer[0]?.map fun b : UInt8 => b >>> (4 : UInt8)

def Packet.ttl (p : Packet) : Option UInt8 := p.buffer[8]?

/-- `protocol`: `Protocol::try_from(data[9]).unwrap()`. -/
def Packet.protocol (p : Packet) : Option Protocol :=
  p.buffer[9]?.bind fun b => (Protocol.tryFrom b.toNat).toOption

/-- `flags`: `Flags::from_bits(data[6])`. -/
def Packet.flags (p : Packet) : Option Flags :=
  p.buffer[6]?.map Flags.fromBits

/-- `src_addr`: bytes `12..16`. -/
def Packet.srcAddr (p : Packet) : Option Ipv4Addr :=
  (sliceRange p.buffer 12 16).bind Ipv4Addr.fromOctets

/-- `dst_addr`: bytes `16..20`. -/
def Packet.dstAddr (p : Packet) : Option Ipv4Addr :=
  (sliceRange p.buffer 16 20).bind Ipv4Addr.fromOctets

/-- `payload`: `&data[self.header_len()..]`. -/
def Packet.payload (p : Packet) : Option (List UInt8) :=
  p.headerLen.bind (sliceFrom p.buffer)

/-- `ip::Repr`. -/
structure Repr where
  srcAddr : Ipv4Addr
  dstAddr : Ipv4Addr
  protocol : Protocol
  payloadLen : Nat
  ttl : UInt8
  flags : Flags
deriving DecidableEq

/-- The fields of an `ip::Repr`, in the order `parse` reads them. -/
def Repr.fields (p : Packet) : Option Repr := do
  let srcAddr ← p.srcAddr
  let dstAddr ← p.dstAddr
  let protocol ← p.protocol
  let payload ← p.payload
  let ttl ← p.ttl
  let flags ← p.flags
  some ⟨srcAddr, dstAddr, protocol, payload.length, ttl, flags⟩

/-- `ip::Repr::parse`. -/
def Repr.parse (p : Packet) : Option (Except NetworkError Repr) :=
  propagate p.checkLen do
    let version ← p.version
    if version ≠ 4 then some (.error .invalid)
    else (Repr.fields p).map .ok

/-- On a full header the fields panic exactly on an unknown protocol or a header length
past the buffer. -/
theorem fields_eq_none_iff {p : Packet} (h : headerLen ≤ p.buffer.length) :
    Repr.fields p = none ↔
      (Protocol.tryFrom (p.buffer.getD 9 0).toNat).toOption = none ∨
        p.buffer.length < ((p.buffer.getD 0 0) &&& 0x0F).toNat * 4 := by
  simp only [headerLen] at h
  obtain ⟨src, hsrc⟩ := ipv4Addr_of_range p.buffer 12 16 rfl (by omega)
  obtain ⟨dst, hdst⟩ := ipv4Addr_of_range p.buffer 16 20 rfl (by omega)
  have hb0 := getElem?_of_lt (0 : UInt8) (show 0 < p.buffer.length by omega)
  have hb6 := getElem?_of_lt (0 : UInt8) (show 6 < p.buffer.length by omega)
  have hb8 := getElem?_of_lt (0 : UInt8) (show 8 < p.buffer.length by omega)
  have hb9 := getElem?_of_lt (0 : UInt8) (show 9 < p.buffer.length by omega)
  simp only [Repr.fields, Packet.srcAddr, hsrc, Packet.dstAddr, hdst, Packet.protocol,
    Packet.payload, Packet.headerLen, Packet.ttl, Packet.flags, hb0, hb6, hb8, hb9,
    Option.bind_eq_bind, Option.bind_some, Option.map_some]
  generalize (p.buffer.getD 0 0 &&& 0x0F).toNat * 4 = ihl
  -- the protocol is read first, then the payload is sliced at the header length
  cases Protocol.tryFrom (p.buffer.getD 9 0).toNat with
  | error => simp only [Except.toOption, Option.bind_none, true_or]
  | ok proto =>
    simp only [Except.toOption, Option.bind_some, reduceCtorEq, false_or]
    by_cases hpay : ihl ≤ p.buffer.length
    · rw [sliceFrom_of_le hpay]
      simp only [Option.bind_some, reduceCtorEq, false_iff, Nat.not_lt]
      exact hpay
    · rw [sliceFrom_eq_none_iff.mpr (by omega)]
      simp only [Option.bind_none, true_iff]
      omega

/-- **`ip::Repr::parse` panics exactly** on version-4 headers whose protocol number is none
of ICMP, IGMP, TCP and UDP, or whose header length runs past the buffer. -/
theorem parse_eq_none_iff (p : Packet) :
    Repr.parse p = none ↔
      headerLen ≤ p.buffer.length ∧ (p.buffer.getD 0 0) >>> (4 : UInt8) = 4 ∧
        ((Protocol.tryFrom (p.buffer.getD 9 0).toNat).toOption = none ∨
          p.buffer.length < ((p.buffer.getD 0 0) &&& 0x0F).toNat * 4) := by
  rw [Repr.parse, Packet.checkLen, propagate_checkMinLen_eq_none]
  refine and_congr_right fun hlen => ?_
  have h0 : p.version = some ((p.buffer.getD 0 0) >>> (4 : UInt8)) := by
    rw [Packet.version, getElem?_of_lt 0 (show 0 < p.buffer.length by
      simp only [headerLen] at hlen; omega), Option.map_some]
  rw [h0, Option.bind_eq_bind, Option.bind_some, ← fields_eq_none_iff hlen]
  -- a version other than 4 is `Err(Invalid)`, never a panic
  by_cases hv : (p.buffer.getD 0 0) >>> (4 : UInt8) = 4
  · rw [if_neg (not_not.mpr hv), Option.map_eq_none_iff]
    exact ⟨fun h => ⟨hv, h⟩, fun h => h.2⟩
  · rw [if_pos hv]
    simp only [reduceCtorEq, false_iff, not_and]
    exact fun h => absurd h hv

/-! ### Emitting a header -/

/-- `impl From<Protocol> for u8`. -/
def Protocol.toU8 : Protocol → UInt8
  | .icmp => 1
  | .igmp => 2
  | .tcp => 6
  | .udp => 17

@[simp] theorem Protocol.tryFrom_toU8 (pr : Protocol) : Protocol.tryFrom pr.toU8.toNat = .ok pr := by
  cases pr <;> rfl

/-- `Flags::to_bits`: the three flags as the top bits of a byte. -/
def Flags.toBits (f : Flags) : UInt8 :=
  let bits : UInt8 := 0
  let bits := if f.reserved then bits ||| 0x80 else bits
  let bits := if f.dontFragment then bits ||| 0x40 else bits
  if f.moreFragments then bits ||| 0x20 else bits

/-- The word `set_flags_and_fragment_offset` writes:
`(u16::from(flags.to_bits()) << 5) | (fragment_offset & 0x1FFF)`. -/
def flagsAndFragmentOffset (flags : Flags) (fragmentOffset : UInt16) : UInt16 :=
  (flags.toBits.toUInt16 <<< 5) ||| (fragmentOffset &&& 0x1FFF)

/-- `set_version_and_header_len`: byte 0. -/
def Packet.setVersionAndHeaderLen (p : Packet) (version headerLen : UInt8) : Option Packet :=
  (store p.buffer 0 ((version <<< 4) ||| (headerLen &&& 0x0F))).map Packet.mk

/-- `set_dscp_ecn`: byte 1. -/
def Packet.setDscpEcn (p : Packet) (dscp ecn : UInt8) : Option Packet :=
  (store p.buffer 1 ((dscp <<< 2) ||| (ecn &&& 0x03))).map Packet.mk

/-- `set_total_len`: bytes `2..4`. -/
def Packet.setTotalLen (p : Packet) (value : Nat) : Option Packet :=
  (copyFromSlice p.buffer 2 4 (toBeBytes 2 value)).map Packet.mk

/-- `set_identification`: bytes `4..6`. -/
def Packet.setIdentification (p : Packet) (value : Nat) : Option Packet :=
  (copyFromSlice p.buffer 4 6 (toBeBytes 2 value)).map Packet.mk

/-- `set_flags_and_fragment_offset`: bytes `6..8`. -/
def Packet.setFlagsAndFragmentOffset (p : Packet) (flags : Flags) (fragmentOffset : UInt16) :
    Option Packet :=
  (copyFromSlice p.buffer 6 8 (toBeBytes 2 (flagsAndFragmentOffset flags fragmentOffset).toNat)).map
    Packet.mk

/-- `set_ttl`: byte 8. -/
def Packet.setTtl (p : Packet) (value : UInt8) : Option Packet :=
  (store p.buffer 8 value).map Packet.mk

/-- `set_protocol`: byte 9. -/
def Packet.setProtocol (p : Packet) (value : Protocol) : Option Packet :=
  (store p.buffer 9 value.toU8).map Packet.mk

/-- `set_checksum`: bytes `10..12`. -/
def Packet.setChecksum (p : Packet) (value : UInt16) : Option Packet :=
  (copyFromSlice p.buffer 10 12 (toBeBytes 2 value.toNat)).map Packet.mk

/-- `set_src_addr`: `u32_to_inet_bytes(u32::from(value))`, bytes `12..16`. -/
def Packet.setSrcAddr (p : Packet) (value : Ipv4Addr) : Option Packet :=
  (copyFromSlice p.buffer 12 16 (toBeBytes 4 (fromBeBytes value.octets))).map Packet.mk

/-- `set_dst_addr`: bytes `16..20`. -/
def Packet.setDstAddr (p : Packet) (value : Ipv4Addr) : Option Packet :=
  (copyFromSlice p.buffer 16 20 (toBeBytes 4 (fromBeBytes value.octets))).map Packet.mk

/-- `fill_checksum`: the checksum of `data[..header_len]` with the checksum word zero. -/
def Packet.fillChecksum (p : Packet) : Option Packet := do
  let p ← p.setChecksum 0
  let headerLen ← p.headerLen
  let header ← sliceRange p.buffer 0 headerLen
  p.setChecksum (checksum header)

/-- `ip::Repr::buffer_len`. -/
def Repr.bufferLen (r : Repr) : Nat := headerLen + r.payloadLen

/-- `ip::Repr::emit`: a 20-byte header without options, identification and fragment offset
zero.  `u16::try_from(HEADER_LEN + self.payload_len).unwrap()` panics on a payload too long
for the total length field. -/
def Repr.emit (r : Repr) (p : Packet) : Option Packet :=
  -- `assert!(packet.buffer.as_ref().len() >= self.buffer_len())`
  if p.buffer.length < r.bufferLen then none
  else do
    let p ← p.setVersionAndHeaderLen 4 5
    let p ← p.setDscpEcn 0 0
    let totalLen ← narrowChecked 16 (headerLen + r.payloadLen)
    let p ← p.setTotalLen totalLen
    let p ← p.setIdentification 0
    let p ← p.setFlagsAndFragmentOffset r.flags 0
    let p ← p.setTtl r.ttl
    let p ← p.setProtocol r.protocol
    let p ← p.setSrcAddr r.srcAddr
    let p ← p.setDstAddr r.dstAddr
    p.fillChecksum

/-- The fields of the header: version and length, DSCP and ECN, total length,
identification, flags and fragment offset, TTL, protocol, checksum, and the addresses. -/
def layout : List Nat := [1, 1, 2, 2, 2, 1, 1, 2, 4, 4]

/-- The fields `emit` writes in front of the checksum. -/
def Repr.headerFront (r : Repr) : List (List UInt8) :=
  [[0x45], [0], toBeBytes 2 (headerLen + r.payloadLen), toBeBytes 2 0,
    toBeBytes 2 (flagsAndFragmentOffset r.flags 0).toNat, [r.ttl], [r.protocol.toU8]]

/-- The fields after the checksum: the two addresses. -/
def Repr.headerBack (r : Repr) : List (List UInt8) := [r.srcAddr.octets, r.dstAddr.octets]

/-- The header of `r` with the checksum word `ck`. -/
def Repr.header (r : Repr) (ck : List UInt8) : List (List UInt8) :=
  r.headerFront ++ ck :: r.headerBack

/-- The checksum `fill_checksum` writes: that of the header with the word zero. -/
def Repr.headerChecksum (r : Repr) : UInt16 :=
  checksum (r.header (toBeBytes 2 0)).flatten

theorem Repr.fills_header (r : Repr) {ck : List UInt8} (hck : ck.length = 2) :
    Fills layout (r.header ck) := by
  simp [Fills, Repr.header, Repr.headerFront, Repr.headerBack, layout, hck,
    r.srcAddr.length_eq, r.dstAddr.length_eq]

theorem Repr.flatten_header (r : Repr) (ck : List UInt8) :
    (r.header ck).flatten = r.headerFront.flatten ++ (ck ++ r.headerBack.flatten) := by
  rw [Repr.header, List.flatten_append, List.flatten_cons]

/-- **The checksum `emit` writes verifies**: the checksum of the filled header is zero. -/
theorem header_checksum_verifies (r : Repr) :
    checksum (r.header (toBeBytes 2 r.headerChecksum.toNat)).flatten = 0 := by
  have hfront : r.headerFront.flatten.length = 10 := by simp [Repr.headerFront]
  rw [Repr.flatten_header, Repr.headerChecksum, Repr.flatten_header]
  exact checksum_verifies (by rw [hfront])

/-- **Every flags word `emit` writes is read back as no flags**: `to_bits()` puts the flags
in bits 7, 6 and 5 of a byte, the shift by five moves them to bits 12, 11 and 10 of the
word, and `Flags::from_bits` reads bits 7, 6 and 5 of its first byte, bits 15, 14 and 13. -/
theorem fromBits_flagsAndFragmentOffset (f : Flags) :
    Flags.fromBits ((flagsAndFragmentOffset f 0).toNat / 256).toUInt8 = ⟨false, false, false⟩ := by
  obtain ⟨reserved, dontFragment, moreFragments⟩ := f
  cases reserved <;> cases dontFragment <;> cases moreFragments <;> decide

section Fields

variable {fs : List (List UInt8)} {rest : List UInt8}

/-- The header length of a packet whose first byte is `0x45`. -/
theorem headerLen_fills (hf : Fills layout fs) (h0 : fs[0]? = some [0x45]) :
    Packet.headerLen ⟨fs.flatten ++ rest⟩ = some 20 := by
  rw [Packet.headerLen, getElem?_field hf (k := 0) (a := 0) rfl (by decide) rfl, h0]
  rfl

/-- The version of a packet whose first byte is `0x45`. -/
theorem version_fills (hf : Fills layout fs) (h0 : fs[0]? = some [0x45]) :
    Packet.version ⟨fs.flatten ++ rest⟩ = some 4 := by
  rw [Packet.version, getElem?_field hf (k := 0) (a := 0) rfl (by decide) rfl, h0]
  rfl

end Fields

/-- **`emit` lays down the header** over the first twenty bytes of any buffer that holds the
packet, with the checksum `fill_checksum` computes, and keeps the payload. -/
theorem emit_eq (r : Repr) {buf : List UInt8} (h : r.bufferLen ≤ buf.length)
    (hfit : headerLen + r.payloadLen < 2 ^ 16) :
    r.emit ⟨buf⟩ =
      some ⟨(r.header (toBeBytes 2 r.headerChecksum.toNat)).flatten ++ buf.drop headerLen⟩ := by
  have hlen : layout.sum ≤ buf.length := Nat.le_trans (Nat.le_add_right _ _) h
  have hf : Fills layout (cutFields layout buf) := fills_cutFields layout hlen
  rw [Repr.emit, if_neg (Nat.not_lt.mpr (show r.bufferLen ≤ (Packet.mk buf).buffer.length from h)),
    narrowChecked_of_lt hfit]
  simp only [Packet.setVersionAndHeaderLen, Packet.setDscpEcn, Packet.setTotalLen,
    Packet.setIdentification, Packet.setFlagsAndFragmentOffset, Packet.setTtl,
    Packet.setProtocol, Packet.setSrcAddr, Packet.setDstAddr]
  conv_lhs => rw [cutFields_flatten_append layout buf]
  -- the nine setters before `fill_checksum`, each a write of one field
  rw [store_field hf (k := 0) (a := 0) rfl rfl]
  simp only [Option.map_some, Option.bind_eq_bind, Option.bind_some]
  have hf₁ := hf.set (k := 0) rfl
    (List.length_singleton (a := (4 : UInt8) <<< 4 ||| (5 &&& 0x0F)))
  rw [store_field hf₁ (k := 1) (a := 1) rfl rfl]
  simp only [Option.map_some, Option.bind_some]
  have hf₂ := hf₁.set (k := 1) rfl
    (List.length_singleton (a := (0 : UInt8) <<< 2 ||| (0 &&& 0x03)))
  rw [copyFromSlice_field hf₂ (k := 2) (a := 2) (b := 4) rfl rfl rfl (length_toBeBytes 2 _)]
  simp only [Option.map_some, Option.bind_some]
  have hf₃ := hf₂.set (k := 2) rfl (length_toBeBytes 2 (headerLen + r.payloadLen))
  rw [copyFromSlice_field hf₃ (k := 3) (a := 4) (b := 6) rfl rfl rfl (length_toBeBytes 2 _)]
  simp only [Option.map_some, Option.bind_some]
  have hf₄ := hf₃.set (k := 3) rfl (length_toBeBytes 2 0)
  rw [copyFromSlice_field hf₄ (k := 4) (a := 6) (b := 8) rfl rfl rfl (length_toBeBytes 2 _)]
  simp only [Option.map_some, Option.bind_some]
  have hf₅ := hf₄.set (k := 4) rfl (length_toBeBytes 2 (flagsAndFragmentOffset r.flags 0).toNat)
  rw [store_field hf₅ (k := 5) (a := 8) rfl rfl]
  simp only [Option.map_some, Option.bind_some]
  have hf₆ := hf₅.set (k := 5) rfl (List.length_singleton (a := r.ttl))
  rw [store_field hf₆ (k := 6) (a := 9) rfl rfl]
  simp only [Option.map_some, Option.bind_some]
  have hf₇ := hf₆.set (k := 6) rfl (List.length_singleton (a := r.protocol.toU8))
  rw [copyFromSlice_field hf₇ (k := 8) (a := 12) (b := 16) rfl rfl rfl (length_toBeBytes 4 _)]
  simp only [Option.map_some, Option.bind_some]
  have hf₈ := hf₇.set (k := 8) rfl (length_toBeBytes 4 (fromBeBytes r.srcAddr.octets))
  rw [copyFromSlice_field hf₈ (k := 9) (a := 16) (b := 20) rfl rfl rfl (length_toBeBytes 4 _)]
  simp only [Option.map_some, Option.bind_some]
  have hf₉ := hf₈.set (k := 9) rfl (length_toBeBytes 4 (fromBeBytes r.dstAddr.octets))
  -- `fill_checksum`: zero the word, sum the twenty bytes, write the checksum
  rw [Packet.fillChecksum, Packet.setChecksum,
    copyFromSlice_field hf₉ (k := 7) (a := 10) (b := 12) rfl rfl rfl (length_toBeBytes 2 _)]
  simp only [Option.map_some, Option.bind_eq_bind, Option.bind_some]
  have hf₁₀ := hf₉.set (k := 7) rfl (length_toBeBytes 2 (0 : UInt16).toNat)
  rw [headerLen_fills hf₁₀ rfl]
  simp only [Option.bind_some]
  rw [sliceRange_fills hf₁₀ (a := 20) rfl]
  simp only [Option.bind_some, Packet.setChecksum]
  rw [copyFromSlice_field hf₁₀ (k := 7) (a := 10) (b := 12) rfl rfl rfl (length_toBeBytes 2 _),
    Option.map_some, toBeBytes_fromBeBytes r.srcAddr.length_eq,
    toBeBytes_fromBeBytes r.dstAddr.length_eq]
  -- every field is written, so nothing of the old header is left
  rfl

/-- **`parse` reads the header back, but with no flags**: the length is what follows the
header, and the flags are lost whatever `emit` was given. -/
theorem parse_header (r : Repr) {ck : List UInt8} (hck : ck.length = 2) (rest : List UInt8) :
    Repr.parse ⟨(r.header ck).flatten ++ rest⟩ =
      some (.ok { r with payloadLen := rest.length, flags := ⟨false, false, false⟩ }) := by
  have hf := r.fills_header hck
  have hlen : headerLen ≤ ((r.header ck).flatten ++ rest).length :=
    le_length_flatten_append hf rfl
  rw [Repr.parse, Packet.checkLen, checkMinLen_of_le hlen, propagate_ok, version_fills hf rfl]
  simp only [Option.bind_eq_bind, Option.bind_some, ne_eq, not_true_eq_false, if_false]
  simp only [Repr.fields, Packet.srcAddr, Packet.dstAddr, Packet.protocol, Packet.payload,
    Packet.ttl, Packet.flags, headerLen_fills hf rfl, Option.bind_eq_bind, Option.bind_some,
    sliceRange_field hf (k := 8) (a := 12) (b := 16) rfl rfl rfl,
    sliceRange_field hf (k := 9) (a := 16) (b := 20) rfl rfl rfl,
    getElem?_field hf (k := 6) (a := 9) rfl (by decide) rfl,
    getElem?_field hf (k := 5) (a := 8) rfl (by decide) rfl,
    getElem?_field hf (k := 4) (a := 6) rfl (by decide) rfl, sliceFrom_fills hf (a := 20) rfl]
  -- the fields hold the representation's values, and the flags word loses its flags
  have hflags := fromBits_flagsAndFragmentOffset r.flags
  simp [Repr.header, Repr.headerFront, Repr.headerBack, toBeBytes, hflags, Except.toOption]

/-- **IPv4 round trip, up to the flags**: on a buffer of `buffer_len()` bytes, whatever they
held, with a payload short enough for the total length, `emit` then `parse` gives back the
representation with its flags cleared, and the header checksum verifies. -/
theorem parse_emit (r : Repr) {buf : List UInt8} (h : buf.length = r.bufferLen)
    (hfit : headerLen + r.payloadLen < 2 ^ 16) :
    ∃ p, r.emit ⟨buf⟩ = some p ∧
      Repr.parse p = some (.ok { r with flags := ⟨false, false, false⟩ }) ∧
      checksum (p.buffer.take headerLen) = 0 := by
  have hck := length_toBeBytes 2 r.headerChecksum.toNat
  have hrest : (buf.drop headerLen).length = r.payloadLen := by
    rw [List.length_drop, h, Repr.bufferLen, Nat.add_sub_cancel_left]
  refine ⟨_, emit_eq r (Nat.le_of_eq h.symm) hfit, ?_, ?_⟩
  · rw [parse_header r hck, hrest]
  · have hheader : (r.header (toBeBytes 2 r.headerChecksum.toNat)).flatten.length = headerLen :=
      (r.fills_header hck).length_flatten
    rw [List.take_left' hheader]
    exact header_checksum_verifies r

/-- The header the source's `test_construct` builds, don't-fragment set: from `192.168.0.1`
to `192.168.0.2`, TCP, TTL 64, and here no payload. -/
def dontFragmentRepr : Repr where
  srcAddr := ⟨[192, 168, 0, 1], rfl⟩
  dstAddr := ⟨[192, 168, 0, 2], rfl⟩
  protocol := .tcp
  payloadLen := 0
  ttl := 64
  flags := ⟨false, true, false⟩

theorem emit_parse_clears_dont_fragment :
    ∃ p, dontFragmentRepr.emit ⟨List.replicate 20 0⟩ = some p ∧
      Repr.parse p = some (.ok { dontFragmentRepr with flags := ⟨false, false, false⟩ }) ∧
      Repr.parse p ≠ some (.ok dontFragmentRepr) := by
  obtain ⟨p, hemit, hparse, -⟩ :=
    parse_emit dontFragmentRepr (show (List.replicate 20 0).length = _ from rfl) (by decide)
  refine ⟨p, hemit, hparse, ?_⟩
  -- the flags read back differ from the ones emitted
  rw [hparse]
  intro h
  simp only [Option.some.injEq, Except.ok.injEq] at h
  exact absurd (congrArg Repr.flags h) (by decide)

/-! ### `fill_checksum` on any packet -/

/-- `set_checksum` writes bytes `10..12` and keeps byte 0, so the header length. -/
theorem headerLen_setChecksum {p p₁ : Packet} {v : UInt16} (h : p.setChecksum v = some p₁) :
    p₁.headerLen = p.headerLen := by
  obtain ⟨buf, hbuf, rfl⟩ := Option.map_eq_some_iff.mp h
  obtain ⟨⟨-, hlen, -⟩, rfl⟩ := copyFromSlice_eq_some_iff.mp hbuf
  have h0 : 0 < (p.buffer.take 10).length := by
    rw [List.length_take]
    omega
  simp only [Packet.headerLen, List.append_assoc, List.getElem?_append_left h0,
    List.getElem?_take_of_lt (show 0 < 10 by decide)]

/-- **`fill_checksum` verifies on a header that holds its checksum word**: when the header
length is at least `12`, the checksum of the first `header_len` bytes it leaves is zero. -/
theorem fillChecksum_verifies {p p' : Packet} (h : p.fillChecksum = some p') {hl : Nat}
    (hhl : p.headerLen = some hl) (h12 : 12 ≤ hl) : checksum (p'.buffer.take hl) = 0 := by
  simp only [Packet.fillChecksum, Option.bind_eq_bind, Option.bind_eq_some_iff] at h
  obtain ⟨p₁, h₁, hl', hhl', header, hheader, h'⟩ := h
  rw [headerLen_setChecksum h₁, hhl, Option.some.injEq] at hhl'
  subst hhl'
  obtain ⟨-, rfl⟩ := sliceRange_eq_some_iff.mp hheader
  obtain ⟨zeroed, hz, rfl⟩ := Option.map_eq_some_iff.mp h₁
  obtain ⟨filled, hf, rfl⟩ := Option.map_eq_some_iff.mp h'
  -- the header is read from the start of the buffer
  rw [List.drop_zero, Nat.sub_zero] at hf
  exact @verifies_of_fill [] _ _ _ _ _ rfl (by decide) h12 hz hf

/-- A header length below `12` leaves the checksum word out of the bytes it sums: a
version-4 packet of twenty bytes, total length twenty, header length zero. -/
def shortHeaderPacket : Packet := ⟨[0x40, 0, 0, 20] ++ List.replicate 16 0⟩

/-- **`fill_checksum` does not verify on a header too short for its checksum word**: on
`shortHeaderPacket` it sums no bytes and writes `0xFFFF`, and the sum of no bytes is again
`0xFFFF`. -/
theorem fillChecksum_short_header :
    ∃ p', shortHeaderPacket.fillChecksum = some p' ∧ shortHeaderPacket.headerLen = some 0 ∧
      shortHeaderPacket.buffer.length = beField shortHeaderPacket.buffer 2 4 ∧
      checksum (p'.buffer.take 0) ≠ 0 := by
  have hzero : shortHeaderPacket.setChecksum 0 = some shortHeaderPacket := rfl
  have hfill : shortHeaderPacket.setChecksum (checksum []) =
      some ⟨[0x40, 0, 0, 20] ++ List.replicate 6 0 ++ [0xFF, 0xFF] ++ List.replicate 8 0⟩ := by
    rw [checksum_nil]
    rfl
  refine ⟨⟨[0x40, 0, 0, 20] ++ List.replicate 6 0 ++ [0xFF, 0xFF] ++ List.replicate 8 0⟩, ?_, rfl,
    rfl, ?_⟩
  · rw [Packet.fillChecksum, hzero]
    exact hfill
  · rw [List.take_zero, checksum_nil]
    decide

end Ip

end Beskar.Holonet
