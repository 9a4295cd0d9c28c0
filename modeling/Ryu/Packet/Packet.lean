import Ryu.Lib.Layers
import Ryu.Packet.Ipv4
import Ryu.Packet.Ipv6
import Ryu.Packet.Lldp

/-! # Packets

A packet is a list of headers with octets behind them. The class of the next header is looked up in
one table of all protocols, by an ethertype or the number of a protocol. Ethernet pads what is
behind it, and the padding is read as part of a payload, unless an IP header says how long that is.
-/

namespace Ryu.Packet

open Bytes

structure Ethernet where
  dst : BitVec 48
  src : BitVec 48
  ethertype : ℕ
  deriving DecidableEq, Repr

/-- A `vlan` or an `svlan`. -/
structure Vlan where
  pcp : ℕ
  cfi : ℕ
  vid : ℕ
  ethertype : ℕ
  deriving DecidableEq, Repr

structure Arp where
  hwtype : ℕ
  proto : ℕ
  hlen : ℕ
  plen : ℕ
  opcode : ℕ
  srcMac : BitVec 48
  srcIp : BitVec 32
  dstMac : BitVec 48
  dstIp : BitVec 32
  deriving DecidableEq, Repr

structure Udp where
  srcPort : ℕ
  dstPort : ℕ
  totalLength : ℕ
  csum : ℕ
  deriving DecidableEq, Repr

/-- The subclasses of `PacketBase`. -/
inductive PacketClass
  | ethernet
  | vlan
  | svlan
  | arp
  | ipv4
  | ipv6
  | udp
  | lldp
  | other (name : String)
  deriving DecidableEq, Repr

/-- The headers of a packet, those of other classes among them. -/
inductive Proto (Ω : Type)
  | ethernet (p : Ethernet)
  | vlan (p : Vlan)
  | svlan (p : Vlan)
  | arp (p : Arp)
  | ipv4 (p : Ipv4)
  | ipv6 (p : Ipv6)
  | udp (p : Udp)
  | lldp (p : Lldp)
  | other (p : Ω)
  deriving DecidableEq, Repr

/-- The other classes: what they are registered for, their parsers and serializers, their lengths,
and what a pseudo header takes from them. -/
structure OtherClasses (Ω : Type) where
  types : ℕ → Option PacketClass
  parser : String → List UInt8 → Except PyError (Option Ω × Option PacketClass × List UInt8)
  serialize : Option (LayerItem (Proto Ω)) → Ω → List UInt8 →
    Except PyError (List UInt8 × Ω × List UInt8)
  len : Ω → ℕ
  ipHeader : Ω → Except PyError IpHeader

namespace Ethernet

/-- `!6s6sH`, the addresses as numbers. -/
@[reducible] def packStr : Format := [.num 6, .num 6, .num 2]

def minPayloadLen : ℕ := 46

variable (p : Ethernet)

def values : packStr.Values := (p.dst.toNat, p.src.toNat, p.ethertype, ())

/-- `parser`, but for the class of the payload. -/
def parser (buf : List UInt8) : Except PyError (Ethernet × List UInt8) :=
  (packStr.unpackFrom buf).map fun (dst, src, ethertype, ()) =>
    (⟨BitVec.ofNat 48 dst, BitVec.ofNat 48 src, ethertype⟩, buf.drop packStr.calcsize)

/-- `serialize`, with the payload that it pads. -/
def serialize (payload : List UInt8) : Except PyError (List UInt8 × List UInt8) :=
  (packStr.pack p.values).map (·, padRight payload minPayloadLen)

end Ethernet

namespace Vlan

@[reducible] def packStr : Format := [.num 2, .num 2]

variable (p : Vlan)

def values : packStr.Values := (p.pcp <<< 13 ||| p.cfi <<< 12 ||| p.vid, p.ethertype, ())

def parser (buf : List UInt8) : Except PyError (Vlan × List UInt8) :=
  (packStr.unpackFrom buf).map fun (tci, ethertype, ()) =>
    (⟨tci >>> 13, (tci >>> 12) &&& 1, tci &&& 0xfff, ethertype⟩, buf.drop packStr.calcsize)

def serialize : Except PyError (List UInt8) := packStr.pack p.values

end Vlan

namespace Arp

/-- `!HHBBH6s4s6s4s`, the addresses as numbers. -/
@[reducible] def packStr : Format :=
  [.num 2, .num 2, .num 1, .num 1, .num 2, .num 6, .num 4, .num 6, .num 4]

variable (p : Arp)

def values : packStr.Values :=
  (p.hwtype, p.proto, p.hlen, p.plen, p.opcode, p.srcMac.toNat, p.srcIp.toNat, p.dstMac.toNat,
    p.dstIp.toNat, ())

def parser (buf : List UInt8) : Except PyError (Arp × List UInt8) :=
  (packStr.unpackFrom buf).map
    fun (hwtype, proto, hlen, plen, opcode, srcMac, srcIp, dstMac, dstIp, ()) =>
      (⟨hwtype, proto, hlen, plen, opcode, BitVec.ofNat 48 srcMac, BitVec.ofNat 32 srcIp,
        BitVec.ofNat 48 dstMac, BitVec.ofNat 32 dstIp⟩, buf.drop packStr.calcsize)

def serialize : Except PyError (List UInt8) := packStr.pack p.values

end Arp

namespace Udp

@[reducible] def packStr : Format := [.num 2, .num 2, .num 2, .num 2]

/-- `get_packet_type`. -/
def getPacketType (srcPort dstPort : ℕ) : Option PacketClass :=
  if srcPort ∈ [67, 68] ∧ dstPort = 67 ∨ dstPort ∈ [67, 68] ∧ srcPort = 67 then
    some (.other "dhcp")
  else if srcPort ∈ [546, 547] ∧ dstPort = 547 ∨ dstPort ∈ [546, 547] ∧ srcPort = 547 then
    some (.other "dhcp6")
  else if dstPort = 4789 ∨ dstPort = 8472 then some (.other "vxlan")
  else if dstPort = 6081 then some (.other "geneve")
  else none

variable (p : Udp)

def values : packStr.Values := (p.srcPort, p.dstPort, p.totalLength, p.csum, ())

def parser (buf : List UInt8) : Except PyError (Udp × List UInt8) :=
  (packStr.unpackFrom buf).map fun (srcPort, dstPort, totalLength, csum, ()) =>
    (⟨srcPort, dstPort, totalLength, csum⟩,
      (buf.drop packStr.calcsize).take (totalLength - packStr.calcsize))

/-- The length of a header in front of so many octets. -/
def total (n : ℕ) : ℕ := if p.totalLength = 0 then packStr.calcsize + n else p.totalLength

/-- `serialize`, behind a header with what a pseudo header takes from it. -/
def serialize (prev : Except PyError IpHeader) (payload : List UInt8) :
    Except PyError (List UInt8 × Udp) :=
  let p := { p with totalLength := p.total payload.length }
  match packStr.pack p.values with
  | .error e => .error e
  | .ok h =>
    if p.csum = 0 then
      match prev with
      | .error e => .error e
      | .ok ipvx =>
        match ipvx.checksumIp p.totalLength (h ++ payload) with
        | .error e => .error e
        | .ok csum => (packStr.pack { p with csum }.values).map (·, { p with csum })
    else .ok (h, p)

end Udp

section Classes

variable {Ω : Type} (C : OtherClasses Ω)

/-- `PacketBase.get_packet_type`. The table is one for all classes. -/
def getPacketType : ℕ → Option PacketClass
  | 17 => some .udp
  | 0x0800 => some .ipv4
  | 0x0806 => some .arp
  | 0x8100 => some .vlan
  | 0x86dd => some .ipv6
  | 0x88a8 => some .svlan
  | 0x88cc => some .lldp
  | type => C.types type

def ethTypeIeee8023 : ℕ := 0x05dc

/-- `get_packet_type` of `ethernet` and `vlan`, where a small type is a length. -/
def getEtherType (type : ℕ) : Option PacketClass :=
  getPacketType C (if type ≤ ethTypeIeee8023 then ethTypeIeee8023 else type)

/-- The parsers, with the class of what is behind each header. That of `svlan` asks `vlan`. -/
def parserOf : PacketClass → List UInt8 →
    Except PyError (Option (Proto Ω) × Option PacketClass × List UInt8)
  | .ethernet, buf => (Ethernet.parser buf).map fun x =>
    (some (.ethernet x.1), getEtherType C x.1.ethertype, x.2)
  | .vlan, buf => (Vlan.parser buf).map fun x =>
    (some (.vlan x.1), getEtherType C x.1.ethertype, x.2)
  | .svlan, buf => (Vlan.parser buf).map fun x =>
    (some (.svlan x.1), getEtherType C x.1.ethertype, x.2)
  | .arp, buf => (Arp.parser buf).map fun x => (some (.arp x.1), none, x.2)
  | .ipv4, buf => (Ipv4.parser buf).map fun x => (some (.ipv4 x.1), getPacketType C x.1.proto, x.2)
  | .ipv6, buf => (Ipv6.parser buf).map fun x => (some (.ipv6 x.1), getPacketType C x.2.1, x.2.2)
  | .udp, buf => (Udp.parser buf).map fun x =>
    (some (.udp x.1), Udp.getPacketType x.1.srcPort x.1.dstPort, x.2)
  | .lldp, buf => .ok ((Lldp.parser buf).1.map .lldp, none, (Lldp.parser buf).2)
  | .other name, buf => (C.parser name buf).map fun x => (x.1.map .other, x.2)

/-- What `checksum_ip` takes from the header in front, and from one of the other classes. An address
of another version is an error. -/
def ipHeader (other : Ω → Except PyError IpHeader) :
    Option (LayerItem (Proto Ω)) → Except PyError IpHeader
  | some (.proto (.ipv4 p)) =>
    if p.version = 4 then .ok (.ipv4 (toBytes 4 p.src.toNat) (toBytes 4 p.dst.toNat) p.proto)
    else if p.version = 6 then .error (.other "AddrFormatError")
    else .ok (.unknown p.version)
  | some (.proto (.ipv6 p)) =>
    if p.version = 4 then .error (.other "AddrFormatError")
    else if p.version = 6 then
      .ok (.ipv6 (toBytes 16 p.src.toNat) (toBytes 16 p.dst.toNat) p.nxt)
    else .ok (.unknown p.version)
  | some (.proto (.other p)) => other p
  | _ => .error (.attributeError "version")

/-- The serializers, with what they leave of the header and the payload. -/
def serializeProto (prev : Option (LayerItem (Proto Ω))) (p : Proto Ω) (payload : List UInt8) :
    Except PyError (List UInt8 × Proto Ω × List UInt8) :=
  match p with
  | .ethernet q => (q.serialize payload).map fun x => (x.1, p, x.2)
  | .vlan q | .svlan q => q.serialize.map (·, p, payload)
  | .arp q => q.serialize.map (·, p, payload)
  | .ipv4 q => (q.serialize payload).map fun x => (x.1, .ipv4 x.2, payload)
  | .ipv6 q => (q.serialize payload).map fun x => (x.1, .ipv6 x.2, payload)
  | .udp q => (q.serialize (ipHeader C.ipHeader prev) payload).map fun x => (x.1, .udp x.2, payload)
  | .lldp q => q.serialize.map (·, p, payload)
  | .other q => (C.serialize prev q payload).map fun x => (x.1, .other x.2.1, x.2.2)

/-- `__len__`, a constant for most classes. -/
def Proto.len : Proto Ω → ℕ
  | ethernet _ => Ethernet.packStr.calcsize
  | vlan _ | svlan _ => Vlan.packStr.calcsize
  | arp _ => Arp.packStr.calcsize
  | ipv4 p => p.len
  | ipv6 p => p.len
  | udp _ => Udp.packStr.calcsize
  | lldp p => p.len
  | other p => C.len p

/-- Whether a header counts as true, by its length. -/
def truth (p : Proto Ω) : Bool := p.len C ≠ 0

def packetLayers : Layers (Proto Ω) PacketClass := ⟨parserOf C, serializeProto C, truth C⟩

/-- `Packet(data, parse_cls).protocols`, if so many rounds of its loop are enough. -/
def parsePacket (fuel : ℕ) (parseCls : PacketClass) (data : List UInt8) :
    Option (Except PyError (List (LayerItem (Proto Ω)))) :=
  (packetLayers C).parseItems fuel parseCls data

/-- `Packet.serialize`, with the protocols as they are left. -/
def serializePacket (protocols : List (LayerItem (Proto Ω))) :
    Except PyError (List UInt8 × List (LayerItem (Proto Ω))) :=
  (packetLayers C).writeItems none protocols

end Classes

/-! ## What is serialized is parsed -/

section Headers

variable {Ω : Type} {C : OtherClasses Ω} {data : List UInt8}
  {prev : Option (LayerItem (Proto Ω))}

/-- The type of what is behind the headers. -/
def Ipv6.last (p : Ipv6) : ℕ := ((p.extHdrs.getLast?).map Ipv6.ExtHeader.nxt).getD p.nxt

namespace Proto

/-- The class that parses a header. -/
def cls : Proto Ω → Option PacketClass
  | ethernet _ => some .ethernet
  | vlan _ => some .vlan
  | svlan _ => some .svlan
  | arp _ => some .arp
  | ipv4 _ => some .ipv4
  | ipv6 _ => some .ipv6
  | udp _ => some .udp
  | lldp _ => some .lldp
  | other _ => none

/-- The class of what a header says is behind it. -/
def next (C : OtherClasses Ω) : Proto Ω → Option PacketClass
  | ethernet p => getEtherType C p.ethertype
  | vlan p | svlan p => getEtherType C p.ethertype
  | arp _ | lldp _ | other _ => none
  | ipv4 p => getPacketType C p.proto
  | ipv6 p => getPacketType C p.last
  | udp p => Udp.getPacketType p.srcPort p.dstPort

/-- How long so many octets are behind a header. -/
def enclosed (n : ℕ) : Proto Ω → ℕ
  | ethernet _ => Ethernet.packStr.calcsize + max n Ethernet.minPayloadLen
  | vlan _ | svlan _ => Vlan.packStr.calcsize + n
  | arp _ => Arp.packStr.calcsize + n
  | ipv4 p => p.len + n
  | ipv6 p => Ipv6.packStr.calcsize + (p.written.map Ipv6.ExtHeader.len).sum + n
  | udp _ => Udp.packStr.calcsize + n
  | lldp p => p.len + n
  | other _ => n

/-- The fields of a header behind another, in front of so many octets. The types and versions are
not zero, and a checksum that is to be computed is behind an IP header. -/
def Fits (C : OtherClasses Ω) (prev : Option (LayerItem (Proto Ω))) (n : ℕ) : Proto Ω → Prop
  | ethernet p => p.ethertype < 2 ^ 16 ∧ p.ethertype ≠ 0
  | vlan p | svlan p => p.pcp < 2 ^ 3 ∧ p.cfi < 2 ^ 1 ∧ p.vid < 2 ^ 12 ∧ p.ethertype < 2 ^ 16 ∧
    p.ethertype ≠ 0
  | arp p => p.hwtype < 2 ^ 16 ∧ p.hwtype ≠ 0 ∧ p.proto < 2 ^ 16 ∧ p.hlen < 256 ∧ p.plen < 256 ∧
    p.opcode < 2 ^ 16
  | ipv4 p => p.Fits n
  | ipv6 p => p.Readable p.last ∧ p.version ≠ 0 ∧
    if p.payloadLength = 0 then n + (p.written.map Ipv6.ExtHeader.len).sum < 2 ^ 16
    else n ≤ p.payloadLength
  | udp p => p.srcPort < 2 ^ 16 ∧ p.dstPort < 2 ^ 16 ∧ Udp.packStr.calcsize + n ≤ p.total n ∧
    p.total n < 2 ^ 16 ∧ p.csum < 2 ^ 16 ∧
    (p.csum = 0 → ∃ ipvx, ipHeader C.ipHeader prev = .ok ipvx ∧ ipvx.Admits (p.total n))
  | lldp p => p.Fits
  | other _ => False

/-- How many zeros are read behind `n` octets, of `k` that are there. Ethernet adds some, and a
length cuts them off where it has been computed. That of IPv6 leaves as many as it counts for its
headers. -/
def behind (n k : ℕ) : Proto Ω → ℕ
  | ethernet _ => Ethernet.minPayloadLen - n + k
  | ipv4 p => if p.totalLength = 0 then 0 else min (p.totalLength - p.len - n) k
  | ipv6 p => if p.payloadLength = 0 then min (p.written.map Ipv6.ExtHeader.len).sum k
    else min (p.payloadLength - n) k
  | udp p => if p.totalLength = 0 then 0
    else min (p.totalLength - Udp.packStr.calcsize - n) k
  | vlan _ | svlan _ | arp _ | lldp _ | other _ => k

/-- What a header is left as by its serializer in front of so many octets. -/
def Left (n : ℕ) : Proto Ω → Proto Ω → Prop
  | ipv4 p, ipv4 p' => p' = { p with totalLength := p'.totalLength, csum := p'.csum } ∧
    p'.totalLength = if p.totalLength = 0 then p.len + n else p.totalLength
  | ipv6 p, ipv6 p' => p' = { p with payloadLength := p'.payloadLength, extHdrs := p.written } ∧
    p'.payloadLength = if p.payloadLength = 0 then n + (p.written.map Ipv6.ExtHeader.len).sum
      else p.payloadLength
  | udp p, udp p' => p' = { p with totalLength := p.total n, csum := p'.csum } ∧
    (p.csum ≠ 0 → p'.csum = p.csum)
  | p, p' => p' = p

end Proto

/-- A header is written in front of some octets, and parsed with them behind it. -/
def Enclosed (C : OtherClasses Ω) (prev : Option (LayerItem (Proto Ω))) (p : Proto Ω)
    (data : List UInt8) : Prop :=
  ∃ c b p' data', p.cls = some c ∧ serializeProto C prev p data = .ok (b, p', data') ∧
    p.Left data.length p' ∧ b.length = p'.len C ∧ (∃ j, data' = data ++ zeros j) ∧
    truth C p' = true ∧ (b ++ data').length = p.enclosed data.length ∧
    blank (b ++ data') = false ∧ ∀ k, parserOf C c (b ++ data' ++ zeros k) =
      .ok (some p', p.next C, data ++ zeros (p.behind data.length k))

theorem enclosed_ethernet {p : Ethernet}
    (h : (Proto.ethernet p : Proto Ω).Fits C prev data.length) :
    Enclosed C prev (.ethernet p) data := by
  obtain ⟨htype, hne⟩ := h
  have hfits : Ethernet.packStr.Fits p.values := ⟨p.dst.isLt, p.src.isLt, htype, trivial⟩
  have hlen := Format.length_bytes hfits
  refine ⟨_, Ethernet.packStr.bytes p.values, .ethernet p,
    padRight data Ethernet.minPayloadLen, rfl, ?_, rfl, hlen, ⟨_, rfl⟩, rfl, ?_, ?_,
    fun k => ?_⟩
  · rw [serializeProto, Ethernet.serialize, Format.pack_bytes hfits]
    rfl
  · rw [List.length_append, hlen, padRight, List.length_append, List.length_replicate,
      Proto.enclosed]
    omega
  · have hbytes : Ethernet.packStr.bytes p.values = toBytes 6 p.dst.toNat ++
        (toBytes 6 p.src.toNat ++ (toBytes 2 p.ethertype ++ [])) := rfl
    rw [hbytes, List.append_assoc, Layers.blank_append, List.append_assoc, Layers.blank_append,
      List.append_assoc, Layers.blank_toBytes htype hne, Bool.and_false, Bool.and_false]
  · rw [parserOf, Ethernet.parser, List.append_assoc, Format.unpackFrom_bytes hfits trivial]
    simp only [Except.map, Ethernet.values, BitVec.ofNat_toNat, BitVec.setWidth_eq]
    rw [Ethernet.values] at hlen
    rw [List.drop_left' hlen, padRight, List.append_assoc, Proto.behind, ← Layers.zeros_add]
    rfl

theorem vlan_values {p : Vlan} (h : (Proto.vlan p : Proto Ω).Fits C prev data.length) :
    Vlan.packStr.Fits p.values ∧
      (∀ r, Vlan.parser (Vlan.packStr.bytes p.values ++ r) = .ok (p, r)) ∧
      ∀ r, blank (Vlan.packStr.bytes p.values ++ r) = false := by
  obtain ⟨hpcp, hcfi, hvid, htype, hne⟩ := h
  have hlow : p.cfi <<< 12 ||| p.vid < 2 ^ (1 + 12) :=
    (BitFields.shiftLeft_or_lt_iff hvid).2 hcfi
  have hsplit : p.pcp <<< 13 ||| p.cfi <<< 12 ||| p.vid =
      p.pcp <<< 13 ||| (p.cfi <<< 12 ||| p.vid) := Nat.or_assoc ..
  have hsplit' : p.pcp <<< 13 ||| p.cfi <<< 12 ||| p.vid =
      (p.pcp <<< 1 ||| p.cfi) <<< 12 ||| p.vid := by
    rw [Nat.shiftLeft_or_distrib, ← Nat.shiftLeft_add]
  have hfits : Vlan.packStr.Fits p.values := by
    refine ⟨?_, htype, trivial⟩
    rw [hsplit, show 256 ^ 2 = 2 ^ (3 + 13) from rfl]
    exact (BitFields.shiftLeft_or_lt_iff hlow).2 hpcp
  refine ⟨hfits, fun r => ?_, fun r => ?_⟩
  · have hpcp' : (p.pcp <<< 13 ||| p.cfi <<< 12 ||| p.vid) >>> 13 = p.pcp := by
      rw [hsplit]
      exact BitFields.shiftRight_shiftLeft_or hlow
    have hcfi' : (p.pcp <<< 13 ||| p.cfi <<< 12 ||| p.vid) >>> 12 &&& 1 = p.cfi := by
      rw [hsplit', BitFields.shiftRight_shiftLeft_or hvid]
      exact BitFields.shiftLeft_or_and hcfi
    have hvid' : (p.pcp <<< 13 ||| p.cfi <<< 12 ||| p.vid) &&& 0xfff = p.vid := by
      rw [hsplit']
      exact BitFields.shiftLeft_or_and hvid
    have hlen := Format.length_bytes hfits
    rw [Vlan.parser, Format.unpackFrom_bytes hfits trivial]
    simp only [Except.map, Vlan.values, hpcp', hcfi', hvid'] at hlen ⊢
    rw [List.drop_left' hlen]
  · have hbytes : Vlan.packStr.bytes p.values =
        toBytes 2 (p.pcp <<< 13 ||| p.cfi <<< 12 ||| p.vid) ++ (toBytes 2 p.ethertype ++ []) := rfl
    rw [hbytes, List.append_assoc, Layers.blank_append, List.append_assoc,
      Layers.blank_toBytes htype hne, Bool.and_false]

theorem enclosed_vlan {p : Vlan} (h : (Proto.vlan p : Proto Ω).Fits C prev data.length) :
    Enclosed C prev (.vlan p) data ∧ Enclosed C prev (.svlan p) data := by
  obtain ⟨hfits, hread, hblank⟩ := vlan_values h
  have hsize := Format.length_bytes hfits
  have hdata : data = data ++ zeros 0 := (List.append_nil data).symm
  have hlen : (Vlan.packStr.bytes p.values ++ data).length =
      Vlan.packStr.calcsize + data.length := by
    rw [List.length_append, hsize]
  constructor
  · refine ⟨_, _, .vlan p, data, rfl, ?_, rfl, hsize, ⟨0, hdata⟩, rfl, hlen, hblank data,
      fun k => ?_⟩
    · rw [serializeProto, Vlan.serialize, Format.pack_bytes hfits]
      rfl
    · rw [parserOf, List.append_assoc, hread]
      rfl
  · refine ⟨_, _, .svlan p, data, rfl, ?_, rfl, hsize, ⟨0, hdata⟩, rfl, hlen, hblank data,
      fun k => ?_⟩
    · rw [serializeProto, Vlan.serialize, Format.pack_bytes hfits]
      rfl
    · rw [parserOf, List.append_assoc, hread]
      rfl

theorem enclosed_arp {p : Arp} (h : (Proto.arp p : Proto Ω).Fits C prev data.length) :
    Enclosed C prev (.arp p) data := by
  obtain ⟨hhwtype, hne, hproto, hhlen, hplen, hopcode⟩ := h
  have hfits : Arp.packStr.Fits p.values :=
    ⟨hhwtype, hproto, hhlen, hplen, hopcode, p.srcMac.isLt, p.srcIp.isLt, p.dstMac.isLt,
      p.dstIp.isLt, trivial⟩
  have hlen := Format.length_bytes hfits
  refine ⟨_, Arp.packStr.bytes p.values, .arp p, data, rfl, ?_, rfl, hlen,
    ⟨0, (List.append_nil data).symm⟩, rfl, ?_, ?_, fun k => ?_⟩
  · rw [serializeProto, Arp.serialize, Format.pack_bytes hfits]
    rfl
  · rw [List.length_append, hlen]
    rfl
  · exact (congrArg blank (List.append_assoc ..)).trans (Layers.blank_toBytes hhwtype hne _)
  · rw [parserOf, Arp.parser, List.append_assoc, Format.unpackFrom_bytes hfits trivial]
    simp only [Except.map, Arp.values, BitVec.ofNat_toNat, BitVec.setWidth_eq] at hlen ⊢
    rw [List.drop_left' hlen]
    rfl

theorem enclosed_ipv4 {p : Ipv4} (h : (Proto.ipv4 p : Proto Ω).Fits C prev data.length) :
    Enclosed C prev (.ipv4 p) data := by
  obtain ⟨b, p', hwrite, hlen, hleft, htotal, hroom, ⟨r, hb⟩, hread⟩ := Ipv4.parser_serialize h
  have hsame : p'.len = p.len := by rw [hleft, Ipv4.len, Ipv4.len]
  have hproto : p'.proto = p.proto := by rw [hleft]
  have hbehind (k : ℕ) : min (p'.totalLength - p'.len - data.length) k =
      (Proto.ipv4 p : Proto Ω).behind data.length k := by
    rw [Proto.behind, htotal, hsame]
    split_ifs <;> omega
  refine ⟨_, b, .ipv4 p', data, rfl, ?_, ⟨hleft, htotal⟩, hlen.trans hsame.symm,
    ⟨0, (List.append_nil data).symm⟩, ?_, ?_, ?_, fun k => ?_⟩
  · rw [serializeProto, hwrite]
    rfl
  · have hmin := h.minLength
    have hne : p'.len ≠ 0 := by
      rw [hsame, Ipv4.len]
      omega
    exact decide_eq_true hne
  · rw [List.length_append, hlen]
    rfl
  · have hfirst : p.version <<< 4 ||| p.headerLength < 2 ^ (4 + 4) :=
      (BitFields.shiftLeft_or_lt_iff h.maxLength).2 h.version
    have hne : p.version <<< 4 ||| p.headerLength ≠ 0 := by
      have hmin := h.minLength
      rw [BitFields.shiftLeft_or h.maxLength]
      omega
    rw [hb, List.append_assoc]
    exact Layers.blank_toBytes hfirst hne _
  · rw [parserOf, List.append_assoc, hread, Layers.take_append_zeros (by omega), hbehind]
    simp only [Except.map, hproto]
    rfl

theorem enclosed_ipv6 {p : Ipv6} (h : (Proto.ipv6 p : Proto Ω).Fits C prev data.length) :
    Enclosed C prev (.ipv6 p) data := by
  obtain ⟨hreadable, hversion, hpayload⟩ := h
  have hsum (hzero : p.payloadLength = 0) :
      data.length + (p.written.map Ipv6.ExtHeader.len).sum < 2 ^ 16 := by
    rwa [if_pos hzero] at hpayload
  obtain ⟨b, p', hwrite, hlen, hleft, ⟨r, hb⟩, hcomputed, hgiven, hread⟩ :=
    Ipv6.parser_serialize hreadable data hsum
  have hext : p'.extHdrs = p.written := by rw [hleft]
  have hroom : data.length ≤ p'.payloadLength := by
    by_cases hzero : p.payloadLength = 0
    · have hsize := hcomputed hzero
      have hmin : Ipv6.packStr.calcsize ≤ p'.len := Nat.le_add_right _ _
      omega
    · rw [if_neg hzero] at hpayload
      rw [hgiven hzero]
      exact hpayload
  have hlength : p'.payloadLength = if p.payloadLength = 0 then
      data.length + (p.written.map Ipv6.ExtHeader.len).sum else p.payloadLength := by
    split_ifs with hzero
    · have hsize := hcomputed hzero
      rw [Ipv6.len, hext] at hsize
      omega
    · exact hgiven hzero
  have hbehind (k : ℕ) : min (p'.payloadLength - data.length) k =
      (Proto.ipv6 p : Proto Ω).behind data.length k := by
    rw [Proto.behind, hlength]
    split_ifs
    · rw [Nat.add_sub_cancel_left]
    · rfl
  refine ⟨_, b, .ipv6 p', data, rfl, ?_, ⟨hleft, hlength⟩, hlen,
    ⟨0, (List.append_nil data).symm⟩, ?_, ?_, ?_, fun k => ?_⟩
  · rw [serializeProto, hwrite]
    rfl
  · have hne : p'.len ≠ 0 :=
      Nat.ne_zero_of_lt (Nat.lt_of_lt_of_le (show 0 < Ipv6.packStr.calcsize by decide)
        (Nat.le_add_right _ _))
    exact decide_eq_true hne
  · rw [List.length_append, hlen, Ipv6.len, hext]
    rfl
  · have hne : p.vTcFlow ≠ 0 := by
      intro hzero
      have heq := (Ipv6.vTcFlow_eq hreadable).2.1
      rw [hzero, Nat.zero_shiftRight] at heq
      exact hversion heq.symm
    rw [hb, List.append_assoc]
    exact Layers.blank_toBytes (Ipv6.vTcFlow_eq hreadable).1 hne _
  · rw [parserOf, List.append_assoc, hread, Layers.take_append_zeros hroom, hbehind]
    rfl

/-- The fields of a header are read as they are, with as much behind it as they say. -/
theorem Udp.parser_bytes {p : Udp} (h : Udp.packStr.Fits p.values) (r : List UInt8) :
    Udp.parser (Udp.packStr.bytes p.values ++ r) =
      .ok (p, r.take (p.totalLength - Udp.packStr.calcsize)) := by
  have hlen := Format.length_bytes h
  rw [Udp.parser, Format.unpackFrom_bytes h trivial]
  simp only [Except.map, Udp.values] at hlen ⊢
  rw [List.drop_left' hlen]

theorem enclosed_udp {p : Udp} (h : (Proto.udp p : Proto Ω).Fits C prev data.length) :
    Enclosed C prev (.udp p) data := by
  obtain ⟨hsrc, hdst, hroom, htotal, hcsum, hip⟩ := h
  have hfits (csum : ℕ) (hlt : csum < 2 ^ 16) :
      Udp.packStr.Fits { p with totalLength := p.total data.length, csum }.values :=
    ⟨hsrc, hdst, htotal, hlt, trivial⟩
  -- Whatever the checksum is, the header is read back with it.
  have hread (csum : ℕ) (hlt : csum < 2 ^ 16) (hleft : p.csum ≠ 0 → csum = p.csum)
      (hwrite : p.serialize (ipHeader C.ipHeader prev) data =
        .ok (Udp.packStr.bytes { p with totalLength := p.total data.length, csum }.values,
          { p with totalLength := p.total data.length, csum })) :
      Enclosed C prev (.udp p) data := by
    have hpos : p.total data.length ≠ 0 := by
      have hsize : 0 < Udp.packStr.calcsize := by decide
      omega
    refine ⟨_, Udp.packStr.bytes { p with totalLength := p.total data.length, csum }.values,
      .udp { p with totalLength := p.total data.length, csum }, data, rfl, ?_, ⟨rfl, hleft⟩,
      Format.length_bytes (hfits csum hlt), ⟨0, (List.append_nil data).symm⟩, rfl, ?_, ?_,
      fun k => ?_⟩
    · rw [serializeProto, hwrite]
      rfl
    · rw [List.length_append, Format.length_bytes (hfits csum hlt)]
      rfl
    · have hbytes : Udp.packStr.bytes { p with totalLength := p.total data.length, csum }.values =
          toBytes 2 p.srcPort ++ (toBytes 2 p.dstPort ++ (toBytes 2 (p.total data.length) ++
            (toBytes 2 csum ++ []))) := rfl
      rw [hbytes, List.append_assoc, Layers.blank_append, List.append_assoc, Layers.blank_append,
        List.append_assoc, Layers.blank_toBytes htotal hpos, Bool.and_false, Bool.and_false]
    · have hbehind : min (p.total data.length - Udp.packStr.calcsize - data.length) k =
          (Proto.udp p : Proto Ω).behind data.length k := by
        rw [Proto.behind, Udp.total]
        split_ifs <;> omega
      rw [parserOf, List.append_assoc, Udp.parser_bytes (hfits csum hlt),
        Layers.take_append_zeros (by simp only; omega), hbehind]
      rfl
  by_cases hzero : p.csum = 0
  · obtain ⟨ipvx, hipvx, hadmits⟩ := hip hzero
    let b := Udp.packStr.bytes { p with totalLength := p.total data.length }.values
    have hok : (ipvx.checksumIp (p.total data.length) (b ++ data)).isOk :=
      IpHeader.isOk_checksumIp_iff.2 hadmits
    obtain ⟨csum, hsum⟩ := isOk_iff.1 hok
    have hlt := IpHeader.checksumIp_lt hsum
    refine hread csum hlt (fun hne => absurd hzero hne) ?_
    have hpack := Format.pack_bytes (hfits p.csum hcsum)
    rw [Udp.serialize, hpack]
    simp only
    rw [if_pos hzero, hipvx]
    simp only
    rw [hsum]
    simp only
    rw [Format.pack_bytes (hfits csum hlt)]
    rfl
  · refine hread p.csum hcsum (fun _ => rfl) ?_
    have hpack := Format.pack_bytes (hfits p.csum hcsum)
    rw [Udp.serialize, hpack]
    simp only
    rw [if_neg hzero]

theorem enclosed_lldp {p : Lldp} (h : (Proto.lldp p : Proto Ω).Fits C prev data.length) :
    Enclosed C prev (.lldp p) data := by
  have hfits : p.Fits := h
  obtain ⟨b, hwrite, hlen, hread⟩ := Lldp.parser_serialize hfits
  obtain ⟨hne, hblank⟩ := Lldp.blank_serialize hfits hwrite
  refine ⟨_, b, .lldp p, data, rfl, ?_, rfl, hlen, ⟨0, (List.append_nil data).symm⟩,
    decide_eq_true hne, ?_, hblank data, fun k => ?_⟩
  · rw [serializeProto, hwrite]
    rfl
  · rw [List.length_append, hlen]
    rfl
  · rw [parserOf, List.append_assoc, hread]
    rfl

theorem enclosed_of_fits {p : Proto Ω} (h : p.Fits C prev data.length) :
    Enclosed C prev p data := by
  cases p with
  | ethernet p => exact enclosed_ethernet h
  | vlan p => exact (enclosed_vlan h).1
  | svlan p => exact (enclosed_vlan h).2
  | arp p => exact enclosed_arp h
  | ipv4 p => exact enclosed_ipv4 h
  | ipv6 p => exact enclosed_ipv6 h
  | udp p => exact enclosed_udp h
  | lldp p => exact enclosed_lldp h
  | other p => exact h.elim

/-- How long a payload is behind some headers. -/
def enclosedAll (n : ℕ) : List (Proto Ω) → ℕ
  | [] => n
  | p :: l => p.enclosed (enclosedAll n l)

/-- How many zeros are read behind a payload, of `k` that are there. -/
def behindAll (n : ℕ) : List (Proto Ω) → ℕ → ℕ
  | [], k => k
  | p :: l, k => behindAll n l (p.behind (enclosedAll n l) k)

/-- What headers in front of a payload are left as. -/
def LeftAll (n : ℕ) : List (Proto Ω) → List (Proto Ω) → Prop
  | p :: l, p' :: l' => p.Left (enclosedAll n l) p' ∧ LeftAll n l l'
  | l, l' => l' = l

/-- Headers behind another that say each of which class the next one is, and the last one of which
class what is behind it is, with fields that fit in front of `n` octets. -/
def Chained (C : OtherClasses Ω) (n : ℕ) (last : Option PacketClass) :
    Option (LayerItem (Proto Ω)) → Option PacketClass → List (Proto Ω) → Prop
  | _, c, [] => c = last
  | prev, c, p :: l => c = p.cls ∧ p.Fits C prev (enclosedAll n l) ∧
    Chained C n last (some (.proto p)) (p.next C) l

/-- What is in front of what is behind some headers. -/
def lastItem (prev : Option (LayerItem (Proto Ω))) (l : List (Proto Ω)) :
    Option (LayerItem (Proto Ω)) :=
  match l.getLast? with
  | none => prev
  | some p => some (.proto p)

theorem lastItem_cons (p : Proto Ω) (l : List (Proto Ω)) :
    lastItem prev (p :: l) = lastItem (some (.proto p)) l := by
  rw [lastItem, lastItem, List.getLast?_cons]
  cases l.getLast? <;> rfl

/-- Headers that are chained are read off in front of what is read off behind them. -/
theorem reads_of_chained {c last : Option PacketClass} {ps : List (Proto Ω)}
    {tail tail' : List (LayerItem (Proto Ω))} (h : Chained C data.length last prev c ps)
    (htail : (packetLayers C).writeItems (lastItem prev ps) tail = .ok (data, tail')) :
    ∃ b ps', (packetLayers C).writeItems prev (ps.map .proto ++ tail) =
        .ok (b, ps'.map .proto ++ tail') ∧ LeftAll data.length ps ps' ∧
      ps'.length = ps.length ∧ b.length = enclosedAll data.length ps ∧
      (∃ j, b.drop (ps'.map (Proto.len C)).sum = data ++ zeros j) ∧ ∀ k qs d k',
        (packetLayers C).Reads last data (behindAll data.length ps k) qs d k' →
        (packetLayers C).Reads c b k (ps' ++ qs) d k' := by
  induction ps generalizing c prev with
  | nil =>
    obtain rfl : c = last := h
    exact ⟨data, [], htail, rfl, rfl, rfl, ⟨0, (List.append_nil data).symm⟩,
      fun _ _ _ _ hreads => hreads⟩
  | cons p ps ih =>
    obtain ⟨rfl, hfits, hrest⟩ := h
    rw [lastItem_cons] at htail
    obtain ⟨b, ps', hwrite, hleft, hcount, hlen, ⟨i, hdrop⟩, hreads⟩ := ih hrest htail
    rw [← hlen] at hfits
    have henclosed : Enclosed C prev p b := enclosed_of_fits hfits
    obtain ⟨c, a, p', b', hcls, hwrite', hleft', hsize, ⟨j, rfl⟩, htruth, hlen', hblank, hparse⟩ :=
      henclosed
    rw [hlen] at hleft' hlen' hparse
    refine ⟨a ++ (b ++ zeros j), p' :: ps', ?_, ⟨hleft', hleft⟩, congrArg Nat.succ hcount, hlen',
      ?_, ?_⟩
    · rw [List.map_cons, List.cons_append, Layers.writeItems, hwrite]
      change Except.map _ (serializeProto C prev p b) = _
      rw [hwrite']
      rfl
    · rw [List.map_cons, List.sum_cons, ← hsize, ← List.drop_drop, List.drop_left, List.drop_append,
        hdrop, Layers.drop_zeros, List.append_assoc, Layers.zeros_add]
      exact ⟨_, rfl⟩
    · intro k qs d k' hqs
      rw [hcls]
      exact (hreads _ qs d k' hqs).cons htruth hblank (hparse k)

/-- A packet whose headers are chained is parsed into the headers as they were left and its payload,
which is left out if it is nothing but zeros. -/
theorem parsePacket_serializePacket (C : OtherClasses Ω) (c : PacketClass) (ps : List (Proto Ω))
    (ds : List (List UInt8)) (h : Chained C ds.flatten.length none none (some c) ps) :
    ∃ data ps', LeftAll ds.flatten.length ps ps' ∧
      serializePacket C (ps.map .proto ++ ds.map .raw) = .ok (data, ps'.map .proto ++ ds.map .raw) ∧
      data.length = enclosedAll ds.flatten.length ps ∧
      ∀ k fuel, ps.length ≤ fuel → parsePacket C fuel c (data ++ zeros k) =
        some (.ok (ps'.map .proto ++ if blank ds.flatten then []
          else [.raw (ds.flatten ++ zeros (behindAll ds.flatten.length ps k))])) := by
  obtain ⟨data, ps', hwrite, hleft, hcount, hlen, -, hreads⟩ :=
    reads_of_chained h (Layers.writeItems_raw _ _ ds)
  refine ⟨data, ps', hleft, hwrite, hlen, fun k fuel hfuel => ?_⟩
  have hall := hreads k [] ds.flatten _ (Layers.reads_none _ _ _)
  rw [List.append_nil] at hall
  exact hall.parseItems (hcount.le.trans hfuel)

/-- There are no other classes. -/
def noOthers : OtherClasses Empty :=
  ⟨fun _ => none, fun name _ => .error (.keyError name), fun _ => nofun, nofun, nofun⟩

/-- A fragment in a tagged frame. -/
def tagged : List (Proto Empty) :=
  [.ethernet ⟨1, 2, 0x8100⟩, .vlan ⟨0, 0, 5, 0x86dd⟩,
    .ipv6 ⟨6, 0, 0, 0, 44, 64, 1, 2, [.fragment ⟨17, 0, 0, 7⟩]⟩, .udp ⟨1000, 2000, 0, 0⟩]

theorem parsePacket_serializePacket_tagged :
    ∃ data ps', LeftAll 3 tagged ps' ∧
      serializePacket noOthers (tagged.map .proto ++ [[1, 2, 3]].map .raw) =
        .ok (data, ps'.map .proto ++ [[1, 2, 3]].map .raw) ∧
      data.length = enclosedAll 3 tagged ∧
      ∀ k fuel, tagged.length ≤ fuel → parsePacket noOthers fuel .ethernet (data ++ zeros k) =
        some (.ok (ps'.map .proto ++ if blank [1, 2, 3] then []
          else [.raw ([1, 2, 3] ++ zeros (behindAll 3 tagged k))])) := by
  have hipv6 : (Proto.ipv6 ⟨6, 0, 0, 0, 44, 64, 1, 2, [.fragment ⟨17, 0, 0, 7⟩]⟩).Fits noOthers
      (some (.proto (.vlan ⟨0, 0, 5, 0x86dd⟩))) 11 := by
    refine ⟨⟨by decide, by decide, by decide, by decide, by decide, by decide, ?_,
      ⟨rfl, rfl, rfl⟩⟩, by decide, by decide⟩
    rintro _ (_ | ⟨_, ⟨⟩⟩)
    exact ⟨by decide, by decide, by decide, by decide⟩
  have hudp : (Proto.udp ⟨1000, 2000, 0, 0⟩).Fits noOthers
      (some (.proto (.ipv6 ⟨6, 0, 0, 0, 44, 64, 1, 2, [.fragment ⟨17, 0, 0, 7⟩]⟩))) 3 :=
    ⟨by decide, by decide, by decide, by decide, by decide, fun _ => ⟨_, rfl, by decide⟩⟩
  exact parsePacket_serializePacket noOthers .ethernet tagged [[1, 2, 3]] ⟨rfl,
    ⟨by decide, by decide⟩, rfl, ⟨by decide, by decide, by decide, by decide, by decide⟩, rfl,
    hipv6, rfl, hudp, rfl⟩

end Headers

end Ryu.Packet
