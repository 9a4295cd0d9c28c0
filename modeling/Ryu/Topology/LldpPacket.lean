import Ryu.Lib.Numeral
import Ryu.Packet.BmpTlv
import Ryu.Packet.Packet

/-! # The LLDP packets of link discovery

A packet tells the datapath and the port that it was sent from: the datapath in the chassis ID, as a
text of hexadecimal digits, and the port in the port ID. Ethernet pads the packet, and the padding
is behind the end of the LLDPDU.
-/

namespace Ryu.Topology

open Packet Packet.Lldp Bytes Numeral

open Packet.Bmp (encodeUtf8 decodeUtf8 decodeUtf8_eq_ok_iff)

/-- `dpid_to_str`. -/
def dpidToStr (dpid : ℕ) : Text := pad 16 (Nat.toDigits 16 dpid)

/-- `str_to_dpid`. -/
def strToDpid (s : Text) : Except PyError ℤ :=
  if s.length ≠ 16 then .error .assertionError
  else
    match int16? s with
    | none => .error (.valueError "invalid literal for int() with base 16")
    | some dpid => .ok dpid

namespace LLDPPacket

def chassisIdPrefix : Text := ['d', 'p', 'i', 'd', ':']

@[reducible] def portIdStr : Format := [.num 4]

def portIdSize : ℕ := 4

/-- `LLDP_MAC_NEAREST_BRIDGE`. -/
def nearestBridge : BitVec 48 := 0x0180c200000e

def subLocallyAssigned : ℕ := 7

def subPortComponent : ℕ := 2

/-- The TLVs of `lldp_packet`. -/
def tlvs (dpid portNo ttl : ℕ) : Except PyError (List Lldp.Tlv) := do
  let chassisId := encodeUtf8 (String.ofList (chassisIdPrefix ++ dpidToStr dpid))
  let tlvChassisId ← Lldp.Tlv.new (.chassisID subLocallyAssigned chassisId)
  let portId ← portIdStr.pack (portNo, ())
  let tlvPortId ← Lldp.Tlv.new (.portID subPortComponent portId)
  let tlvTtl ← Lldp.Tlv.new (.ttl ttl)
  let tlvEnd ← Lldp.Tlv.new .lldpduEnd
  .ok [tlvChassisId, tlvPortId, tlvTtl, tlvEnd]

section

variable {Ω : Type} (C : OtherClasses Ω)

def lldpPacket (dpid portNo : ℕ) (dlAddr : BitVec 48) (ttl : ℕ) : Except PyError (List UInt8) :=
  match tlvs dpid portNo ttl with
  | .error e => .error e
  | .ok tlvs =>
    (serializePacket C [.proto (.ethernet ⟨nearestBridge, dlAddr, 0x88cc⟩),
      .proto (.lldp ⟨tlvs⟩)]).map Prod.fst

/-- `LLDPUnknownFormat`. The handler of packet-ins catches it, and does not look at its message. -/
def unknownFormat : PyError := .other "LLDPUnknownFormat"

/-- The part of `lldp_parse` behind the headers. The parser of LLDP has checked which TLVs are
there. The message about a port ID of another length cannot be made. -/
def idsOf : List Lldp.Tlv → Except PyError (ℤ × ℕ)
  | ⟨_, _, .chassisID subtype chassisId⟩ :: ⟨_, _, .portID portSubtype portId⟩ :: _ =>
    if subtype ≠ subLocallyAssigned then .error unknownFormat
    else
      match decodeUtf8 chassisId with
      | .error e => .error e
      | .ok chassisId =>
        if ¬ chassisIdPrefix <+: chassisId.toList then .error unknownFormat
        else
          match strToDpid (chassisId.toList.drop chassisIdPrefix.length) with
          | .error e => .error e
          | .ok srcDpid =>
            if portSubtype ≠ subPortComponent then .error unknownFormat
            else if portId.length ≠ portIdSize then
              .error (.typeError "%d format: a number is required")
            else (portIdStr.unpackFrom portId).map fun (srcPortNo, ()) => (srcDpid, srcPortNo)
  | _ => .error (.attributeError "subtype")

/-- `lldp_parse`, if so many rounds of the loop over the headers are enough. -/
def lldpParse (fuel : ℕ) (data : List UInt8) : Option (Except PyError (ℤ × ℕ)) :=
  (parsePacket C fuel .ethernet data).map fun
    | .error e => .error e
    | .ok (.proto (.ethernet _) :: .proto (.lldp p) :: _) => idsOf p.tlvs
    | .ok (.proto (.ethernet _) :: _ :: _) => .error unknownFormat
    | .ok [.proto (.ethernet _)] | .ok [] => .error (.other "StopIteration")
    | .ok (_ :: _) => .error .assertionError

end

end LLDPPacket

/-! ## What is sent is understood -/

variable {dpid portNo ttl : ℕ}

theorem length_dpidToStr (h : dpid < 2 ^ 64) : (dpidToStr dpid).length = 16 := by
  have hlen : (Nat.toDigits 16 dpid).length ≤ 16 :=
    (Nat.length_toDigits_le_iff (b := 16) (by decide) (by decide)).mpr h
  rw [dpidToStr, pad, List.length_append, List.length_replicate]
  omega

theorem strToDpid_dpidToStr (h : dpid < 2 ^ 64) : strToDpid (dpidToStr dpid) = .ok dpid := by
  rw [strToDpid, if_neg (by rw [length_dpidToStr h]; decide), dpidToStr, int16?_pad]

/-- A character takes one to four octets. -/
theorem length_encodeUtf8 (s : Text) :
    s.length ≤ (encodeUtf8 (String.ofList s)).length ∧
      (encodeUtf8 (String.ofList s)).length ≤ 4 * s.length := by
  have hbytes : encodeUtf8 (String.ofList s) = s.flatMap String.utf8EncodeChar := by
    simp [encodeUtf8, List.utf8Encode]
  rw [hbytes]
  clear hbytes
  induction s with
  | nil => exact ⟨le_rfl, le_rfl⟩
  | cons c s ih =>
    have hpos := c.utf8Size_pos
    have hle := c.utf8Size_le_four
    rw [List.flatMap_cons, List.length_append, String.length_utf8EncodeChar, List.length_cons]
    omega

namespace LLDPPacket

variable {Ω : Type} {C : OtherClasses Ω}

/-- The chassis ID of a datapath. -/
def chassisIdOf (dpid : ℕ) : List UInt8 :=
  encodeUtf8 (String.ofList (chassisIdPrefix ++ dpidToStr dpid))

theorem length_chassisIdOf (h : dpid < 2 ^ 64) :
    0 < (chassisIdOf dpid).length ∧ (chassisIdOf dpid).length < 256 := by
  have htext : (chassisIdPrefix ++ dpidToStr dpid).length = 21 := by
    rw [List.length_append, length_dpidToStr h]
    rfl
  obtain ⟨hmin, hmax⟩ := length_encodeUtf8 (chassisIdPrefix ++ dpidToStr dpid)
  rw [htext] at hmin hmax
  rw [chassisIdOf]
  omega

/-- The constructors accept what `lldp_packet` gives them. -/
theorem exists_tlvs (hdpid : dpid < 2 ^ 64) (hport : portNo < 2 ^ 32) (httl : ttl < 2 ^ 16) :
    ∃ c p t e, tlvs dpid portNo ttl = .ok [c, p, t, e] ∧
      (c.body = .chassisID subLocallyAssigned (chassisIdOf dpid) ∧
        p.body = .portID subPortComponent (toBytes 4 portNo) ∧ t.body = .ttl ttl ∧
        e.body = .lldpduEnd) ∧ Lldp.Fits ⟨[c, p, t, e]⟩ := by
  obtain ⟨hmin, hmax⟩ := length_chassisIdOf hdpid
  obtain ⟨c, hc, hcbody, hcfits⟩ :=
    Lldp.Tlv.exists_new (.chassisID subLocallyAssigned (chassisIdOf dpid))
      (show subLocallyAssigned < 256 by decide) ⟨rfl, Nat.add_le_add_left hmin 1, by
        simp only [TlvBody.measured, TlvBody.size, TlvBody.lenMax]
        omega⟩
  obtain ⟨p, hp, hpbody, hpfits⟩ :=
    Lldp.Tlv.exists_new (.portID subPortComponent (toBytes 4 portNo))
      (show subPortComponent < 256 by decide) (by
        simp [TlvBody.measured, TlvBody.oidLenValid, TlvBody.size, TlvBody.lenMin, TlvBody.lenMax])
  obtain ⟨t, ht, htbody, htfits⟩ := Lldp.Tlv.exists_new (.ttl ttl) httl ⟨rfl, le_rfl, le_rfl⟩
  obtain ⟨e, he, hebody, hefits⟩ :=
    Lldp.Tlv.exists_new .lldpduEnd trivial ⟨rfl, le_rfl, by decide⟩
  have hpack : portIdStr.pack (portNo, ()) = .ok (toBytes 4 portNo) := by
    have hfits : portIdStr.Fits (portNo, ()) := ⟨hport, trivial⟩
    rw [Format.pack_bytes hfits, Format.bytes, Format.bytes, List.append_nil]
  refine ⟨c, p, t, e, ?_, ⟨hcbody, hpbody, htbody, hebody⟩, ?_, ?_, ?_⟩
  · rw [chassisIdOf] at hc
    simp only [tlvs, hc, hpack, hp, ht, he, bind, Except.bind]
  · simp only [List.forall_mem_cons]
    exact ⟨hcfits, hpfits, htfits, hefits, List.forall_mem_nil _⟩
  · simp [Lldp.tlvsValid, hcbody, hpbody, htbody, hebody, TlvBody.measured, TlvBody.tlvType]
  · simp [Lldp.Ended, hcbody, hpbody, htbody, hebody, TlvBody.measured, TlvBody.tlvType]

theorem idsOf_tlvs {c p : Lldp.Tlv} {l : List Lldp.Tlv} (hdpid : dpid < 2 ^ 64)
    (hport : portNo < 2 ^ 32) (hc : c.body = .chassisID subLocallyAssigned (chassisIdOf dpid))
    (hp : p.body = .portID subPortComponent (toBytes 4 portNo)) :
    idsOf (c :: p :: l) = .ok (dpid, portNo) := by
  obtain ⟨ctypelen, clen, _⟩ := c
  obtain ⟨ptypelen, plen, _⟩ := p
  obtain rfl := hc
  obtain rfl := hp
  have htext : decodeUtf8 (chassisIdOf dpid) =
      .ok (String.ofList (chassisIdPrefix ++ dpidToStr dpid)) := decodeUtf8_eq_ok_iff.2 rfl
  have hport' : portIdStr.unpackFrom (toBytes 4 portNo) = .ok (portNo, ()) := unpackFrom_word hport
  rw [idsOf, if_neg (by simp), htext]
  simp only [String.toList_ofList]
  rw [if_neg (by simp), List.drop_left, strToDpid_dpidToStr hdpid]
  simp only
  rw [if_neg (by simp), if_neg (by simp [portIdSize]), hport']
  rfl

/-- The datapath and the port that a packet was sent from are read back, whatever zeros are behind
it. -/
theorem lldpParse_lldpPacket (C : OtherClasses Ω) (dpid portNo : ℕ) (dlAddr : BitVec 48) (ttl : ℕ)
    (hdpid : dpid < 2 ^ 64) (hport : portNo < 2 ^ 32) (httl : ttl < 2 ^ 16) :
    ∃ data, lldpPacket C dpid portNo dlAddr ttl = .ok data ∧
      ∀ k fuel, 2 ≤ fuel → lldpParse C fuel (data ++ zeros k) = some (.ok (dpid, portNo)) := by
  obtain ⟨c, p, t, e, htlvs, ⟨hc, hp, -, -⟩, hfits⟩ := exists_tlvs hdpid hport httl
  let eth : Ethernet := ⟨nearestBridge, dlAddr, 0x88cc⟩
  have hchained : Chained C ([] : List UInt8).length none none (some .ethernet)
      [.ethernet eth, .lldp ⟨[c, p, t, e]⟩] :=
    ⟨rfl, ⟨show 0x88cc < 2 ^ 16 by decide, show 0x88cc ≠ 0 by decide⟩, rfl, hfits, rfl⟩
  obtain ⟨data, ps', hwrite, hleft, hcount, -, -, hreads⟩ :=
    reads_of_chained hchained (Layers.writeItems_raw _ _ [])
  obtain ⟨eth', lldp', rfl⟩ := List.length_eq_two.mp hcount
  obtain ⟨rfl, rfl, -⟩ : eth' = .ethernet eth ∧ lldp' = .lldp ⟨[c, p, t, e]⟩ ∧ _ := hleft
  refine ⟨data, ?_, fun k fuel hfuel => ?_⟩
  · have hdata : serializePacket C [.proto (.ethernet eth), .proto (.lldp ⟨[c, p, t, e]⟩)] =
        .ok (data, [.proto (.ethernet eth), .proto (.lldp ⟨[c, p, t, e]⟩)]) := hwrite
    rw [lldpPacket, htlvs]
    simp only
    rw [hdata]
    rfl
  · have hparse := (hreads k [] [] _ (Layers.reads_none _ _ _)).parseItems hfuel
    have hitems : parsePacket C fuel .ethernet (data ++ zeros k) =
        some (.ok [.proto (.ethernet eth), .proto (.lldp ⟨[c, p, t, e]⟩)]) := hparse
    rw [lldpParse, hitems]
    exact congrArg some (idsOf_tlvs hdpid hport hc hp)

theorem lldpParse_lldpPacket_port : ∃ data, lldpPacket noOthers 0x1f 3 1 120 = .ok data ∧
    ∀ k fuel, 2 ≤ fuel → lldpParse noOthers fuel (data ++ zeros k) = some (.ok (0x1f, 3)) :=
  lldpParse_lldpPacket noOthers 0x1f 3 1 120 (by decide) (by decide) (by decide)

end LLDPPacket

end Ryu.Topology
