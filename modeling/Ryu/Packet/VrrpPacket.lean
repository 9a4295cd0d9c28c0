import Ryu.Packet.InternetChecksum
import Ryu.Packet.Vrrp

/-! # Packets with an advertisement

`create_packet` puts an advertisement behind an Ethernet header and an IP header, with a tag between
them if there is one. The length that it gives IPv6 counts the IPv6 header too, and so leaves room
for what may be behind the advertisement.
-/

namespace Ryu.Packet

open Bytes

/-- What `vrrp` knows as a header of IP. -/
inductive Ipvx
  | ipv4 (p : Ipv4)
  | ipv6 (p : Ipv6)
  deriving DecidableEq, Repr

namespace Ipvx

def proto : Ipvx → Proto Vrrp
  | ipv4 p => .ipv4 p
  | ipv6 p => .ipv6 p

/-- `src`, as `ip_text_to_bin` gives it. -/
def src : Ipvx → IpAddress
  | ipv4 p => .v4 p.src
  | ipv6 p => .v6 p.src

/-- `is_valid_ttl`: the version is that of the header, the attribute that of the class. -/
def isValidTtl : Ipvx → Except PyError Bool
  | ipv4 p =>
    if p.version = 4 then .ok (p.ttl = 255)
    else if p.version = 6 then .error (.attributeError "hop_limit")
    else .error (.valueError s!"invalid ip version {p.version}")
  | ipv6 p =>
    if p.version = 4 then .error (.attributeError "ttl")
    else if p.version = 6 then .ok (p.hopLimit = 255)
    else .error (.valueError s!"invalid ip version {p.version}")

end Ipvx

/-- The headers below the one of IP, with a tag if there is one. -/
def linkLayer {Ω : Type} (e : Ethernet) : Option ℕ → List (Proto Ω)
  | none => [.ethernet e]
  | some vlanId => [.ethernet { e with ethertype := 0x8100 }, .vlan ⟨0, 0, vlanId, e.ethertype⟩]

namespace Vrrp

def ipv4DstMacAddress : BitVec 48 := 0x01005e000012

def ipv4SrcMacAddress (vrid : ℕ) : BitVec 48 := BitVec.ofNat 48 (0x00005e000100 + vrid)

def ipv4DstAddress : BitVec 32 := 0xe0000012

def ipv6DstMacAddress : BitVec 48 := 0x333300000012

def ipv6SrcMacAddress (vrid : ℕ) : BitVec 48 := BitVec.ofNat 48 (0x00005e000200 + vrid)

def ipv6DstAddress : BitVec 128 := 0xff020000000000000000000000000012

/-- `get_identification`, which is not zero. -/
def getIdentification (v : Vrrp) : ℕ :=
  let identification := (v.identification + 1) &&& 0xffff
  if identification = 0 then (identification + 1) &&& 0xffff else identification

/-- The headers of Ethernet and of IP, and the advertisement. An address of the other family is an
error once they are serialized. -/
def headers (v : Vrrp) : IpAddress → Except PyError (Ethernet × Ipvx × Vrrp)
  | .v6 primaryIpAddress =>
    if v.isIpv6 then
      .ok (⟨ipv6DstMacAddress, ipv6SrcMacAddress v.vrid, 0x86dd⟩,
        .ipv6 ⟨6, 0xc0, 0, Ipv6.packStr.calcsize + v.len, 112, 255, primaryIpAddress,
          ipv6DstAddress, []⟩, v)
    else .error (.other "AddrFormatError")
  | .v4 primaryIpAddress =>
    if v.isIpv6 then .error (.other "AddrFormatError")
    else
      .ok (⟨ipv4DstMacAddress, ipv4SrcMacAddress v.vrid, 0x0800⟩,
        .ipv4 ⟨4, 5, 0xc0, 0, v.getIdentification, 0, 0, 255, 112, 0, primaryIpAddress,
          ipv4DstAddress, none⟩, { v with identification := v.getIdentification })

/-- `create_packet`: the protocols of the packet. -/
def createPacket (v : Vrrp) (primaryIpAddress : IpAddress) (vlanId : Option ℕ) :
    Except PyError (List (Proto Vrrp)) :=
  (v.headers primaryIpAddress).map fun (e, ip, v) => linkLayer e vlanId ++ [ip.proto, .other v]

/-- The data of the packet once it is serialized, and the advertisement as that leaves it. -/
def transmit (v : Vrrp) (primaryIpAddress : IpAddress) (vlanId : Option ℕ) :
    Except PyError (List UInt8 × Vrrp) :=
  match v.createPacket primaryIpAddress vlanId with
  | .error e => .error e
  | .ok protocols =>
    (serializePacket vrrpClasses (protocols.map .proto)).map fun (data, protocols) =>
      match protocols.getLast? with
      | some (.proto (.other v)) => (data, v)
      | _ => (data, v)

end Vrrp

/-- `get_payload`: the first header of IP, if an advertisement is behind it. -/
def getPayload : List (LayerItem (Proto Vrrp)) → Option (Ipvx × Vrrp)
  | [] => none
  | .proto (.ipv4 p) :: rest => behindIp (.ipv4 p) rest
  | .proto (.ipv6 p) :: rest => behindIp (.ipv6 p) rest
  | _ :: rest => getPayload rest
where
  behindIp (ip : Ipvx) : List (LayerItem (Proto Vrrp)) → Option (Ipvx × Vrrp)
    | .proto (.other v) :: _ =>
      if truth vrrpClasses ip.proto ∧ truth vrrpClasses (.other v) then some (ip, v) else none
    | _ => none

/-! ## Checksums -/

namespace Vrrp

variable {v : Vrrp} {a : IpAddress} {n : ℕ}

/-- What a pseudo header takes from the headers in front of an advertisement. -/
def pseudo : IpAddress → IpHeader
  | .v4 a => .ipv4 (toBytes 4 a.toNat) (toBytes 4 ipv4DstAddress.toNat) 112
  | .v6 a => .ipv6 (toBytes 16 a.toNat) (toBytes 16 ipv6DstAddress.toNat) 112

/-- The checksum of an advertisement from an address: that of version 3 is also one of the
addresses. -/
def Sums (v : Vrrp) (a : IpAddress) (n : ℕ) : Prop :=
  if v.version = 2 then Packet.checksum (v.wire 0) = n
  else (pseudo a).checksumIp v.len (v.wire 0) = .ok n

theorem len_bounds (h : v.Fits) : 12 ≤ v.len ∧ v.len < 2 ^ 12 := by
  have hpos : 0 < v.countIp := h.count ▸ List.length_pos_iff.mpr h.nonempty
  have hlt := h.countLt
  rcases h.version with ⟨hv, -⟩ | ⟨hv, -⟩
  · rw [len, if_pos hv]
    simp [Format.calcsize]
    omega
  · rw [len, if_neg (by omega)]
    cases v.isIpv6 <;> simp [Format.calcsize, IpAddress.size] <;> omega

theorem exists_sums (h : v.Fits) (a : IpAddress) : ∃ n, v.Sums a n := by
  unfold Sums
  split_ifs
  · exact ⟨_, rfl⟩
  · have hlen := (len_bounds h).2
    have hadmits : (pseudo a).Admits v.len := by
      cases a
      · exact ⟨by decide, by omega⟩
      · exact ⟨by omega, by decide⟩
    exact isOk_iff.1 (IpHeader.isOk_checksumIp_iff.2 hadmits)

theorem Sums.lt (h : v.Sums a n) : n < 2 ^ 16 := by
  unfold Sums at h
  split_ifs at h
  · exact h ▸ checksum_lt _
  · exact IpHeader.checksumIp_lt h

/-- A checksum in its place behind an even number of octets. -/
theorem checksum_wire (h : v.Fits) {b : List UInt8} (hb : b.length % 2 = 0)
    (hlt : b.length < 2 ^ 12) :
    Packet.checksum (b ++ v.wire (Packet.checksum (b ++ v.wire 0))) = 0 := by
  have hlen := (len_bounds h).2
  have hsum : wordSum (b ++ v.front ++ (toBytes 2 0 ++ v.back)) < 2 ^ 32 := by
    refine (wordSum_lt ?_).trans (by decide)
    rw [List.append_assoc, List.length_append, ← wire, length_wire h]
    omega
  have heven : (b ++ v.front).length % 2 = 0 := by
    rw [List.length_append, length_front]
    omega
  have hfilled := (checksum_filled_iff heven).2 (folds_of_lt hsum)
  rwa [List.append_assoc, List.append_assoc] at hfilled

theorem serialize_of_sums (h : v.Fits) (hsum : v.Sums a n)
    (hkept : v.checksum = none ∨ v.checksum = some n) :
    v.serialize (some v.isIpv6) (.ok (pseudo a)) = .ok (v.wire n, v.sent n) := by
  have hget : v.checksum.getD n = n := by
    rcases hkept with hkept | hkept <;> rw [hkept] <;> rfl
  have hcsum : v.checksum.getD 0 < 2 ^ 16 := by
    rcases hkept with hkept | hkept <;> rw [hkept]
    · decide
    · exact hsum.lt
  rw [serialize]
  unfold Sums at hsum
  rcases h.version with ⟨hv, -⟩ | ⟨hv, -⟩
  · rw [if_pos hv] at hsum
    rw [if_pos hv, serializeV2_eq h hv hcsum, hsum, hget]
  · have hne : v.version ≠ 2 := by omega
    rw [if_neg hne] at hsum
    rw [if_neg hne, if_pos hv, serializeV3_eq h hv hcsum hsum, hget]

theorem checksumOk_wire (h : v.Fits) (hsum : v.Sums a n) :
    (v.received n).checksumOk (.ok (pseudo a)) (v.wire n) = .ok true := by
  have hversion : (v.received n).version = v.version := by
    rw [received, sent]
    split_ifs <;> rfl
  rw [checksumOk, hversion, len_received]
  unfold Sums at hsum
  split_ifs at hsum ⊢
  · obtain rfl := hsum
    have hzero := checksum_wire h (b := []) rfl (by decide)
    rw [List.nil_append, List.nil_append] at hzero
    rw [hzero]
    rfl
  · obtain ⟨hdr, hhdr, rfl⟩ := map_eq_ok.1 hsum
    have hsize : hdr.length % 2 = 0 ∧ hdr.length < 2 ^ 12 := by
      cases a <;> rw [Format.length_pack hhdr] <;> decide
    simp only [IpHeader.checksumIp, hhdr, Except.map, checksum_wire h hsize.1 hsize.2]
    rfl

end Vrrp

/-! ## Frames -/

/-- A header of IP as `create_packet` makes it, with an address of its family. -/
structure Ipvx.Carries (ip : Ipvx) (a : IpAddress) : Prop where
  src : ip.src = a
  ttl : ip.isValidTtl = .ok true
  network : networkLayer (some (.proto ip.proto)) = some a.isIpv6
  pseudo : ipHeader vrrpClasses.ipHeader (some (.proto ip.proto)) = .ok (Vrrp.pseudo a)
  truth : truth vrrpClasses ip.proto = true

namespace Vrrp

variable {v : Vrrp} {a : IpAddress} {n : ℕ} {e : Ethernet} {ip : Ipvx} {vlanId : Option ℕ}

/-- What `create_packet` puts in front of an advertisement with fields that fit: headers of which
each tells what the next one is, without a zero that would be read behind the advertisement. -/
structure Heads (v : Vrrp) (a : IpAddress) (e : Ethernet) (ip : Ipvx) : Prop where
  carries : ip.Carries a
  left : ∀ p, ip.proto.Left v.len p → ∃ ip' : Ipvx, p = ip'.proto ∧ ip'.Carries a
  ethertype : e.ethertype < 2 ^ 16 ∧ e.ethertype ≠ 0
  type : getEtherType vrrpClasses e.ethertype = ip.proto.cls
  fits : ∀ prev, ip.proto.Fits vrrpClasses prev v.len
  next : ip.proto.next vrrpClasses = some (.other "vrrp")
  exact : ∀ k, k ≤ Ethernet.minPayloadLen - ip.proto.enclosed v.len → ip.proto.behind v.len k = 0

theorem getIdentification_lt (v : Vrrp) : v.getIdentification < 2 ^ 16 := by
  have hmask (n : ℕ) : n &&& 0xffff < 2 ^ 16 := Nat.lt_of_le_of_lt Nat.and_le_right (by decide)
  rw [getIdentification]
  split_ifs <;> exact hmask _

theorem headers_heads (h : v.Fits) (ha : a.isIpv6 = v.isIpv6) :
    ∃ e ip i, v.headers a = .ok (e, ip, { v with identification := i }) ∧ v.Heads a e ip := by
  obtain ⟨hmin, hmax⟩ := len_bounds h
  cases a with
  | v4 a =>
    have hipv6 : v.isIpv6 = false := ha.symm
    refine ⟨_, _, v.getIdentification, if_neg (by rw [hipv6]; decide), ?_⟩
    refine ⟨⟨rfl, rfl, rfl, rfl, rfl⟩, ?_, by simp, rfl, fun prev => ?_, rfl, fun _ _ => rfl⟩
    · intro p hleft
      cases p with
      | ipv4 p =>
        obtain ⟨hp, -⟩ := hleft
        rw [hp]
        exact ⟨.ipv4 _, rfl, rfl, rfl, rfl, rfl, rfl⟩
      | _ => cases hleft
    · have hid := v.getIdentification_lt
      have htotal : 5 * 4 + v.len < 2 ^ 16 := by omega
      exact ⟨by simp, by simp, by simp, by simp, hid, by simp, by simp, by simp, by simp, htotal,
        rfl⟩
  | v6 a =>
    have hipv6 : v.isIpv6 = true := ha.symm
    refine ⟨_, _, v.identification, if_pos hipv6, ?_⟩
    refine ⟨⟨rfl, rfl, rfl, rfl, rfl⟩, ?_, by simp, rfl, fun prev => ?_, rfl, fun k hk => ?_⟩
    · intro p hleft
      cases p with
      | ipv6 p =>
        obtain ⟨hp, -⟩ := hleft
        rw [hp]
        exact ⟨.ipv6 _, rfl, rfl, rfl, rfl, rfl, rfl⟩
      | _ => cases hleft
    · have hpayload : Ipv6.packStr.calcsize + v.len < 2 ^ 16 := by
        simp [Format.calcsize]
        omega
      refine ⟨⟨by simp, by simp, by simp, hpayload, by simp, by simp, nofun, rfl, rfl⟩, by simp, ?_⟩
      rw [if_neg (by simp [Format.calcsize])]
      exact Nat.le_add_left ..
    -- The packet is long enough not to be padded.
    · have hlong : Ethernet.minPayloadLen - (Ipv6.packStr.calcsize + 0 + v.len) = 0 := by
        simp [Format.calcsize, Ethernet.minPayloadLen]
        omega
      obtain rfl := Nat.eq_zero_of_le_zero (hlong ▸ hk : k ≤ 0)
      rw [Ipvx.proto, Proto.behind]
      split_ifs <;> exact Nat.min_zero _

theorem Heads.chained (h : v.Heads a e ip) (hvlan : ∀ vid ∈ vlanId, vid < 2 ^ 12) :
    Chained vrrpClasses v.len (some (.other "vrrp")) none (some .ethernet)
      (linkLayer e vlanId ++ [ip.proto]) := by
  cases vlanId with
  | none => exact ⟨rfl, h.ethertype, h.type, h.fits _, h.next⟩
  | some vlanId =>
    have hvid : vlanId < 2 ^ 12 := hvlan vlanId rfl
    exact ⟨rfl, ⟨by simp, by simp⟩, rfl, ⟨by simp, by simp, hvid, h.ethertype⟩, h.type, h.fits _,
      h.next⟩

theorem Heads.behindAll_eq (h : v.Heads a e ip) (vlanId : Option ℕ) :
    behindAll v.len (linkLayer e vlanId ++ [ip.proto]) 0 = 0 := by
  cases vlanId with
  | none => exact h.exact _ (Nat.le_refl _)
  | some vlanId => exact h.exact _ (Nat.sub_le_sub_left (Nat.le_add_left ..) _)

theorem Heads.leftAll (h : v.Heads a e ip) {ps : List (Proto Vrrp)}
    (hcount : ps.length = (linkLayer e vlanId ++ [ip.proto]).length)
    (hleft : LeftAll v.len (linkLayer e vlanId ++ [ip.proto]) ps) :
    ∃ ip' : Ipvx, ip'.Carries a ∧ ps = linkLayer e vlanId ++ [ip'.proto] := by
  cases vlanId with
  | none =>
    obtain ⟨e', p, rfl⟩ := List.length_eq_two.mp hcount
    obtain ⟨rfl, hp, -⟩ : e' = .ethernet e ∧ ip.proto.Left v.len p ∧ _ := hleft
    obtain ⟨ip', rfl, hip⟩ := h.left p hp
    exact ⟨ip', hip, rfl⟩
  | some vlanId =>
    obtain ⟨e', tag, p, rfl⟩ := List.length_eq_three.mp hcount
    obtain ⟨rfl, rfl, hp, -⟩ : e' = .ethernet { e with ethertype := 0x8100 } ∧
      tag = .vlan ⟨0, 0, vlanId, e.ethertype⟩ ∧ ip.proto.Left v.len p ∧ _ := hleft
    obtain ⟨ip', rfl, hip⟩ := h.left p hp
    exact ⟨ip', hip, rfl⟩

end Vrrp

/-- A frame is parsed into headers and an advertisement behind them, which is at the octets that the
lengths of the headers tell. -/
structure Framed (e : Ethernet) (ip : Ipvx) (v : Vrrp) (n : ℕ) (vlanId : Option ℕ)
    (frame : List UInt8) : Prop where
  parsed : ∀ fuel, 4 ≤ fuel → parsePacket vrrpClasses fuel .ethernet frame =
    some (.ok ((linkLayer e vlanId ++ [ip.proto, .other (v.received n)]).map .proto))
  octets : (frame.drop ((linkLayer e vlanId ++ [ip.proto]).map (Proto.len vrrpClasses)).sum).take
    v.len = v.wire n

namespace Vrrp

variable {v : Vrrp} {a : IpAddress} {n : ℕ} {vlanId : Option ℕ}

/-- An advertisement is written behind a header of IP, and read back. -/
theorem Heads.writeItems {e : Ethernet} {ip : Ipvx} (h : v.Heads a e ip) (hv : v.Fits)
    (ha : a.isIpv6 = v.isIpv6) (hsum : v.Sums a n)
    (hkept : v.checksum = none ∨ v.checksum = some n) (vlanId : Option ℕ) :
    (packetLayers vrrpClasses).writeItems (lastItem none (linkLayer e vlanId ++ [ip.proto]))
      [.proto (.other v)] = .ok (v.wire n, [.proto (.other (v.sent n))]) := by
  have hlast : lastItem none (linkLayer e vlanId ++ [ip.proto]) = some (.proto ip.proto) := by
    cases vlanId <;> rfl
  have hserialize := serialize_of_sums hv hsum hkept
  rw [← ha, ← h.carries.network, ← h.carries.pseudo, ← hlast] at hserialize
  have hwrite : serializeProto vrrpClasses (lastItem none (linkLayer e vlanId ++ [ip.proto]))
      (.other v) [] = .ok (v.wire n, .other (v.sent n), []) := by
    change Except.map _ (Except.map _
      (v.serialize (networkLayer _) (ipHeader vrrpClasses.ipHeader _))) = _
    rw [hserialize]
    rfl
  rw [Layers.writeItems, Layers.writeItems]
  change Except.map _ (serializeProto vrrpClasses _ (.other v) []) = _
  rw [hwrite]
  simp [Except.map]

theorem reads_wire (hv : v.Fits) (hsum : v.Sums a n) :
    (packetLayers vrrpClasses).Reads (some (.other "vrrp")) (v.wire n) 0
      [.other (v.received n)] [] 0 := by
  have hlen := len_bounds hv
  refine (Layers.reads_none _ [] 0).cons ?_ ?_ ?_
  · have hne : (v.received n).len ≠ 0 := by
      rw [len_received]
      omega
    exact decide_eq_true hne
  · obtain ⟨hlt, hversion, -⟩ := versionType hv
    have hne : v.version <<< 4 ||| v.type ≠ 0 := by
      intro hzero
      rw [hzero, Nat.zero_shiftRight] at hversion
      rcases hv.version with ⟨hv, -⟩ | ⟨hv, -⟩ <;> omega
    rw [wire, front]
    simp only [List.append_assoc]
    exact Layers.blank_toBytes hlt hne _
  · have hparse : vrrpClasses.parser "vrrp" (v.wire n) = .ok (some (v.received n), none, []) := by
      change Except.map _ (parser (v.wire n)) = _
      rw [parser_wire hv hsum.lt]
      rfl
    have hzeros : v.wire n ++ zeros 0 = v.wire n := List.append_nil _
    change Except.map _ (vrrpClasses.parser "vrrp" (v.wire n ++ zeros 0)) = _
    rw [hzeros, hparse]
    rfl

/-- A packet with an advertisement is parsed as it was created. -/
theorem transmit_framed (h : v.Fits) (ha : a.isIpv6 = v.isIpv6)
    (hvlan : ∀ vid ∈ vlanId, vid < 2 ^ 12) (hsum : v.Sums a n)
    (hkept : v.checksum = none ∨ v.checksum = some n) :
    ∃ frame e ip i, v.transmit a vlanId = .ok (frame, { v.sent n with identification := i }) ∧
      ip.Carries a ∧ Framed e ip v n vlanId frame := by
  obtain ⟨e, ip, i, hheaders, hheads⟩ := headers_heads h ha
  -- The identification is in no octet of the advertisement.
  let v' := { v with identification := i }
  have hv' : v'.Fits := ⟨h.version, h.type, h.vrid, h.priority, h.count, h.countLt, h.nonempty,
    h.family⟩
  have hsent : v'.sent n = { v.sent n with identification := i } := by
    rw [sent, sent]
    split_ifs <;> rfl
  have hheads' : v'.Heads a e ip := ⟨hheads.carries, hheads.left, hheads.ethertype, hheads.type,
    hheads.fits, hheads.next, hheads.exact⟩
  have hlen := length_wire h n
  have hchained := hheads.chained hvlan
  rw [← hlen] at hchained
  obtain ⟨frame, ps, hframe, hleft, hcount, -, ⟨j, hdrop⟩, hreads⟩ :=
    reads_of_chained hchained (hheads'.writeItems hv' ha hsum hkept vlanId)
  rw [hlen] at hleft hreads
  obtain ⟨ip', hcarries, rfl⟩ := hheads.leftAll hcount hleft
  refine ⟨frame, e, ip', i, ?_, hcarries, fun fuel hfuel => ?_, ?_⟩
  · have hprotocols : v.createPacket a vlanId =
        .ok (linkLayer e vlanId ++ [ip.proto, .other v']) := by
      rw [createPacket, hheaders]
      rfl
    have hserialize : serializePacket vrrpClasses
        ((linkLayer e vlanId ++ [ip.proto, .other v']).map .proto) =
        .ok (frame, (linkLayer e vlanId ++ [ip'.proto]).map .proto ++
          [.proto (.other (v'.sent n))]) := by
      rw [serializePacket, ← hframe, List.map_append, List.map_append, List.append_assoc]
      rfl
    rw [transmit, hprotocols]
    simp only
    rw [hserialize]
    simp only [Except.map, List.getLast?_concat]
    rw [hsent]
  · have hall := hreads 0 _ _ _ ((hheads.behindAll_eq vlanId).symm ▸ reads_wire h hsum)
    have hcount : (linkLayer e vlanId ++ [ip'.proto] ++ [Proto.other (v.received n)]).length ≤
        fuel := by
      cases vlanId
      · exact Nat.le_trans (by decide : 3 ≤ 4) hfuel
      · exact hfuel
    have hparse := hall.parseItems hcount
    have hzeros : frame ++ zeros 0 = frame := List.append_nil _
    rw [hzeros, List.append_assoc] at hparse
    rw [parsePacket, hparse]
    exact congrArg (fun l => some (Except.ok l)) (List.append_nil _)
  · rw [hdrop, List.take_left' hlen]

end Vrrp

end Ryu.Packet
