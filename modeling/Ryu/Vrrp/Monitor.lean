import Ryu.Packet.VrrpPacket
import Ryu.Vrrp.Router

/-! # Advertisements on the wire

A router keeps the advertisement that it created until its configuration changes, and puts it into a
packet each time it is sent. The advertisement of a release is created anew. The monitor of another
router takes a packet apart again, and passes it on if nothing is wrong with it.
-/

namespace Ryu.Vrrp

open Packet (IpAddress Ipvx Proto vrrpClasses)

/-- `config.version` as a number. -/
def Version.number : Version → ℕ
  | .v2 => 2
  | .v3 => 3

/-- `ip_text_to_bin`. -/
def address (a : IpAddress) : Address := a.bytes.map UInt8.toFin

/-- What the router reads of an advertisement. -/
def advertisement (v : Packet.Vrrp) : Advertisement where
  version := if v.version = 2 then .v2 else .v3
  vrid := v.vrid
  priority := v.priority
  maxAdverInt := v.maxAdverInt
  ipAddresses := v.ipAddresses.map address

/-! ## The monitor -/

/-- What `VRRPInterfaceMonitor` reads of its interface and its configuration. -/
structure Monitor where
  vlanId : Option ℕ
  version : Version
  vrid : ℕ
  isIpv6 : Bool
  deriving DecidableEq, Repr

/-- The statistics of what is received, and what is sent to the router. -/
structure Heard where
  rxVrrpPackets : ℕ
  rxVrrpZeroPrioPackets : ℕ
  rxVrrpInvalidPackets : ℕ
  received : List Received
  deriving DecidableEq, Repr

namespace Monitor

/-- The second protocol is a tag if and only if there is one to be, and it is the right one. -/
def onVlan : Option ℕ → LayerItem (Proto Packet.Vrrp) → Bool
  | none, .proto (.vlan _) => false
  | none, _ => true
  | some vlanVid, .proto (.vlan p) => vlanVid = p.vid
  | some _, _ => false

/-- How far into a packet an advertisement is. No other header is equal to it. -/
def offset (mayVrrp : Packet.Vrrp) (protocols : List (LayerItem (Proto Packet.Vrrp))) : ℕ :=
  ((protocols.takeWhile (· ≠ .proto (.other mayVrrp))).map fun
    | .proto p => p.len vrrpClasses
    | .raw b => b.length).sum

variable (m : Monitor)

/-- `_parse_received_packet`: the IP header and the advertisement of a packet that is passed on. -/
def parseReceivedPacket (data : List UInt8) (protocols : List (LayerItem (Proto Packet.Vrrp))) :
    Except PyError (Option (Ipvx × Packet.Vrrp)) :=
  match protocols[1]? with
  | none => .ok none
  | some mayVlan =>
    if ¬ onVlan m.vlanId mayVlan then .ok none
    else
      match Packet.getPayload protocols with
      | none => .ok none
      | some (mayIp, mayVrrp) =>
        match mayIp.isValidTtl with
        | .error e => .error e
        | .ok false => .ok none
        | .ok true =>
          if mayVrrp.version ≠ m.version.number ∨ ¬ mayVrrp.isValid then .ok none
          else
            let buf := (data.drop (offset mayVrrp protocols)).take mayVrrp.len
            (mayVrrp.checksumOk (Packet.ipHeader vrrpClasses.ipHeader (some (.proto mayIp.proto)))
              buf).map fun (ok : Bool) =>
                if ok ∧ mayVrrp.vrid = m.vrid ∧ mayVrrp.isIpv6 = m.isIpv6 then
                  some (mayIp, mayVrrp)
                else none

/-- `_send_vrrp_packet_received`, if so many rounds of the parser's loop are enough. -/
def receive (fuel : ℕ) (s : Heard) (data : List UInt8) : Option (Except PyError Heard) :=
  (Packet.parsePacket vrrpClasses fuel .ethernet data).map fun
    | .error e => .error e
    | .ok protocols => (m.parseReceivedPacket data protocols).map fun
      | none => { s with rxVrrpInvalidPackets := s.rxVrrpInvalidPackets + 1 }
      | some (ip, v) =>
        { s with
          rxVrrpPackets := s.rxVrrpPackets + 1
          rxVrrpZeroPrioPackets := s.rxVrrpZeroPrioPackets + if v.priority = 0 then 1 else 0
          received := s.received ++ [⟨address ip.src, advertisement v⟩] }

/-- Some frames, one after another. -/
def receiveAll (fuel : ℕ) : Heard → List (List UInt8) → Option (Except PyError Heard)
  | s, [] => some (.ok s)
  | s, data :: frames =>
    match m.receive fuel s data with
    | some (.ok s) => receiveAll fuel s frames
    | r => r

end Monitor

/-! ## The router -/

/-- What `send_advertisement` reads and changes of a router, its interface and its statistics, with
the frames that are transmitted. -/
structure Transmitter where
  config : VRRPConfig
  /-- The texts of `config.ip_addresses`. -/
  ipAddresses : List IpAddress
  primaryIpAddress : IpAddress
  vlanId : Option ℕ
  vrrp : Option Packet.Vrrp
  txVrrpPackets : ℕ
  txVrrpZeroPrioPackets : ℕ
  frames : List (List UInt8)
  deriving DecidableEq, Repr

/-- `create` of both versions. -/
def create (version type vrid priority maxAdverInt : ℕ) (ipAddresses : List IpAddress) :
    Except PyError Packet.Vrrp :=
  if version = 2 then
    Packet.Vrrp.createVersion 2 type vrid (some priority) (some maxAdverInt) ipAddresses (some 0)
      (some (0, 0))
  else
    Packet.Vrrp.createVersion 3 type vrid (some priority) (some maxAdverInt) ipAddresses none none

namespace Transmitter

variable (t : Transmitter)

/-- The advertisement that is kept, or a new one. A negative interval is an error once it is
packed. -/
def current : Except PyError Packet.Vrrp :=
  match t.vrrp with
  | some v => .ok v
  | none =>
    let maxAdverInt := secToMaxAdverInt t.config.version t.config.advertisementInterval
    if maxAdverInt < 0 then .error structError
    else Packet.Vrrp.createVersion t.config.version.number 1 t.config.vrid (some t.config.priority)
      (some maxAdverInt.toNat) t.ipAddresses none none

/-- `send_advertisement`. -/
def sendAdvertisement (release : Bool) : Except PyError Transmitter :=
  match t.current with
  | .error e => .error e
  | .ok vrrp =>
    let txVrrpZeroPrioPackets := t.txVrrpZeroPrioPackets + if vrrp.priority = 0 then 1 else 0
    let send (v : Packet.Vrrp) := v.transmit t.primaryIpAddress t.vlanId
    if release then
      match create vrrp.version vrrp.type vrrp.vrid priorityReleaseResponsibility
        vrrp.maxAdverInt vrrp.ipAddresses with
      | .error e => .error e
      | .ok v => (send v).map fun x =>
        { t with
          vrrp := some vrrp
          txVrrpPackets := t.txVrrpPackets + 1
          txVrrpZeroPrioPackets
          frames := t.frames ++ [x.1] }
    else (send vrrp).map fun x =>
      { t with
        vrrp := some x.2
        txVrrpPackets := t.txVrrpPackets + 1
        txVrrpZeroPrioPackets
        frames := t.frames ++ [x.1] }

end Transmitter

/-- What a router does about its advertisement. -/
inductive Call where
  /-- `send_advertisement(release)`. -/
  | advertise (release : Bool)
  /-- `vrrp_config_change_request_handler`, before the state handles the change. -/
  | change (c : ConfigChange)
  deriving DecidableEq, Repr

def Transmitter.call (t : Transmitter) : Call → Except PyError Transmitter
  | .advertise release => t.sendAdvertisement release
  | .change c => .ok { t with config := t.config.change c, vrrp := none }

def Transmitter.run : Transmitter → List Call → Except PyError Transmitter
  | t, [] => .ok t
  | t, c :: calls =>
    match t.call c with
    | .error e => .error e
    | .ok t => t.run calls

/-- The same calls of a router that knows nothing of packets. -/
def Router.call (r : Router) : Call → Router
  | .advertise release => r.sendAdvertisement release
  | .change c => { r with config := r.config.change c, vrrp := none }

/-! ## What is transmitted is received -/

/-- An advertisement that a router sends from an address: its fields fit, and a checksum that is
kept with it is right. -/
structure Announces (v : Packet.Vrrp) (primaryIpAddress : IpAddress) (a : Advertisement) :
    Prop where
  fits : v.Fits
  type : v.type = 1
  vrid : 1 ≤ v.vrid
  maxAdverInt : 1 ≤ v.maxAdverInt
  authType : v.authType.getD 0 = 0
  family : primaryIpAddress.isIpv6 = v.isIpv6
  advertisement : advertisement v = a
  kept : v.checksum = none ∨ ∃ n, v.checksum = some n ∧ v.Sums primaryIpAddress n

/-- The monitor of another router of the virtual router. -/
structure Monitor.Watches (m : Monitor) (v : Packet.Vrrp) (vlanId : Option ℕ) : Prop where
  vlanId : m.vlanId = vlanId
  version : m.version.number = v.version
  vrid : m.vrid = v.vrid
  isIpv6 : m.isIpv6 = v.isIpv6

/-- The statistics of a monitor that has passed on all it received. -/
def heard (received : List Received) : Heard where
  rxVrrpPackets := received.length
  rxVrrpZeroPrioPackets := (received.filter (·.vrrp.priority = 0)).length
  rxVrrpInvalidPackets := 0
  received := received

section

variable {v : Packet.Vrrp} {primaryIpAddress : IpAddress} {a : Advertisement} {m : Monitor} {n : ℕ}
  {vlanId : Option ℕ} {frame : List UInt8} {e : Packet.Ethernet} {ip : Ipvx}

theorem isValid_received (h : Announces v primaryIpAddress a) (n : ℕ) :
    (v.received n).isValid = true := by
  have hvrid := Nat.le_of_lt_succ h.fits.vrid
  have hpriority := Nat.le_of_lt_succ h.fits.priority
  obtain ⟨hv, -, hadver, -⟩ | ⟨hv, hadver, hauth, hdata⟩ := h.fits.version
  · have hauth : some (v.authType.getD 0) = some 0 ∧ v.maxAdverInt ≤ 0xff :=
      ⟨congrArg some h.authType, Nat.le_of_lt_succ hadver⟩
    rw [Packet.Vrrp.received_v2 hv, Packet.Vrrp.isValid]
    exact decide_eq_true ⟨h.type, h.vrid, hvrid, hpriority, h.maxAdverInt, h.fits.count,
      by rwa [if_pos hv]⟩
  · rw [Packet.Vrrp.received_v3 hv hauth hdata, Packet.Vrrp.isValid]
    exact decide_eq_true ⟨h.type, h.vrid, hvrid, hpriority, h.maxAdverInt, h.fits.count,
      by rw [if_neg (by simp [hv])]; exact ⟨hv, Nat.le_of_lt_succ hadver⟩⟩

theorem advertisement_received (v : Packet.Vrrp) (n : ℕ) :
    advertisement (v.received n) = advertisement v := by
  rw [Packet.Vrrp.received, Packet.Vrrp.sent]
  split_ifs <;> rfl

theorem getPayload_frame (hip : Packet.truth vrrpClasses ip.proto = true)
    (hv : Packet.truth vrrpClasses (.other v) = true) :
    Packet.getPayload ((Packet.linkLayer e vlanId ++ [ip.proto, .other v]).map .proto) =
      some (ip, v) := by
  have hbehind : Packet.getPayload.behindIp ip [.proto (.other v)] = some (ip, v) :=
    if_pos ⟨hip, hv⟩
  cases vlanId <;> cases ip <;> exact hbehind

theorem offset_frame (e : Packet.Ethernet) (ip : Ipvx) (v : Packet.Vrrp) (vlanId : Option ℕ) :
    Monitor.offset v ((Packet.linkLayer e vlanId ++ [ip.proto, .other v]).map .proto) =
      ((Packet.linkLayer e vlanId ++ [ip.proto]).map (Proto.len vrrpClasses)).sum := by
  cases vlanId <;> cases ip <;> simp [Monitor.offset, Packet.linkLayer, Ipvx.proto]

theorem onVlan_frame (e : Packet.Ethernet) (ip : Ipvx) (v : Packet.Vrrp) (vlanId : Option ℕ) :
    ∃ p, ((Packet.linkLayer e vlanId ++ [ip.proto, .other v]).map LayerItem.proto)[1]? = some p ∧
      Monitor.onVlan vlanId p = true := by
  cases vlanId with
  | none =>
    refine ⟨_, rfl, ?_⟩
    cases ip <;> rfl
  | some vlanId => exact ⟨_, rfl, decide_eq_true rfl⟩

theorem received_eq (v : Packet.Vrrp) (n : ℕ) : (v.received n).version = v.version ∧
    (v.received n).vrid = v.vrid ∧ (v.received n).isIpv6 = v.isIpv6 ∧
    (v.received n).priority = v.priority := by
  rw [Packet.Vrrp.received, Packet.Vrrp.sent]
  split_ifs <;> exact ⟨rfl, rfl, rfl, rfl⟩

/-- The monitor finds nothing wrong with the packet. -/
theorem parseReceivedPacket_frame (h : Announces v primaryIpAddress a) (hm : m.Watches v vlanId)
    (hsum : v.Sums primaryIpAddress n) (hip : ip.Carries primaryIpAddress)
    (hframe : Packet.Framed e ip v n vlanId frame) :
    m.parseReceivedPacket frame
      ((Packet.linkLayer e vlanId ++ [ip.proto, .other (v.received n)]).map .proto) =
      .ok (some (ip, v.received n)) := by
  obtain ⟨p, hsecond, hvlan⟩ := onVlan_frame e ip (v.received n) vlanId
  obtain ⟨hversion, hvrid, hipv6, -⟩ := received_eq v n
  have hlen := Packet.Vrrp.len_received v n
  have htruth : Packet.truth vrrpClasses (.other (v.received n)) = true := by
    have hpos := (Packet.Vrrp.len_bounds h.fits).1
    refine decide_eq_true (show (v.received n).len ≠ 0 from ?_)
    omega
  have hok := Packet.Vrrp.checksumOk_wire h.fits hsum
  rw [← hframe.octets, ← hlen] at hok
  rw [Monitor.parseReceivedPacket, hsecond, hm.vlanId]
  simp only
  rw [if_neg (not_not.mpr hvlan), getPayload_frame hip.truth htruth]
  simp only
  rw [hip.ttl]
  simp only
  rw [if_neg (by simp [hversion, hm.version, isValid_received h]), offset_frame, hip.pseudo, hok]
  simp only [Except.map, hvrid, hipv6, hm.vrid, hm.isIpv6]
  simp

/-- The checksum that is kept is right for what is sent next. -/
theorem announces_sent (h : Announces v primaryIpAddress a) (hsum : v.Sums primaryIpAddress n)
    (i : ℕ) : Announces { v.sent n with identification := i } primaryIpAddress a := by
  obtain ⟨hfits, htype, hvrid, hadver, hauth, hfamily, ha, -⟩ := h
  have hsent : advertisement { v.sent n with identification := i } = a :=
    (advertisement_received v n).trans ha
  obtain ⟨hversion, hrest⟩ | ⟨hversion, hrest⟩ := hfits.version
  · rw [Packet.Vrrp.sent, if_pos hversion] at hsent ⊢
    exact ⟨⟨.inl ⟨hversion, hrest⟩, hfits.type, hfits.vrid, hfits.priority, hfits.count,
      hfits.countLt, hfits.nonempty, hfits.family⟩, htype, hvrid, hadver, hauth, hfamily, hsent,
      .inr ⟨n, rfl, hsum⟩⟩
  · rw [Packet.Vrrp.sent, if_neg (by omega)] at hsent ⊢
    exact ⟨⟨.inr ⟨hversion, hrest⟩, hfits.type, hfits.vrid, hfits.priority, hfits.count,
      hfits.countLt, hfits.nonempty, hfits.family⟩, htype, hvrid, hadver, hauth, hfamily, hsent,
      .inr ⟨n, rfl, hsum⟩⟩

/-- An advertisement that is transmitted is received by the monitor of another router, and is still
one that the router sends. -/
theorem Announces.transmit (h : Announces v primaryIpAddress a) (hm : m.Watches v vlanId)
    (hvlan : ∀ vid ∈ vlanId, vid < 2 ^ 12) :
    ∃ frame v', v.transmit primaryIpAddress vlanId = .ok (frame, v') ∧
      Announces v' primaryIpAddress a ∧ ∀ fuel rs, 4 ≤ fuel → m.receive fuel (heard rs) frame =
        some (.ok (heard (rs ++ [⟨address primaryIpAddress, a⟩]))) := by
  obtain ⟨n, hsum, hkept⟩ : ∃ n, v.Sums primaryIpAddress n ∧
      (v.checksum = none ∨ v.checksum = some n) := by
    obtain hnone | ⟨n, hn, hsum⟩ := h.kept
    · obtain ⟨n, hsum⟩ := Packet.Vrrp.exists_sums h.fits primaryIpAddress
      exact ⟨n, hsum, .inl hnone⟩
    · exact ⟨n, hsum, .inr hn⟩
  obtain ⟨frame, e, ip, i, htransmit, hip, hframe⟩ :=
    Packet.Vrrp.transmit_framed h.fits h.family hvlan hsum hkept
  refine ⟨frame, _, htransmit, ?_, fun fuel rs hfuel => ?_⟩
  · exact announces_sent h hsum i
  · obtain ⟨-, -, -, hpriority⟩ := received_eq v n
    have ha : a.priority = v.priority := by
      rw [← h.advertisement]
      rfl
    rw [Monitor.receive, hframe.parsed fuel hfuel]
    simp only [Option.map_some]
    rw [parseReceivedPacket_frame h hm hsum hip hframe]
    simp only [Except.map, advertisement_received, h.advertisement, hip.src, hpriority, heard,
      List.length_append, List.filter_append, ← ha]
    by_cases hzero : a.priority = 0 <;> simp [hzero]

end

/-! ## What is created -/

/-- One more than the greatest interval in units of a version. -/
def Version.adverIntLimit : Version → ℕ
  | .v2 => 2 ^ 8
  | .v3 => 2 ^ 12

/-- The fields of an advertisement that is created with an address of the family of its own ones. -/
structure Created (version : Version) (vrid priority maxAdverInt : ℕ) (ipAddresses : List IpAddress)
    (primaryIpAddress : IpAddress) : Prop where
  vrid : 1 ≤ vrid ∧ vrid < 256
  priority : priority < 256
  maxAdverInt : 1 ≤ maxAdverInt ∧ maxAdverInt < version.adverIntLimit
  nonempty : ipAddresses ≠ []
  count : ipAddresses.length < 256
  family : ∀ a ∈ ipAddresses, a.isIpv6 = primaryIpAddress.isIpv6
  ipv4 : version = .v2 → primaryIpAddress.isIpv6 = false

section

variable {version : Version} {vrid priority maxAdverInt : ℕ} {ipAddresses : List IpAddress}
  {primaryIpAddress : IpAddress}

/-- An advertisement is created without authentication, which only version 2 says in its data. -/
theorem Created.announces
    (h : Created version vrid priority maxAdverInt ipAddresses primaryIpAddress)
    (authType : Option ℕ) (authData : Option (ℕ × ℕ))
    (hauth : authType = none ∧ authData = none ∨
      version = .v2 ∧ authType = some 0 ∧ authData = some (0, 0)) :
    ∃ v, Packet.Vrrp.createVersion version.number 1 vrid (some priority) (some maxAdverInt)
        ipAddresses authType authData = .ok v ∧
      Announces v primaryIpAddress
        ⟨version, vrid, priority, maxAdverInt, ipAddresses.map address⟩ := by
  have hfirst : (Packet.Vrrp.mk version.number 1 vrid priority ipAddresses.length maxAdverInt none
      ipAddresses authType authData 0).isIpv6 = primaryIpAddress.isIpv6 := by
    obtain ⟨a, l, rfl⟩ := List.exists_cons_of_ne_nil h.nonempty
    exact h.family a List.mem_cons_self
  have hget : authType.getD 0 = 0 ∧ authData.getD (0, 0) = (0, 0) := by
    obtain ⟨rfl, rfl⟩ | ⟨-, rfl, rfl⟩ := hauth <;> exact ⟨rfl, rfl⟩
  refine ⟨_, ?_, ⟨⟨?_, (by decide : 1 < 2 ^ 4), h.vrid.2, h.priority, rfl, h.count, h.nonempty, ?_⟩,
    rfl, h.vrid.1, h.maxAdverInt.1, hget.1, hfirst.symm, ?_, .inl rfl⟩⟩
  · have hknown : ¬ (version.number ≠ 2 ∧ version.number ≠ 3) := by cases version <;> decide
    rw [Packet.Vrrp.createVersion, if_neg hknown, Packet.Vrrp.new, if_neg (not_not.mpr rfl),
      if_neg h.nonempty]
    rfl
  · cases version with
    | v2 =>
      have hdata : authType.getD 0 < 256 ∧ (authData.getD (0, 0)).1 < 2 ^ 32 ∧
          (authData.getD (0, 0)).2 < 2 ^ 32 := by
        rw [hget.1, hget.2]
        decide
      exact .inl ⟨rfl, hfirst.trans (h.ipv4 rfl), h.maxAdverInt.2, hdata⟩
    | v3 =>
      obtain ⟨rfl, rfl⟩ | ⟨hv, -⟩ := hauth
      · exact .inr ⟨rfl, h.maxAdverInt.2, rfl, rfl⟩
      · cases hv
  · exact fun a ha => (h.family a ha).trans hfirst.symm
  · cases version <;> rfl

theorem Announces.version_eq {v : Packet.Vrrp} {a : Advertisement}
    (h : Announces v primaryIpAddress a) : v.version = a.version.number ∧ v.vrid = a.vrid := by
  rw [← h.advertisement, Vrrp.advertisement]
  refine ⟨?_, rfl⟩
  obtain ⟨hv, -⟩ | ⟨hv, -⟩ := h.fits.version
  · rw [if_pos hv]
    exact hv
  · rw [if_neg (by omega)]
    exact hv

/-- What a router creates for a release. -/
theorem Announces.release {v : Packet.Vrrp} {a : Advertisement}
    (h : Announces v primaryIpAddress a) :
    ∃ v', create v.version v.type v.vrid priorityReleaseResponsibility v.maxAdverInt v.ipAddresses =
        .ok v' ∧
      Announces v' primaryIpAddress { a with priority := priorityReleaseResponsibility } := by
  have hv := h.version_eq.1
  have hcreated : Created a.version v.vrid priorityReleaseResponsibility v.maxAdverInt
      v.ipAddresses primaryIpAddress := by
    refine ⟨⟨h.vrid, h.fits.vrid⟩, by decide, ⟨h.maxAdverInt, ?_⟩, h.fits.nonempty,
      h.fits.count ▸ h.fits.countLt, fun a ha => (h.fits.family a ha).trans h.family.symm, ?_⟩
    · cases hver : a.version <;> rw [hver] at hv <;>
        obtain ⟨hv', -, hlt, -⟩ | ⟨hv', hlt, -⟩ := h.fits.version
      · exact hlt
      · exact absurd (hv'.symm.trans hv) (by decide)
      · exact absurd (hv'.symm.trans hv) (by decide)
      · exact hlt
    · intro hver
      rw [hver] at hv
      obtain ⟨-, hipv4, -⟩ | ⟨hv', -⟩ := h.fits.version
      · exact h.family.trans hipv4
      · exact absurd (hv'.symm.trans hv) (by decide)
  have ha : ({ a with priority := priorityReleaseResponsibility } : Advertisement) =
      ⟨a.version, v.vrid, priorityReleaseResponsibility, v.maxAdverInt,
        v.ipAddresses.map address⟩ := by
    rw [← h.advertisement]
    rfl
  rw [create, h.type, ha]
  cases hver : a.version with
  | v2 =>
    rw [hver] at hv hcreated
    rw [if_pos (show v.version = 2 from hv)]
    exact hcreated.announces (some 0) (some (0, 0)) (.inr ⟨rfl, rfl, rfl⟩)
  | v3 =>
    rw [hver] at hv hcreated
    rw [if_neg (by rw [hv]; decide : ¬ v.version = 2)]
    exact hcreated.announces none none (.inl ⟨rfl, rfl⟩)

end

/-! ## Runs -/

/-- A priority, an interval and addresses that an advertisement has room for. -/
structure Transmitter.Fits (t : Transmitter) : Prop where
  created : Created t.config.version t.config.vrid t.config.priority
    (secToMaxAdverInt t.config.version t.config.advertisementInterval).toNat t.ipAddresses
    t.primaryIpAddress
  addresses : t.config.ipAddresses = t.ipAddresses.map address
  vlanId : ∀ vid ∈ t.vlanId, vid < 2 ^ 12

/-- A change to what there is room for. -/
def ConfigChange.Fits (version : Version) (c : ConfigChange) : Prop :=
  (∀ priority ∈ c.priority, priority < 256) ∧
    ∀ seconds ∈ c.advertisementInterval, 1 ≤ (secToMaxAdverInt version seconds).toNat ∧
      (secToMaxAdverInt version seconds).toNat < version.adverIntLimit

/-- A monitor of the same virtual router. -/
def Transmitter.monitor (t : Transmitter) : Monitor :=
  ⟨t.vlanId, t.config.version, t.config.vrid, t.primaryIpAddress.isIpv6⟩

/-- A router with its packets does what one without them does: it keeps the same advertisement, and
its frames are received as what the other transmitted. An advertisement of a release is not counted
as one of priority 0. -/
structure Serves (t : Transmitter) (r : Router) : Prop where
  fits : t.Fits
  config : t.config = r.config
  primaryIpAddress : r.primaryIpAddress = address t.primaryIpAddress
  cached : t.vrrp = none ∧ r.vrrp = none ∨ ∃ v a, t.vrrp = some v ∧ r.vrrp = some a ∧
    Announces v t.primaryIpAddress a ∧ a.version = t.config.version ∧ a.vrid = t.config.vrid
  heard : ∀ fuel, 4 ≤ fuel → t.monitor.receiveAll fuel (heard []) t.frames =
    some (.ok (heard (r.transmitted.map fun a => ⟨r.primaryIpAddress, a⟩)))
  txVrrpPackets : t.txVrrpPackets = r.transmitted.length
  txVrrpZeroPrioPackets :
    t.txVrrpZeroPrioPackets ≤ (r.transmitted.filter (·.priority = 0)).length

section

variable {t : Transmitter} {r : Router}

theorem Monitor.receiveAll_append {m : Monitor} {fuel : ℕ} {s s' : Heard}
    {frames : List (List UInt8)} (h : m.receiveAll fuel s frames = some (.ok s'))
    (frames' : List (List UInt8)) :
    m.receiveAll fuel s (frames ++ frames') = m.receiveAll fuel s' frames' := by
  induction frames generalizing s with
  | nil =>
    obtain rfl : s = s' := Except.ok.inj (Option.some.inj h)
    rfl
  | cons data frames ih =>
    rw [Monitor.receiveAll] at h
    rw [List.cons_append, Monitor.receiveAll]
    split at h
    · exact ih h
    · next hne => exact absurd h (hne s')

/-- The advertisement that is kept or created is the one that a router without packets sends. -/
theorem Serves.current (h : Serves t r) : ∃ v, t.current = .ok v ∧
    Announces v t.primaryIpAddress r.currentAdvertisement ∧
    r.currentAdvertisement.version = t.config.version ∧
    r.currentAdvertisement.vrid = t.config.vrid := by
  obtain ⟨hnone, hnone'⟩ | ⟨v, a, hsome, hsome', ha, hversion, hvrid⟩ := h.cached
  · obtain ⟨v, hcreate, hv⟩ := h.fits.created.announces none none (.inl ⟨rfl, rfl⟩)
    have hpos := h.fits.created.maxAdverInt.1
    have hcurrent : r.currentAdvertisement = ⟨t.config.version, t.config.vrid, t.config.priority,
        ((secToMaxAdverInt t.config.version t.config.advertisementInterval).toNat : ℤ),
        t.ipAddresses.map address⟩ := by
      rw [Router.currentAdvertisement, hnone', Option.getD_none, Router.createAdvertisement,
        ← h.config, h.fits.addresses, Int.toNat_of_nonneg (by omega)]
    refine ⟨v, ?_, hcurrent ▸ hv, by rw [hcurrent], by rw [hcurrent]⟩
    rw [Transmitter.current, hnone]
    simp only
    rw [if_neg (by omega), hcreate]
  · have hcurrent : r.currentAdvertisement = a := by
      rw [Router.currentAdvertisement, hsome', Option.getD_some]
    refine ⟨v, ?_, hcurrent ▸ ha, hcurrent ▸ hversion, hcurrent ▸ hvrid⟩
    rw [Transmitter.current, hsome]

theorem Announces.watches {v : Packet.Vrrp} {a : Advertisement}
    (h : Announces v t.primaryIpAddress a) (hversion : a.version = t.config.version)
    (hvrid : a.vrid = t.config.vrid) : t.monitor.Watches v t.vlanId :=
  ⟨rfl, (congrArg Version.number hversion).symm.trans h.version_eq.1.symm,
    hvrid.symm.trans h.version_eq.2.symm, h.family⟩

/-- A frame that is received as an advertisement is transmitted, and one is kept. -/
theorem Serves.sent (h : Serves t r) {v : Packet.Vrrp} {kept sent : Advertisement}
    {frame : List UInt8} {zeroPrio : ℕ} (hkept : Announces v t.primaryIpAddress kept)
    (hversion : kept.version = t.config.version) (hvrid : kept.vrid = t.config.vrid)
    (hframe : ∀ fuel rs, 4 ≤ fuel → t.monitor.receive fuel (Vrrp.heard rs) frame =
      some (.ok (Vrrp.heard (rs ++ [⟨address t.primaryIpAddress, sent⟩]))))
    (hzero : zeroPrio ≤ if sent.priority = 0 then 1 else 0) :
    Serves
      { t with
        vrrp := some v
        txVrrpPackets := t.txVrrpPackets + 1
        txVrrpZeroPrioPackets := t.txVrrpZeroPrioPackets + zeroPrio
        frames := t.frames ++ [frame] }
      { r with vrrp := some kept, transmitted := r.transmitted ++ [sent] } := by
  refine ⟨⟨h.fits.created, h.fits.addresses, h.fits.vlanId⟩, h.config, h.primaryIpAddress,
    .inr ⟨v, kept, rfl, rfl, hkept, hversion, hvrid⟩, fun fuel hfuel => ?_, ?_, ?_⟩
  · have hall := Monitor.receiveAll_append (h.heard fuel hfuel) [frame]
    rw [Monitor.receiveAll, hframe fuel _ hfuel, ← h.primaryIpAddress] at hall
    rw [List.map_append]
    exact hall
  · rw [h.txVrrpPackets, List.length_append]
    rfl
  · have hcount : ([sent].filter (·.priority = 0)).length = if sent.priority = 0 then 1 else 0 := by
      by_cases hprio : sent.priority = 0 <;> simp [hprio]
    rw [List.filter_append, List.length_append, hcount]
    exact Nat.add_le_add h.txVrrpZeroPrioPackets hzero

theorem Serves.advertise (h : Serves t r) (release : Bool) :
    ∃ t', t.sendAdvertisement release = .ok t' ∧ t'.monitor = t.monitor ∧
      Serves t' (r.sendAdvertisement release) := by
  obtain ⟨v, hcurrent, hv, hversion, hvrid⟩ := h.current
  have hprio : v.priority = r.currentAdvertisement.priority :=
    congrArg (·.priority) hv.advertisement
  cases release with
  | true =>
    obtain ⟨v', hcreate, hv'⟩ := hv.release
    obtain ⟨frame, _, htransmit, -, hframe⟩ :=
      hv'.transmit (hv'.watches hversion hvrid) h.fits.vlanId
    have hzero : (if v.priority = 0 then 1 else 0) ≤
        if priorityReleaseResponsibility = 0 then 1 else 0 := by
      rw [priorityReleaseResponsibility, if_pos rfl]
      split_ifs <;> decide
    refine ⟨_, ?_, ?_, h.sent hv hversion hvrid hframe hzero⟩
    · rw [Transmitter.sendAdvertisement, hcurrent]
      simp only
      rw [if_pos trivial, hcreate]
      simp only
      rw [htransmit]
      rfl
    · rfl
  | false =>
    obtain ⟨frame, v', htransmit, hv', hframe⟩ :=
      hv.transmit (hv.watches hversion hvrid) h.fits.vlanId
    have hzero : (if v.priority = 0 then 1 else 0) ≤
        if r.currentAdvertisement.priority = 0 then 1 else 0 := by rw [hprio]
    refine ⟨_, ?_, ?_, h.sent hv' hversion hvrid hframe hzero⟩
    · rw [Transmitter.sendAdvertisement, hcurrent]
      simp only
      rw [if_neg Bool.false_ne_true, htransmit]
      rfl
    · rfl

theorem Serves.change (h : Serves t r) {c : ConfigChange} (hc : c.Fits t.config.version) :
    Serves { t with config := t.config.change c, vrrp := none }
      { r with config := r.config.change c, vrrp := none } := by
  have hcreated := h.fits.created
  have hpriority : c.priority.getD t.config.priority < 256 := by
    cases hprio : c.priority with
    | none => exact hcreated.priority
    | some priority => exact hc.1 priority hprio
  let seconds := c.advertisementInterval.getD t.config.advertisementInterval
  have hinterval : 1 ≤ (secToMaxAdverInt t.config.version seconds).toNat ∧
      (secToMaxAdverInt t.config.version seconds).toNat < t.config.version.adverIntLimit := by
    cases hadver : c.advertisementInterval with
    | none =>
      simp only [seconds, hadver]
      exact hcreated.maxAdverInt
    | some interval =>
      simp only [seconds, hadver]
      exact hc.2 interval hadver
  refine ⟨⟨⟨hcreated.vrid, hpriority, hinterval, hcreated.nonempty, hcreated.count,
    hcreated.family, hcreated.ipv4⟩, h.fits.addresses, h.fits.vlanId⟩, ?_, h.primaryIpAddress,
    .inl ⟨rfl, rfl⟩, h.heard, h.txVrrpPackets, h.txVrrpZeroPrioPackets⟩
  rw [h.config]

theorem Serves.run (h : Serves t r) (calls : List Call)
    (hcalls : ∀ c, .change c ∈ calls → c.Fits t.config.version) :
    ∃ t', t.run calls = .ok t' ∧ t'.monitor = t.monitor ∧
      Serves t' (calls.foldl Router.call r) := by
  induction calls generalizing t r with
  | nil => exact ⟨t, rfl, rfl, h⟩
  | cons c calls ih =>
    obtain ⟨t', hcall, hmonitor, ht'⟩ :
        ∃ t', t.call c = .ok t' ∧ t'.monitor = t.monitor ∧ Serves t' (r.call c) := by
      cases c with
      | advertise release => exact h.advertise release
      | change c => exact ⟨_, rfl, rfl, h.change (hcalls c List.mem_cons_self)⟩
    have hversion : t'.config.version = t.config.version := congrArg (·.version) hmonitor
    obtain ⟨t'', hrun, hmonitor', ht''⟩ := ih ht' fun c hc =>
      hversion ▸ hcalls c (List.mem_cons_of_mem _ hc)
    refine ⟨t'', ?_, hmonitor'.trans hmonitor, ht''⟩
    rw [Transmitter.run, hcall]
    exact hrun

end

/-- A router that has sent nothing. -/
def Transmitter.create (config : VRRPConfig) (ipAddresses : List IpAddress)
    (primaryIpAddress : IpAddress) (vlanId : Option ℕ) : Transmitter :=
  ⟨config, ipAddresses, primaryIpAddress, vlanId, none, 0, 0, []⟩

/-- A router of version 3 for an IPv6 address. -/
def ipv6Router : VRRPConfig where
  version := .v3
  vrid := 7
  adminState := .flag true
  priority := 100
  ipAddresses := [address (.v6 10)]
  advertisementInterval := 1
  preemptMode := true
  preemptDelay := 0
  acceptMode := false

end Ryu.Vrrp
