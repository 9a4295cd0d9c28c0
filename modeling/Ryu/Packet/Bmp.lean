import Ryu.Packet.BmpTlv

/-! # BGP monitoring messages

The six messages of `bmp`. Four of them have a header about a peer, whose flags say of which version
its address is. The messages of BGP in them are those of a codec, and what is behind them in a
message is passed over.
-/

namespace Ryu.Packet.Bmp

open Bytes

/-- The messages of BGP, as they are serialized and parsed. -/
structure BgpCodec (Bgp : Type) where
  /-- The octets of a message, with what is left of it. -/
  serialize : Bgp → Except PyError (List UInt8 × Bgp)
  /-- A message and the rest of the buffer. -/
  parser : List UInt8 → Except PyError (Bgp × List UInt8)

/-- An address, by the version of its text. -/
inductive Address
  | v4 (a : BitVec 32)
  | v6 (a : BitVec 128)
  deriving DecidableEq, Repr

/-- The number of an address, in sixteen octets. -/
def Address.number : Address → ℕ
  | .v4 a => a.toNat
  | .v6 a => a.toNat

/-- The header about a peer. The timestamp is in microseconds, which the floating point numbers of
the source tell apart. -/
structure Peer where
  peerType : ℕ
  isPostPolicy : Bool
  isAdjRibOut : Bool
  peerDistinguisher : ℕ
  peerAddress : Address
  peerAs : ℕ
  peerBgpId : BitVec 32
  timestamp : ℕ
  deriving DecidableEq, Repr

/-- The data of a peer that is down: a message, a code of the state machine, the tuple that `parser`
makes of one, octets, or none. -/
inductive PeerDownData (Bgp : Type)
  | message (m : Bgp)
  | code (n : ℕ)
  | codes (n : ℕ)
  | octets (b : List UInt8)
  | absent

/-- What is in a message, of its class. -/
inductive Body (Bgp : Type)
  | routeMonitoring (peer : Peer) (bgpUpdate : Bgp)
  | statisticsReport (peer : Peer) (stats : List Tlv)
  | peerDown (peer : Peer) (reason : ℕ) (data : PeerDownData Bgp)
  | peerUp (peer : Peer) (localAddress : Address) (localPort remotePort : ℕ)
      (sentOpenMessage receivedOpenMessage : Bgp)
  | initiation (info : List Tlv)
  | termination (info : List Tlv)

structure Message (Bgp : Type) where
  version : ℕ
  len : Option ℕ
  body : Body Bgp

namespace Peer

/-- `!BBQ16sI4sII`, with the addresses as numbers. -/
@[reducible] def packStr : Format :=
  [.num 1, .num 1, .num 8, .num 16, .num 4, .num 4, .num 4, .num 4]

def flags (p : Peer) : ℕ :=
  let flags := if p.isAdjRibOut then 1 <<< 4 else 0
  let flags := if p.isPostPolicy then flags ||| (1 <<< 6) else flags
  match p.peerAddress with
  | .v4 _ => flags
  | .v6 _ => flags ||| (1 <<< 7)

def values (p : Peer) : packStr.Values :=
  (p.peerType, p.flags, p.peerDistinguisher, p.peerAddress.number, p.peerAs, p.peerBgpId.toNat,
    p.timestamp / 10 ^ 6, p.timestamp % 10 ^ 6, ())

/-- `serialize_tail` of the header. -/
def serialize (p : Peer) : Except PyError (List UInt8) := packStr.pack p.values

/-- The header of the numbers that were unpacked. -/
def ofValues : packStr.Values → Peer
  | (peerType, flags, peerDistinguisher, peerAddress, peerAs, peerBgpId, t1, t2, ()) =>
    { peerType
      isPostPolicy := flags &&& (1 <<< 6) ≠ 0
      isAdjRibOut := flags &&& (1 <<< 4) ≠ 0
      peerDistinguisher
      peerAddress := if flags &&& (1 <<< 7) ≠ 0 then .v6 (BitVec.ofNat 128 peerAddress)
        else .v4 (BitVec.ofNat 32 peerAddress)
      peerAs
      peerBgpId := BitVec.ofNat 32 peerBgpId
      timestamp := t1 * 10 ^ 6 + t2 }

/-- `parser` of the header, with the rest. -/
def parser (buf : List UInt8) : Except PyError (Peer × List UInt8) :=
  (packStr.unpackFrom buf).map fun vals => (ofValues vals, buf.drop packStr.calcsize)

/-- There is room for the numbers. -/
def Fits (p : Peer) : Prop := packStr.Fits p.values

/-- The flags that are not used and the octets in front of an IPv4 address are zero, and there is
less than a second of microseconds. -/
def Plain : packStr.Values → Prop
  | (_, flags, _, peerAddress, _, _, _, t2, ()) =>
    flags &&& 0x2f = 0 ∧ (flags &&& (1 <<< 7) = 0 → peerAddress < 2 ^ 32) ∧ t2 < 10 ^ 6

end Peer

section Codec

variable {Bgp : Type} (bgp : BgpCodec Bgp) (dotted : BitVec 128 → Bool)

/-- `'.' in address`, where the text of an IPv6 address may have a dotted part. -/
def Address.hasDot : Address → Bool
  | .v4 _ => true
  | .v6 a => dotted a

@[reducible] def localPackStr : Format := [.num 16, .num 2, .num 2]

/-- `serialize_tail` of the data of a reason. -/
def serializeData (reason : ℕ) (data : PeerDownData Bgp) :
    Except PyError (List UInt8 × PeerDownData Bgp) :=
  if reason = 1 ∨ reason = 3 then
    match data with
    | .message m => (bgp.serialize m).map fun x => (x.1, .message x.2)
    | _ => .error (.attributeError "serialize")
  else if reason = 2 then
    match data with
    | .code n => (packInto 2 n).map (·, data)
    | _ => .error structError
  else if reason = 0 then .error (.typeError "can't concat str to bytearray")
  else .ok ([], data)

/-- The address of the local side, in sixteen octets. -/
def localNumber (a : Address) : Except PyError ℕ :=
  match a with
  | .v4 a => .ok a.toNat
  | .v6 a => if dotted a then .error (.valueError "bad IPv4 address") else .ok a.toNat

namespace Body

def type : Body Bgp → ℕ
  | routeMonitoring .. => 0
  | statisticsReport .. => 1
  | peerDown .. => 2
  | peerUp .. => 3
  | initiation .. => 4
  | termination .. => 5

/-- `serialize_tail`, with what is left of the message. -/
def serializeTail : Body Bgp → Except PyError (List UInt8 × Body Bgp)
  | routeMonitoring peer bgpUpdate =>
    writeBehind peer.serialize ((bgp.serialize bgpUpdate).map fun x =>
      (x.1, routeMonitoring peer x.2))
  | statisticsReport peer stats =>
    writeBehind peer.serialize (writeBehind (packInto 4 stats.length)
      ((writeEach writeStat stats).map fun x => (x.1, statisticsReport peer x.2)))
  | peerDown peer reason data =>
    writeBehind peer.serialize (writeBehind (packInto 1 reason)
      ((serializeData bgp reason data).map fun x => (x.1, peerDown peer reason x.2)))
  | peerUp peer localAddress localPort remotePort sent received =>
    writeBehind peer.serialize
      (match localNumber dotted localAddress with
      | .error e => .error e
      | .ok number =>
        writeBehind (localPackStr.pack (number, localPort, remotePort, ()))
          (match bgp.serialize sent with
          | .error e => .error e
          | .ok (b, sent) => (bgp.serialize received).map fun x =>
              (b ++ x.1, peerUp peer localAddress localPort remotePort sent x.2)))
  | initiation info => (writeEach (writeTlv initiationForm) info).map fun x => (x.1, initiation x.2)
  | termination info => (writeTermination none info).map fun x => (x.1, termination x.2)

/-- The data of a reason, and the reason it is kept under. -/
def parseData (reason : ℕ) (buf : List UInt8) : Except PyError (ℕ × PeerDownData Bgp) :=
  if reason = 1 ∨ reason = 3 then (bgp.parser buf).map fun x => (reason, .message x.1)
  else if reason = 2 then (Format.unpackFrom [.num 2] buf).map fun x => (reason, .codes x.1)
  else if reason = 4 then .ok (reason, .absent)
  else .ok (0, .octets buf)

/-- The local side and the messages of a peer that is up. -/
def parseUp (peer : Peer) (buf : List UInt8) : Except PyError (Body Bgp) :=
  match localPackStr.unpackFrom buf with
  | .error e => .error e
  | .ok (number, localPort, remotePort, ()) =>
    let localAddress := if peer.peerAddress.hasDot dotted then Address.v4 (BitVec.ofNat 32 number)
      else .v6 (BitVec.ofNat 128 number)
    match bgp.parser (buf.drop localPackStr.calcsize) with
    | .error e => .error e
    | .ok (sent, rest) => (bgp.parser rest).map fun x =>
        peerUp peer localAddress localPort remotePort sent x.1

/-- The `parser` of a message about a peer, behind the header. -/
def parsePeer (type : ℕ) (peer : Peer) (buf : List UInt8) : Except PyError (Body Bgp) :=
  if type = 0 then (bgp.parser buf).map fun x => routeMonitoring peer x.1
  else if type = 1 then
    match unpackFrom 4 buf with
    | .error e => .error e
    | .ok (_, rest) => ((tlvDecoder statForm).readAll rest).map (statisticsReport peer)
  else if type = 2 then
    match unpackFrom 1 buf with
    | .error e => .error e
    | .ok (reason, rest) => (parseData bgp reason rest).map fun x => peerDown peer x.1 x.2
  else parseUp bgp dotted peer buf

/-- The `parser` of a registered type. -/
def parser (type : ℕ) (buf : List UInt8) : Except PyError (Body Bgp) :=
  if type = 4 then ((tlvDecoder initiationForm).readAll buf).map initiation
  else if type = 5 then ((tlvDecoder terminationForm).readAll buf).map termination
  else
    match Peer.parser buf with
    | .error e => .error e
    | .ok (peer, rest) => parsePeer bgp dotted type peer rest

end Body

namespace Message

@[reducible] def packStr : Format := [.num 1, .num 4, .num 1]

def serialize (m : Message Bgp) : Except PyError (List UInt8 × Message Bgp) :=
  match m.body.serializeTail bgp dotted with
  | .error e => .error e
  | .ok (tail, body) =>
    let len := packStr.calcsize + tail.length
    (packStr.pack (m.version, len, m.body.type, ())).map fun hdr =>
      (hdr ++ tail, ⟨m.version, some len, body⟩)

/-- `BMPMessage.parser`. -/
def parser (buf : List UInt8) : Except PyError (Message Bgp × List UInt8) :=
  if buf.length < packStr.calcsize then .error tooSmall
  else
    let (version, msglen, type, ()) := packStr.unpack buf
    if version ≠ 3 then .error (.valueError s!"not supportted bmp version: {version}")
    else if buf.length < msglen then .error tooSmall
    else if 5 < type then .error (.valueError s!"unknown bmp type: {type}")
    else (Body.parser bgp dotted type ((buf.take msglen).drop packStr.calcsize)).map fun body =>
      (⟨version, some msglen, body⟩, buf.drop msglen)

end Message

end Codec

/-! ## The header about a peer -/

namespace Peer

variable {p : Peer} {vals : packStr.Values} {b r : List UInt8}

theorem numeric_packStr : packStr.Numeric := trivial

theorem parser_eq_ok_iff : parser b = .ok (p, r) ↔
    ∃ vals, packStr.Fits vals ∧ ofValues vals = p ∧ packStr.bytes vals ++ r = b := by
  have hdrop {vals : packStr.Values} (hf : packStr.Fits vals) (r : List UInt8) :
      (packStr.bytes vals ++ r).drop packStr.calcsize = r :=
    List.drop_left' (Format.length_bytes hf)
  rw [parser, map_eq_ok]
  constructor
  · rintro ⟨vals, hread, heq⟩
    obtain ⟨hf, r', rfl⟩ := (Format.Numeric.unpackFrom_eq_ok_iff numeric_packStr).mp hread
    obtain ⟨rfl, rfl⟩ := Prod.mk.inj heq
    exact ⟨vals, hf, rfl, by rw [hdrop hf]⟩
  · rintro ⟨vals, hf, rfl, rfl⟩
    refine ⟨vals, (Format.Numeric.unpackFrom_eq_ok_iff numeric_packStr).mpr ⟨hf, r, rfl⟩, ?_⟩
    rw [hdrop hf]

/-- The bits of the flags are taken apart as they are put together. -/
theorem ofValues_values (p : Peer) : ofValues p.values = p := by
  obtain ⟨peerType, post, out, distinguisher, address, peerAs, bgpId, timestamp⟩ := p
  have htime : timestamp / 1000000 * 1000000 + timestamp % 1000000 = timestamp :=
    Nat.div_add_mod' timestamp 1000000
  cases address with
  | v4 a => cases post <;> cases out <;> simp [ofValues, values, flags, Address.number, htime]
  | v6 a => cases post <;> cases out <;> simp [ofValues, values, flags, Address.number, htime]

/-- The flags of a header that was unpacked, if no others are set. -/
theorem flags_eq : ∀ f < 256, f &&& 0x2f = 0 →
    (let flags := if f &&& (1 <<< 4) ≠ 0 then 1 <<< 4 else 0
     let flags := if f &&& (1 <<< 6) ≠ 0 then flags ||| (1 <<< 6) else flags
     if f &&& (1 <<< 7) ≠ 0 then flags ||| (1 <<< 7) else flags) = f := by
  decide +kernel

/-- A header is packed to the numbers it was unpacked from, if they are plain. -/
theorem values_ofValues (hf : packStr.Fits vals) (hp : Plain vals) :
    (ofValues vals).values = vals := by
  obtain ⟨peerType, f, distinguisher, address, peerAs, bgpId, t1, t2, ⟨⟩⟩ := vals
  obtain ⟨-, hflags, -, haddress, -, hid, -⟩ := hf
  obtain ⟨hbits, hv4, ht⟩ := hp
  have hflags := flags_eq f hflags hbits
  have hid' : (BitVec.ofNat 32 bgpId).toNat = bgpId := by
    have hlt : bgpId < 2 ^ 32 := hid
    rw [BitVec.toNat_ofNat, Nat.mod_eq_of_lt hlt]
  have hdiv : (t1 * 10 ^ 6 + t2) / 10 ^ 6 = t1 := by omega
  have hmod : (t1 * 10 ^ 6 + t2) % 10 ^ 6 = t2 := by omega
  by_cases hseven : f &&& (1 <<< 7) = 0
  · have ha : (BitVec.ofNat 32 address).toNat = address := by
      rw [BitVec.toNat_ofNat, Nat.mod_eq_of_lt (hv4 hseven)]
    simp only [hseven, ne_eq, not_true_eq_false, if_false] at hflags
    simp only [ofValues, values, flags, hseven, ne_eq, not_true_eq_false, if_false, decide_eq_true_eq,
      Address.number, ha, hid', hdiv, hmod, hflags]
  · have ha : (BitVec.ofNat 128 address).toNat = address := by
      have hlt : address < 2 ^ 128 := haddress
      rw [BitVec.toNat_ofNat, Nat.mod_eq_of_lt hlt]
    simp only [hseven, ne_eq, not_false_eq_true, if_true] at hflags
    simp only [ofValues, values, flags, hseven, ne_eq, not_false_eq_true, if_true, decide_eq_true_eq,
      Address.number, ha, hid', hdiv, hmod, hflags]

theorem serialize_parsed (h : p.Fits) (r : List UInt8) :
    ∃ b, p.serialize = .ok b ∧ parser (b ++ r) = .ok (p, r) :=
  ⟨_, Format.pack_bytes h, parser_eq_ok_iff.2 ⟨_, h, ofValues_values p, rfl⟩⟩

end Peer

section Exact

variable {Bgp : Type} (bgp : BgpCodec Bgp) (dotted : BitVec 128 → Bool)

/-- A message of BGP that is read back by itself. -/
def BgpCodec.RoundTrips (m : Bgp) : Prop :=
  ∃ b m', bgp.serialize m = .ok (b, m') ∧ ∀ r, bgp.parser (b ++ r) = .ok (m', r)

/-- The value is of the form of its type, and there is room for its length. -/
def Tlv.Writable (form : ℕ → TlvForm) (t : Tlv) : Prop :=
  t.type < 2 ^ 16 ∧ ∃ b, (form t.type).encode t.value = .ok b ∧ b.length < 2 ^ 16

/-- The local address is an IPv4 address exactly where the text of that of the peer has a dot, and
no IPv6 address of the local side has a dotted text. -/
def SameSide (peer : Peer) (a : Address) : Prop :=
  match a with
  | .v4 _ => peer.peerAddress.hasDot dotted = true
  | .v6 a => peer.peerAddress.hasDot dotted = false ∧ dotted a = false

/-- The numbers fit, the statistics are of known types, a session is terminated with texts and
reasons, and a peer that is down has a message, or no data, as its reason says. -/
def Body.Sendable : Body Bgp → Prop
  | .routeMonitoring peer bgpUpdate => peer.Fits ∧ bgp.RoundTrips bgpUpdate
  | .statisticsReport peer stats => peer.Fits ∧ stats.length < 2 ^ 32 ∧
      ∀ t ∈ stats, statSize t.type ≠ none ∧ t.Writable statForm
  | .peerDown peer reason data => peer.Fits ∧
      ((reason = 1 ∨ reason = 3) ∧ (∃ m, data = .message m ∧ bgp.RoundTrips m) ∨
        reason = 4 ∧ data = .absent)
  | .peerUp peer localAddress localPort remotePort sent received => peer.Fits ∧
      SameSide dotted peer localAddress ∧ localPort < 2 ^ 16 ∧ remotePort < 2 ^ 16 ∧
        bgp.RoundTrips sent ∧ bgp.RoundTrips received
  | .initiation info => ∀ t ∈ info, t.Writable initiationForm
  | .termination info => ∀ t ∈ info, t.type ∈ [0, 1] ∧ t.Writable terminationForm

variable {bgp dotted} {form : ℕ → TlvForm} {info : List Tlv} {body : Body Bgp} {peer : Peer}
  {b r : List UInt8} {type : ℕ}

/-- Pieces of information that can be written are written, and read back. -/
theorem exists_writeTlvs (h : ∀ t ∈ info, t.Writable form) : ∃ b info',
    writeEach (writeTlv form) info = .ok (b, info') ∧ (tlvDecoder form).readAll b = .ok info' := by
  have hwrite : ∀ t ∈ info, ∃ x, writeTlv form t = .ok x := by
    intro t ht
    obtain ⟨htype, value, hvalue, hlen⟩ := h t ht
    have hf : tlvPackStr.Fits (t.type, value.length, ()) := ⟨htype, hlen, trivial⟩
    rw [writeTlv, hvalue]
    simp only [Format.pack_bytes hf]
    exact ⟨_, rfl⟩
  obtain ⟨⟨b, info'⟩, hx⟩ := exists_writeEach hwrite
  exact ⟨b, info', hx, Decoder.readAll_writeEach (fun t _ b t' ht r => read_writeTlv ht r) hx⟩

/-- Behind the header about a peer, the parser of its class goes on. -/
theorem parser_peer (hp : peer.Fits) (ht : type < 4) (r : List UInt8) : ∃ b,
    peer.serialize = .ok b ∧
      Body.parser bgp dotted type (b ++ r) = Body.parsePeer bgp dotted type peer r := by
  obtain ⟨b, hb, hread⟩ := Peer.serialize_parsed hp r
  refine ⟨b, hb, ?_⟩
  rw [Body.parser, if_neg (by omega), if_neg (by omega), hread]

/-- The data of a reason is read back under it. -/
theorem parseData_serializeData {reason : ℕ} {data : PeerDownData Bgp}
    (h : (reason = 1 ∨ reason = 3) ∧ (∃ m, data = .message m ∧ bgp.RoundTrips m) ∨
      reason = 4 ∧ data = .absent) : ∃ w data', serializeData bgp reason data = .ok (w, data') ∧
        Body.parseData bgp reason w = .ok (reason, data') ∧ reason < 2 ^ 8 := by
  obtain ⟨hreason, m, rfl, w, m', hw, hread⟩ | ⟨rfl, rfl⟩ := h
  · have hread := hread []
    rw [List.append_nil] at hread
    refine ⟨w, .message m', ?_, ?_, by omega⟩
    · rw [serializeData, if_pos hreason, hw]
      rfl
    · rw [Body.parseData, if_pos hreason, hread]
      rfl
  · exact ⟨[], .absent, rfl, rfl, by decide⟩

theorem numeric_localPackStr : localPackStr.Numeric := trivial

/-- The local address is got back from its number. -/
theorem localNumber_ok {a : Address} (h : SameSide dotted peer a) : ∃ number,
    localNumber dotted a = .ok number ∧ number < 256 ^ 16 ∧
      (if peer.peerAddress.hasDot dotted then Address.v4 (BitVec.ofNat 32 number)
        else .v6 (BitVec.ofNat 128 number)) = a := by
  cases a with
  | v4 a =>
    have hdot : peer.peerAddress.hasDot dotted = true := h
    refine ⟨a.toNat, rfl, a.isLt.trans (by decide), ?_⟩
    simp [hdot]
  | v6 a =>
    obtain ⟨hdot, hplain⟩ := h
    refine ⟨a.toNat, ?_, a.isLt, ?_⟩
    · simp [localNumber, hplain]
    · simp [hdot]

/-- A message is serialized, and read back from what is behind the header of all messages. -/
theorem Body.parser_serializeTail (h : body.Sendable bgp dotted) : ∃ tail body',
    body.serializeTail bgp dotted = .ok (tail, body') ∧ body'.type = body.type ∧
      Body.parser bgp dotted body.type tail = .ok body' := by
  cases body with
  | routeMonitoring peer bgpUpdate =>
    obtain ⟨hp, w, m', hw, hread⟩ := h
    obtain ⟨hdr, hhdr, hparse⟩ := parser_peer hp (show 0 < 4 by decide) w
    have hread := hread []
    rw [List.append_nil] at hread
    refine ⟨hdr ++ w, .routeMonitoring peer m', ?_, rfl, ?_⟩
    · exact writeBehind_eq_ok_iff.2 ⟨hdr, w, hhdr, map_eq_ok.2 ⟨_, hw, rfl⟩, rfl⟩
    · rw [Body.type, hparse, parsePeer, if_pos rfl, hread]
      rfl
  | statisticsReport peer stats =>
    obtain ⟨hp, hlen, hstats⟩ := h
    obtain ⟨w, stats', hw, hread⟩ := exists_writeTlvs fun t ht => (hstats t ht).2
    obtain ⟨hdr, hhdr, hparse⟩ := parser_peer hp (show 1 < 4 by decide)
      (toBytes 4 stats.length ++ w)
    rw [← writeEach_congr fun t ht => writeStat_eq (hstats t ht).1] at hw
    refine ⟨hdr ++ (toBytes 4 stats.length ++ w), .statisticsReport peer stats', ?_, rfl, ?_⟩
    · have hcount : packInto 4 stats.length = .ok (toBytes 4 stats.length) :=
        packInto_eq_ok.2 ⟨hlen, rfl⟩
      exact writeBehind_eq_ok_iff.2 ⟨hdr, _, hhdr, writeBehind_eq_ok_iff.2
        ⟨_, w, hcount, map_eq_ok.2 ⟨_, hw, rfl⟩, rfl⟩, rfl⟩
    · rw [Body.type, hparse, parsePeer, if_neg (by decide), if_pos rfl, unpackFrom_toBytes hlen]
      simp only [hread]
      rfl
  | peerDown peer reason data =>
    obtain ⟨hp, hdata⟩ := h
    obtain ⟨w, data', hw, hread, hreason⟩ := parseData_serializeData hdata
    obtain ⟨hdr, hhdr, hparse⟩ := parser_peer hp (show 2 < 4 by decide) (toBytes 1 reason ++ w)
    refine ⟨hdr ++ (toBytes 1 reason ++ w), .peerDown peer reason data', ?_, rfl, ?_⟩
    · have hbyte : packInto 1 reason = .ok (toBytes 1 reason) := packInto_eq_ok.2 ⟨hreason, rfl⟩
      exact writeBehind_eq_ok_iff.2 ⟨hdr, _, hhdr, writeBehind_eq_ok_iff.2
        ⟨_, w, hbyte, map_eq_ok.2 ⟨_, hw, rfl⟩, rfl⟩, rfl⟩
    · rw [Body.type, hparse, parsePeer, if_neg (by decide), if_neg (by decide), if_pos rfl,
        unpackFrom_toBytes hreason]
      simp only [hread]
      rfl
  | peerUp peer localAddress localPort remotePort sent received =>
    obtain ⟨hp, hside, hlocal, hremote, ⟨w, sent', hw, hread⟩, v, received', hv, hread'⟩ := h
    obtain ⟨number, hnumber, hlt, hback⟩ := localNumber_ok hside
    have hf : localPackStr.Fits (number, localPort, remotePort, ()) :=
      ⟨hlt, hlocal, hremote, trivial⟩
    have hrecord := Format.unpackFrom_bytes hf (Format.Numeric.exact numeric_localPackStr _) (w ++ v)
    have hdrop : (localPackStr.bytes (number, localPort, remotePort, ()) ++ (w ++ v)).drop
        localPackStr.calcsize = w ++ v := List.drop_left' (Format.length_bytes hf)
    obtain ⟨hdr, hhdr, hparse⟩ := parser_peer hp (show 3 < 4 by decide)
      (localPackStr.bytes (number, localPort, remotePort, ()) ++ (w ++ v))
    have hrest := hread' []
    rw [List.append_nil] at hrest
    refine ⟨hdr ++ (localPackStr.bytes (number, localPort, remotePort, ()) ++ (w ++ v)),
      .peerUp peer localAddress localPort remotePort sent' received', ?_, rfl, ?_⟩
    · refine writeBehind_eq_ok_iff.2 ⟨hdr, _, hhdr, ?_, rfl⟩
      simp only [hnumber]
      refine writeBehind_eq_ok_iff.2 ⟨_, w ++ v, Format.pack_bytes hf, ?_, rfl⟩
      simp only [hw, hv]
      rfl
    · rw [Body.type, hparse, parsePeer, if_neg (by decide), if_neg (by decide), if_neg (by decide),
        parseUp, hrecord]
      simp only [hdrop, hread, hrest, hback]
      rfl
  | initiation info =>
    obtain ⟨w, info', hw, hread⟩ := exists_writeTlvs h
    refine ⟨w, .initiation info', map_eq_ok.2 ⟨_, hw, rfl⟩, rfl, ?_⟩
    rw [Body.type, Body.parser, if_pos rfl, hread]
    rfl
  | termination info =>
    obtain ⟨w, info', hw, hread⟩ := exists_writeTlvs fun t ht => (h t ht).2
    rw [← writeTermination_eq fun t ht => (h t ht).1] at hw
    refine ⟨w, .termination info', map_eq_ok.2 ⟨_, hw, rfl⟩, rfl, ?_⟩
    rw [Body.type, Body.parser, if_neg (by decide), if_pos rfl, hread]
    rfl

/-! ## The octets that were read -/

variable (bgp dotted)

/-- There is one message of BGP, which is serialized as it is. -/
def BgpCodec.Whole (b : List UInt8) : Prop :=
  ∀ m r, bgp.parser b = .ok (m, r) → r = [] ∧ bgp.serialize m = .ok (b, m)

/-- The message of BGP at the start is serialized as it is. -/
def BgpCodec.Rewrites (b : List UInt8) : Prop :=
  ∀ m r, bgp.parser b = .ok (m, r) → ∃ w, bgp.serialize m = .ok (w, m) ∧ w ++ r = b

/-- Behind the header about a peer, statistics are as many as it is said, the local address is in
front of zeros where it is read as an IPv4 address, and nothing is passed over. -/
def PlainRest (type : ℕ) (dot : Bool) (b : List UInt8) : Prop :=
  match type with
  | 0 => bgp.Whole b
  | 1 => ∀ n rest l, unpackFrom 4 b = .ok (n, rest) →
      (tlvDecoder statForm).readAll rest = .ok l → n = l.length
  | 2 => ∀ reason rest, unpackFrom 1 b = .ok (reason, rest) →
      if reason = 4 then rest = [] else bgp.Whole rest
  | _ => (∀ number localPort remotePort,
      localPackStr.unpackFrom b = .ok (number, localPort, remotePort, ()) →
        dot = true → number < 2 ^ 32) ∧
      bgp.Rewrites (b.drop localPackStr.calcsize) ∧
        ∀ m r, bgp.parser (b.drop localPackStr.calcsize) = .ok (m, r) → bgp.Whole r

/-- Nothing in the octets of a message is passed over. -/
def PlainBody (type : ℕ) (b : List UInt8) : Prop :=
  type < 4 → ∀ vals, Peer.packStr.unpackFrom b = .ok vals → Peer.Plain vals ∧
    PlainRest bgp type ((Peer.ofValues vals).peerAddress.hasDot dotted)
      (b.drop Peer.packStr.calcsize)

/-- What was read is of the kinds that are sent, with the lengths that their forms have. -/
def Body.Regular : Body Bgp → Prop
  | .routeMonitoring .. | .initiation _ => True
  | .statisticsReport _ stats => ∀ t ∈ stats, statSize t.type = some t.len
  | .peerDown _ reason _ => reason = 1 ∨ reason = 3 ∨ reason = 4
  | .peerUp _ localAddress .. => ∀ a, localAddress = .v6 a → dotted a = false
  | .termination info => ∀ t ∈ info, t.type = 0 ∨ t.type = 1 ∧ t.len = 2

variable {bgp dotted}

theorem eq_of_unpackFrom {size n : ℕ} (h : unpackFrom size b = .ok (n, r)) :
    packInto size n = .ok (b.take size) ∧ b.take size ++ r = b := by
  rw [unpackFrom] at h
  split at h
  · cases h
  · next hlen =>
    obtain ⟨rfl, rfl⟩ := Prod.mk.inj (Except.ok.inj h)
    have htake : (b.take size).length = size := List.length_take_of_le (not_lt.mp hlen)
    have hnum := toBytes_ofBytes (b.take size)
    have hlt := ofBytes_lt (b.take size)
    rw [htake] at hnum hlt
    exact ⟨packInto_eq_ok.2 ⟨hlt, hnum⟩, List.take_append_drop size b⟩

theorem writeStats_of_readAll {stats : List Tlv} (hread : (tlvDecoder statForm).readAll b = .ok stats)
    (hreg : ∀ t ∈ stats, statSize t.type = some t.len) :
    writeEach writeStat stats = .ok (b, stats) := by
  have hknown : ∀ t ∈ stats, writeStat t = writeTlv statForm t := by
    intro t ht
    exact writeStat_eq (by rw [hreg t ht]; exact Option.some_ne_none _)
  have hadmits : ∀ t ∈ stats, (statForm t.type).Admits t.len := by
    intro t ht
    rw [statForm, hreg t ht]
    rfl
  rw [writeEach_congr hknown]
  exact Decoder.writeEach_of_readAll (fun _ _ _ => writeTlv_of_read) hread hadmits

/-- The data of a reason is written as it was read. -/
theorem serializeData_parseData {reason reason' : ℕ} {data : PeerDownData Bgp}
    (h : Body.parseData bgp reason b = .ok (reason', data))
    (hplain : if reason = 4 then b = [] else bgp.Whole b)
    (hreg : reason' = 1 ∨ reason' = 3 ∨ reason' = 4) :
    reason = reason' ∧ serializeData bgp reason' data = .ok (b, data) := by
  rw [Body.parseData] at h
  split_ifs at h with hmessage hcode hnone
  · obtain ⟨⟨m, r⟩, hread, heq⟩ := map_eq_ok.1 h
    obtain ⟨rfl, rfl⟩ := Prod.mk.inj heq
    rw [if_neg (by omega)] at hplain
    obtain ⟨-, hw⟩ := hplain m r hread
    refine ⟨rfl, ?_⟩
    rw [serializeData, if_pos hmessage, hw]
    rfl
  · obtain ⟨x, -, heq⟩ := map_eq_ok.1 h
    obtain ⟨rfl, -⟩ := Prod.mk.inj heq
    omega
  · obtain ⟨rfl, rfl⟩ := Prod.mk.inj (Except.ok.inj h)
    rw [if_pos hnone] at hplain
    subst hnone hplain
    exact ⟨rfl, rfl⟩
  · obtain ⟨rfl, -⟩ := Prod.mk.inj (Except.ok.inj h)
    omega

/-- The local side of a peer that is up is written as it was read. -/
theorem serializeTail_parseUp (h : Body.parseUp bgp dotted peer r = .ok body)
    (hp : peer.serialize = .ok b)
    (hplain : PlainRest bgp 3 (peer.peerAddress.hasDot dotted) r) (hreg : body.Regular dotted) :
    body.serializeTail bgp dotted = .ok (b ++ r, body) := by
  obtain ⟨hnumber, hsent, hreceived⟩ := hplain
  rw [Body.parseUp] at h
  split at h
  · cases h
  · next number localPort remotePort hread =>
    simp only at h
    split at h
    · cases h
    · next sent rest hfirst =>
      obtain ⟨⟨received, r'⟩, hsecond, rfl⟩ := map_eq_ok.1 h
      obtain ⟨w, hw, happend⟩ := hsent sent rest hfirst
      obtain ⟨-, hv⟩ := hreceived sent rest hfirst received r' hsecond
      obtain ⟨hf, rest', hrest'⟩ :=
        (Format.Numeric.unpackFrom_eq_ok_iff numeric_localPackStr).mp hread
      have hdrop : r.drop localPackStr.calcsize = rest' := by
        rw [hrest']
        exact List.drop_left' (Format.length_bytes hf)
      have hlocal : localNumber dotted (if peer.peerAddress.hasDot dotted = true
          then Address.v4 (BitVec.ofNat 32 number) else .v6 (BitVec.ofNat 128 number)) =
          .ok number := by
        by_cases hdot : peer.peerAddress.hasDot dotted = true
        · have hlt := hnumber number localPort remotePort hread hdot
          rw [if_pos hdot, localNumber, BitVec.toNat_ofNat, Nat.mod_eq_of_lt hlt]
        · have hlt : number < 2 ^ 128 := hf.1
          have hplain := hreg (BitVec.ofNat 128 number) (if_neg hdot)
          rw [if_neg hdot, localNumber, hplain, BitVec.toNat_ofNat, Nat.mod_eq_of_lt hlt]
          rfl
      refine writeBehind_eq_ok_iff.2 ⟨b, r, hp, ?_, rfl⟩
      simp only [hlocal]
      refine writeBehind_eq_ok_iff.2 ⟨_, rest', Format.pack_bytes hf, ?_, hrest'.symm⟩
      simp only [hw, hv, ← hdrop, ← happend]
      rfl

theorem serializeTail_parsePeer (hparse : Body.parsePeer bgp dotted type peer r = .ok body)
    (hp : peer.serialize = .ok b) (ht : type < 4)
    (hplain : PlainRest bgp type (peer.peerAddress.hasDot dotted) r) (hreg : body.Regular dotted) :
    body.serializeTail bgp dotted = .ok (b ++ r, body) := by
  rw [Body.parsePeer] at hparse
  split_ifs at hparse with hroute hstats hdown
  · subst hroute
    obtain ⟨⟨m, r'⟩, hread, rfl⟩ := map_eq_ok.1 hparse
    obtain ⟨-, hw⟩ := hplain m r' hread
    exact writeBehind_eq_ok_iff.2 ⟨b, r, hp, map_eq_ok.2 ⟨_, hw, rfl⟩, rfl⟩
  · subst hstats
    split at hparse
    · cases hparse
    · next n rest hcount =>
      obtain ⟨stats, hread, rfl⟩ := map_eq_ok.1 hparse
      obtain rfl := hplain n rest stats hcount hread
      obtain ⟨hpack, happend⟩ := eq_of_unpackFrom hcount
      have hw := writeStats_of_readAll hread hreg
      refine writeBehind_eq_ok_iff.2 ⟨b, r, hp, ?_, rfl⟩
      exact writeBehind_eq_ok_iff.2 ⟨_, rest, hpack, map_eq_ok.2 ⟨_, hw, rfl⟩, happend⟩
  · subst hdown
    split at hparse
    · cases hparse
    · next reason rest hbyte =>
      obtain ⟨⟨reason', data⟩, hdata, rfl⟩ := map_eq_ok.1 hparse
      obtain ⟨hpack, happend⟩ := eq_of_unpackFrom hbyte
      obtain ⟨rfl, hw⟩ := serializeData_parseData hdata (hplain reason rest hbyte) hreg
      refine writeBehind_eq_ok_iff.2 ⟨b, r, hp, ?_, rfl⟩
      exact writeBehind_eq_ok_iff.2 ⟨_, rest, hpack, map_eq_ok.2 ⟨_, hw, rfl⟩, happend⟩
  · obtain rfl : type = 3 := by omega
    exact serializeTail_parseUp hparse hp hplain hreg

/-- A message is of the type that it was read as. -/
theorem Body.type_parsed (h : Body.parser bgp dotted type b = .ok body) (ht : type ≤ 5) :
    body.type = type := by
  rw [Body.parser] at h
  split_ifs at h with hinit hterm
  · obtain ⟨info, -, rfl⟩ := map_eq_ok.1 h
    exact hinit.symm
  · obtain ⟨info, -, rfl⟩ := map_eq_ok.1 h
    exact hterm.symm
  · split at h
    · cases h
    · next peer rest hpeer =>
      rw [parsePeer] at h
      split_ifs at h with hroute hstats hdown
      · obtain ⟨x, -, rfl⟩ := map_eq_ok.1 h
        exact hroute.symm
      · split at h
        · cases h
        · obtain ⟨stats, -, rfl⟩ := map_eq_ok.1 h
          exact hstats.symm
      · split at h
        · cases h
        · obtain ⟨x, -, rfl⟩ := map_eq_ok.1 h
          exact hdown.symm
      · rw [parseUp] at h
        split at h
        · cases h
        · simp only at h
          split at h
          · cases h
          · obtain ⟨x, -, rfl⟩ := map_eq_ok.1 h
            have hthree : type = 3 := by omega
            exact hthree.symm

/-- A message that was read is serialized to its octets, if none of them was passed over. -/
theorem Body.serializeTail_parsed (hparse : Body.parser bgp dotted type b = .ok body)
    (ht : type ≤ 5) (hplain : PlainBody bgp dotted type b) (hreg : body.Regular dotted) :
    body.serializeTail bgp dotted = .ok (b, body) := by
  rw [Body.parser] at hparse
  split_ifs at hparse with hinit hterm
  · obtain ⟨info, hread, rfl⟩ := map_eq_ok.1 hparse
    have hadmits : ∀ t ∈ info, (initiationForm t.type).Admits t.len := by
      intro t ht
      rw [initiationForm]
      split <;> trivial
    have hw := Decoder.writeEach_of_readAll (fun _ _ _ => writeTlv_of_read) hread hadmits
    exact map_eq_ok.2 ⟨_, hw, rfl⟩
  · obtain ⟨info, hread, rfl⟩ := map_eq_ok.1 hparse
    have hadmits : ∀ t ∈ info, (terminationForm t.type).Admits t.len := by
      intro t ht
      obtain hzero | ⟨hone, hlen⟩ := hreg t ht
      · simp [terminationForm, hzero, TlvForm.Admits]
      · simp [terminationForm, hone, hlen, TlvForm.Admits]
    have hw := Decoder.writeEach_of_readAll (fun _ _ _ => writeTlv_of_read) hread hadmits
    have hknown : ∀ t ∈ info, t.type ∈ [0, 1] := by
      intro t ht
      obtain hzero | ⟨hone, -⟩ := hreg t ht
      · simp [hzero]
      · simp [hone]
    rw [← writeTermination_eq hknown] at hw
    exact map_eq_ok.2 ⟨_, hw, rfl⟩
  · split at hparse
    · cases hparse
    · next peer rest hpeer =>
      have hlt : type < 4 := by omega
      obtain ⟨vals, hf, rfl, rfl⟩ := Peer.parser_eq_ok_iff.mp hpeer
      have hread : Peer.packStr.unpackFrom (Peer.packStr.bytes vals ++ rest) = .ok vals :=
        (Format.Numeric.unpackFrom_eq_ok_iff Peer.numeric_packStr).mpr ⟨hf, rest, rfl⟩
      have hdrop : (Peer.packStr.bytes vals ++ rest).drop Peer.packStr.calcsize = rest :=
        List.drop_left' (Format.length_bytes hf)
      obtain ⟨hvals, hrest⟩ := hplain hlt vals hread
      rw [hdrop] at hrest
      have hp : (Peer.ofValues vals).serialize = .ok (Peer.packStr.bytes vals) := by
        rw [Peer.serialize, Peer.values_ofValues hf hvals, Format.pack_bytes hf]
      exact serializeTail_parsePeer hparse hp hlt hrest hreg

namespace Message

variable (bgp dotted)

/-- The message is of the version of the library, and shorter than four gigabytes. -/
def Sendable (m : Message Bgp) : Prop :=
  m.version = 3 ∧ m.body.Sendable bgp dotted ∧
    ∀ tail body, m.body.serializeTail bgp dotted = .ok (tail, body) →
      packStr.calcsize + tail.length < 2 ^ 32

/-- The message is serialized, and read back with its lengths in front of anything. -/
def ReadBack (m : Message Bgp) : Prop :=
  ∃ buf m', m.serialize bgp dotted = .ok (buf, m') ∧
    ∀ rest, parser bgp dotted (buf ++ rest) = .ok (m', rest)

/-- The message is serialized to the octets that it was read from. -/
def Rewritten (m : Message Bgp) (buf rest : List UInt8) : Prop :=
  ∃ consumed, m.serialize bgp dotted = .ok (consumed, m) ∧ consumed ++ rest = buf

/-- The length counts the header, and nothing in the octets is passed over. -/
def Plain (m : Message Bgp) (buf : List UInt8) : Prop :=
  ∀ len, m.len = some len → packStr.calcsize ≤ len ∧
    PlainBody bgp dotted m.body.type ((buf.take len).drop packStr.calcsize)

variable {bgp dotted} {m : Message Bgp} {buf rest : List UInt8}

theorem numeric_packStr : packStr.Numeric := trivial

/-- What is parsed: a header with the length, and a message of its type up to there. -/
theorem parser_eq_ok_iff : parser bgp dotted buf = .ok (m, rest) ↔
    ∃ len type r, packStr.Fits (3, len, type, ()) ∧ buf = packStr.bytes (3, len, type, ()) ++ r ∧
      len ≤ buf.length ∧ type ≤ 5 ∧
        (Body.parser bgp dotted type ((buf.take len).drop packStr.calcsize)).map
          (fun body => ((⟨3, some len, body⟩ : Message Bgp), buf.drop len)) = .ok (m, rest) := by
  rw [parser]
  by_cases hlen : buf.length < packStr.calcsize
  · rw [if_pos hlen]
    constructor
    · intro h
      cases h
    · rintro ⟨len, type, r, hf, rfl, -⟩
      rw [List.length_append, Format.length_bytes hf] at hlen
      omega
  · have hread : packStr.unpackFrom buf = .ok (packStr.unpack buf) := if_neg hlen
    rw [if_neg hlen]
    generalize packStr.unpack buf = vals at hread
    obtain ⟨version, msglen, type, ⟨⟩⟩ := vals
    obtain ⟨hf, r, hr⟩ := (Format.Numeric.unpackFrom_eq_ok_iff numeric_packStr).mp hread
    simp only
    constructor
    · intro h
      split_ifs at h with hversion hle htype
      obtain rfl : version = 3 := not_not.mp hversion
      exact ⟨msglen, type, r, hf, hr, by omega, by omega, h⟩
    · rintro ⟨len, type', r', hf', hr', hle, htype, h⟩
      have hread' : packStr.unpackFrom buf = .ok (3, len, type', ()) :=
        (Format.Numeric.unpackFrom_eq_ok_iff numeric_packStr).mpr ⟨hf', r', hr'⟩
      obtain ⟨rfl, rfl, rfl, -⟩ : version = 3 ∧ msglen = len ∧ type = type' ∧ True := by
        simpa using Except.ok.inj (hread.symm.trans hread')
      rw [if_neg (by simp), if_neg (by omega), if_neg (by omega)]
      exact h

theorem type_le (b : Body Bgp) : b.type ≤ 5 := by
  cases b <;> simp [Body.type]

theorem readBack_of_sendable (h : m.Sendable bgp dotted) : m.ReadBack bgp dotted := by
  obtain ⟨hversion, hbody, hshort⟩ := h
  obtain ⟨tail, body, hw, -, hread⟩ := Body.parser_serializeTail hbody
  have hle := type_le m.body
  have hf : packStr.Fits (3, packStr.calcsize + tail.length, m.body.type, ()) :=
    ⟨by decide, hshort tail body hw, by omega, trivial⟩
  have hhdr := Format.length_bytes hf
  refine ⟨packStr.bytes (3, packStr.calcsize + tail.length, m.body.type, ()) ++ tail,
    ⟨3, some (packStr.calcsize + tail.length), body⟩, ?_, fun rest => ?_⟩
  · rw [serialize, hw, hversion]
    simp only [Format.pack_bytes hf]
    rfl
  · have hlen : (packStr.bytes (3, packStr.calcsize + tail.length, m.body.type, ()) ++
        tail).length = packStr.calcsize + tail.length := by
      rw [List.length_append, hhdr]
    refine parser_eq_ok_iff.2 ⟨_, _, tail ++ rest, hf, List.append_assoc .., ?_, hle, ?_⟩
    · rw [List.length_append, hlen]
      exact Nat.le_add_right _ _
    · rw [List.take_left' hlen, List.drop_left' hlen, List.drop_left' hhdr, hread]
      rfl

theorem rewritten_of_plain (h : parser bgp dotted buf = .ok (m, rest)) (hp : m.Plain bgp dotted buf)
    (hreg : m.body.Regular dotted) : m.Rewritten bgp dotted buf rest := by
  obtain ⟨len, type, r, hf, hr, hle, htype, hmap⟩ := parser_eq_ok_iff.1 h
  obtain ⟨body, hparse, heq⟩ := map_eq_ok.1 hmap
  obtain ⟨rfl, rfl⟩ := Prod.mk.inj heq
  obtain ⟨hmin, hplain⟩ := hp len rfl
  have hhdr := Format.length_bytes hf
  have htyped := Body.type_parsed hparse htype
  rw [htyped] at hplain
  have hw := Body.serializeTail_parsed hparse htype hplain hreg
  have htake : packStr.bytes (3, len, type, ()) ++ (buf.take len).drop packStr.calcsize =
      buf.take len := by
    have hfirst : (buf.take len).take packStr.calcsize = packStr.bytes (3, len, type, ()) := by
      rw [List.take_take, Nat.min_eq_left hmin, hr]
      exact List.take_left' hhdr
    rw [← hfirst]
    exact List.take_append_drop ..
  have hlen : packStr.calcsize + ((buf.take len).drop packStr.calcsize).length = len := by
    rw [List.length_drop, List.length_take_of_le hle]
    omega
  refine ⟨buf.take len, ?_, List.take_append_drop len buf⟩
  rw [serialize, hw]
  simp only [htyped, hlen, Format.pack_bytes hf, Except.map, htake]

end Message

/-- A message of the kinds that are sent is read back, and one of them that was read is serialized
to its octets if nothing in these was passed over. -/
theorem message_exact (bgp : BgpCodec Bgp) (dotted : BitVec 128 → Bool) (m : Message Bgp) :
    (m.Sendable bgp dotted → m.ReadBack bgp dotted) ∧
      ∀ buf rest, Message.parser bgp dotted buf = .ok (m, rest) → m.Plain bgp dotted buf →
        m.body.Regular dotted → m.Rewritten bgp dotted buf rest :=
  ⟨Message.readBack_of_sendable, fun _ _ => Message.rewritten_of_plain⟩

end Exact

/-- A codec that knows the update without routes only. -/
def updateCodec : BgpCodec Unit where
  serialize _ := .ok (List.replicate 16 255 ++ [0, 23, 2, 0, 0, 0, 0], ())
  parser buf :=
    if buf.take 23 = List.replicate 16 255 ++ [0, 23, 2, 0, 0, 0, 0] then .ok ((), buf.drop 23)
    else .error tooSmall

/-- A peer, and the update that was monitored. -/
def monitored : Message Unit :=
  ⟨3, none, .routeMonitoring ⟨0, true, false, 0, .v4 0, 65000, 0, 1400000000 * 10 ^ 6⟩ ()⟩

theorem sendable_monitored : monitored.Sendable updateCodec fun _ => false := by
  have hf : Peer.Fits ⟨0, true, false, 0, .v4 0, 65000, 0, 1400000000 * 10 ^ 6⟩ :=
    ⟨by decide, by decide, by decide, by decide, by decide, by decide, by decide, by decide,
      trivial⟩
  have hback : updateCodec.RoundTrips () := by
    refine ⟨_, (), rfl, fun r => ?_⟩
    have hlen : (List.replicate 16 255 ++ [0, 23, 2, 0, 0, 0, 0] : List UInt8).length = 23 := rfl
    simp only [updateCodec, List.take_left' hlen, List.drop_left' hlen, if_true]
  refine ⟨rfl, ⟨hf, hback⟩, fun tail body h => ?_⟩
  simp only [monitored, Body.serializeTail] at h
  obtain ⟨hdr, t, hhdr, ht, rfl⟩ := writeBehind_eq_ok_iff.1 h
  obtain ⟨x, hx, heq⟩ := map_eq_ok.1 ht
  obtain rfl := Except.ok.inj hx
  obtain ⟨rfl, -⟩ := Prod.mk.inj heq
  rw [List.length_append, Format.length_pack hhdr]
  decide

theorem message_exact_monitored :
    monitored.ReadBack updateCodec (fun _ => false) ∧ ∀ buf rest,
      Message.parser updateCodec (fun _ => false) buf = .ok (monitored, rest) →
        monitored.Plain updateCodec (fun _ => false) buf →
          monitored.body.Regular (fun _ => false) →
            monitored.Rewritten updateCodec (fun _ => false) buf rest :=
  ⟨(message_exact updateCodec (fun _ => false) monitored).1 sendable_monitored,
    (message_exact updateCodec (fun _ => false) monitored).2⟩

/-- A peer that is down, with a flag that is not used. -/
def unusedFlag : List UInt8 :=
  [3, 0, 0, 0, 49, 2, 0, 1] ++ (List.replicate 40 0 ++ [4])

/-- The flag is lost. -/
theorem not_rewritten : ¬ ∀ (m : Message Unit) (buf rest : List UInt8),
    Message.parser updateCodec (fun _ => false) buf = .ok (m, rest) →
      m.Rewritten updateCodec (fun _ => false) buf rest := by
  intro h
  have hparse : Message.parser updateCodec (fun _ => false) unusedFlag =
      .ok (⟨3, some 49, .peerDown ⟨0, false, false, 0, .v4 0, 0, 0, 0⟩ 4 .absent⟩, []) := by
    rfl
  obtain ⟨consumed, hserialize, heq⟩ := h _ _ _ hparse
  rw [List.append_nil] at heq
  have hwrite : Message.serialize updateCodec (fun _ => false)
      ⟨3, some 49, .peerDown ⟨0, false, false, 0, .v4 0, 0, 0, 0⟩ 4 .absent⟩ =
      .ok ([3, 0, 0, 0, 49, 2, 0, 0] ++ (List.replicate 40 0 ++ [4]),
        ⟨3, some 49, .peerDown ⟨0, false, false, 0, .v4 0, 0, 0, 0⟩ 4 .absent⟩) := rfl
  obtain ⟨rfl, -⟩ := Prod.mk.inj (Except.ok.inj (hwrite.symm.trans hserialize))
  exact absurd heq (by decide)

end Ryu.Packet.Bmp
