import Ryu.Bgp.PathAttribute

/-! # UPDATE messages on the wire

The length of a message, those of its withdrawn routes and of its attributes, and that of each
attribute are all set by the serializer, and the parser reads by them.
-/

namespace Ryu.Bgp.Wire

open Bytes

section Model

variable {V M : Type}

/-- `BGPUpdate`, beside the header. -/
structure BGPUpdate (V : Type) where
  withdrawnRoutesLen : Option ℕ
  withdrawnRoutes : List AddrPrefix
  totalPathAttributeLen : Option ℕ
  pathAttributes : List (PathAttribute V)
  nlri : List AddrPrefix
  deriving DecidableEq

/-- What a class that derives from `BGPMessage` adds to it. -/
inductive MessageBody (V M : Type)
  | update (u : BGPUpdate V)
  | other (m : M)
  deriving DecidableEq

structure BGPMessage (V M : Type) where
  marker : List UInt8
  len : Option ℕ
  type : ℕ
  body : MessageBody V M
  deriving DecidableEq

/-- `parser` and `serialize_tail` of the other classes of messages. -/
structure OtherMessages (M : Type) where
  parser : ℕ → List UInt8 → Except PyError M
  serializeTail : M → Except PyError (List UInt8 × M)

def bgpMsgUpdate : ℕ := 2
def bgpMarker : List UInt8 := List.replicate 16 0xff
def bgpHdrLen : ℕ := 19

@[reducible] def hdrPackStr : Format := [.str 16, .num 2, .num 1]

/-- Raised by `BGPMessage.parser` while a message is not complete. -/
def tooSmall : PyError := .other "TooSmallException"

variable (c : AddrConv) (o : OtherAttrs V) (om : OtherMessages M)

/-- `BGPWithdrawnRoute.parser` and `BGPNLRI.parser`, in a loop. -/
def routeDecoder : Decoder PyError UInt8 AddrPrefix where
  read := AddrPrefix.parser c .ipv4
  read_lt := AddrPrefix.parser_lt

def serializeRoute (n : AddrPrefix) : Except PyError (List UInt8 × AddrPrefix) :=
  (n.serialize c .ipv4).1.map fun b => (b, (n.serialize c .ipv4).2)

/-- The sections of an UPDATE, the first two with their lengths. -/
structure Sections where
  withdrawnRoutesLen : ℕ
  binroutes : List UInt8
  totalPathAttributeLen : ℕ
  binpathattrs : List UInt8
  binnlri : List UInt8

/-- What `BGPUpdate.parser` cuts out before it parses anything. -/
def Sections.read (buf : List UInt8) : Except PyError Sections :=
  match unpackFrom 2 buf with
  | .error e => .error e
  | .ok (withdrawnRoutesLen, rest) =>
    (unpackFrom 2 (rest.drop withdrawnRoutesLen)).map fun (totalPathAttributeLen, rest') =>
      ⟨withdrawnRoutesLen, rest.take withdrawnRoutesLen, totalPathAttributeLen,
        rest'.take totalPathAttributeLen, rest'.drop totalPathAttributeLen⟩

/-- `BGPUpdate.parser`. -/
def BGPUpdate.parser (p : AggregatorPackStr) (buf : List UInt8) :
    Except PyError (BGPUpdate V) × AggregatorPackStr :=
  match Sections.read buf with
  | .error e => (.error e, p)
  | .ok x =>
    match (routeDecoder c).readAll x.binroutes with
    | .error e => (.error e, p)
    | .ok withdrawnRoutes =>
      match (attributeDecoder c o).readAll p x.binpathattrs with
      | (.error e, p') => (.error e, p')
      | (.ok pathAttributes, p') =>
        (((routeDecoder c).readAll x.binnlri).map fun nlri =>
          ⟨some x.withdrawnRoutesLen, withdrawnRoutes, some x.totalPathAttributeLen,
            pathAttributes, nlri⟩, p')

/-- `BGPUpdate.serialize_tail`, beside the message it leaves. -/
def BGPUpdate.serializeTail (p : AggregatorPackStr) (u : BGPUpdate V) :
    Except PyError (List UInt8 × BGPUpdate V) :=
  match writeEach (serializeRoute c) u.withdrawnRoutes with
  | .error e => .error e
  | .ok (binroutes, withdrawnRoutes) =>
    match writeEach (PathAttribute.serialize c o p) u.pathAttributes with
    | .error e => .error e
    | .ok (binpathattrs, pathAttributes) =>
      match writeEach (serializeRoute c) u.nlri with
      | .error e => .error e
      | .ok (binnlri, nlri) =>
        match packInto 2 binroutes.length, packInto 2 binpathattrs.length with
        | .error e, _ => .error e
        | _, .error e => .error e
        | .ok withdrawnRoutesLen, .ok totalPathAttributeLen =>
          .ok (withdrawnRoutesLen ++ (binroutes ++ (totalPathAttributeLen ++
              (binpathattrs ++ binnlri))),
            ⟨some binroutes.length, withdrawnRoutes, some binpathattrs.length, pathAttributes,
              nlri⟩)

/-- A message as it is framed. -/
structure Framed where
  marker : List UInt8
  len : ℕ
  type : ℕ
  binmsg : List UInt8
  rest : List UInt8

/-- What `BGPMessage.parser` reads before the class of the message parses its part. -/
def Framed.read (buf : List UInt8) : Except PyError Framed :=
  if buf.length < bgpHdrLen then .error tooSmall
  else
    match hdrPackStr.unpackFrom buf with
    | .error e => .error e
    | .ok (marker, len, type, _) =>
      if buf.length < len then .error tooSmall
      else .ok ⟨marker, len, type, (buf.take len).drop bgpHdrLen, buf.drop len⟩

/-- `BGPMessage.parser`. -/
def BGPMessage.parser (p : AggregatorPackStr) (buf : List UInt8) :
    Except PyError (BGPMessage V M × List UInt8) × AggregatorPackStr :=
  match Framed.read buf with
  | .error e => (.error e, p)
  | .ok x =>
    if x.type = bgpMsgUpdate then
      let (u, p') := BGPUpdate.parser c o p x.binmsg
      (u.map fun u => (⟨x.marker, some x.len, x.type, .update u⟩, x.rest), p')
    else
      ((om.parser x.type x.binmsg).map fun m =>
        (⟨x.marker, some x.len, x.type, .other m⟩, x.rest), p)

def MessageBody.serializeTail (p : AggregatorPackStr) :
    MessageBody V M → Except PyError (List UInt8 × MessageBody V M)
  | .update u => (u.serializeTail c o p).map fun x => (x.1, .update x.2)
  | .other m => (om.serializeTail m).map fun x => (x.1, .other x.2)

/-- `BGPMessage.serialize`, beside the message it leaves. -/
def BGPMessage.serialize (p : AggregatorPackStr) (m : BGPMessage V M) :
    Except PyError (List UInt8 × BGPMessage V M) :=
  match m.body.serializeTail c o om p with
  | .error e => .error e
  | .ok (tail, body) =>
    let len := bgpHdrLen + tail.length
    (hdrPackStr.pack (bgpMarker, len, m.type, ())).map fun hdr =>
      (hdr ++ tail, ⟨bgpMarker, some len, m.type, body⟩)

/-- A route that is read back: at most 32 bits of a printed address, and no host bits. -/
structure ReadableRoute (n : AddrPrefix) : Prop where
  printed : Printed c .ipv4 n
  length_le : n.length ≤ 32
  hostBitsClear : HostBitsClear c .ipv4 n

structure BGPUpdate.Readable (u : BGPUpdate V) : Prop where
  withdrawnRoutes : ∀ n ∈ u.withdrawnRoutes, ReadableRoute c n
  pathAttributes : ∀ a ∈ u.pathAttributes, a.Readable c
  nlri : ∀ n ∈ u.nlri, ReadableRoute c n

end Model

section RoundTrip

variable {V M : Type} {c : AddrConv} {o : OtherAttrs V} {om : OtherMessages M}
variable {p : AggregatorPackStr} {u u' : BGPUpdate V} {n n' : AddrPrefix} {b : List UInt8}

theorem length_binAddr {bin : List UInt8} (h : n.binAddr c .ipv4 = .ok bin) (hn : Printed c .ipv4 n)
    (hl : n.length ≤ 32) : bin.length = (n.length + 7) / 8 := by
  obtain ⟨v, hv, haddr⟩ := hn
  have hsize : (toBytes AddrKind.ipv4.size v).length = 4 := length_toBytes ..
  unfold AddrPrefix.binAddr at h
  rw [haddr, toBin_printed .ipv4 hv] at h
  simp only at h
  split at h
  · obtain rfl := Except.ok.inj h
    rw [List.length_take, hsize]
    omega
  · split at h
    · cases h
    · obtain rfl := Except.ok.inj h
      rw [List.length_append, List.length_take, hsize, List.length_singleton]
      omega

/-- A route is read back as it is. -/
theorem ReadableRoute.parser_serialize (h : ReadableRoute c n)
    (hs : serializeRoute c n = .ok (b, n')) (r : List UInt8) :
    AddrPrefix.parser c .ipv4 (b ++ r) = .ok (n', r) ∧ n' = n := by
  obtain ⟨b', hb, heq⟩ := map_eq_ok.1 hs
  obtain ⟨rfl, rfl⟩ := Prod.mk.inj heq
  have hkeep := (serialize_eq_iff h.printed).mpr h.hostBitsClear
  rw [hkeep]
  refine ⟨?_, rfl⟩
  cases hbin : n.binAddr c .ipv4 with
  | error e =>
    rw [AddrPrefix.serialize, hbin] at hb
    cases hb
  | ok bin =>
    have hlen := length_binAddr hbin h.printed h.length_le
    have hle : bin.length ≤ AddrKind.ipv4.size := by
      have hsize : AddrKind.ipv4.size = 4 := rfl
      have hn := h.length_le
      omega
    have haddr := serialize_ok hbin hle
    rw [hkeep] at haddr
    rw [AddrPrefix.serialize, hbin] at hb
    simp only [fromBin_ok hle] at hb
    obtain rfl := Except.ok.inj hb
    have hnat : (UInt8.ofNat n.length).toNat = n.length := by
      have hn := h.length_le
      rw [UInt8.toNat_ofNat']
      omega
    rw [List.cons_append, AddrPrefix.parser, hnat, ← hlen, List.take_left, List.drop_left,
      fromBin_ok hle, Except.map, ← haddr]

theorem readAll_routes {l l' : List AddrPrefix} (h : ∀ n ∈ l, ReadableRoute c n)
    (hs : writeEach (serializeRoute c) l = .ok (b, l')) :
    (routeDecoder c).readAll b = .ok l' ∧ l' = l := by
  refine ⟨Decoder.readAll_writeEach (fun n hn b n' hb r =>
    ((h n hn).parser_serialize hb r).1) hs, ?_⟩
  have hid := map_writeEach (f := id) (fun n hn b n' hb => ((h n hn).parser_serialize hb []).2) hs
  rwa [List.map_id, List.map_id] at hid

/-- The message as it was, beside what the serializer sets. -/
structure BGPUpdate.Alike (u u' : BGPUpdate V) : Prop where
  withdrawnRoutes : u'.withdrawnRoutes = u.withdrawnRoutes
  pathAttributes : u'.pathAttributes.map (fun a => (a.type, a.value)) =
    u.pathAttributes.map fun a => (a.type, a.value)
  nlri : u'.nlri = u.nlri

theorem BGPUpdate.Readable.parser_serialize (h : u.Readable c)
    (hs : u.serializeTail c o p = .ok (b, u')) :
    BGPUpdate.parser c o p b = (.ok u', p) ∧ u.Alike u' := by
  unfold BGPUpdate.serializeTail at hs
  split at hs
  · cases hs
  · next binroutes routes hroutes =>
    split at hs
    · cases hs
    · next binattrs attrs hattrs =>
      split at hs
      · cases hs
      · next binnlri nlri hnlri =>
        split at hs
        · cases hs
        · cases hs
        · next wlen alen hwlen halen =>
          obtain ⟨rfl, rfl⟩ := Prod.mk.inj (Except.ok.inj hs)
          obtain ⟨hreadr, hr⟩ := readAll_routes h.withdrawnRoutes hroutes
          obtain ⟨hreadn, hn⟩ := readAll_routes h.nlri hnlri
          have hreada : (attributeDecoder c o).readAll p binattrs = (.ok attrs, p) :=
            StateDecoder.readAll_writeEach (fun a ha b a' hb r =>
              ((h.pathAttributes a ha).parser_serialize hb r).1) hattrs
          refine ⟨?_, hr, map_writeEach (fun a ha b a' hb => ?_) hattrs, hn⟩
          · have hsec : Sections.read (wlen ++ (binroutes ++ (alen ++ (binattrs ++ binnlri)))) =
                .ok ⟨binroutes.length, binroutes, binattrs.length, binattrs, binnlri⟩ := by
              rw [Sections.read, unpackFrom_packInto hwlen]
              simp only [List.drop_left, List.take_left, unpackFrom_packInto halen]
              rw [Except.map, List.take_left, List.drop_left]
            rw [BGPUpdate.parser, hsec]
            simp only [hreadr, hreada, hreadn]
            rfl
          · obtain ⟨-, htype, hvalue⟩ := (h.pathAttributes a ha).parser_serialize hb []
            simp only [htype, hvalue]

/-- An UPDATE that serializes is read back as it is left, with nothing behind it. -/
theorem update_readsBack (c : AddrConv) (o : OtherAttrs V) (om : OtherMessages M)
    (p : AggregatorPackStr) (marker : List UInt8) (len : Option ℕ) (u : BGPUpdate V)
    (hu : u.Readable c) (b : List UInt8) (m : BGPMessage V M)
    (hs : BGPMessage.serialize c o om p ⟨marker, len, bgpMsgUpdate, .update u⟩ = .ok (b, m)) :
    BGPMessage.parser c o om p b = (.ok (m, []), p) ∧
      ∃ u', m = ⟨bgpMarker, some b.length, bgpMsgUpdate, .update u'⟩ ∧ u.Alike u' := by
  unfold BGPMessage.serialize at hs
  split at hs
  · cases hs
  · next tail body hbody =>
    obtain ⟨x, htail, heq⟩ := map_eq_ok.1 hbody
    obtain ⟨rfl, rfl⟩ := Prod.mk.inj heq
    obtain ⟨hdr, hhdr, heq⟩ := map_eq_ok.1 hs
    obtain ⟨rfl, rfl⟩ := Prod.mk.inj heq
    obtain ⟨hparse, halike⟩ := hu.parser_serialize htail
    have hlen : hdr.length = bgpHdrLen := Format.length_pack hhdr
    have hall : (hdr ++ x.1).length = bgpHdrLen + x.1.length := by
      rw [List.length_append, hlen]
    have hread := Format.unpackFrom_pack hhdr ⟨rfl, trivial⟩ x.1
    have htake : (hdr ++ x.1).take (bgpHdrLen + x.1.length) = hdr ++ x.1 :=
      List.take_of_length_le hall.le
    have hdrop : (hdr ++ x.1).drop (bgpHdrLen + x.1.length) = [] :=
      List.drop_eq_nil_of_le hall.le
    have htail : (hdr ++ x.1).drop bgpHdrLen = x.1 := List.drop_left' hlen
    refine ⟨?_, x.2, by rw [hall], halike⟩
    have hframe : Framed.read (hdr ++ x.1) =
        .ok ⟨bgpMarker, bgpHdrLen + x.1.length, bgpMsgUpdate, x.1, []⟩ := by
      rw [Framed.read, if_neg (by omega), hread]
      simp only [hall, lt_irrefl, if_false, htake, hdrop, htail]
    rw [BGPMessage.parser, hframe]
    simp only [if_true, hparse]
    rfl

/-- No attribute of another class, and no other message. -/
def noAttrs : OtherAttrs Empty where
  parseValue _ _ := .error structError
  serializeValue _ v := nomatch v

def noMessages : OtherMessages Empty where
  parser _ _ := .error structError
  serializeTail m := nomatch m

/-- A route withdrawn and one announced, a next hop, a community, and 256 octets of an attribute
that is not known. -/
def mixedUpdate : BGPUpdate Empty where
  withdrawnRoutesLen := none
  withdrawnRoutes := [⟨8, "10.0.0.0".toList⟩]
  totalPathAttributeLen := none
  pathAttributes := [⟨0, 3, none, .nextHop "192.0.2.1".toList⟩,
    ⟨0xc0, 16, none, .extendedCommunities [⟨0, .twoOctetAsSpecific 2 65000 100⟩]⟩,
    ⟨0xe0, 99, none, .unknown (List.replicate 256 7)⟩]
  nlri := [⟨24, "198.51.100.0".toList⟩]

theorem mixedUpdate_readable : mixedUpdate.Readable plainConv := by
  have hroute : ∀ l v, v < 256 ^ 4 → l ≤ 32 → v % 2 ^ (32 - l) = 0 →
      ReadableRoute plainConv ⟨l, plainText .ipv4 v⟩ := by
    intro l v hv hl hclear
    refine ⟨⟨v, hv, rfl⟩, hl, ?_⟩
    rw [HostBitsClear, value_printed hv rfl]
    exact hclear
  refine ⟨fun n hn => ?_, fun a ha => ?_, fun n hn => ?_⟩
  · obtain rfl := List.mem_singleton.mp hn
    exact hroute 8 0x0a000000 (by decide) (by decide) (by decide)
  · simp only [mixedUpdate, List.mem_cons, List.not_mem_nil, or_false] at ha
    rcases ha with rfl | rfl | rfl
    · exact ⟨rfl, 0xc0000201, by decide, by decide +kernel⟩
    · refine ⟨rfl, fun comm hc => ?_⟩
      obtain rfl := List.mem_singleton.mp hc
      exact ⟨rfl, trivial⟩
    · exact ⟨rfl, trivial⟩
  · obtain rfl := List.mem_singleton.mp hn
    exact hroute 24 0xc6336400 (by decide) (by decide) (by decide)

theorem mixedUpdate_readsBack : ∃ b m,
    BGPMessage.serialize plainConv noAttrs noMessages .twoOctet
      ⟨bgpMarker, none, bgpMsgUpdate, .update mixedUpdate⟩ = .ok (b, m) ∧
    BGPMessage.parser plainConv noAttrs noMessages .twoOctet b = (.ok (m, []), .twoOctet) := by
  have hok : (BGPMessage.serialize plainConv noAttrs noMessages .twoOctet
      ⟨bgpMarker, none, bgpMsgUpdate, .update mixedUpdate⟩).isOk = true := by decide +kernel
  obtain ⟨⟨b, m⟩, hs⟩ := isOk_iff.1 hok
  exact ⟨b, m, hs, (update_readsBack plainConv noAttrs noMessages .twoOctet bgpMarker none
    mixedUpdate mixedUpdate_readable b m hs).1⟩

/-- A community of the opaque class with the subtype of encapsulations. -/
def opaqueUpdate : BGPUpdate Empty where
  withdrawnRoutesLen := none
  withdrawnRoutes := []
  totalPathAttributeLen := none
  pathAttributes := [⟨0xc0, 16, none,
    .extendedCommunities [⟨3, .opaqueSpecific 0x0c [1, 2, 3, 4, 5, 6]⟩]⟩]
  nlri := []

/-- The parser takes it for an encapsulation, of which two of the six octets are left. -/
theorem opaqueUpdate_misread : ¬∀ b m,
    BGPMessage.serialize plainConv noAttrs noMessages .twoOctet
      ⟨bgpMarker, none, bgpMsgUpdate, .update opaqueUpdate⟩ = .ok (b, m) →
    BGPMessage.parser plainConv noAttrs noMessages .twoOctet b = (.ok (m, []), .twoOctet) := by
  intro h
  have hread := h _ _ rfl
  revert hread
  decide +kernel

end RoundTrip

end Ryu.Bgp.Wire
