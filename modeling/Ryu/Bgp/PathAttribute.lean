import Ryu.Bgp.AsPathValue
import Ryu.Bgp.ExtendedCommunity

/-! # Path attributes on the wire

An attribute has one or two octets of length, which a flag tells; the serializer sets the flag
where it is needed. `parse_value` of an AGGREGATOR changes the format of its class, which all
later AGGREGATORs are read and written with.
-/

namespace Ryu.Bgp.Wire

open Bytes

section Model

def attrFlagOptional : ℕ := 1 <<< 7
def attrFlagTransitive : ℕ := 1 <<< 6
def attrFlagExtendedLength : ℕ := 1 <<< 4

/-- `a & ~b`. -/
def andNot (a b : ℕ) : ℕ := a ^^^ (a &&& b)

/-- `_VALUE_PACK_STR` of `BGPPathAttributeAggregator`: `!H4s` or `!I4s`. -/
inductive AggregatorPackStr
  | twoOctet
  | fourOctet
  deriving DecidableEq, Repr

def AggregatorPackStr.numSize : AggregatorPackStr → ℕ
  | .twoOctet => 2
  | .fourOctet => 4

@[reducible] def AggregatorPackStr.format (p : AggregatorPackStr) : Format :=
  [.num p.numSize, .str 4]

/-- The classes of attributes whose values are not modelled here. -/
inductive OtherAttrClass
  | mpReachNlri
  | mpUnreachNlri
  | pmsiTunnel
  deriving DecidableEq, Repr

/-- The classes that derive from `_PathAttribute`. -/
inductive AttrClass
  | origin
  | asPath (cls : AsPathClass)
  | nextHop
  | multiExitDisc
  | localPref
  | atomicAggregate
  | aggregator
  | as4Aggregator
  | communities
  | originatorId
  | clusterList
  | extendedCommunities
  | other (cls : OtherAttrClass)
  | unknown
  deriving DecidableEq, Repr

/-- `_lookup_type`. -/
def AttrClass.lookupType : ℕ → AttrClass
  | 1 => .origin
  | 2 => .asPath .asPath
  | 3 => .nextHop
  | 4 => .multiExitDisc
  | 5 => .localPref
  | 6 => .atomicAggregate
  | 7 => .aggregator
  | 8 => .communities
  | 9 => .originatorId
  | 10 => .clusterList
  | 14 => .other .mpReachNlri
  | 15 => .other .mpUnreachNlri
  | 16 => .extendedCommunities
  | 17 => .asPath .as4Path
  | 18 => .as4Aggregator
  | 22 => .other .pmsiTunnel
  | _ => .unknown

/-- `_ATTR_FLAGS`. -/
def AttrClass.attrFlags : AttrClass → Option ℕ
  | .origin | .asPath .asPath | .nextHop | .localPref | .atomicAggregate =>
    some attrFlagTransitive
  | .multiExitDisc | .originatorId | .clusterList | .other .mpReachNlri | .other .mpUnreachNlri =>
    some attrFlagOptional
  | .asPath .as4Path | .aggregator | .as4Aggregator | .communities | .extendedCommunities
  | .other .pmsiTunnel => some (attrFlagOptional ||| attrFlagTransitive)
  | .unknown => none

variable {V : Type}

/-- The value of an attribute by its class. An AGGREGATOR may have a format of its own. -/
inductive AttrValue (V : Type)
  | origin (value : ℕ)
  | asPath (cls : AsPathClass) (value : List AsPathSegment) (asPackStr : AsPackStr)
  | nextHop (value : Text)
  | multiExitDisc (value : ℕ)
  | localPref (value : ℕ)
  | atomicAggregate
  | aggregator (asNumber : ℕ) (addr : Text) (valuePackStr : Option AggregatorPackStr)
  | as4Aggregator (asNumber : ℕ) (addr : Text)
  | communities (communities : List ℕ)
  | originatorId (value : Text)
  | clusterList (value : List Text)
  | extendedCommunities (communities : List ExtendedCommunity)
  | other (cls : OtherAttrClass) (value : V)
  | unknown (value : List UInt8)
  deriving DecidableEq

def AttrValue.cls : AttrValue V → AttrClass
  | .origin .. => .origin
  | .asPath cls .. => .asPath cls
  | .nextHop .. => .nextHop
  | .multiExitDisc .. => .multiExitDisc
  | .localPref .. => .localPref
  | .atomicAggregate => .atomicAggregate
  | .aggregator .. => .aggregator
  | .as4Aggregator .. => .as4Aggregator
  | .communities .. => .communities
  | .originatorId .. => .originatorId
  | .clusterList .. => .clusterList
  | .extendedCommunities .. => .extendedCommunities
  | .other cls _ => .other cls
  | .unknown .. => .unknown

/-- `parse_value` and `serialize_value` of the other classes, which read and write no attribute
of a class. -/
structure OtherAttrs (V : Type) where
  parseValue : OtherAttrClass → List UInt8 → Except PyError V
  serializeValue : OtherAttrClass → V → Except PyError (List UInt8)

variable (c : AddrConv) (o : OtherAttrs V)

/-- A list of four octets each, as long as there are four: `while len(rest) >= elem_size`. -/
def parseElems (buf : List UInt8) : Except PyError (List ℕ) :=
  (readTimes (unpackFrom 4) (buf.length / 4) buf).map Prod.fst

def ipv4Text (n : ℕ) : Text := c.binToText .ipv4 n

/-- Pack an address with `!4s`. -/
def packIpv4 (addr : Text) : Except PyError (List UInt8) :=
  match toBin c .ipv4 addr with
  | .error e => .error e
  | .ok bin => Format.pack [.str 4] (bin, ())

/-- `parse_value`, with the format that the class of AGGREGATOR has when it is read. -/
def AttrClass.parseValue (p : AggregatorPackStr) :
    AttrClass → List UInt8 → Except PyError (AttrValue V)
  | .origin, buf => (Format.unpackFrom [.num 1] buf).map fun (value, _) => .origin value
  | .asPath cls, buf => (cls.parseValue buf).map fun (value, w) => .asPath cls value w
  | .nextHop, buf => (Format.unpackFrom [.str 4] buf).map
      fun (ipAddr, _) => .nextHop (ipv4Text c (ofBytes ipAddr))
  | .multiExitDisc, buf =>
    (Format.unpackFrom [.num 4] buf).map fun (value, _) => .multiExitDisc value
  | .localPref, buf => (Format.unpackFrom [.num 4] buf).map fun (value, _) => .localPref value
  | .atomicAggregate, _ => .ok .atomicAggregate
  | .aggregator, buf => (p.format.unpackFrom buf).map
      fun (asNumber, addr, _) => .aggregator asNumber (ipv4Text c (ofBytes addr)) none
  | .as4Aggregator, buf => (Format.unpackFrom [.num 4, .str 4] buf).map
      fun (asNumber, addr, _) => .as4Aggregator asNumber (ipv4Text c (ofBytes addr))
  | .communities, buf => (parseElems buf).map .communities
  | .originatorId, buf => (Format.unpackFrom [.str 4] buf).map
      fun (ipAddr, _) => .originatorId (ipv4Text c (ofBytes ipAddr))
  | .clusterList, buf => (parseElems buf).map fun ids => .clusterList (ids.map (ipv4Text c))
  | .extendedCommunities, buf =>
    ((extendedCommunityDecoder c).readAll buf).map .extendedCommunities
  | .other cls, buf => (o.parseValue cls buf).map (.other cls)
  | .unknown, buf => .ok (.unknown buf)

/-- What `parse_value` leaves as the format of the class of AGGREGATOR. -/
def AttrClass.packStrAfter (p : AggregatorPackStr) (cls : AttrClass) (buf : List UInt8) :
    AggregatorPackStr :=
  if cls = .aggregator ∧ buf.length = 8 then .fourOctet else p

/-- The format that `serialize_value` sets for an AGGREGATOR itself. -/
def AttrValue.fixup : AttrValue V → AttrValue V
  | .aggregator asNumber addr own =>
    .aggregator asNumber addr (if asNumber > 0xffff then some .fourOctet else own)
  | value => value

/-- `serialize_value`. -/
def AttrValue.serializeValue (p : AggregatorPackStr) :
    AttrValue V → Except PyError (List UInt8)
  | .origin value => Format.pack [.num 1] (value, ())
  | .asPath _ value asPackStr => serializeAsPath asPackStr value
  | .nextHop value => packIpv4 c value
  | .multiExitDisc value => Format.pack [.num 4] (value, ())
  | .localPref value => Format.pack [.num 4] (value, ())
  | .atomicAggregate => .ok []
  | .aggregator asNumber addr own =>
    match toBin c .ipv4 addr with
    | .error e => .error e
    | .ok bin => (own.getD p).format.pack (asNumber, bin, ())
  | .as4Aggregator asNumber addr =>
    match toBin c .ipv4 addr with
    | .error e => .error e
    | .ok bin => Format.pack [.num 4, .str 4] (asNumber, bin, ())
  | .communities comms => writeAll (packInto 4) comms
  | .originatorId value => packIpv4 c value
  | .clusterList value => writeAll (packIpv4 c) value
  | .extendedCommunities comms => writeAll (ExtendedCommunity.serialize c) comms
  | .other cls value => o.serializeValue cls value
  | .unknown value => .ok value

/-- `_PathAttribute`. -/
structure PathAttribute (V : Type) where
  flags : ℕ
  type : ℕ
  length : Option ℕ
  value : AttrValue V
  deriving DecidableEq

/-- What `_PathAttribute.parser` reads before the value is parsed: flags, type, length, value. -/
def PathAttribute.frame (buf : List UInt8) :
    Except PyError ((ℕ × ℕ × ℕ × List UInt8) × List UInt8) :=
  match Format.unpackFrom [.num 1, .num 1] buf with
  | .error e => .error e
  | .ok (flags, type, _) =>
    let size := if flags &&& attrFlagExtendedLength ≠ 0 then 2 else 1
    (unpackFrom size (buf.drop 2)).map fun (length, rest) =>
      ((flags, type, length, rest.take length), rest.drop length)

/-- `_PathAttribute.parser`, beside the format it leaves. -/
def PathAttribute.parser (p : AggregatorPackStr) (buf : List UInt8) :
    Except PyError (PathAttribute V × List UInt8) × AggregatorPackStr :=
  match PathAttribute.frame buf with
  | .error e => (.error e, p)
  | .ok ((flags, type, length, value), rest) =>
    let subcls := AttrClass.lookupType type
    let p' := subcls.packStrAfter p value
    ((subcls.parseValue c o p' value).map fun v => (⟨flags, type, some length, v⟩, rest), p')

theorem length_of_frame {buf rest : List UInt8} {x : ℕ × ℕ × ℕ × List UInt8}
    (h : PathAttribute.frame buf = .ok (x, rest)) : rest.length < buf.length := by
  unfold PathAttribute.frame at h
  split at h
  · cases h
  · simp only at h
    obtain ⟨⟨length, r⟩, hread, heq⟩ := map_eq_ok.1 h
    obtain ⟨-, rfl⟩ := Prod.mk.inj heq
    have hlen := length_of_unpackFrom hread
    have hle : (r.drop length).length ≤ r.length := (List.drop_sublist length r).length_le
    rw [List.length_drop] at hlen
    refine hle.trans_lt ?_
    split at hlen <;> omega

/-- `while binpathattrs` in `BGPUpdate.parser`. -/
def attributeDecoder : StateDecoder AggregatorPackStr PyError UInt8 (PathAttribute V) where
  read := PathAttribute.parser c o
  read_lt := by
    intro p p' b r a h
    unfold PathAttribute.parser at h
    split at h
    · cases h
    · next hframe =>
      obtain ⟨hval, -⟩ := Prod.mk.inj h
      obtain ⟨v, -, heq⟩ := map_eq_ok.1 hval
      obtain ⟨-, rfl⟩ := Prod.mk.inj heq
      exact length_of_frame hframe

/-- The flags that `serialize` sets before it knows the length. -/
def AttrClass.fixFlags (cls : AttrClass) (flags : ℕ) : ℕ :=
  match cls.attrFlags with
  | some attrFlags => andNot flags (attrFlagOptional ||| attrFlagTransitive) ||| attrFlags
  | none => flags

/-- The flags, and how many octets the length gets. -/
def extendedLength (flags length : ℕ) : ℕ × ℕ :=
  if flags &&& attrFlagExtendedLength ≠ 0 then (flags, 2)
  else if length > 255 then (flags ||| attrFlagExtendedLength, 2)
  else (andNot flags attrFlagExtendedLength, 1)

/-- `_PathAttribute.serialize`, beside the attribute it leaves. -/
def PathAttribute.serialize (p : AggregatorPackStr) (a : PathAttribute V) :
    Except PyError (List UInt8 × PathAttribute V) :=
  let v := a.value.fixup
  match v.serializeValue c o p with
  | .error e => .error e
  | .ok value =>
    let (flags, size) := extendedLength (a.value.cls.fixFlags a.flags) value.length
    match Format.pack [.num 1, .num 1] (flags, a.type, ()), packInto size value.length with
    | .error e, _ => .error e
    | _, .error e => .error e
    | .ok hdr, .ok length =>
      .ok (hdr ++ length ++ value, ⟨flags, a.type, some value.length, v⟩)

/-- The values that are read back: those of the classes of the unicast attributes without AS
numbers, with addresses as they are printed. -/
def AttrValue.Readable : AttrValue V → Prop
  | .origin _ | .multiExitDisc _ | .localPref _ | .atomicAggregate | .communities _ | .unknown _ =>
    True
  | .nextHop value | .originatorId value => ∃ v < 256 ^ 4, value = ipv4Text c v
  | .clusterList value => ∃ ids : List ℕ, (∀ v ∈ ids, v < 256 ^ 4) ∧ value = ids.map (ipv4Text c)
  | .extendedCommunities comms => ∀ comm ∈ comms, comm.Readable c
  | .asPath .. | .aggregator .. | .as4Aggregator .. | .other .. => False

structure PathAttribute.Readable (a : PathAttribute V) : Prop where
  cls : AttrClass.lookupType a.type = a.value.cls
  value : a.value.Readable c

end Model

section RoundTrip

variable {V : Type} {c : AddrConv} {o : OtherAttrs V} {p : AggregatorPackStr}
variable {v : AttrValue V} {a a' : PathAttribute V} {b : List UInt8}

theorem andNot_and (m n : ℕ) : andNot m n &&& n = 0 := by
  apply Nat.eq_of_testBit_eq
  intro i
  simp only [andNot, Nat.testBit_and, Nat.testBit_xor, Nat.zero_testBit]
  cases m.testBit i <;> cases n.testBit i <;> rfl

theorem or_and_self (m n : ℕ) : (m ||| n) &&& n = n := by
  apply Nat.eq_of_testBit_eq
  intro i
  simp only [Nat.testBit_and, Nat.testBit_or]
  cases m.testBit i <;> cases n.testBit i <;> rfl

/-- The flag tells how many octets the length has. -/
theorem extendedLength_size (flags length : ℕ) :
    (extendedLength flags length).2 =
      if (extendedLength flags length).1 &&& attrFlagExtendedLength ≠ 0 then 2 else 1 := by
  unfold extendedLength
  split
  · rfl
  split
  · rw [or_and_self]
    rfl
  · rw [andNot_and]
    rfl

theorem frame_serialize (h : a.serialize c o p = .ok (b, a')) (r : List UInt8) :
    ∃ value, a.value.fixup.serializeValue c o p = .ok value ∧
      PathAttribute.frame (b ++ r) = .ok ((a'.flags, a'.type, value.length, value), r) ∧
      a' = ⟨(extendedLength (a.value.cls.fixFlags a.flags) value.length).1, a.type,
        some value.length, a.value.fixup⟩ := by
  unfold PathAttribute.serialize at h
  cases hvalue : a.value.fixup.serializeValue c o p with
  | error e =>
    simp only [hvalue] at h
    cases h
  | ok value =>
    simp only [hvalue] at h
    split at h
    · cases h
    · cases h
    · next hdr length hhdr hlength =>
      obtain ⟨rfl, rfl⟩ := Prod.mk.inj (Except.ok.inj h)
      refine ⟨value, rfl, ?_, rfl⟩
      have hread := Format.unpackFrom_pack hhdr trivial (length ++ value ++ r)
      have hdrop : (hdr ++ (length ++ (value ++ r))).drop 2 = length ++ (value ++ r) :=
        List.drop_left' (Format.length_pack hhdr)
      rw [extendedLength_size] at hlength
      have hsize := unpackFrom_packInto hlength (value ++ r)
      simp only [List.append_assoc] at hread ⊢
      rw [PathAttribute.frame, hread]
      simp only [hdrop, hsize]
      rw [Except.map, List.take_left, List.drop_left]

theorem packIpv4_ipv4Text {n : ℕ} (hn : n < 256 ^ 4) :
    packIpv4 c (ipv4Text c n) = .ok (toBytes 4 n) := by
  rw [packIpv4, ipv4Text, toBin_printed .ipv4 hn]
  change (Except.ok [] : Except PyError (List UInt8)).map _ = _
  simp [Except.map, padRight, List.take_of_length_le, AddrKind.size]

theorem unpackFrom_packIpv4 {n : ℕ} (hn : n < 256 ^ 4) (h : packIpv4 c (ipv4Text c n) = .ok b) :
    Format.unpackFrom [.str 4] b = .ok (b, ()) ∧ ipv4Text c (ofBytes b) = ipv4Text c n := by
  obtain rfl := Except.ok.inj ((packIpv4_ipv4Text hn).symm.trans h)
  refine ⟨?_, congrArg (ipv4Text c) (ofBytes_toBytes_of_lt hn)⟩
  rw [Format.unpackFrom, if_neg (by simp [Format.calcsize])]
  simp [Format.unpack, List.take_of_length_le]

theorem length_writeAll_packInto {size : ℕ} {l : List ℕ} (h : writeAll (packInto size) l = .ok b) :
    b.length = size * l.length := by
  induction l generalizing b with
  | nil =>
    obtain rfl := Except.ok.inj h
    rfl
  | cons n l ih =>
    obtain ⟨a, rest, ha, hrest, rfl⟩ := writeAll_cons_ok h
    obtain ⟨-, rfl⟩ := packInto_eq_ok.1 ha
    rw [List.length_append, length_toBytes, ih hrest, List.length_cons]
    ring

theorem parseElems_writeAll {l : List ℕ} (h : writeAll (packInto 4) l = .ok b) :
    parseElems b = .ok l := by
  have hcount : b.length / 4 = l.length := by
    rw [length_writeAll_packInto h]
    omega
  have hread := readTimes_writeAll (fun n _ b' hb r => unpackFrom_packInto hb r) h []
  rw [List.append_nil] at hread
  rw [parseElems, hcount, hread]
  rfl

/-- A value that serializes to octets is read back from them. -/
theorem AttrValue.Readable.parseValue (h : v.Readable c) (hs : v.serializeValue c o p = .ok b)
    (p' : AggregatorPackStr) : v.cls.parseValue c o p' b = .ok v := by
  cases v with
  | origin value =>
    have hread := Format.unpackFrom_packed hs trivial
    simp only [AttrValue.cls, AttrClass.parseValue, hread]
    rfl
  | multiExitDisc value =>
    have hread := Format.unpackFrom_packed hs trivial
    simp only [AttrValue.cls, AttrClass.parseValue, hread]
    rfl
  | localPref value =>
    have hread := Format.unpackFrom_packed hs trivial
    simp only [AttrValue.cls, AttrClass.parseValue, hread]
    rfl
  | atomicAggregate => rfl
  | unknown value =>
    obtain rfl := Except.ok.inj hs
    rfl
  | communities comms =>
    simp only [AttrValue.cls, AttrClass.parseValue, parseElems_writeAll hs]
    rfl
  | nextHop value =>
    obtain ⟨n, hn, rfl⟩ := h
    obtain ⟨hread, htext⟩ := unpackFrom_packIpv4 hn hs
    simp only [AttrValue.cls, AttrClass.parseValue, hread]
    exact congrArg (fun t => Except.ok (AttrValue.nextHop t)) htext
  | originatorId value =>
    obtain ⟨n, hn, rfl⟩ := h
    obtain ⟨hread, htext⟩ := unpackFrom_packIpv4 hn hs
    simp only [AttrValue.cls, AttrClass.parseValue, hread]
    exact congrArg (fun t => Except.ok (AttrValue.originatorId t)) htext
  | clusterList value =>
    obtain ⟨ids, hids, rfl⟩ := h
    have hwrite : writeAll (packInto 4) ids = .ok b := by
      rw [← hs, AttrValue.serializeValue]
      refine (writeAll_map fun n hn => ?_).symm
      rw [packIpv4_ipv4Text (hids n hn), packInto, if_pos (hids n hn)]
    simp only [AttrValue.cls, AttrClass.parseValue, parseElems_writeAll hwrite]
    rfl
  | extendedCommunities comms =>
    have hread : (extendedCommunityDecoder c).readAll b = .ok (comms.map id) :=
      Decoder.readAll_writeAll (fun comm hc b' hb r => (h comm hc).parse_serialize hb r) hs
    simp only [AttrValue.cls, AttrClass.parseValue, hread, List.map_id]
    rfl
  | asPath | aggregator | as4Aggregator | other => cases h

theorem AttrValue.Readable.cls_ne (h : v.Readable c) : v.cls ≠ .aggregator ∧ v.fixup = v := by
  cases v with
  | aggregator => cases h
  | _ => exact ⟨by simp [AttrValue.cls], rfl⟩

/-- An attribute that serializes to octets is read back as it is left. -/
theorem PathAttribute.Readable.parser_serialize (h : a.Readable c)
    (hs : a.serialize c o p = .ok (b, a')) (r : List UInt8) :
    PathAttribute.parser c o p (b ++ r) = (.ok (a', r), p) ∧ a'.type = a.type ∧
      a'.value = a.value := by
  obtain ⟨value, hvalue, hframe, rfl⟩ := frame_serialize hs r
  obtain ⟨hcls, hfix⟩ := h.value.cls_ne
  rw [hfix] at hvalue ⊢
  have hafter : a.value.cls.packStrAfter p value = p := if_neg fun hc => hcls hc.1
  refine ⟨?_, rfl, rfl⟩
  rw [PathAttribute.parser, hframe]
  simp only [h.cls, hafter, h.value.parseValue hvalue]
  rfl

end RoundTrip

end Ryu.Bgp.Wire
