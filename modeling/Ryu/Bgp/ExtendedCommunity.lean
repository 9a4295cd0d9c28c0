import Ryu.Lib.Struct
import Ryu.Bgp.AddrPrefix

/-! # Extended communities

Eight octets each. Which class reads the last seven is decided by the type and the first of
these, so a community is read back if it is of the class that its type and subtype designate, and
if its fields are what the octets say.
-/

namespace Ryu.Bgp.Wire

open Bytes

section Model

/-- The classes that derive from `_ExtendedCommunity`. -/
inductive ExtCommClass
  | twoOctetAsSpecific
  | ipv4AddressSpecific
  | fourOctetAsSpecific
  | opaqueSpecific
  | encapsulation
  | evpnMacMobility
  | evpnEsiLabel
  | evpnEsImportRT
  | flowSpecTrafficRate
  | flowSpecTrafficAction
  | flowSpecRedirect
  | flowSpecTrafficMarking
  | flowSpecVlanAction
  | flowSpecTPIDAction
  | unknown
  deriving DecidableEq, Repr

/-- The fields of a community beside its type. The constructors of the flow specification classes
set their subtypes. A rate is given by the octets of its single precision form. -/
inductive ExtCommFields
  | twoOctetAsSpecific (subtype asNumber localAdministrator : ℕ)
  | ipv4AddressSpecific (subtype : ℕ) (ipv4Address : Text) (localAdministrator : ℕ)
  | fourOctetAsSpecific (subtype asNumber localAdministrator : ℕ)
  | opaqueSpecific (subtype : ℕ) (value : List UInt8)
  | encapsulation (subtype tunnelType : ℕ)
  | evpnMacMobility (subtype flags sequenceNumber : ℕ)
  | evpnEsiLabel (subtype flags : ℕ) (label : List UInt8) (mplsLabel vni : Option ℕ)
  | evpnEsImportRT (subtype : ℕ) (esImport : Text)
  | flowSpecTrafficRate (asNumber rateInfo : ℕ)
  | flowSpecTrafficAction (action : ℕ)
  | flowSpecRedirect (asNumber localAdministrator : ℕ)
  | flowSpecTrafficMarking (dscp : ℕ)
  | flowSpecVlanAction (actions1 actions2 vlan1 vlan2 cos1 cos2 : ℕ)
  | flowSpecTPIDAction (actions tpid1 tpid2 : ℕ)
  | unknown (value : List UInt8)
  deriving DecidableEq, Repr

structure ExtendedCommunity where
  type : ℕ
  fields : ExtCommFields
  deriving DecidableEq, Repr

def ExtCommFields.cls : ExtCommFields → ExtCommClass
  | twoOctetAsSpecific .. => .twoOctetAsSpecific
  | ipv4AddressSpecific .. => .ipv4AddressSpecific
  | fourOctetAsSpecific .. => .fourOctetAsSpecific
  | opaqueSpecific .. => .opaqueSpecific
  | encapsulation .. => .encapsulation
  | evpnMacMobility .. => .evpnMacMobility
  | evpnEsiLabel .. => .evpnEsiLabel
  | evpnEsImportRT .. => .evpnEsImportRT
  | flowSpecTrafficRate .. => .flowSpecTrafficRate
  | flowSpecTrafficAction .. => .flowSpecTrafficAction
  | flowSpecRedirect .. => .flowSpecRedirect
  | flowSpecTrafficMarking .. => .flowSpecTrafficMarking
  | flowSpecVlanAction .. => .flowSpecVlanAction
  | flowSpecTPIDAction .. => .flowSpecTPIDAction
  | unknown .. => .unknown

/-- The registered subtypes, by type and by type alone. -/
def extCommLookupType (typeLow subtype : ℕ) : ExtCommClass :=
  match typeLow, subtype with
  | 0x03, 0x0c => .encapsulation
  | 0x06, 0x00 => .evpnMacMobility
  | 0x06, 0x01 => .evpnEsiLabel
  | 0x06, 0x02 => .evpnEsImportRT
  | 0x80, 0x06 => .flowSpecTrafficRate
  | 0x80, 0x07 => .flowSpecTrafficAction
  | 0x80, 0x08 => .flowSpecRedirect
  | 0x80, 0x09 => .flowSpecTrafficMarking
  | 0x08, 0x0a => .flowSpecVlanAction
  | 0x08, 0x0b => .flowSpecTPIDAction
  | 0x00, _ => .twoOctetAsSpecific
  | 0x01, _ => .ipv4AddressSpecific
  | 0x02, _ => .fourOctetAsSpecific
  | 0x03, _ => .opaqueSpecific
  | _, _ => .unknown

/-- `_TYPE_HIGH_MASK`, on an octet. -/
def typeHighMask : ℕ := 0xbf

/-- `_VALUE_PACK_STR`. -/
@[reducible] def ExtCommClass.valuePackStr : ExtCommClass → Format
  | .twoOctetAsSpecific | .flowSpecRedirect => [.num 1, .num 2, .num 4]
  | .ipv4AddressSpecific => [.num 1, .str 4, .num 2]
  | .fourOctetAsSpecific => [.num 1, .num 4, .num 2]
  | .opaqueSpecific | .evpnEsImportRT => [.num 1, .str 6]
  | .encapsulation => [.num 1, .pad 4, .num 2]
  | .evpnMacMobility => [.num 1, .num 1, .pad 1, .num 4]
  | .evpnEsiLabel => [.num 1, .num 1, .pad 2, .str 3]
  | .flowSpecTrafficRate => [.num 1, .num 2, .num 4]
  | .flowSpecTrafficAction | .flowSpecTrafficMarking => [.num 1, .pad 5, .num 1]
  | .flowSpecVlanAction => [.num 1, .num 1, .num 1, .num 2, .num 2]
  | .flowSpecTPIDAction => [.num 1, .num 2, .num 2, .num 2]
  | .unknown => [.str 7]

/-- `mpls.label_from_bin`, without the bottom of stack bit. -/
def labelFromBin (label : List UInt8) : ℕ := ofBytes label >>> 4

/-- `vxlan.vni_from_bin`. -/
def vniFromBin (label : List UInt8) : ℕ := ofBytes label

variable (c : AddrConv)

/-- The keyword arguments that `parse_value` makes of the values, and the constructor. -/
def ExtCommClass.ofValues : (cls : ExtCommClass) → cls.valuePackStr.Values → ExtCommFields
  | .twoOctetAsSpecific, (subtype, asNumber, localAdministrator, _) =>
    .twoOctetAsSpecific subtype asNumber localAdministrator
  | .ipv4AddressSpecific, (subtype, ipv4Address, localAdministrator, _) =>
    .ipv4AddressSpecific subtype (c.binToText .ipv4 (ofBytes ipv4Address)) localAdministrator
  | .fourOctetAsSpecific, (subtype, asNumber, localAdministrator, _) =>
    .fourOctetAsSpecific subtype asNumber localAdministrator
  | .opaqueSpecific, (subtype, value, _) => .opaqueSpecific subtype value
  | .encapsulation, (subtype, tunnelType, _) => .encapsulation subtype tunnelType
  | .evpnMacMobility, (subtype, flags, sequenceNumber, _) =>
    .evpnMacMobility subtype flags sequenceNumber
  | .evpnEsiLabel, (subtype, flags, label, _) =>
    .evpnEsiLabel subtype flags label (some (labelFromBin label)) (some (vniFromBin label))
  | .evpnEsImportRT, (subtype, esImport, _) =>
    .evpnEsImportRT subtype (c.binToText .mac (ofBytes esImport))
  | .flowSpecTrafficRate, (_, asNumber, rateInfo, _) => .flowSpecTrafficRate asNumber rateInfo
  | .flowSpecTrafficAction, (_, action, _) => .flowSpecTrafficAction action
  | .flowSpecRedirect, (_, asNumber, localAdministrator, _) =>
    .flowSpecRedirect asNumber localAdministrator
  | .flowSpecTrafficMarking, (_, dscp, _) => .flowSpecTrafficMarking dscp
  | .flowSpecVlanAction, (_, actions1, actions2, vlanCos1, vlanCos2, _) =>
    .flowSpecVlanAction actions1 actions2 (vlanCos1 >>> 4) (vlanCos2 >>> 4)
      ((vlanCos1 >>> 1) &&& 0x07) ((vlanCos2 >>> 1) &&& 0x07)
  | .flowSpecTPIDAction, (_, actions, tpid1, tpid2, _) => .flowSpecTPIDAction actions tpid1 tpid2
  | .unknown, (value, _) => .unknown value

/-- The values that `serialize_value` packs. -/
def ExtCommFields.values :
    (fields : ExtCommFields) → Except PyError fields.cls.valuePackStr.Values
  | .twoOctetAsSpecific subtype asNumber localAdministrator =>
    .ok (subtype, asNumber, localAdministrator, ())
  | .ipv4AddressSpecific subtype ipv4Address localAdministrator =>
    (toBin c .ipv4 ipv4Address).map fun b => (subtype, b, localAdministrator, ())
  | .fourOctetAsSpecific subtype asNumber localAdministrator =>
    .ok (subtype, asNumber, localAdministrator, ())
  | .opaqueSpecific subtype value => .ok (subtype, value, ())
  | .encapsulation subtype tunnelType => .ok (subtype, tunnelType, ())
  | .evpnMacMobility subtype flags sequenceNumber => .ok (subtype, flags, sequenceNumber, ())
  | .evpnEsiLabel subtype flags label _ _ => .ok (subtype, flags, label, ())
  | .evpnEsImportRT subtype esImport =>
    (toBin c .mac esImport).map fun b => (subtype, b, ())
  | .flowSpecTrafficRate asNumber rateInfo => .ok (0x06, asNumber, rateInfo, ())
  | .flowSpecTrafficAction action => .ok (0x07, action, ())
  | .flowSpecRedirect asNumber localAdministrator => .ok (0x08, asNumber, localAdministrator, ())
  | .flowSpecTrafficMarking dscp => .ok (0x09, dscp, ())
  | .flowSpecVlanAction actions1 actions2 vlan1 vlan2 cos1 cos2 =>
    .ok (0x0a, actions1, actions2, (vlan1 <<< 4) + (cos1 <<< 1), (vlan2 <<< 4) + (cos2 <<< 1), ())
  | .flowSpecTPIDAction actions tpid1 tpid2 => .ok (0x0b, actions, tpid1, tpid2, ())
  | .unknown value => .ok (value, ())

def ExtCommClass.parseValue (cls : ExtCommClass) (buf : List UInt8) :
    Except PyError ExtCommFields :=
  (cls.valuePackStr.unpackFrom buf).map (cls.ofValues c)

def ExtCommFields.serializeValue (fields : ExtCommFields) : Except PyError (List UInt8) :=
  match fields.values c with
  | .error e => .error e
  | .ok vals => fields.cls.valuePackStr.pack vals

/-- `_ExtendedCommunity.parse`. -/
def ExtendedCommunity.parse (buf : List UInt8) :
    Except PyError (ExtendedCommunity × List UInt8) :=
  match Format.unpackFrom [.num 1, .str 7] buf with
  | .error e => .error e
  | .ok (type, value, _) =>
    let rest := buf.drop 8
    let subtype := (value.headD 0).toNat
    ((extCommLookupType (type &&& typeHighMask) subtype).parseValue c value).map
      fun fields => (⟨type, fields⟩, rest)

def ExtendedCommunity.serialize (comm : ExtendedCommunity) : Except PyError (List UInt8) :=
  match comm.fields.serializeValue c with
  | .error e => .error e
  | .ok value => Format.pack [.num 1, .str 7] (comm.type, value, ())

/-- The first octet of the value. -/
def ExtCommFields.subtype : ExtCommFields → ℕ
  | .twoOctetAsSpecific subtype .. | .ipv4AddressSpecific subtype ..
  | .fourOctetAsSpecific subtype .. | .opaqueSpecific subtype .. | .encapsulation subtype ..
  | .evpnMacMobility subtype .. | .evpnEsiLabel subtype .. | .evpnEsImportRT subtype .. => subtype
  | .flowSpecTrafficRate .. => 0x06
  | .flowSpecTrafficAction .. => 0x07
  | .flowSpecRedirect .. => 0x08
  | .flowSpecTrafficMarking .. => 0x09
  | .flowSpecVlanAction .. => 0x0a
  | .flowSpecTPIDAction .. => 0x0b
  | .unknown value => (value.headD 0).toNat

/-- The fields are what octets can say: addresses as they are printed, values of the full length,
a class of service of three bits, and a label with all it is decoded to. -/
def ExtCommFields.Canonical : ExtCommFields → Prop
  | .ipv4AddressSpecific _ ipv4Address _ => ∃ v < 256 ^ 4, ipv4Address = c.binToText .ipv4 v
  | .opaqueSpecific _ value => value.length = 6
  | .evpnEsiLabel _ _ label mplsLabel vni => label.length = 3 ∧
    mplsLabel = some (labelFromBin label) ∧ vni = some (vniFromBin label)
  | .evpnEsImportRT _ esImport => ∃ v < 256 ^ 6, esImport = c.binToText .mac v
  | .flowSpecVlanAction _ _ _ _ cos1 cos2 => cos1 < 8 ∧ cos2 < 8
  | .unknown value => value.length = 7
  | _ => True

/-- The community is of the class that its type and subtype designate. -/
structure ExtendedCommunity.Readable (comm : ExtendedCommunity) : Prop where
  designated : extCommLookupType (comm.type &&& typeHighMask) comm.fields.subtype = comm.fields.cls
  canonical : comm.fields.Canonical c

end Model

section RoundTrip

variable {c : AddrConv} {fields : ExtCommFields} {comm : ExtendedCommunity} {b : List UInt8}

/-- The octets of an address that is printed. -/
theorem toBin_printed (k : AddrKind) {v : ℕ} (hv : v < 256 ^ k.size) :
    toBin c k (c.binToText k v) = .ok (toBytes k.size v) := by
  rw [toBin, c.text_bin hv]

theorem ofBytes_toBytes_of_lt {size v : ℕ} (hv : v < 256 ^ size) : ofBytes (toBytes size v) = v := by
  rw [ofBytes_toBytes, Nat.mod_eq_of_lt hv]

/-- A VLAN and a class of service in one number. -/
theorem vlanCos_split (vlan : ℕ) {cos : ℕ} (hcos : cos < 8) :
    ((vlan <<< 4) + (cos <<< 1)) >>> 4 = vlan ∧
      (((vlan <<< 4) + (cos <<< 1)) >>> 1) &&& 0x07 = cos := by
  have hmask : (((vlan <<< 4) + (cos <<< 1)) >>> 1) &&& 0x07 =
      (((vlan <<< 4) + (cos <<< 1)) >>> 1) % 2 ^ 3 := Nat.and_two_pow_sub_one_eq_mod _ 3
  rw [hmask, Nat.shiftLeft_eq, Nat.shiftLeft_eq, Nat.shiftRight_eq_div_pow,
    Nat.shiftRight_eq_div_pow]
  omega

theorem ofValues_values {vals : fields.cls.valuePackStr.Values} (h : fields.values c = .ok vals)
    (hc : fields.Canonical c) :
    fields.cls.valuePackStr.Exact vals ∧ fields.cls.ofValues c vals = fields := by
  cases fields with
  | ipv4AddressSpecific subtype ipv4Address localAdministrator =>
    obtain ⟨v, hv, rfl⟩ := hc
    obtain ⟨bin, hbin, rfl⟩ := map_eq_ok.1 h
    obtain rfl := Except.ok.inj ((toBin_printed .ipv4 hv).symm.trans hbin)
    refine ⟨⟨length_toBytes .., trivial⟩, ?_⟩
    exact congrArg (fun n => ExtCommFields.ipv4AddressSpecific subtype (c.binToText .ipv4 n)
      localAdministrator) (ofBytes_toBytes_of_lt hv)
  | evpnEsImportRT subtype esImport =>
    obtain ⟨v, hv, rfl⟩ := hc
    obtain ⟨bin, hbin, rfl⟩ := map_eq_ok.1 h
    obtain rfl := Except.ok.inj ((toBin_printed .mac hv).symm.trans hbin)
    refine ⟨⟨length_toBytes .., trivial⟩, ?_⟩
    exact congrArg (fun n => ExtCommFields.evpnEsImportRT subtype (c.binToText .mac n))
      (ofBytes_toBytes_of_lt hv)
  | opaqueSpecific subtype value =>
    obtain rfl := Except.ok.inj h
    exact ⟨⟨hc, trivial⟩, rfl⟩
  | evpnEsiLabel subtype flags label mplsLabel vni =>
    obtain rfl := Except.ok.inj h
    obtain ⟨hlen, rfl, rfl⟩ := hc
    exact ⟨⟨hlen, trivial⟩, rfl⟩
  | flowSpecVlanAction actions1 actions2 vlan1 vlan2 cos1 cos2 =>
    obtain rfl := Except.ok.inj h
    obtain ⟨hv1, hc1⟩ := vlanCos_split vlan1 hc.1
    obtain ⟨hv2, hc2⟩ := vlanCos_split vlan2 hc.2
    refine ⟨trivial, ?_⟩
    change ExtCommFields.flowSpecVlanAction actions1 actions2 _ _ _ _ = _
    rw [hv1, hc1, hv2, hc2]
  | unknown value =>
    obtain rfl := Except.ok.inj h
    exact ⟨⟨hc, trivial⟩, rfl⟩
  | _ =>
    obtain rfl := Except.ok.inj h
    exact ⟨trivial, rfl⟩

theorem calcsize_valuePackStr (cls : ExtCommClass) : cls.valuePackStr.calcsize = 7 := by
  cases cls <;> rfl

/-- The first octet of what is packed. -/
theorem headD_serializeValue (h : fields.serializeValue c = .ok b) (hc : fields.Canonical c) :
    (b.headD 0).toNat = fields.subtype := by
  unfold ExtCommFields.serializeValue at h
  split at h
  · cases h
  · next vals hvals =>
    cases fields with
    | unknown value =>
      obtain rfl := Except.ok.inj hvals
      have hback := Format.unpack_pack h (⟨hc, trivial⟩ : Format.Exact [.str 7] (value, ())) []
      have hlen := Format.length_pack h
      rw [List.append_nil] at hback
      have htake : b.take 7 = value := congrArg Prod.fst hback
      have hall : b.take 7 = b := List.take_of_length_le hlen.le
      rw [hall.symm.trans htake]
      rfl
    | ipv4AddressSpecific subtype ipv4Address localAdministrator =>
      obtain ⟨bin, -, rfl⟩ := map_eq_ok.1 hvals
      exact Format.headD_pack h
    | evpnEsImportRT subtype esImport =>
      obtain ⟨bin, -, rfl⟩ := map_eq_ok.1 hvals
      exact Format.headD_pack h
    | _ =>
      obtain rfl := Except.ok.inj hvals
      exact Format.headD_pack h

theorem parseValue_serializeValue (h : fields.serializeValue c = .ok b)
    (hc : fields.Canonical c) : fields.cls.parseValue c b = .ok fields ∧ b.length = 7 := by
  unfold ExtCommFields.serializeValue at h
  split at h
  · cases h
  · next vals hvals =>
    obtain ⟨hexact, hback⟩ := ofValues_values hvals hc
    have hread := Format.unpackFrom_packed h hexact
    refine ⟨?_, (Format.length_pack h).trans (calcsize_valuePackStr fields.cls)⟩
    rw [ExtCommClass.parseValue, hread]
    exact congrArg Except.ok hback

/-- A community that serializes to octets is read back from them. -/
theorem ExtendedCommunity.Readable.parse_serialize (h : comm.Readable c)
    (hs : comm.serialize c = .ok b) (r : List UInt8) :
    ExtendedCommunity.parse c (b ++ r) = .ok (comm, r) := by
  unfold ExtendedCommunity.serialize at hs
  split at hs
  · cases hs
  · next value hvalue =>
    obtain ⟨hparse, hlen⟩ := parseValue_serializeValue hvalue h.canonical
    have hunpack := Format.unpackFrom_pack hs ⟨hlen, trivial⟩ r
    have hcls : extCommLookupType (comm.type &&& typeHighMask) (value.headD 0).toNat =
        comm.fields.cls := by
      rw [headD_serializeValue hvalue h.canonical, h.designated]
    have hrest : (b ++ r).drop 8 = r := List.drop_left' (Format.length_pack hs)
    rw [ExtendedCommunity.parse, hunpack]
    simp only [hcls, hparse, hrest]
    rfl

theorem ExtendedCommunity.length_of_parse {r : List UInt8}
    (h : ExtendedCommunity.parse c b = .ok (comm, r)) : b.length = r.length + 8 := by
  unfold ExtendedCommunity.parse Format.unpackFrom at h
  split at h
  · cases h
  · next hread =>
    split at hread
    · cases hread
    · next hle =>
      obtain ⟨fields, -, heq⟩ := map_eq_ok.1 h
      obtain ⟨-, rfl⟩ := Prod.mk.inj heq
      have hsize : Format.calcsize [.num 1, .str 7] = 8 := rfl
      rw [hsize] at hle
      rw [List.length_drop]
      omega

/-- `while rest` in `BGPPathAttributeExtendedCommunities.parse_value`. -/
def extendedCommunityDecoder (c : AddrConv) : Decoder PyError UInt8 ExtendedCommunity where
  read := ExtendedCommunity.parse c
  read_lt h := by
    have hlen := ExtendedCommunity.length_of_parse h
    omega

end RoundTrip

end Ryu.Bgp.Wire
