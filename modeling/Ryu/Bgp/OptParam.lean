import Mathlib.Data.List.Basic
import Ryu.Lib.Struct

/-! # Capabilities in the optional parameters of an OPEN

A parameter has one capability or several, each with a length of its own. The decoder of a
capability is given the rest of the parameter, so that its value is the one that was sent if it
ends by itself, or if what is behind it is too short to be taken for a part of it.
-/

namespace Ryu.Bgp.Wire

open Bytes

section Model

def bgpOptCapability : ℕ := 2

def bgpCapMultiprotocol : ℕ := 1
def bgpCapRouteRefresh : ℕ := 2
def bgpCapCarryingLabelInfo : ℕ := 4
def bgpCapGracefulRestart : ℕ := 64
def bgpCapFourOctetAsNumber : ℕ := 65
def bgpCapEnhancedRouteRefresh : ℕ := 70
def bgpCapRouteRefreshCisco : ℕ := 128

/-- The classes of capabilities; the four without a value are the ones of
`_OptParamEmptyCapability`. -/
inductive CapClass
  | empty
  | gracefulRestart
  | fourOctetAsNumber
  | multiprotocol
  | unknown
  deriving DecidableEq, Repr

/-- `_OptParamCapability._lookup_type`. -/
def lookupCap (code : ℕ) : CapClass :=
  if code = bgpCapRouteRefresh ∨ code = bgpCapRouteRefreshCisco ∨
      code = bgpCapEnhancedRouteRefresh ∨ code = bgpCapCarryingLabelInfo then .empty
  else if code = bgpCapGracefulRestart then .gracefulRestart
  else if code = bgpCapFourOctetAsNumber then .fourOctetAsNumber
  else if code = bgpCapMultiprotocol then .multiprotocol
  else .unknown

/-- What `parse_cap_value` returns, by class. -/
inductive CapValue
  | empty
  | gracefulRestart (flags time : ℕ) (tuples : List (ℕ × ℕ × ℕ))
  | fourOctetAsNumber (asNumber : ℕ)
  | multiprotocol (afi reserved safi : ℕ)
  | unknown (capValue : List UInt8)
  deriving DecidableEq, Repr

/-- `_OptParamCapability`, of the class that its code has. -/
structure Capability where
  capCode : ℕ
  capLength : ℕ
  length : ℕ
  value : CapValue
  deriving DecidableEq, Repr

/-- The loop of `BGPOptParamCapabilityGracefulRestart.parse_cap_value`. -/
def readTuples : List UInt8 → List (ℕ × ℕ × ℕ)
  | afi :: afi' :: safi :: flags :: buf =>
    (ofBytes [afi, afi'], safi.toNat, flags.toNat) :: readTuples buf
  | _ => []

/-- `parse_cap_value`. -/
def parseCapValue (code : ℕ) (buf : List UInt8) : Except PyError CapValue :=
  match lookupCap code with
  | .empty => .ok .empty
  | .gracefulRestart => (Format.unpackFrom [.num 2] buf).map fun v =>
    .gracefulRestart (v.1 >>> 12) (v.1 &&& 0xfff) (readTuples (buf.drop 2))
  | .fourOctetAsNumber => (Format.unpackFrom [.num 4] buf).map fun v => .fourOctetAsNumber v.1
  | .multiprotocol => (Format.unpackFrom [.num 2, .num 1, .num 1] buf).map fun v =>
    .multiprotocol v.1 v.2.1 v.2.2.1
  | .unknown => .ok (.unknown buf)

/-- A round of the loop in `_OptParamCapability.parse_value`. -/
def readCap : List UInt8 → Except PyError (Capability × List UInt8)
  | code :: length :: value =>
    (parseCapValue code.toNat value).map fun v =>
      (⟨code.toNat, length.toNat, length.toNat + 2, v⟩, value.drop length.toNat)
  | _ => .error structError

theorem readCap_lt {b r : List UInt8} {cap : Capability} (h : readCap b = .ok (cap, r)) :
    r.length < b.length := by
  unfold readCap at h
  split at h
  · next code length value =>
    obtain ⟨v, -, he⟩ := map_eq_ok.1 h
    obtain ⟨-, rfl⟩ := Prod.mk.inj he
    simp only [List.length_drop, List.length_cons]
    omega
  · cases h

def capDecoder : Decoder PyError UInt8 Capability where
  read := readCap
  read_lt := readCap_lt

/-- `BGPOptParamUnknown` or a capability. -/
inductive OptParam
  | unknown (type length : ℕ) (value : List UInt8)
  | capability (cap : Capability)
  deriving DecidableEq, Repr

/-- `_OptParam.parser`. -/
def OptParam.parser : List UInt8 → Except PyError (List OptParam × List UInt8)
  | type :: length :: rest =>
    let value := rest.take length.toNat
    if type.toNat = bgpOptCapability then
      (capDecoder.readAll value).map fun caps =>
        (caps.map .capability, rest.drop length.toNat)
    else .ok ([.unknown type.toNat length.toNat value], rest.drop length.toNat)
  | _ => .error structError

theorem OptParam.parser_lt {b r : List UInt8} {ps : List OptParam}
    (h : OptParam.parser b = .ok (ps, r)) : r.length < b.length := by
  unfold OptParam.parser at h
  split at h
  · next type length rest =>
    have hlt : (rest.drop length.toNat).length < (type :: length :: rest).length := by
      simp only [List.length_drop, List.length_cons]
      omega
    split at h
    · obtain ⟨caps, -, he⟩ := map_eq_ok.1 h
      obtain ⟨-, rfl⟩ := Prod.mk.inj he
      exact hlt
    · cases h
      exact hlt
  · cases h

def optParamDecoder : Decoder PyError UInt8 (List OptParam) where
  read := OptParam.parser
  read_lt := OptParam.parser_lt

/-- The loop in `BGPOpen.parser`, which extends a list. -/
def parseOptParams (binopts : List UInt8) : Except PyError (List OptParam) :=
  (optParamDecoder.readAll binopts).map List.flatten

/-- `serialize_cap_value`. -/
def CapValue.serialize : CapValue → Except PyError (List UInt8)
  | .empty => .ok []
  | .gracefulRestart flags time tuples => do
    let restart ← Format.pack [.num 2] (flags <<< 12 ||| time, ())
    let tuples ← writeAll (fun i => Format.pack [.num 2, .num 1, .num 1] (i.1, i.2.1, i.2.2, ()))
      tuples
    .ok (restart ++ tuples)
  | .fourOctetAsNumber asNumber => Format.pack [.num 4] (asNumber, ())
  | .multiprotocol afi _ safi => Format.pack [.num 2, .num 1, .num 1] (afi, 0, safi, ())
  | .unknown capValue => .ok capValue

/-- `serialize_value` of a capability. -/
def Capability.serializeValue (cap : Capability) : Except PyError (List UInt8) := do
  let capValue ← cap.value.serialize
  let header ← Format.pack [.num 1, .num 1] (cap.capCode, capValue.length, ())
  .ok (header ++ capValue)

/-- `_OptParam.serialize` of a capability, which is alone in its parameter. -/
def Capability.serialize (cap : Capability) : Except PyError (List UInt8) := do
  let value ← cap.serializeValue
  let header ← Format.pack [.num 1, .num 1] (bgpOptCapability, value.length, ())
  .ok (header ++ value)

/-- A capability as it is sent: its code, and the octets that its length field covers. -/
structure SentCap where
  code : UInt8
  octets : List UInt8
  deriving DecidableEq, Repr

namespace SentCap

def bytes (t : SentCap) : List UInt8 := t.code :: UInt8.ofNat t.octets.length :: t.octets

/-- What the decoder makes of the octets of the capability alone. -/
def decode (t : SentCap) : Except PyError Capability :=
  (parseCapValue t.code.toNat t.octets).map fun v =>
    ⟨t.code.toNat, t.octets.length, t.octets.length + 2, v⟩

/-- The decoder of the capability stops before, or in, `n` more octets without taking any of
them: a capability of an unknown code takes all of them, a graceful restart each four. -/
def Stops (t : SentCap) (n : ℕ) : Prop :=
  match lookupCap t.code.toNat with
  | .unknown => n = 0
  | .gracefulRestart => (t.octets.length - 2) % 4 + n < 4
  | _ => True

end SentCap

/-- The octets of a parameter behind its header. -/
def groupBytes (g : List SentCap) : List UInt8 := g.flatMap SentCap.bytes

/-- An optional parameter with the capabilities of a group. -/
def paramBytes (g : List SentCap) : List UInt8 :=
  UInt8.ofNat bgpOptCapability :: UInt8.ofNat (groupBytes g).length :: groupBytes g

/-- Each capability stops before what is behind it in its parameter. -/
def Contained : List SentCap → Prop
  | [] => True
  | t :: g => t.Stops (groupBytes g).length ∧ Contained g

end Model

section Values

variable {a b : List UInt8} {t : SentCap} {v : CapValue}

theorem length_lt_four {b : List UInt8}
    (hb : ∀ (w x y z : UInt8) (r : List UInt8), b = w :: x :: y :: z :: r → False) :
    b.length < 4 := by
  match b, hb with
  | [], _ | [_], _ | [_, _], _ | [_, _, _], _ => simp
  | w :: x :: y :: z :: r, hb => exact absurd rfl (hb w x y z r)

theorem length_readTuples (b : List UInt8) : (readTuples b).length = b.length / 4 := by
  fun_induction readTuples b with
  | case1 afi afi' safi flags buf ih =>
    simp only [List.length_cons, ih]
    omega
  | case2 b hb =>
    have hlt := length_lt_four hb
    rw [List.length_nil]
    omega

theorem readTuples_append (h : a.length % 4 + b.length < 4) :
    readTuples (a ++ b) = readTuples a := by
  fun_induction readTuples a with
  | case1 afi afi' safi flags buf ih =>
    simp only [List.length_cons] at h
    rw [List.cons_append, List.cons_append, List.cons_append, List.cons_append, readTuples,
      ih (by omega)]
  | case2 a ha =>
    have hlt := length_lt_four ha
    have hshort : (a ++ b).length / 4 = 0 := by
      rw [List.length_append]
      omega
    exact List.length_eq_zero_iff.mp ((length_readTuples _).trans hshort)

theorem readTuples_append_iff :
    readTuples (a ++ b) = readTuples a ↔ a.length % 4 + b.length < 4 := by
  refine ⟨fun h => ?_, readTuples_append⟩
  have hlen := congrArg List.length h
  rw [length_readTuples, length_readTuples, List.length_append] at hlen
  omega

/-- The decoder of a capability takes the octets of the capability alone, or more of them if it
does not stop before what is behind it. -/
theorem parseCapValue_append (h : parseCapValue t.code.toNat t.octets = .ok v) (b : List UInt8) :
    ∃ v', parseCapValue t.code.toNat (t.octets ++ b) = .ok v' ∧ (v' = v ↔ t.Stops b.length) := by
  unfold parseCapValue at h ⊢
  unfold SentCap.Stops
  cases hcls : lookupCap t.code.toNat with
  | empty =>
    simp only [hcls] at h ⊢
    exact ⟨_, rfl, iff_of_true (Except.ok.inj h) trivial⟩
  | gracefulRestart =>
    simp only [hcls] at h ⊢
    obtain ⟨x, hx, rfl⟩ := map_eq_ok.1 h
    rw [Format.unpackFrom_append hx]
    refine ⟨_, rfl, ?_⟩
    have hlen : 2 ≤ t.octets.length := Format.calcsize_le hx
    rw [List.drop_append_of_le_length hlen]
    simp only [CapValue.gracefulRestart.injEq, true_and]
    rw [readTuples_append_iff, List.length_drop]
  | fourOctetAsNumber =>
    simp only [hcls] at h ⊢
    obtain ⟨x, hx, rfl⟩ := map_eq_ok.1 h
    rw [Format.unpackFrom_append hx]
    exact ⟨_, rfl, iff_of_true rfl trivial⟩
  | multiprotocol =>
    simp only [hcls] at h ⊢
    obtain ⟨x, hx, rfl⟩ := map_eq_ok.1 h
    rw [Format.unpackFrom_append hx]
    exact ⟨_, rfl, iff_of_true rfl trivial⟩
  | unknown =>
    simp only [hcls] at h ⊢
    obtain rfl := Except.ok.inj h
    refine ⟨_, rfl, ?_⟩
    rw [CapValue.unknown.injEq, List.append_right_eq_self, List.length_eq_zero_iff]

end Values

section Groups

variable {t : SentCap} {g : List SentCap} {cap : Capability} {caps : List Capability}

@[simp] theorem groupBytes_nil : groupBytes [] = [] := rfl

@[simp] theorem groupBytes_cons (t : SentCap) (g : List SentCap) :
    groupBytes (t :: g) = t.bytes ++ groupBytes g := List.flatMap_cons

theorem SentCap.length_bytes (t : SentCap) : t.bytes.length = t.octets.length + 2 := rfl

/-- One round reads the header of a capability, and leaves what is behind its octets. -/
theorem readCap_bytes (hfit : t.octets.length < 256) (h : t.decode = .ok cap) (b : List UInt8) :
    ∃ cap', capDecoder.read (t.bytes ++ b) = .ok (cap', b) ∧
      (cap' = cap ↔ t.Stops b.length) := by
  obtain ⟨v, hv, rfl⟩ := map_eq_ok.1 h
  obtain ⟨v', hv', hiff⟩ := parseCapValue_append hv b
  have hlen : (UInt8.ofNat t.octets.length).toNat = t.octets.length :=
    UInt8.toNat_ofNat_of_lt' hfit
  refine ⟨⟨t.code.toNat, t.octets.length, t.octets.length + 2, v'⟩, ?_, ?_⟩
  · change readCap (t.code :: UInt8.ofNat t.octets.length :: (t.octets ++ b)) = _
    rw [readCap, hv', hlen, List.drop_left]
    rfl
  · rw [← hiff, Capability.mk.injEq]
    simp only [true_and]

/-- The capabilities of a group are read, each as it would be alone if and only if it stops
before the ones behind it. -/
theorem readAll_groupBytes (hfit : (groupBytes g).length < 256)
    (h : g.mapM SentCap.decode = .ok caps) :
    ∃ caps', capDecoder.readAll (groupBytes g) = .ok caps' ∧ caps'.length = caps.length ∧
      (caps' = caps ↔ Contained g) := by
  induction g generalizing caps with
  | nil =>
    obtain rfl : [] = caps := Except.ok.inj h
    exact ⟨[], rfl, rfl, iff_of_true rfl trivial⟩
  | cons t g ih =>
    rw [groupBytes_cons, List.length_append, SentCap.length_bytes] at hfit
    rw [List.mapM_cons] at h
    obtain ⟨cap, hcap, h⟩ := bind_eq_ok.1 h
    obtain ⟨rest, hrest, h⟩ := bind_eq_ok.1 h
    obtain rfl := Except.ok.inj h
    obtain ⟨rest', hrest', hlen, hiff⟩ := ih (by omega) hrest
    obtain ⟨cap', hcap', hcapiff⟩ := readCap_bytes (by omega) hcap (groupBytes g)
    refine ⟨cap' :: rest', ?_, by simp only [List.length_cons, hlen], ?_⟩
    · rw [groupBytes_cons, Decoder.readAll_ok hcap', hrest']
      rfl
    · rw [List.cons.injEq, hcapiff, hiff, Contained]

/-- A parameter is as long as its header says. -/
theorem parser_paramBytes (hfit : (groupBytes g).length < 256) (b : List UInt8) :
    OptParam.parser (paramBytes g ++ b) =
      (capDecoder.readAll (groupBytes g)).map fun caps => (caps.map .capability, b) := by
  have hlen : (UInt8.ofNat (groupBytes g).length).toNat = (groupBytes g).length :=
    UInt8.toNat_ofNat_of_lt' hfit
  have htype : (UInt8.ofNat bgpOptCapability).toNat = bgpOptCapability := rfl
  rw [paramBytes, List.cons_append, List.cons_append, OptParam.parser, hlen, htype,
    List.take_left, List.drop_left]
  exact if_pos rfl

theorem parseOptParams_groups {groups : List (List SentCap)}
    (hfit : ∀ g ∈ groups, (groupBytes g).length < 256)
    (h : groups.flatten.mapM SentCap.decode = .ok caps) :
    ∃ caps', parseOptParams (groups.flatMap paramBytes) = .ok (caps'.map .capability) ∧
      caps'.length = caps.length ∧ (caps' = caps ↔ ∀ g ∈ groups, Contained g) := by
  induction groups generalizing caps with
  | nil =>
    obtain rfl : [] = caps := Except.ok.inj h
    exact ⟨[], rfl, rfl, iff_of_true rfl (by simp)⟩
  | cons g groups ih =>
    rw [List.flatten_cons, List.mapM_append] at h
    obtain ⟨first, hfirst, h⟩ := bind_eq_ok.1 h
    obtain ⟨rest, hrest, h⟩ := bind_eq_ok.1 h
    obtain rfl := Except.ok.inj h
    have hg := hfit g List.mem_cons_self
    obtain ⟨first', hfirst', hlen, hiff⟩ := readAll_groupBytes hg hfirst
    obtain ⟨rest', hrest', hlen', hiff'⟩ := ih (fun g hg => hfit g (List.mem_cons_of_mem _ hg)) hrest
    refine ⟨first' ++ rest', ?_, by simp only [List.length_append, hlen, hlen'], ?_⟩
    · obtain ⟨ps, hps, hflat⟩ := map_eq_ok.1 hrest'
      have hread : optParamDecoder.read (paramBytes g ++ groups.flatMap paramBytes) =
          .ok (first'.map .capability, groups.flatMap paramBytes) := by
        refine (parser_paramBytes hg _).trans ?_
        rw [hfirst']
        rfl
      rw [parseOptParams, List.flatMap_cons, Decoder.readAll_ok hread, hps, List.map_append, ← hflat]
      rfl
    · rw [List.forall_mem_cons, ← hiff, ← hiff']
      constructor
      · exact fun he => List.append_inj he hlen
      · rintro ⟨rfl, rfl⟩
        rfl

end Groups

section Serialize

variable {cap : Capability} {v : CapValue} {code : ℕ} {b : List UInt8}

/-- The value is one of the class of the code, and its bit fields fit theirs. -/
def CapValue.Fits (code : ℕ) : CapValue → Prop
  | .empty => lookupCap code = .empty
  | .gracefulRestart flags time _ =>
    lookupCap code = .gracefulRestart ∧ flags < 2 ^ 4 ∧ time < 2 ^ 12
  | .fourOctetAsNumber _ => lookupCap code = .fourOctetAsNumber
  | .multiprotocol _ reserved _ => lookupCap code = .multiprotocol ∧ reserved = 0
  | .unknown _ => lookupCap code = .unknown

theorem readTuples_pack {i : ℕ × ℕ × ℕ}
    (h : Format.pack [.num 2, .num 1, .num 1] (i.1, i.2.1, i.2.2, ()) = .ok b) (r : List UInt8) :
    readTuples (b ++ r) = i :: readTuples r := by
  have hread := Format.unpack_pack h ⟨⟩ []
  match b, Format.length_pack h with
  | [w, x, y, z], _ =>
    simp only [List.append_nil, Format.unpack, List.take, List.drop, ofBytes_singleton,
      Prod.mk.injEq] at hread
    simp only [List.cons_append, List.nil_append, readTuples, hread.1, hread.2.1, hread.2.2.1]

theorem readTuples_writeAll {tuples : List (ℕ × ℕ × ℕ)}
    (h : writeAll (fun i : ℕ × ℕ × ℕ =>
      Format.pack [.num 2, .num 1, .num 1] (i.1, i.2.1, i.2.2, ())) tuples = .ok b) :
    readTuples b = tuples := by
  induction tuples generalizing b with
  | nil =>
    obtain rfl := Except.ok.inj h
    rfl
  | cons i tuples ih =>
    obtain ⟨first, rest, hfirst, hrest, rfl⟩ := writeAll_cons_ok h
    rw [readTuples_pack hfirst, ih hrest]

/-- A value that fits its class is decoded from what it is serialized to. -/
theorem parseCapValue_serialize (hfits : v.Fits code) (h : v.serialize = .ok b) :
    parseCapValue code b = .ok v := by
  unfold parseCapValue
  cases v with
  | empty => rw [hfits]
  | gracefulRestart flags time tuples =>
    obtain ⟨hcls, hflags, htime⟩ := hfits
    obtain ⟨restart, hrestart, h⟩ := bind_eq_ok.1 h
    obtain ⟨rest, hrest, h⟩ := bind_eq_ok.1 h
    obtain rfl := Except.ok.inj h
    have hlen : restart.length = 2 := Format.length_pack hrestart
    have hor : flags <<< 12 ||| time = flags * 2 ^ 12 + time := by
      rw [Nat.shiftLeft_eq, Nat.mul_comm, Nat.two_pow_add_eq_or_of_lt htime]
    have hshift : (flags <<< 12 ||| time) >>> 12 = flags := by
      rw [hor, Nat.shiftRight_eq_div_pow]
      omega
    have hand : (flags <<< 12 ||| time) &&& 0xfff = time := by
      rw [hor]
      have hmod : (flags * 2 ^ 12 + time) &&& 0xfff = (flags * 2 ^ 12 + time) % 2 ^ 12 :=
        Nat.and_two_pow_sub_one_eq_mod _ 12
      omega
    simp only [hcls]
    rw [Format.unpackFrom_pack hrestart trivial, List.drop_left' hlen, readTuples_writeAll hrest]
    simp only [Except.map, hshift, hand]
  | fourOctetAsNumber asNumber =>
    have hread := Format.unpackFrom_packed h trivial
    rw [hfits]
    simp only [hread, Except.map]
  | multiprotocol afi reserved safi =>
    obtain ⟨hcls, rfl⟩ := hfits
    have hread := Format.unpackFrom_packed h trivial
    rw [hcls]
    simp only [hread, Except.map]
  | unknown capValue =>
    obtain rfl := Except.ok.inj h
    rw [hfits]

theorem pack_octets {x y : ℕ} (h : Format.pack [.num 1, .num 1] (x, y, ()) = .ok b) :
    x < 256 ∧ y < 256 ∧ b = [UInt8.ofNat x, UInt8.ofNat y] := by
  obtain ⟨hx, rest, hrest⟩ := Format.pack_num h
  have hy := (Format.pack_num hrest).1
  refine ⟨hx, hy, ?_⟩
  rw [Format.pack_num_of_lt hx, Format.pack_num_of_lt hy] at h
  simpa [Format.pack, Except.map, toBytes] using h.symm

/-- A capability that is serialized is alone in its parameter, and decoded as it was. -/
theorem serialize_capability (hfits : cap.value.Fits cap.capCode) (h : cap.serialize = .ok b) :
    ∃ t : SentCap, b = paramBytes [t] ∧ (groupBytes [t]).length < 256 ∧
      t.decode = .ok ⟨cap.capCode, t.octets.length, t.octets.length + 2, cap.value⟩ := by
  obtain ⟨value, hvalue, h⟩ := bind_eq_ok.1 h
  obtain ⟨header, hheader, h⟩ := bind_eq_ok.1 h
  obtain rfl := Except.ok.inj h
  obtain ⟨capValue, hcap, hvalue⟩ := bind_eq_ok.1 hvalue
  obtain ⟨capHeader, hcapHeader, hvalue⟩ := bind_eq_ok.1 hvalue
  obtain rfl := Except.ok.inj hvalue
  obtain ⟨hcode, hlen, rfl⟩ := pack_octets hcapHeader
  obtain ⟨-, htotal, rfl⟩ := pack_octets hheader
  have hbytes : groupBytes [⟨UInt8.ofNat cap.capCode, capValue⟩] =
      [UInt8.ofNat cap.capCode, UInt8.ofNat capValue.length] ++ capValue := by
    simp [SentCap.bytes]
  refine ⟨⟨UInt8.ofNat cap.capCode, capValue⟩, ?_, ?_, ?_⟩
  · rw [paramBytes, hbytes]
    rfl
  · rwa [hbytes]
  · rw [SentCap.decode, UInt8.toNat_ofNat_of_lt' hcode, parseCapValue_serialize hfits hcap]
    rfl

/-- What a capability is, its lengths apart, which the serializer sets. -/
def Capability.content (cap : Capability) : ℕ × CapValue := (cap.capCode, cap.value)

theorem serialize_capabilities {caps : List Capability}
    (hfits : ∀ cap ∈ caps, cap.value.Fits cap.capCode)
    (h : writeAll Capability.serialize caps = .ok b) :
    ∃ (groups : List (List SentCap)) (caps' : List Capability), b = groups.flatMap paramBytes ∧
      (∀ g ∈ groups, (groupBytes g).length < 256 ∧ Contained g) ∧
      groups.flatten.mapM SentCap.decode = .ok caps' ∧
      caps'.map Capability.content = caps.map Capability.content := by
  induction caps generalizing b with
  | nil =>
    obtain rfl := Except.ok.inj h
    exact ⟨[], [], rfl, by simp, rfl, rfl⟩
  | cons cap caps ih =>
    obtain ⟨first, rest, hfirst, hrest, rfl⟩ := writeAll_cons_ok h
    obtain ⟨t, rfl, hfit, ht⟩ := serialize_capability (hfits cap List.mem_cons_self) hfirst
    obtain ⟨groups, caps', rfl, hgroups, hdecode, hsame⟩ :=
      ih (fun cap hcap => hfits cap (List.mem_cons_of_mem _ hcap)) hrest
    have hstops : Contained [t] := by
      refine ⟨?_, trivial⟩
      unfold SentCap.Stops
      split
      · rfl
      · exact Nat.mod_lt _ (by decide)
      · trivial
    refine ⟨[t] :: groups, ⟨cap.capCode, t.octets.length, t.octets.length + 2, cap.value⟩ :: caps',
      rfl, List.forall_mem_cons.mpr ⟨⟨hfit, hstops⟩, hgroups⟩, ?_, ?_⟩
    · rw [List.flatten_cons, List.singleton_append, List.mapM_cons, ht, hdecode]
      rfl
    · rw [List.map_cons, List.map_cons, hsame]
      rfl

/-- Capabilities that are sent one in a parameter are decoded as they were. -/
theorem parseOptParams_serialize {caps : List Capability}
    (hfits : ∀ cap ∈ caps, cap.value.Fits cap.capCode)
    (h : writeAll Capability.serialize caps = .ok b) :
    ∃ caps' : List Capability, parseOptParams b = .ok (caps'.map .capability) ∧
      caps'.map Capability.content = caps.map Capability.content := by
  obtain ⟨groups, caps', rfl, hgroups, hdecode, hsame⟩ := serialize_capabilities hfits h
  obtain ⟨caps'', hparse, -, hiff⟩ := parseOptParams_groups (fun g hg => (hgroups g hg).1) hdecode
  obtain rfl := hiff.mpr fun g hg => (hgroups g hg).2
  exact ⟨caps'', hparse, hsame⟩

end Serialize

section Claims

variable {groups : List (List SentCap)} {caps : List Capability}

/-- The capabilities of an OPEN are decoded as each would be alone if and only if each stops
before what is behind it in its parameter, however they are grouped. -/
theorem parseOptParams_iff (hfit : ∀ g ∈ groups, (groupBytes g).length < 256)
    (h : groups.flatten.mapM SentCap.decode = .ok caps) :
    parseOptParams (groups.flatMap paramBytes) = .ok (caps.map .capability) ↔
      ∀ g ∈ groups, Contained g := by
  obtain ⟨caps', hcaps', -, hiff⟩ := parseOptParams_groups hfit h
  have hinj : Function.Injective (List.map OptParam.capability) :=
    List.map_injective_iff.mpr fun _ _ he => OptParam.capability.inj he
  rw [← hiff, hcaps', Except.ok.injEq, hinj.eq_iff]

theorem parseOptParams_twoGroups :
    parseOptParams (List.flatMap paramBytes
        [[⟨1, [0, 1, 0, 1]⟩, ⟨64, [0x40, 0x78]⟩, ⟨2, []⟩], [⟨65, [0, 0, 0xfd, 0xe8]⟩]]) =
      .ok (List.map .capability [⟨1, 4, 6, .multiprotocol 1 0 1⟩,
        ⟨64, 2, 4, .gracefulRestart 4 120 []⟩, ⟨2, 0, 2, .empty⟩,
        ⟨65, 4, 6, .fourOctetAsNumber 65000⟩]) := by
  refine (parseOptParams_iff (by decide) rfl).mpr ?_
  intro g hg
  rcases List.mem_cons.mp hg with rfl | hg
  · exact ⟨trivial, show 0 % 4 + 2 < 4 by decide, trivial, trivial⟩
  · obtain rfl := List.mem_singleton.mp hg
    exact ⟨trivial, trivial⟩

/-- A capability of an unknown code takes the one behind it, unless that is in a parameter of
its own. -/
theorem not_parseOptParams_unknown :
    SentCap.decode ⟨3, [1]⟩ = .ok ⟨3, 1, 3, .unknown [1]⟩ ∧
      parseOptParams (paramBytes [⟨3, [1]⟩] ++ paramBytes [⟨2, []⟩]) =
        .ok [.capability ⟨3, 1, 3, .unknown [1]⟩, .capability ⟨2, 0, 2, .empty⟩] ∧
      parseOptParams (paramBytes [⟨3, [1]⟩, ⟨2, []⟩]) =
        .ok [.capability ⟨3, 1, 3, .unknown [1, 2, 0]⟩, .capability ⟨2, 0, 2, .empty⟩] :=
  ⟨rfl, rfl, rfl⟩

end Claims

end Ryu.Bgp.Wire
