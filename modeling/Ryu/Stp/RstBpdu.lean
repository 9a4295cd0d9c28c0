import Ryu.Stp.Bpdu

/-! # BPDUs of all types, and the way back

A Configuration BPDU and an RST BPDU have the same body, which the latter takes with any flags and
ends with another octet. Identifiers are split and put together again without loss. Of a timer only
the whole seconds are sent, so that both ways between messages and octets are exact only for these.
-/

namespace Ryu.Stp

namespace ConfigurationBPDUs

/-- `check_parameters` of `RstBPDUs`, which takes any flags. -/
def checkRst (b : ConfigurationBPDUs) : Prop :=
  b.rootPriority % bridgePriorityStep = 0 ∧ b.bridgePriority % bridgePriorityStep = 0 ∧
    b.portPriority % portPriorityStep = 0

instance (b : ConfigurationBPDUs) : Decidable b.checkRst := by
  unfold checkRst
  infer_instance

/-- `ConfigurationBPDUs.parser`, of a class with its checks: the message and the rest. -/
def parserAs (check : ConfigurationBPDUs → Prop) [DecidablePred check] (buf : List UInt8) :
    Except PyError (ConfigurationBPDUs × List UInt8) :=
  match packStr.unpackFrom buf with
  | .error e => .error e
  | .ok vals =>
    if check (ofValues vals) then .ok (ofValues vals, buf.drop packStr.calcsize)
    else .error .assertionError

/-- The timers are whole seconds. -/
def WholeSeconds (b : ConfigurationBPDUs) : Prop :=
  ∀ t ∈ [b.messageAge, b.maxAge, b.helloTime, b.forwardDelay], t % 256 = 0

end ConfigurationBPDUs

open ConfigurationBPDUs

/-- A message of a registered type. -/
inductive Bpdu
  | config (b : ConfigurationBPDUs)
  | topologyChange
  | rst (b : ConfigurationBPDUs)
  deriving DecidableEq, Repr

namespace Bpdu

def version1Length : ℕ := 0

/-- `!B`, behind the body of an RST BPDU. -/
@[reducible] def rstPackStr : Format := [.num 1]

/-- The registered parsers, on what is behind the header. -/
def parserOf (versionId bpduType : ℕ) (buf rest : List UInt8) :
    Except PyError (Option Bpdu × List UInt8) :=
  if versionId = 0 ∧ bpduType = 0 then
    if rest.length < packStr.calcsize then .error .assertionError
    else (parserAs checkParameters rest).map fun x => (some (.config x.1), x.2)
  else if versionId = 0 ∧ bpduType = 128 then
    .ok (some .topologyChange, rest.drop basePackStr.calcsize)
  else if versionId = 2 ∧ bpduType = 2 then
    if rest.length < rstPackStr.calcsize then .error .assertionError
    else
      match parserAs checkRst rest with
      | .error e => .error e
      | .ok (b, rest) =>
        match rstPackStr.unpackFrom rest with
        | .error e => .error e
        | .ok (length, ()) =>
          if length = version1Length then .ok (some (.rst b), rest.drop rstPackStr.calcsize)
          else .error .assertionError
  else .ok (none, buf)

/-- `bpdu.parser`: the message and the rest, `none` for an unknown version or type. -/
def parser (buf : List UInt8) : Except PyError (Option Bpdu × List UInt8) :=
  if buf.length < basePackStr.calcsize then .error .assertionError
  else
    let (protocolId, versionId, bpduType, ()) := basePackStr.unpack buf
    if protocolId = 0 then parserOf versionId bpduType buf (buf.drop basePackStr.calcsize)
    else .error .assertionError

/-- The protocol, the version and the type. -/
def header : Bpdu → basePackStr.Values
  | config _ => (0, 0, 0, ())
  | topologyChange => (0, 0, 128, ())
  | rst _ => (0, 2, 2, ())

/-- What is serialized behind the header. -/
def body : Bpdu → Except PyError (List UInt8)
  | config b => packStr.pack b.values
  | topologyChange => .ok []
  | rst b =>
    match packStr.pack b.values with
    | .error e => .error e
    | .ok sub => (rstPackStr.pack (version1Length, ())).map (sub ++ ·)

def serialize (m : Bpdu) : Except PyError (List UInt8) :=
  match basePackStr.pack m.header with
  | .error e => .error e
  | .ok base => m.body.map (base ++ ·)

/-- The constructor accepts the parameters. -/
def Checked : Bpdu → Prop
  | config b => b.checkParameters
  | topologyChange => True
  | rst b => b.checkRst

/-- The message is serialized, and read back from in front of anything. -/
def ReadBack (m : Bpdu) : Prop :=
  ∃ buf, m.serialize = .ok buf ∧ ∀ rest, parser (buf ++ rest) = .ok (some m, rest)

/-- The message is serialized to the octets that were consumed. -/
def Rewritten (m : Bpdu) (buf rest : List UInt8) : Prop :=
  ∃ consumed, m.serialize = .ok consumed ∧ consumed ++ rest = buf

end Bpdu

variable {b : ConfigurationBPDUs} {buf rest : List UInt8} {v : ℕ} {m : Bpdu}
  {check : ConfigurationBPDUs → Prop} [DecidablePred check]

/-! ## Identifiers -/

theorem encodeBridgeId_decode (h : v < 2 ^ 64) :
    encodeBridgeId (decodeBridgeId v).1 (decodeBridgeId v).2.1 (decodeBridgeId v).2.2 = v := by
  have hhigh : v >>> 48 = v / 2 ^ 48 := Nat.shiftRight_eq_div_pow v 48
  have htop : (v / 2 ^ 48) &&& 0xf000 = v / 2 ^ 48 / 2 ^ 12 * 2 ^ 12 :=
    and_high (k := 12) (m := 16) (by omega) (by omega)
  have hlow : v &&& 0xffffffffffff = v % 2 ^ 48 := Nat.and_two_pow_sub_one_eq_mod v 48
  rw [encodeBridgeId_eq, decodeBridgeId, hhigh, htop, and_mask, hlow]
  simp only [BitVec.toNat_ofNat]
  omega

theorem encodePortId_decode (h : v < 2 ^ 16) :
    encodePortId (decodePortId v).1 (decodePortId v).2 = v := by
  have hhigh : v >>> 8 = v / 2 ^ 8 := Nat.shiftRight_eq_div_pow v 8
  have htop : (v / 2 ^ 8) &&& 0xf0 = v / 2 ^ 8 / 2 ^ 4 * 2 ^ 4 :=
    and_high (k := 4) (m := 8) (by omega) (by omega)
  rw [encodePortId, decodePortId, Nat.shiftLeft_eq, hhigh, htop, and_mask]
  omega

theorem encodeTimer_eq_iff : encodeTimer v = v ↔ v % 256 = 0 := by
  rw [encodeTimer]
  omega

namespace ConfigurationBPDUs

theorem inSeconds_eq_iff : b.inSeconds = b ↔ b.WholeSeconds := by
  have hall : b.WholeSeconds ↔ encodeTimer b.messageAge = b.messageAge ∧
      encodeTimer b.maxAge = b.maxAge ∧ encodeTimer b.helloTime = b.helloTime ∧
      encodeTimer b.forwardDelay = b.forwardDelay := by
    simp [WholeSeconds, encodeTimer_eq_iff]
  rw [hall, inSeconds]
  constructor
  · intro h
    exact ⟨congrArg messageAge h, congrArg maxAge h, congrArg helloTime h,
      congrArg forwardDelay h⟩
  · rintro ⟨hage, hmax, hhello, hdelay⟩
    rw [hage, hmax, hhello, hdelay]

theorem ofValues_values_inSeconds (hs : b.checkRst) (hr : b.rootSystemIdExtension < 4096)
    (hb : b.bridgeSystemIdExtension < 4096) (hn : b.portNumber < 4096)
    (hf : packStr.Fits b.values) : ofValues b.values = b.inSeconds := by
  obtain ⟨hrp, hbp, hpp⟩ := hs
  obtain ⟨-, hroot, -, hbridge, hport, -⟩ := hf
  have hroot' := decodeBridgeId_encode hrp hr (by simpa using hroot)
  have hbridge' := decodeBridgeId_encode hbp hb (by simpa using hbridge)
  have hport' := decodePortId_encode hpp hn (by simpa using hport)
  simp only [ofValues, values, inSeconds, hroot', hbridge', hport']

/-- The fields are got back from the values packed, exactly if the timers are whole seconds and
the extensions have twelve bits. -/
theorem ofValues_values_iff (hs : b.checkRst) (hn : b.portNumber < 4096)
    (hf : packStr.Fits b.values) : ofValues b.values = b ↔
      (b.rootSystemIdExtension < 4096 ∧ b.bridgeSystemIdExtension < 4096) ∧ b.WholeSeconds := by
  constructor
  · intro h
    have hlt (v : ℕ) : (decodeBridgeId v).2.1 < 4096 := by
      rw [decodeBridgeId, and_mask]
      exact Nat.mod_lt _ (by decide)
    have hr : b.rootSystemIdExtension < 4096 := by
      rw [← congrArg rootSystemIdExtension h]
      exact hlt _
    have hb : b.bridgeSystemIdExtension < 4096 := by
      rw [← congrArg bridgeSystemIdExtension h]
      exact hlt _
    rw [ofValues_values_inSeconds hs hr hb hn hf] at h
    exact ⟨⟨hr, hb⟩, inSeconds_eq_iff.1 h⟩
  · rintro ⟨⟨hr, hb⟩, hw⟩
    rw [ofValues_values_inSeconds hs hr hb hn hf, inSeconds_eq_iff.2 hw]

/-- What is packed of values that were unpacked: the timers lose their fractions. -/
theorem values_ofValues {vals : packStr.Values} (hf : packStr.Fits vals) :
    packStr.Fits (ofValues vals).values ∧
      ((ofValues vals).values = vals ↔ (ofValues vals).WholeSeconds) := by
  obtain ⟨flags, root, cost, bridge, port, age, maxAge, hello, delay, ⟨⟩⟩ := vals
  obtain ⟨hflags, hroot, hcost, hbridge, hport, hage, hmax, hhello, hdelay, -⟩ := hf
  have hroot' := encodeBridgeId_decode hroot
  have hbridge' := encodeBridgeId_decode hbridge
  have hport' := encodePortId_decode hport
  have hle (t : ℕ) : encodeTimer t ≤ t := Nat.div_mul_le_self t 256
  have hvals : (ofValues (flags, root, cost, bridge, port, age, maxAge, hello, delay, ())).values =
      (flags, root, cost, bridge, port, encodeTimer age, encodeTimer maxAge, encodeTimer hello,
        encodeTimer delay, ()) := by
    simp only [ofValues, values, hroot', hbridge', hport']
  rw [hvals]
  constructor
  · exact ⟨hflags, hroot, hcost, hbridge, hport, (hle age).trans_lt hage,
      (hle maxAge).trans_lt hmax, (hle hello).trans_lt hhello, (hle delay).trans_lt hdelay, trivial⟩
  · simp [WholeSeconds, ofValues, encodeTimer_eq_iff]

theorem numeric_packStr : packStr.Numeric := trivial

theorem numeric_basePackStr : basePackStr.Numeric := trivial

theorem parserAs_eq_ok_iff : parserAs check buf = .ok (b, rest) ↔
    ∃ vals, packStr.Fits vals ∧ ofValues vals = b ∧ check b ∧ buf = packStr.bytes vals ++ rest := by
  have hdrop {vals : packStr.Values} (hf : packStr.Fits vals) (r : List UInt8) :
      (packStr.bytes vals ++ r).drop packStr.calcsize = r :=
    List.drop_left' (Format.length_bytes hf)
  constructor
  · intro h
    rw [parserAs] at h
    split at h
    · cases h
    · next vals hread =>
      obtain ⟨hf, r, rfl⟩ := (Format.Numeric.unpackFrom_eq_ok_iff numeric_packStr).mp hread
      split at h
      · next hcheck =>
        obtain ⟨rfl, rfl⟩ := Prod.mk.inj (Except.ok.inj h)
        exact ⟨vals, hf, rfl, hcheck, by rw [hdrop hf]⟩
      · cases h
  · rintro ⟨vals, hf, rfl, hcheck, rfl⟩
    have hread : packStr.unpackFrom (packStr.bytes vals ++ rest) = .ok vals :=
      (Format.Numeric.unpackFrom_eq_ok_iff numeric_packStr).mpr ⟨hf, rest, rfl⟩
    rw [parserAs, hread, hdrop hf]
    exact if_pos hcheck

end ConfigurationBPDUs

namespace Bpdu

theorem parser_eq_ok_iff {x : Option Bpdu × List UInt8} : parser buf = .ok x ↔
    ∃ versionId bpduType r, basePackStr.Fits (0, versionId, bpduType, ()) ∧
      buf = basePackStr.bytes (0, versionId, bpduType, ()) ++ r ∧
      parserOf versionId bpduType buf r = .ok x := by
  have hdrop {vals : basePackStr.Values} (hf : basePackStr.Fits vals) (r : List UInt8) :
      (basePackStr.bytes vals ++ r).drop basePackStr.calcsize = r :=
    List.drop_left' (Format.length_bytes hf)
  rw [parser]
  by_cases hlen : buf.length < basePackStr.calcsize
  · rw [if_pos hlen]
    constructor
    · intro h
      cases h
    · rintro ⟨versionId, bpduType, r, hf, rfl, -⟩
      rw [List.length_append, Format.length_bytes hf] at hlen
      exact absurd hlen (not_lt.mpr (Nat.le_add_right _ _))
  · rw [if_neg hlen]
    have hread : basePackStr.unpackFrom buf = .ok (basePackStr.unpack buf) := by
      rw [Format.unpackFrom, if_neg hlen]
    generalize basePackStr.unpack buf = vals at hread ⊢
    obtain ⟨protocolId, versionId, bpduType, ⟨⟩⟩ := vals
    obtain ⟨hf, r, hr⟩ := (Format.Numeric.unpackFrom_eq_ok_iff numeric_basePackStr).mp hread
    have hrest : buf.drop basePackStr.calcsize = r := by rw [hr, hdrop hf]
    simp only [hrest]
    constructor
    · intro h
      split at h
      · next hzero =>
        subst hzero
        exact ⟨versionId, bpduType, r, hf, hr, h⟩
      · cases h
    · rintro ⟨versionId', bpduType', r', hf', hr', h⟩
      have hread' : basePackStr.unpackFrom buf = .ok (0, versionId', bpduType', ()) :=
        (Format.Numeric.unpackFrom_eq_ok_iff numeric_basePackStr).mpr ⟨hf', r', hr'⟩
      obtain ⟨rfl, rfl, rfl, -⟩ : protocolId = 0 ∧ versionId = versionId' ∧
          bpduType = bpduType' ∧ True := by
        have heq := Except.ok.inj (hread.symm.trans hread')
        simpa using heq
      have hrr : r = r' := by rw [← hrest, hr', hdrop hf']
      rw [if_pos rfl, hrr]
      exact h

theorem length_of_parserAs {x : ConfigurationBPDUs × List UInt8}
    (h : parserAs check buf = .ok x) : packStr.calcsize ≤ buf.length := by
  obtain ⟨vals, hf, -, -, rfl⟩ := parserAs_eq_ok_iff.1 h
  rw [List.length_append, Format.length_bytes hf]
  exact Nat.le_add_right _ _

theorem parserOf_config_iff {versionId bpduType : ℕ} {r : List UInt8} :
    parserOf versionId bpduType buf r = .ok (some (.config b), rest) ↔
      (versionId = 0 ∧ bpduType = 0) ∧ parserAs checkParameters r = .ok (b, rest) := by
  constructor
  · intro h
    unfold parserOf at h
    split_ifs at h with hconfig
    · obtain ⟨⟨b', rest'⟩, hparse, heq⟩ := map_eq_ok.1 h
      obtain ⟨hb, rfl⟩ := Prod.mk.inj heq
      obtain rfl := Bpdu.config.inj (Option.some.inj hb)
      exact ⟨hconfig, hparse⟩
    · cases h
    · split at h
      · cases h
      · split at h
        · cases h
        · split_ifs at h
          cases h
    · cases h
  · rintro ⟨⟨rfl, rfl⟩, h⟩
    have hlen : ¬ r.length < packStr.calcsize := not_lt.mpr (length_of_parserAs h)
    rw [parserOf, if_pos ⟨rfl, rfl⟩, if_neg hlen, h]
    rfl

theorem numeric_rstPackStr : rstPackStr.Numeric := trivial

/-- Behind the body of an RST BPDU there is a zero. -/
theorem parserOf_rst_iff {versionId bpduType : ℕ} {r : List UInt8} :
    parserOf versionId bpduType buf r = .ok (some (.rst b), rest) ↔
      (versionId = 2 ∧ bpduType = 2) ∧ parserAs checkRst r = .ok (b, 0 :: rest) := by
  constructor
  · intro h
    unfold parserOf at h
    split_ifs at h with hconfig hlen htcn hrst hlen
    · obtain ⟨⟨b', rest'⟩, hparse, heq⟩ := map_eq_ok.1 h
      cases (Prod.mk.inj heq).1
    · cases h
    · split at h
      · cases h
      · next b' r' hparse =>
        split at h
        · cases h
        · next length hread =>
          split_ifs at h with hzero
          obtain ⟨hb, rfl⟩ := Prod.mk.inj (Except.ok.inj h)
          obtain rfl := Bpdu.rst.inj (Option.some.inj hb)
          obtain ⟨-, tail, rfl⟩ := (Format.Numeric.unpackFrom_eq_ok_iff numeric_rstPackStr).mp hread
          rw [hzero] at hparse
          exact ⟨hrst, hparse⟩
    · cases h
  · rintro ⟨⟨rfl, rfl⟩, h⟩
    have hle := length_of_parserAs h
    have hlen : ¬ r.length < rstPackStr.calcsize := not_lt.mpr (le_trans (by decide) hle)
    have hread : rstPackStr.unpackFrom (0 :: rest) = .ok (0, ()) :=
      (Format.Numeric.unpackFrom_eq_ok_iff numeric_rstPackStr).mpr
        ⟨⟨by decide, trivial⟩, rest, rfl⟩
    rw [parserOf, if_neg (by decide), if_neg (by decide), if_pos ⟨rfl, rfl⟩, if_neg hlen, h]
    simp only [hread]
    rfl

theorem parser_config_iff : parser buf = .ok (some (.config b), rest) ↔
    ∃ vals, packStr.Fits vals ∧ ofValues vals = b ∧ b.checkParameters ∧
      buf = [0, 0, 0, 0] ++ (packStr.bytes vals ++ rest) := by
  have hfits : basePackStr.Fits (0, 0, 0, ()) := ⟨by decide, by decide, by decide, trivial⟩
  rw [parser_eq_ok_iff]
  constructor
  · rintro ⟨versionId, bpduType, r, -, rfl, h⟩
    obtain ⟨⟨rfl, rfl⟩, hparse⟩ := parserOf_config_iff.1 h
    obtain ⟨vals, hf, hb, hcheck, rfl⟩ := parserAs_eq_ok_iff.1 hparse
    exact ⟨vals, hf, hb, hcheck, rfl⟩
  · rintro ⟨vals, hf, hb, hcheck, rfl⟩
    exact ⟨0, 0, _, hfits, rfl, parserOf_config_iff.2
      ⟨⟨rfl, rfl⟩, parserAs_eq_ok_iff.2 ⟨vals, hf, hb, hcheck, rfl⟩⟩⟩

theorem parser_rst_iff : parser buf = .ok (some (.rst b), rest) ↔
    ∃ vals, packStr.Fits vals ∧ ofValues vals = b ∧ b.checkRst ∧
      buf = [0, 0, 2, 2] ++ (packStr.bytes vals ++ 0 :: rest) := by
  have hfits : basePackStr.Fits (0, 2, 2, ()) := ⟨by decide, by decide, by decide, trivial⟩
  rw [parser_eq_ok_iff]
  constructor
  · rintro ⟨versionId, bpduType, r, -, rfl, h⟩
    obtain ⟨⟨rfl, rfl⟩, hparse⟩ := parserOf_rst_iff.1 h
    obtain ⟨vals, hf, hb, hcheck, rfl⟩ := parserAs_eq_ok_iff.1 hparse
    exact ⟨vals, hf, hb, hcheck, rfl⟩
  · rintro ⟨vals, hf, hb, hcheck, rfl⟩
    exact ⟨2, 2, _, hfits, rfl, parserOf_rst_iff.2
      ⟨⟨rfl, rfl⟩, parserAs_eq_ok_iff.2 ⟨vals, hf, hb, hcheck, rfl⟩⟩⟩

theorem serialize_config_iff : (Bpdu.config b).serialize = .ok buf ↔
    packStr.Fits b.values ∧ buf = [0, 0, 0, 0] ++ packStr.bytes b.values := by
  have hbase : basePackStr.pack (Bpdu.config b).header = .ok [0, 0, 0, 0] := rfl
  rw [serialize, hbase]
  simp only [body, map_eq_ok, Format.pack_eq_ok_iff]
  constructor
  · rintro ⟨w, ⟨hf, rfl⟩, rfl⟩
    exact ⟨hf, rfl⟩
  · rintro ⟨hf, rfl⟩
    exact ⟨_, ⟨hf, rfl⟩, rfl⟩

theorem serialize_rst_iff : (Bpdu.rst b).serialize = .ok buf ↔
    packStr.Fits b.values ∧ buf = [0, 0, 2, 2] ++ (packStr.bytes b.values ++ [0]) := by
  have hbase : basePackStr.pack (Bpdu.rst b).header = .ok [0, 0, 2, 2] := rfl
  have hlast : rstPackStr.pack (version1Length, ()) = .ok [0] := rfl
  rw [serialize, hbase, body, hlast]
  simp only [map_eq_ok]
  constructor
  · rintro ⟨w, hw, rfl⟩
    split at hw
    · cases hw
    · next sub hsub =>
      obtain ⟨hf, rfl⟩ := Format.pack_eq_ok_iff.mp hsub
      exact ⟨hf, congrArg ([0, 0, 2, 2] ++ ·) (Except.ok.inj hw).symm⟩
  · rintro ⟨hf, rfl⟩
    exact ⟨_, by rw [Format.pack_bytes hf]; rfl, rfl⟩

/-- Values that fit are known from what they are packed to. -/
theorem bytes_inj {vals vals' : packStr.Values} (hf : packStr.Fits vals)
    (hf' : packStr.Fits vals') : packStr.bytes vals = packStr.bytes vals' ↔ vals = vals' := by
  constructor
  · intro h
    have hread : packStr.unpackFrom (packStr.bytes vals) = .ok vals :=
      (Format.Numeric.unpackFrom_eq_ok_iff numeric_packStr).mpr ⟨hf, [], by simp⟩
    have hread' : packStr.unpackFrom (packStr.bytes vals) = .ok vals' :=
      (Format.Numeric.unpackFrom_eq_ok_iff numeric_packStr).mpr ⟨hf', [], by simp [h]⟩
    exact Except.ok.inj (hread.symm.trans hread')
  · rintro rfl
    rfl

theorem readBack_config_iff (hc : b.checkParameters) :
    (Bpdu.config b).ReadBack ↔ packStr.Fits b.values ∧ ofValues b.values = b := by
  constructor
  · rintro ⟨buf, hserialize, hparse⟩
    obtain ⟨hf, rfl⟩ := serialize_config_iff.1 hserialize
    obtain ⟨vals, hvals, hb, -, heq⟩ := parser_config_iff.1 (hparse [])
    rw [List.append_nil, List.append_nil] at heq
    obtain rfl := (bytes_inj hf hvals).mp (List.append_cancel_left heq)
    exact ⟨hf, hb⟩
  · rintro ⟨hf, hb⟩
    refine ⟨_, serialize_config_iff.2 ⟨hf, rfl⟩, fun rest => ?_⟩
    exact parser_config_iff.2 ⟨b.values, hf, hb, hc, List.append_assoc _ _ _⟩

theorem readBack_rst_iff (hc : b.checkRst) :
    (Bpdu.rst b).ReadBack ↔ packStr.Fits b.values ∧ ofValues b.values = b := by
  constructor
  · rintro ⟨buf, hserialize, hparse⟩
    obtain ⟨hf, rfl⟩ := serialize_rst_iff.1 hserialize
    obtain ⟨vals, hvals, hb, -, heq⟩ := parser_rst_iff.1 (hparse [])
    rw [List.append_nil] at heq
    have hbytes := List.append_cancel_right (List.append_cancel_left heq)
    obtain rfl := (bytes_inj hf hvals).mp hbytes
    exact ⟨hf, hb⟩
  · rintro ⟨hf, hb⟩
    refine ⟨_, serialize_rst_iff.2 ⟨hf, rfl⟩, fun rest => ?_⟩
    exact parser_rst_iff.2 ⟨b.values, hf, hb, hc, by simp⟩

theorem rewritten_config_iff (h : parser buf = .ok (some (.config b), rest)) :
    (Bpdu.config b).Rewritten buf rest ↔ b.WholeSeconds := by
  obtain ⟨vals, hf, rfl, -, rfl⟩ := parser_config_iff.1 h
  obtain ⟨hf', hwhole⟩ := values_ofValues hf
  rw [← hwhole, ← bytes_inj hf' hf]
  constructor
  · rintro ⟨consumed, hserialize, heq⟩
    obtain ⟨-, rfl⟩ := serialize_config_iff.1 hserialize
    rw [List.append_assoc] at heq
    exact List.append_cancel_right (List.append_cancel_left heq)
  · intro heq
    exact ⟨_, serialize_config_iff.2 ⟨hf', rfl⟩, by rw [heq, List.append_assoc]⟩

theorem rewritten_rst_iff (h : parser buf = .ok (some (.rst b), rest)) :
    (Bpdu.rst b).Rewritten buf rest ↔ b.WholeSeconds := by
  obtain ⟨vals, hf, rfl, -, rfl⟩ := parser_rst_iff.1 h
  obtain ⟨hf', hwhole⟩ := values_ofValues hf
  rw [← hwhole, ← bytes_inj hf' hf]
  constructor
  · rintro ⟨consumed, hserialize, heq⟩
    obtain ⟨-, rfl⟩ := serialize_rst_iff.1 hserialize
    rw [List.append_assoc, List.append_assoc] at heq
    exact List.append_cancel_right (List.append_cancel_left heq)
  · intro heq
    exact ⟨_, serialize_rst_iff.2 ⟨hf', rfl⟩, by rw [heq]; simp⟩

end Bpdu

/-- A bridge takes the Configuration BPDUs among the messages. -/
theorem ConfigurationBPDUs.parser_eq_ok_iff : ConfigurationBPDUs.parser buf = .ok (some b) ↔
    ∃ rest, Bpdu.parser buf = .ok (some (.config b), rest) := by
  rw [ConfigurationBPDUs.parser, Bpdu.parser]
  by_cases hlen : buf.length < basePackStr.calcsize
  · simp [hlen]
  · rw [if_neg hlen, if_neg hlen]
    generalize basePackStr.unpack buf = vals
    obtain ⟨protocolId, versionId, bpduType, ⟨⟩⟩ := vals
    by_cases hzero : protocolId = 0
    · simp only [hzero, ne_eq, not_true_eq_false, if_false, if_true, Bpdu.parserOf_config_iff]
      by_cases hconfig : versionId = 0 ∧ bpduType = 0
      · by_cases hrest : (buf.drop basePackStr.calcsize).length < packStr.calcsize
        · simp only [hconfig, and_self, if_true, hrest, parserAs, Format.unpackFrom]
          simp
        · simp only [hconfig, and_self, if_true, hrest, if_false, parserAs, Format.unpackFrom,
            create]
          split_ifs with hcheck
          · simp [Except.map]
          · simp [Except.map]
      · simp [hconfig]
    · simp [hzero]

/-- Both ways between a message and its octets are exact if its timers are whole seconds, and only
then. To be sent and read back it must have room in its fields besides. -/
theorem bpdu_exact_iff (b : ConfigurationBPDUs) (m : Bpdu) (hm : m = .config b ∨ m = .rst b) :
    (m.Checked → b.portNumber < 4096 → (m.ReadBack ↔ (packStr.Fits b.values ∧
      b.rootSystemIdExtension < 4096 ∧ b.bridgeSystemIdExtension < 4096) ∧ b.WholeSeconds)) ∧
    ∀ buf rest, Bpdu.parser buf = .ok (some m, rest) → (m.Rewritten buf rest ↔ b.WholeSeconds) := by
  have hiff (hs : b.checkRst) (hn : b.portNumber < 4096) :
      packStr.Fits b.values ∧ ofValues b.values = b ↔ (packStr.Fits b.values ∧
        b.rootSystemIdExtension < 4096 ∧ b.bridgeSystemIdExtension < 4096) ∧ b.WholeSeconds := by
    rw [and_assoc]
    exact and_congr_right fun hf => ofValues_values_iff hs hn hf
  obtain rfl | rfl := hm
  · refine ⟨fun hc hn => ?_, fun buf rest h => Bpdu.rewritten_config_iff h⟩
    rw [Bpdu.readBack_config_iff hc, hiff hc.2 hn]
  · refine ⟨fun hc hn => ?_, fun buf rest h => Bpdu.rewritten_rst_iff h⟩
    rw [Bpdu.readBack_rst_iff hc, hiff hc hn]

/-- A message whose hello time is of so many units of 1/256 second. -/
def helloBpdu (helloTime : ℕ) : ConfigurationBPDUs :=
  ⟨0, 0x8000, 0, 1, 0, 0x8000, 0, 1, 128, 1, 0, 20 * 256, helloTime, 15 * 256⟩

theorem bpdu_exact_iff_two :
    ((Bpdu.config (helloBpdu 512)).Checked → (helloBpdu 512).portNumber < 4096 →
      ((Bpdu.config (helloBpdu 512)).ReadBack ↔ (packStr.Fits (helloBpdu 512).values ∧
        (helloBpdu 512).rootSystemIdExtension < 4096 ∧
        (helloBpdu 512).bridgeSystemIdExtension < 4096) ∧ (helloBpdu 512).WholeSeconds)) ∧
    ∀ buf rest, Bpdu.parser buf = .ok (some (.config (helloBpdu 512)), rest) →
      ((Bpdu.config (helloBpdu 512)).Rewritten buf rest ↔ (helloBpdu 512).WholeSeconds) :=
  bpdu_exact_iff (helloBpdu 512) (.config (helloBpdu 512)) (Or.inl rfl)

/-- A hello time of one and a half seconds is not read back. -/
theorem not_readBack_half : ¬ ∀ (b : ConfigurationBPDUs), b.checkParameters →
    b.portNumber < 4096 → packStr.Fits b.values → b.rootSystemIdExtension < 4096 →
    b.bridgeSystemIdExtension < 4096 → (Bpdu.config b).ReadBack := by
  intro h
  have hc : (helloBpdu 384).checkParameters := by decide
  have hf : packStr.Fits (helloBpdu 384).values :=
    ⟨by decide, by decide, by decide, by decide, by decide, by decide, by decide, by decide,
      by decide, trivial⟩
  have hback := h (helloBpdu 384) hc (by decide) hf (by decide) (by decide)
  obtain ⟨-, hb⟩ := (Bpdu.readBack_config_iff hc).mp hback
  exact absurd (congrArg ConfigurationBPDUs.helloTime hb) (by decide)

end Ryu.Stp
