import Mathlib.Data.Nat.Bitwise
import Ryu.Lib.Struct

/-! # Configuration BPDUs

The identifiers of bridges and ports as one number, and the message that carries them. A bridge
identifier is the priority, which the system ID extension is added to, before the MAC address. What
the checks let through is read back, with the timers in whole seconds.
-/

namespace Ryu.Stp

/-- A MAC address, as the number of its octets. -/
abbrev Mac := BitVec 48

def encodeBridgeId (priority systemIdExtension : ℕ) (macAddress : Mac) : ℕ :=
  ((priority + systemIdExtension) <<< 48) + macAddress.toNat

def decodeBridgeId (bridgeId : ℕ) : ℕ × ℕ × Mac :=
  ((bridgeId >>> 48) &&& 0xf000, (bridgeId >>> 48) &&& 0xfff,
    BitVec.ofNat 48 (bridgeId &&& 0xffffffffffff))

def encodePortId (priority portNumber : ℕ) : ℕ := (priority <<< 8) + portNumber

def decodePortId (portId : ℕ) : ℕ × ℕ := ((portId >>> 8) &&& 0xf0, portId &&& 0xfff)

/-- The timers are in units of 1/256 second. -/
structure ConfigurationBPDUs where
  flags : ℕ
  rootPriority : ℕ
  rootSystemIdExtension : ℕ
  rootMacAddress : Mac
  rootPathCost : ℕ
  bridgePriority : ℕ
  bridgeSystemIdExtension : ℕ
  bridgeMacAddress : Mac
  portPriority : ℕ
  portNumber : ℕ
  messageAge : ℕ
  maxAge : ℕ
  helloTime : ℕ
  forwardDelay : ℕ
  deriving DecidableEq, Repr

def encodeTimer (timer : ℕ) : ℕ := timer / 256 * 256

namespace ConfigurationBPDUs

def bridgePriorityStep : ℕ := 4096
def portPriorityStep : ℕ := 16

/-- `!HBB` and `!BQIQHHHHH`. -/
@[reducible] def basePackStr : Format := [.num 2, .num 1, .num 1]
@[reducible] def packStr : Format :=
  [.num 1, .num 8, .num 4, .num 8, .num 2, .num 2, .num 2, .num 2, .num 2]

/-- The timers are multiples of their step by what they are. -/
def checkParameters (b : ConfigurationBPDUs) : Prop :=
  (b.flags >>> 1) &&& 0b111111 = 0 ∧ b.rootPriority % bridgePriorityStep = 0 ∧
    b.bridgePriority % bridgePriorityStep = 0 ∧ b.portPriority % portPriorityStep = 0

instance (b : ConfigurationBPDUs) : Decidable b.checkParameters := by
  unfold checkParameters
  infer_instance

/-- The constructor of the source, which asserts its parameters. -/
def create (b : ConfigurationBPDUs) : Except PyError ConfigurationBPDUs :=
  if b.checkParameters then .ok b else .error .assertionError

/-- The values of the packed fields. -/
def values (b : ConfigurationBPDUs) : packStr.Values :=
  (b.flags, encodeBridgeId b.rootPriority b.rootSystemIdExtension b.rootMacAddress, b.rootPathCost,
    encodeBridgeId b.bridgePriority b.bridgeSystemIdExtension b.bridgeMacAddress,
    encodePortId b.portPriority b.portNumber, encodeTimer b.messageAge, encodeTimer b.maxAge,
    encodeTimer b.helloTime, encodeTimer b.forwardDelay, ())

def serialize (b : ConfigurationBPDUs) : Except PyError (List UInt8) :=
  match Format.pack basePackStr (0, 0, 0, ()) with
  | .error e => .error e
  | .ok base => (packStr.pack b.values).map (base ++ ·)

def ofValues : packStr.Values → ConfigurationBPDUs
  | (flags, rootId, rootPathCost, bridgeId, portId, messageAge, maxAge, helloTime, forwardDelay,
      ()) =>
    let (rootPriority, rootSystemIdExtension, rootMacAddress) := decodeBridgeId rootId
    let (bridgePriority, bridgeSystemIdExtension, bridgeMacAddress) := decodeBridgeId bridgeId
    let (portPriority, portNumber) := decodePortId portId
    { flags, rootPriority, rootSystemIdExtension, rootMacAddress, rootPathCost, bridgePriority,
      bridgeSystemIdExtension, bridgeMacAddress, portPriority, portNumber, messageAge, maxAge,
      helloTime, forwardDelay }

/-- The message of the octets, `none` for another version or type. -/
def parser (buf : List UInt8) : Except PyError (Option ConfigurationBPDUs) :=
  if buf.length < basePackStr.calcsize then .error .assertionError
  else
    let (protocolId, versionId, bpduType, ()) := basePackStr.unpack buf
    if protocolId ≠ 0 then .error .assertionError
    else if versionId = 0 ∧ bpduType = 0 then
      let rest := buf.drop basePackStr.calcsize
      if rest.length < packStr.calcsize then .error .assertionError
      else (ofValues (packStr.unpack rest)).create.map some
    else .ok none

/-- The message with its timers as they are sent. -/
def inSeconds (b : ConfigurationBPDUs) : ConfigurationBPDUs :=
  { b with messageAge := encodeTimer b.messageAge, maxAge := encodeTimer b.maxAge,
           helloTime := encodeTimer b.helloTime, forwardDelay := encodeTimer b.forwardDelay }

end ConfigurationBPDUs

variable {p e n v : ℕ} {mac : Mac} {b : ConfigurationBPDUs} {buf : List UInt8}

theorem encodeBridgeId_eq (p e : ℕ) (mac : Mac) :
    encodeBridgeId p e mac = (p + e) * 2 ^ 48 + mac.toNat := by
  rw [encodeBridgeId, Nat.shiftLeft_eq]

theorem encodeBridgeId_mono (p e : ℕ) (mac : Mac) :
    encodeBridgeId p 0 mac ≤ encodeBridgeId p e mac := by
  rw [encodeBridgeId_eq, encodeBridgeId_eq]
  omega

theorem and_mask (v : ℕ) : v &&& 0xfff = v % 4096 :=
  Nat.and_two_pow_sub_one_eq_mod v 12

/-- The low bits masked out, below a power of two. -/
theorem and_high {k m : ℕ} (hkm : k ≤ m) (hv : v < 2 ^ m) :
    v &&& (2 ^ m - 2 ^ k) = v / 2 ^ k * 2 ^ k := by
  apply Nat.eq_of_testBit_eq
  intro i
  have hmask : 2 ^ m - 2 ^ k = (2 ^ (m - k) - 1) * 2 ^ k := by
    rw [Nat.sub_mul, one_mul, ← pow_add, Nat.sub_add_cancel hkm]
  rw [Nat.testBit_and, hmask, Nat.testBit_mul_two_pow, Nat.testBit_mul_two_pow,
    Nat.testBit_two_pow_sub_one, Nat.testBit_div_two_pow]
  by_cases hi : k ≤ i
  · rw [Nat.sub_add_cancel hi]
    by_cases him : i < m
    · have : i - k < m - k := by omega
      simp [hi, this]
    · rw [Nat.testBit_lt_two_pow (hv.trans_le (Nat.pow_le_pow_right (by omega) (by omega)))]
      simp
  · simp [hi]

theorem decodeBridgeId_encode (hp : p % 4096 = 0) (he : e < 4096)
    (hv : encodeBridgeId p e mac < 2 ^ 64) : decodeBridgeId (encodeBridgeId p e mac) = (p, e, mac) := by
  rw [encodeBridgeId_eq] at hv
  have hmac := mac.isLt
  have hhigh : encodeBridgeId p e mac >>> 48 = p + e := by
    rw [encodeBridgeId_eq, Nat.shiftRight_eq_div_pow]
    omega
  have hlow : encodeBridgeId p e mac &&& 0xffffffffffff = mac.toNat := by
    rw [encodeBridgeId_eq]
    refine (Nat.and_two_pow_sub_one_eq_mod _ 48).trans ?_
    omega
  have hpe : p + e < 2 ^ 16 := by omega
  unfold decodeBridgeId
  rw [hhigh, hlow, and_mask, BitVec.ofNat_toNat, BitVec.setWidth_eq]
  have htop : (p + e) &&& 0xf000 = p :=
    (and_high (k := 12) (m := 16) (by omega) hpe).trans (by omega)
  rw [htop]
  congr 2
  omega

theorem decodePortId_encode (hp : p % 16 = 0) (hn : n < 4096) (hv : encodePortId p n < 2 ^ 16) :
    decodePortId (encodePortId p n) = (p, n) := by
  have henc : encodePortId p n = p * 2 ^ 8 + n := by rw [encodePortId, Nat.shiftLeft_eq]
  rw [henc] at hv ⊢
  have hhigh : (p * 2 ^ 8 + n) >>> 8 = p + n / 256 := by
    rw [Nat.shiftRight_eq_div_pow]
    omega
  unfold decodePortId
  rw [hhigh, and_mask]
  have htop : (p + n / 256) &&& 0xf0 = p :=
    (and_high (k := 4) (m := 8) (by omega) (by omega)).trans (by omega)
  rw [htop]
  congr 1
  omega

namespace ConfigurationBPDUs

/-- What the identifiers of a message must meet to be read back from their numbers. -/
structure Decodable (b : ConfigurationBPDUs) : Prop where
  checked : b.checkParameters
  rootExtension : b.rootSystemIdExtension < 4096
  bridgeExtension : b.bridgeSystemIdExtension < 4096
  portNumber : b.portNumber < 4096

theorem ofValues_values (hb : b.Decodable) (h : packStr.pack b.values = .ok buf) :
    ofValues b.values = b.inSeconds := by
  obtain ⟨-, _, h⟩ := Format.pack_num h
  obtain ⟨hroot, _, h⟩ := Format.pack_num h
  obtain ⟨-, _, h⟩ := Format.pack_num h
  obtain ⟨hbridge, _, h⟩ := Format.pack_num h
  obtain ⟨hport, _, -⟩ := Format.pack_num h
  obtain ⟨-, hrp, hbp, hpp⟩ := hb.checked
  have hr := decodeBridgeId_encode hrp hb.rootExtension (by simpa using hroot)
  have hd := decodeBridgeId_encode hbp hb.bridgeExtension (by simpa using hbridge)
  have hn := decodePortId_encode hpp hb.portNumber (by simpa using hport)
  simp only [ofValues, values, inSeconds, hr, hd, hn]

/-- A message that is sent is received as it was, in whole seconds. -/
theorem parser_serialize (hb : b.Decodable) (h : b.serialize = .ok buf) :
    parser buf = .ok (some b.inSeconds) := by
  have hbase : Format.pack basePackStr (0, 0, 0, ()) = .ok [0, 0, 0, 0] := rfl
  rw [serialize, hbase] at h
  obtain ⟨rest, hrest, rfl⟩ := map_eq_ok.1 h
  have hlen := Format.length_pack hrest
  have hexact : packStr.Exact b.values := trivial
  have hread := Format.unpack_pack hrest hexact []
  rw [List.append_nil] at hread
  have hhead : basePackStr.unpack ([0, 0, 0, 0] ++ rest) = (0, 0, 0, ()) := rfl
  have hdrop : ([0, 0, 0, 0] ++ rest).drop basePackStr.calcsize = rest := rfl
  have hsize : ¬ ([0, 0, 0, 0] ++ rest).length < basePackStr.calcsize := by
    rw [List.length_append]
    exact not_lt.mpr (Nat.le_add_right 4 rest.length)
  have hcreate : b.inSeconds.create = .ok b.inSeconds := if_pos hb.checked
  rw [parser, if_neg hsize, hhead]
  simp only [ne_eq, not_true_eq_false, if_false, and_self, if_true, hdrop, hlen, lt_irrefl, hread,
    ofValues_values hb hrest, hcreate]
  rfl

end ConfigurationBPDUs

end Ryu.Stp
