import Ryu.Lib.BitFields
import Ryu.Lib.Codec
import Ryu.Lib.Layers

/-! # LLDP

TLVs of known types, the last of which ends the LLDPDU. Each says in nine bits how long it is. What
is read keeps the lengths that it was read with, and writes these again.
-/

namespace Ryu.Packet

open Bytes

namespace Lldp

/-- The TLVs that are nothing but a text. -/
inductive Description
  | port
  | systemName
  | system
  deriving DecidableEq, Repr

inductive TlvBody
  | lldpduEnd
  | chassisID (subtype : ℕ) (chassisId : List UInt8)
  | portID (subtype : ℕ) (portId : List UInt8)
  | ttl (seconds : ℕ)
  | description (kind : Description) (info : List UInt8)
  | systemCapabilities (systemCap enabledCap : ℕ)
  | managementAddress (addrLen addrSubtype : ℕ) (addr : List UInt8)
      (intfSubtype intfNum oidLen : ℕ) (oid : List UInt8)
  | organizationallySpecific (oui : List UInt8) (subtype : ℕ) (info : List UInt8)
  deriving DecidableEq, Repr

structure Tlv where
  typelen : ℕ
  len : ℕ
  body : TlvBody
  deriving DecidableEq, Repr

def Description.tlvType : Description → ℕ
  | port => 4
  | systemName => 5
  | system => 6

namespace TlvBody

def tlvType : TlvBody → ℕ
  | lldpduEnd => 0
  | chassisID .. => 1
  | portID .. => 2
  | ttl _ => 3
  | description kind _ => kind.tlvType
  | systemCapabilities .. => 7
  | managementAddress .. => 8
  | organizationallySpecific .. => 127

@[reducible] def addrPackStr : Format := [.num 1, .num 1]

@[reducible] def intfPackStr : Format := [.num 1, .num 4, .num 1]

@[reducible] def ouiPackStr : Format := [.str 3, .num 1]

/-- What the constructors make `len` of. -/
def size : TlvBody → ℕ
  | lldpduEnd => 0
  | chassisID _ info | portID _ info => 1 + info.length
  | ttl _ => 2
  | description _ info => info.length
  | systemCapabilities .. => 4
  | managementAddress addrLen _ _ _ _ oidLen _ =>
    addrPackStr.calcsize + addrLen - 1 + intfPackStr.calcsize + oidLen
  | organizationallySpecific _ _ info => ouiPackStr.calcsize + info.length

def lenMin : TlvBody → ℕ
  | lldpduEnd | description .. => 0
  | chassisID .. | portID .. | ttl _ => 2
  | systemCapabilities .. | organizationallySpecific .. => 4
  | managementAddress .. => 9

def lenMax : TlvBody → ℕ
  | lldpduEnd | organizationallySpecific .. => 511
  | chassisID .. | portID .. => 256
  | ttl _ => 2
  | description .. => 255
  | systemCapabilities .. => 4
  | managementAddress .. => 167

/-- `_oid_len_valid`. The check of the other length, `1 <= len or len <= 31`, is always true. -/
def oidLenValid : TlvBody → Bool
  | managementAddress _ _ _ _ _ oidLen _ => oidLen ≤ 128
  | _ => true

/-- The lengths in a management address, as its constructor has them. -/
def measured : TlvBody → TlvBody
  | managementAddress _ addrSubtype addr intfSubtype intfNum _ oid =>
    managementAddress (addr.length + 1) addrSubtype addr intfSubtype intfNum oid.length oid
  | body => body

/-- What a TLV has behind its type and length. -/
def info : TlvBody → Except PyError (List UInt8)
  | lldpduEnd => .ok []
  | chassisID subtype info | portID subtype info => (packInto 1 subtype).map (· ++ info)
  | ttl seconds => packInto 2 seconds
  | description _ info => .ok info
  | systemCapabilities systemCap enabledCap =>
    Format.pack [.num 2, .num 2] (systemCap, enabledCap, ())
  | managementAddress addrLen addrSubtype addr intfSubtype intfNum oidLen oid =>
    match addrPackStr.pack (addrLen, addrSubtype, ()) with
    | .error e => .error e
    | .ok b => (intfPackStr.pack (intfSubtype, intfNum, oidLen, ())).map (b ++ addr ++ · ++ oid)
  | organizationallySpecific oui subtype info =>
    (ouiPackStr.pack (oui, subtype, ())).map (· ++ info)

/-- A subtype and what is behind it. -/
def readSubtype (f : ℕ → List UInt8 → TlvBody) (info : List UInt8) : Except PyError TlvBody :=
  (Format.unpackFrom [.num 1] (info.take 1)).map fun (subtype, ()) => f subtype (info.drop 1)

/-- The part of `ManagementAddress` that reads. -/
def readManagementAddress (info : List UInt8) : Except PyError TlvBody :=
  match addrPackStr.unpackFrom (info.take addrPackStr.calcsize) with
  | .error e => .error e
  | .ok (addrLen, addrSubtype, ()) =>
    let offset := addrPackStr.calcsize + addrLen - 1
    let addr := (info.take offset).drop addrPackStr.calcsize
    match intfPackStr.unpackFrom ((info.drop offset).take intfPackStr.calcsize) with
    | .error e => .error e
    | .ok (intfSubtype, intfNum, oidLen, ()) =>
      if oidLen ≤ 128 then
        .ok (managementAddress addrLen addrSubtype addr intfSubtype intfNum oidLen
          (info.drop (offset + intfPackStr.calcsize)))
      else .error .assertionError

/-- `_tlv_parsers`, given what a TLV has behind its type and length. -/
def parserOf : ℕ → Option (List UInt8 → Except PyError TlvBody)
  | 0 => some fun _ => .ok lldpduEnd
  | 1 => some (readSubtype chassisID)
  | 2 => some (readSubtype portID)
  | 3 => some fun info =>
    (Format.unpackFrom [.num 2] (info.take 2)).map fun (seconds, ()) => ttl seconds
  | 4 => some fun info => .ok (description .port info)
  | 5 => some fun info => .ok (description .systemName info)
  | 6 => some fun info => .ok (description .system info)
  | 7 => some fun info => (Format.unpackFrom [.num 2, .num 2] (info.take 4)).map
    fun (systemCap, enabledCap, ()) => systemCapabilities systemCap enabledCap
  | 8 => some readManagementAddress
  | 127 => some fun info => (ouiPackStr.unpackFrom (info.take ouiPackStr.calcsize)).map
    fun (oui, subtype, ()) =>
      organizationallySpecific oui subtype (info.drop ouiPackStr.calcsize)
  | _ => none

end TlvBody

namespace Tlv

/-- The constructors without a buffer. -/
def new (body : TlvBody) : Except PyError Tlv :=
  let body := body.measured
  if body.oidLenValid ∧ body.lenMin ≤ body.size ∧ body.size ≤ body.lenMax then
    .ok ⟨body.tlvType <<< 9 ||| body.size, body.size, body⟩
  else .error .assertionError

/-- A round of the loop of the parser: `get_type`, and the constructor with a buffer. -/
def parser (buf : List UInt8) : Except PyError Tlv :=
  match Format.unpackFrom [.num 2] (buf.take 2) with
  | .error e => .error e
  | .ok (typelen, ()) =>
    let len := typelen &&& 0x1ff
    match TlvBody.parserOf ((typelen &&& 0xfe00) >>> 9) with
    | none => .error (.keyError "tlv_type")
    | some read =>
      if buf.length < len + 2 then .error .assertionError
      else (read ((buf.drop 2).take len)).map fun body => ⟨typelen, len, body⟩

def serialize (tlv : Tlv) : Except PyError (List UInt8) :=
  match packInto 2 tlv.typelen with
  | .error e => .error e
  | .ok b => tlv.body.info.map (b ++ ·)

end Tlv

/-- The loop of the parser, which takes at least two octets in a round. -/
def readTlvs : ℕ → List UInt8 → Except PyError (List Tlv × List UInt8)
  | _, [] => .ok ([], [])
  | 0, _ :: _ => .error structError
  | fuel + 1, buf =>
    match Tlv.parser buf with
    | .error e => .error e
    | .ok tlv =>
      let rest := buf.drop (2 + tlv.len)
      if tlv.body.tlvType = 0 then .ok ([tlv], rest)
      else if rest = [] then .error .assertionError
      else (readTlvs fuel rest).map fun x => (tlv :: x.1, x.2)

end Lldp

structure Lldp where
  tlvs : List Lldp.Tlv
  deriving DecidableEq, Repr

namespace Lldp

variable (p : Lldp)

/-- `_tlvs_len_valid` and `_tlvs_valid`. -/
def tlvsValid : Bool :=
  4 ≤ p.tlvs.length ∧ (p.tlvs[0]?).map (·.body.tlvType) = some 1 ∧
    (p.tlvs[1]?).map (·.body.tlvType) = some 2 ∧ (p.tlvs[2]?).map (·.body.tlvType) = some 3 ∧
    (p.tlvs.getLast?).map (·.body.tlvType) = some 0

/-- `_parser`. -/
def parserOf (buf : List UInt8) : Except PyError (Lldp × List UInt8) :=
  match readTlvs buf.length buf with
  | .error e => .error e
  | .ok (tlvs, rest) =>
    let p : Lldp := ⟨tlvs⟩
    if p.tlvsValid then .ok (p, rest) else .error .assertionError

/-- `parser`, with no header where `_parser` raises. -/
def parser (buf : List UInt8) : Option Lldp × List UInt8 :=
  match parserOf buf with
  | .error _ => (none, buf)
  | .ok (p, rest) => (some p, rest)

def serialize : Except PyError (List UInt8) := writeAll Tlv.serialize p.tlvs

/-- `__len__`. -/
def len : ℕ := (p.tlvs.map fun tlv => 2 + tlv.len).sum

/-! ## What is serialized is read back -/

theorem unpackFrom_word {size v : ℕ} (h : v < 256 ^ size) :
    Format.unpackFrom [.num size] (toBytes size v) = .ok (v, ()) := by
  have hfits : Format.Fits [.num size] (v, ()) := ⟨h, trivial⟩
  have hread := Format.unpackFrom_bytes hfits trivial []
  rwa [Format.bytes, Format.bytes, List.append_nil, List.append_nil] at hread

namespace TlvBody

/-- The numbers fit their fields, and lengths are those of what they are for. -/
def Fits : TlvBody → Prop
  | lldpduEnd | description .. => True
  | chassisID subtype _ | portID subtype _ => subtype < 256
  | ttl seconds => seconds < 2 ^ 16
  | systemCapabilities systemCap enabledCap => systemCap < 2 ^ 16 ∧ enabledCap < 2 ^ 16
  | managementAddress addrLen addrSubtype addr intfSubtype intfNum oidLen oid =>
    addrLen = addr.length + 1 ∧ addrLen < 256 ∧ addrSubtype < 256 ∧ intfSubtype < 256 ∧
      intfNum < 2 ^ 32 ∧ oidLen = oid.length ∧ oidLen ≤ 128
  | organizationallySpecific oui subtype _ => oui.length = 3 ∧ subtype < 256

theorem readSubtype_append {f : ℕ → List UInt8 → TlvBody} {subtype : ℕ} (h : subtype < 256)
    (info : List UInt8) : readSubtype f (toBytes 1 subtype ++ info) = .ok (f subtype info) := by
  have hsub : Format.unpackFrom [.num 1] (toBytes 1 subtype) = .ok (subtype, ()) :=
    unpackFrom_word h
  rw [readSubtype, List.take_left' (length_toBytes ..), List.drop_left' (length_toBytes ..), hsub]
  rfl

theorem readManagementAddress_info {addrLen addrSubtype intfSubtype intfNum oidLen : ℕ}
    {addr oid : List UInt8} (h : (managementAddress addrLen addrSubtype addr intfSubtype intfNum
      oidLen oid).Fits) :
    ∃ b, (managementAddress addrLen addrSubtype addr intfSubtype intfNum oidLen oid).info = .ok b ∧
      b.length = (managementAddress addrLen addrSubtype addr intfSubtype intfNum oidLen oid).size ∧
      readManagementAddress b =
        .ok (managementAddress addrLen addrSubtype addr intfSubtype intfNum oidLen oid) := by
  obtain ⟨haddr, haddrLen, haddrSub, hintf, hnum, hoid, hoidLen⟩ := h
  have hfst : addrPackStr.Fits (addrLen, addrSubtype, ()) := ⟨haddrLen, haddrSub, trivial⟩
  have hsnd : intfPackStr.Fits (intfSubtype, intfNum, oidLen, ()) :=
    ⟨hintf, hnum, by omega, trivial⟩
  have hlenFst := Format.length_bytes hfst
  have hlenSnd := Format.length_bytes hsnd
  let front := addrPackStr.bytes (addrLen, addrSubtype, ()) ++ addr
  let mid := intfPackStr.bytes (intfSubtype, intfNum, oidLen, ())
  have hfront : front.length = addrPackStr.calcsize + addrLen - 1 := by
    rw [List.length_append, hlenFst, haddr]
    rfl
  refine ⟨front ++ mid ++ oid, ?_, ?_, ?_⟩
  · rw [info, Format.pack_bytes hfst]
    simp only
    rw [Format.pack_bytes hsnd]
    rfl
  · rw [List.length_append, List.length_append, hfront, hlenSnd, size, hoid]
  · have htake : (front ++ mid ++ oid).take addrPackStr.calcsize =
        addrPackStr.bytes (addrLen, addrSubtype, ()) := by
      rw [List.append_assoc, List.append_assoc]
      exact List.take_left' hlenFst
    have haddr' : ((front ++ mid ++ oid).take (addrPackStr.calcsize + addrLen - 1)).drop
        addrPackStr.calcsize = addr := by
      rw [List.append_assoc, List.take_left' hfront]
      exact List.drop_left' hlenFst
    have hmid : ((front ++ mid ++ oid).drop (addrPackStr.calcsize + addrLen - 1)).take
        intfPackStr.calcsize = mid := by
      rw [List.append_assoc, List.drop_left' hfront]
      exact List.take_left' hlenSnd
    have hend : (front ++ mid ++ oid).drop
        (addrPackStr.calcsize + addrLen - 1 + intfPackStr.calcsize) = oid := by
      rw [← List.drop_drop, List.append_assoc, List.drop_left' hfront]
      exact List.drop_left' hlenSnd
    have hreadFst := Format.unpackFrom_bytes hfst trivial []
    have hreadSnd := Format.unpackFrom_bytes hsnd trivial []
    rw [List.append_nil] at hreadFst hreadSnd
    rw [readManagementAddress, htake, hreadFst]
    simp only
    rw [haddr', hmid, hreadSnd]
    simp only
    rw [if_pos hoidLen, hend]

theorem read_info {body : TlvBody} (h : body.Fits) :
    ∃ b read, body.info = .ok b ∧ b.length = body.size ∧
      parserOf body.tlvType = some read ∧ read b = .ok body := by
  cases body with
  | lldpduEnd => exact ⟨[], _, rfl, rfl, rfl, rfl⟩
  | chassisID subtype id =>
    refine ⟨toBytes 1 subtype ++ id, _, ?_, ?_, rfl, readSubtype_append h id⟩
    · rw [info, packInto, if_pos (show subtype < 256 ^ 1 from h)]
      rfl
    · rw [List.length_append, length_toBytes, size]
  | portID subtype id =>
    refine ⟨toBytes 1 subtype ++ id, _, ?_, ?_, rfl, readSubtype_append h id⟩
    · rw [info, packInto, if_pos (show subtype < 256 ^ 1 from h)]
      rfl
    · rw [List.length_append, length_toBytes, size]
  | ttl seconds =>
    refine ⟨toBytes 2 seconds, _, ?_, length_toBytes .., rfl, ?_⟩
    · rw [info, packInto, if_pos (show seconds < 256 ^ 2 from h)]
    · have hread : Format.unpackFrom [.num 2] (toBytes 2 seconds) = .ok (seconds, ()) :=
        unpackFrom_word h
      simp only
      rw [List.take_of_length_le (length_toBytes ..).le, hread]
      rfl
  | description kind info => cases kind <;> exact ⟨info, _, rfl, rfl, rfl, rfl⟩
  | systemCapabilities systemCap enabledCap =>
    have hfits : Format.Fits [.num 2, .num 2] (systemCap, enabledCap, ()) := ⟨h.1, h.2, trivial⟩
    have hlen := Format.length_bytes hfits
    have hread := Format.unpackFrom_bytes hfits trivial []
    rw [List.append_nil] at hread
    refine ⟨_, _, Format.pack_bytes hfits, hlen, rfl, ?_⟩
    simp only
    rw [List.take_of_length_le (i := 4) hlen.le, hread]
    rfl
  | managementAddress addrLen addrSubtype addr intfSubtype intfNum oidLen oid =>
    obtain ⟨b, hinfo, hlen, hread⟩ := readManagementAddress_info h
    exact ⟨b, _, hinfo, hlen, rfl, hread⟩
  | organizationallySpecific oui subtype info =>
    have hfits : ouiPackStr.Fits (oui, subtype, ()) := ⟨h.2, trivial⟩
    have hlen := Format.length_bytes hfits
    have hread := Format.unpackFrom_bytes hfits ⟨h.1, trivial⟩ []
    rw [List.append_nil] at hread
    refine ⟨ouiPackStr.bytes (oui, subtype, ()) ++ info, _, ?_, ?_, rfl, ?_⟩
    · rw [TlvBody.info, Format.pack_bytes hfits]
      rfl
    · rw [List.length_append, hlen, size]
    · simp only
      rw [List.take_left' hlen, List.drop_left' hlen, hread]
      rfl

end TlvBody

namespace Tlv

/-- The parts fit, and the lengths are theirs. -/
structure Fits (tlv : Tlv) : Prop where
  body : tlv.body.Fits
  len : tlv.len = tlv.body.size
  lenLt : tlv.len < 2 ^ 9
  typelen : tlv.typelen = tlv.body.tlvType <<< 9 ||| tlv.len

theorem tlvType_lt (body : TlvBody) : body.tlvType < 2 ^ 7 := by
  cases body with
  | description kind info => cases kind <;> exact Nat.le_of_ble_eq_true rfl
  | _ => exact Nat.le_of_ble_eq_true rfl

variable {tlv : Tlv}

theorem Fits.typelen_eq (h : tlv.Fits) : tlv.typelen < 2 ^ 16 ∧
    tlv.typelen &&& 0x1ff = tlv.len ∧ (tlv.typelen &&& 0xfe00) >>> 9 = tlv.body.tlvType := by
  have htype := tlvType_lt tlv.body
  rw [h.typelen]
  refine ⟨?_, BitFields.shiftLeft_or_and h.lenLt, ?_⟩
  · exact (BitFields.shiftLeft_or_lt_iff (m := 7) h.lenLt).2 htype
  · rw [Nat.shiftRight_and_distrib, BitFields.shiftRight_shiftLeft_or h.lenLt]
    exact (Nat.and_two_pow_sub_one_eq_mod _ 7).trans (Nat.mod_eq_of_lt htype)

/-- A constructor takes parts of a length that it allows, and they fit. -/
theorem exists_new (body : TlvBody) (hbody : body.measured.Fits)
    (hvalid : body.measured.oidLenValid ∧ body.measured.lenMin ≤ body.measured.size ∧
      body.measured.size ≤ body.measured.lenMax) :
    ∃ tlv, new body = .ok tlv ∧ tlv.body = body.measured ∧ tlv.Fits := by
  have hmax : body.measured.lenMax ≤ 511 := by
    cases body.measured <;> exact Nat.le_of_ble_eq_true rfl
  refine ⟨⟨body.measured.tlvType <<< 9 ||| body.measured.size, body.measured.size, body.measured⟩,
    ?_, rfl, hbody, rfl, ?_, rfl⟩
  · simp only [new]
    rw [if_pos hvalid]
  · simp only
    omega

theorem parser_serialize (h : tlv.Fits) : ∃ b, tlv.serialize = .ok b ∧ b.length = 2 + tlv.len ∧
    (∃ r, b = toBytes 2 tlv.typelen ++ r) ∧ ∀ r, parser (b ++ r) = .ok tlv := by
  obtain ⟨hlt, hlen, htype⟩ := h.typelen_eq
  obtain ⟨b, read, hinfo, hsize, hparser, hread⟩ := TlvBody.read_info h.body
  rw [← h.len] at hsize
  refine ⟨toBytes 2 tlv.typelen ++ b, ?_, ?_, ⟨b, rfl⟩, fun r => ?_⟩
  · rw [serialize, packInto, if_pos (show tlv.typelen < 256 ^ 2 from hlt)]
    simp only
    rw [hinfo]
    rfl
  · rw [List.length_append, length_toBytes, hsize]
  · have htypelen : Format.unpackFrom [.num 2] (toBytes 2 tlv.typelen) = .ok (tlv.typelen, ()) :=
      unpackFrom_word hlt
    have hroom : ¬ (toBytes 2 tlv.typelen ++ (b ++ r)).length < tlv.len + 2 := by
      rw [List.length_append, List.length_append, length_toBytes, hsize]
      omega
    rw [parser, List.append_assoc, List.take_left' (length_toBytes ..), htypelen]
    simp only
    rw [htype, hparser, hlen]
    simp only
    rw [if_neg hroom, List.drop_left' (length_toBytes ..), List.take_left' hsize, hread]
    rfl

end Tlv

/-- The last one ends the LLDPDU, and no other. -/
def Ended : List Tlv → Prop
  | [] => False
  | [tlv] => tlv.body.tlvType = 0
  | tlv :: l => tlv.body.tlvType ≠ 0 ∧ Ended l

theorem readTlvs_step {fuel : ℕ} {buf : List UInt8} (h : buf ≠ []) :
    readTlvs (fuel + 1) buf =
      match Tlv.parser buf with
      | .error e => .error e
      | .ok tlv =>
        if tlv.body.tlvType = 0 then .ok ([tlv], buf.drop (2 + tlv.len))
        else if buf.drop (2 + tlv.len) = [] then .error .assertionError
        else (readTlvs fuel (buf.drop (2 + tlv.len))).map fun x => (tlv :: x.1, x.2) := by
  cases buf with
  | nil => exact absurd rfl h
  | cons a buf => rfl

theorem readTlvs_written {l : List Tlv} (hl : ∀ tlv ∈ l, tlv.Fits) (hend : Ended l) :
    ∃ b, writeAll Tlv.serialize l = .ok b ∧ b.length = (l.map fun tlv => 2 + tlv.len).sum ∧
      ∀ fuel r, b.length ≤ fuel → readTlvs fuel (b ++ r) = .ok (l, r) := by
  induction l with
  | nil => exact hend.elim
  | cons tlv l ih =>
    obtain ⟨htlv, hl⟩ := List.forall_mem_cons.mp hl
    obtain ⟨b, hwrite, hlen, -, hread⟩ := Tlv.parser_serialize htlv
    have hstep (rest : List UInt8) (fuel : ℕ) : readTlvs (fuel + 1) (b ++ rest) =
        if tlv.body.tlvType = 0 then .ok ([tlv], rest)
        else if rest = [] then .error .assertionError
        else (readTlvs fuel rest).map fun x => (tlv :: x.1, x.2) := by
      have hne : b ++ rest ≠ [] := fun hnil => by
        rw [(List.append_eq_nil_iff.mp hnil).1, List.length_nil] at hlen
        omega
      rw [readTlvs_step hne, hread]
      simp only
      rw [List.drop_left' hlen]
    cases l with
    | nil =>
      refine ⟨b ++ [], ?_, ?_, fun fuel r hfuel => ?_⟩
      · rw [writeAll, hwrite]
        rfl
      · rw [List.append_nil, hlen]
        rfl
      · rw [List.append_nil, hlen] at hfuel
        obtain ⟨fuel, rfl⟩ := Nat.exists_eq_succ_of_ne_zero (show fuel ≠ 0 by omega)
        rw [List.append_nil, hstep, if_pos (show tlv.body.tlvType = 0 from hend)]
    | cons tlv' l =>
      obtain ⟨hne, hend⟩ := hend
      obtain ⟨rest, hwrite', hlen', hread'⟩ := ih hl hend
      refine ⟨b ++ rest, ?_, ?_, fun fuel r hfuel => ?_⟩
      · rw [writeAll, hwrite]
        simp only
        rw [hwrite']
        rfl
      · rw [List.length_append, hlen, hlen', List.map_cons (l := tlv' :: l), List.sum_cons]
      · have hrest : rest ++ r ≠ [] := by
          intro hnil
          have hsum := congrArg List.length (List.append_eq_nil_iff.mp hnil).1
          rw [hlen', List.map_cons, List.sum_cons, List.length_nil] at hsum
          omega
        rw [List.length_append] at hfuel
        obtain ⟨fuel, rfl⟩ := Nat.exists_eq_succ_of_ne_zero (show fuel ≠ 0 by omega)
        rw [List.append_assoc, hstep, if_neg hne, if_neg hrest, hread' fuel r (by omega)]
        rfl

/-- The parts of the TLVs fit, there are those that must be there, and the last one ends them. -/
structure Fits (p : Lldp) : Prop where
  tlvs : ∀ tlv ∈ p.tlvs, tlv.Fits
  valid : p.tlvsValid = true
  ended : Ended p.tlvs

variable {p : Lldp}

theorem parser_serialize (h : p.Fits) : ∃ b, p.serialize = .ok b ∧ b.length = p.len ∧
    ∀ r, parser (b ++ r) = (some p, r) := by
  obtain ⟨b, hwrite, hlen, hread⟩ := readTlvs_written h.tlvs h.ended
  refine ⟨b, hwrite, hlen, fun r => ?_⟩
  rw [parser, parserOf, hread _ r (by rw [List.length_append]; omega)]
  simp only
  rw [if_pos h.valid]

/-- The first TLV is not zeros. -/
theorem blank_serialize {b : List UInt8} (h : p.Fits) (hb : p.serialize = .ok b) :
    p.len ≠ 0 ∧ ∀ r, blank (b ++ r) = false := by
  have hvalid := of_decide_eq_true h.valid
  rcases hp : p.tlvs with _ | ⟨tlv, l⟩
  · rw [hp] at hvalid
    cases hvalid.2.1
  · rw [hp] at hvalid
    have htype : tlv.body.tlvType = 1 := Option.some.inj hvalid.2.1
    have htlv : tlv.Fits := h.tlvs tlv (hp ▸ List.mem_cons_self)
    obtain ⟨hlt, -, hshift⟩ := htlv.typelen_eq
    have hne : tlv.typelen ≠ 0 := by
      intro hzero
      rw [hzero, htype] at hshift
      cases hshift
    rw [serialize, hp] at hb
    obtain ⟨b', rest, hb', -, rfl⟩ := writeAll_cons_ok hb
    obtain ⟨b'', hwrite, -, ⟨r', rfl⟩, -⟩ := Tlv.parser_serialize htlv
    obtain rfl := Except.ok.inj (hb'.symm.trans hwrite)
    constructor
    · rw [len, hp, List.map_cons, List.sum_cons]
      omega
    · intro r
      rw [List.append_assoc, List.append_assoc]
      exact Layers.blank_toBytes hlt hne _

end Lldp

end Ryu.Packet
