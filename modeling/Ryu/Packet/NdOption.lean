import Ryu.Lib.Layout
import Ryu.Lib.Struct

/-! # Options of neighbor discovery

The options of `icmpv6`, each with a length in units of eight octets that is filled in where it is
zero. The parser of a link-layer address takes all that is left of the buffer, and an MTU has no
`_MIN_LEN`, so that asking for its length raises. Which classes there are depends on the message:
an option of another type is left as octets.
-/

namespace Ryu.Packet

open Bytes

/-- What `nd_option_sla` and `nd_option_tla` have of `nd_option_la`. -/
structure NdOptionLa where
  length : ℕ
  hwSrc : BitVec 48
  data : Option (List UInt8)
  deriving DecidableEq, Repr

structure NdOptionPi where
  length : ℕ
  pl : ℕ
  res1 : ℕ
  valL : ℕ
  preL : ℕ
  res2 : ℕ
  netPrefix : BitVec 128
  deriving DecidableEq, Repr

/-- An object of a class, or octets. -/
inductive NdOption
  | sla (o : NdOptionLa)
  | tla (o : NdOptionLa)
  | pi (o : NdOptionPi)
  | mtu (mtu : ℕ)
  | raw (buf : List UInt8)
  deriving DecidableEq, Repr

/-- Zeros behind, up to a multiple of eight octets. -/
def fillUnits (buf : List UInt8) : List UInt8 :=
  if buf.length % 8 = 0 then buf else buf ++ List.replicate (8 - buf.length % 8) 0

/-- The length in its place, where it is zero, and what is left of it. -/
def fillLength (length : ℕ) (buf : List UInt8) : Except PyError (List UInt8 × ℕ) :=
  if length = 0 then
    (packInto 1 (buf.length / 8)).map fun b => (packAt buf 1 b, buf.length / 8)
  else .ok (buf, length)

namespace NdOptionLa

/-- `!BB6s`, with the address as a number. -/
@[reducible] def packStr : Format := [.num 1, .num 1, .num 6]

/-- `__len__`. -/
def len (o : NdOptionLa) : ℕ := packStr.calcsize + (o.data.getD []).length

/-- `parser`, from its offset to the end of the buffer. -/
def parser (buf : List UInt8) : Except PyError NdOptionLa :=
  (packStr.unpackFrom buf).map fun (_, length, hwSrc, ()) =>
    ⟨length, BitVec.ofNat 48 hwSrc,
      if packStr.calcsize < buf.length then some (buf.drop packStr.calcsize) else none⟩

/-- `serialize`, with what is left of the option. -/
def serialize (optionType : ℕ) (o : NdOptionLa) : Except PyError (List UInt8 × NdOptionLa) :=
  match packStr.pack (optionType, o.length, o.hwSrc.toNat, ()) with
  | .error e => .error e
  | .ok buf =>
    (fillLength o.length (fillUnits (buf ++ o.data.getD []))).map fun x =>
      (x.1, { o with length := x.2 })

/-- The option with its length. -/
def written (o : NdOptionLa) : NdOptionLa :=
  { o with
    length := if o.length = 0 then 1 + (fillUnits (o.data.getD [])).length / 8 else o.length }

def wire (optionType : ℕ) (o : NdOptionLa) : List UInt8 :=
  packStr.bytes (optionType, o.written.length, o.hwSrc.toNat, ()) ++ fillUnits (o.data.getD [])

/-- There are whole units of octets, as many as the length says if it does. -/
def Whole (o : NdOptionLa) : Prop :=
  o.data ≠ some [] ∧ o.len % 8 = 0 ∧ (o.length = 0 ∨ o.len = 8 * o.length)

end NdOptionLa

namespace NdOptionPi

/-- `!BBBBIII16s`, with the prefix as a number. -/
@[reducible] def packStr : Format :=
  [.num 1, .num 1, .num 1, .num 1, .num 4, .num 4, .num 4, .num 16]

def values (o : NdOptionPi) : packStr.Values :=
  (3, o.length, o.pl, o.res1 <<< 5, o.valL, o.preL, o.res2, o.netPrefix.toNat, ())

def parser (buf : List UInt8) : Except PyError NdOptionPi :=
  (packStr.unpackFrom buf).map fun (_, length, pl, res1, valL, preL, res2, netPrefix, ()) =>
    ⟨length, pl, res1 >>> 5, valL, preL, res2, BitVec.ofNat 128 netPrefix⟩

def serialize (o : NdOptionPi) : Except PyError (List UInt8 × NdOptionPi) :=
  match packStr.pack o.values with
  | .error e => .error e
  | .ok hdr => (fillLength o.length hdr).map fun x => (x.1, { o with length := x.2 })

def written (o : NdOptionPi) : NdOptionPi :=
  { o with length := if o.length = 0 then 4 else o.length }

end NdOptionPi

namespace NdOption

@[reducible] def mtuPackStr : Format := [.num 1, .num 1, .num 2, .num 4]

/-- `__len__`, with the `_MIN_LEN` that an MTU does not have. -/
def len : NdOption → Except PyError ℕ
  | sla o | tla o => .ok o.len
  | pi _ => .ok NdOptionPi.packStr.calcsize
  | mtu _ => .error (.attributeError "_MIN_LEN")
  | raw buf => .ok buf.length

/-- The octets of an option, with what is left of it. -/
def serialize : NdOption → Except PyError (List UInt8 × NdOption)
  | sla o => (o.serialize 1).map fun x => (x.1, sla x.2)
  | tla o => (o.serialize 2).map fun x => (x.1, tla x.2)
  | pi o => o.serialize.map fun x => (x.1, pi x.2)
  | mtu v => (mtuPackStr.pack (5, mtuPackStr.calcsize / 8, 0, v, ())).map fun b => (b, mtu v)
  | raw buf => .ok (buf, raw buf)

/-- The length field. -/
def length : NdOption → ℕ
  | sla o | tla o => o.length
  | pi o => o.length
  | mtu _ => mtuPackStr.calcsize / 8
  | raw buf => ofBytes ((buf.drop 1).take 1)

def written : NdOption → NdOption
  | sla o => sla o.written
  | tla o => tla o.written
  | pi o => pi o.written
  | o => o

def wire : NdOption → List UInt8
  | sla o => o.wire 1
  | tla o => o.wire 2
  | pi o => NdOptionPi.packStr.bytes o.written.values
  | mtu v => mtuPackStr.bytes (5, mtuPackStr.calcsize / 8, 0, v, ())
  | raw buf => buf

/-- There is room for the numbers. -/
def Fits : NdOption → Prop
  | sla o | tla o => o.written.length < 2 ^ 8
  | pi o => NdOptionPi.packStr.Fits o.written.values
  | mtu v => v < 2 ^ 32
  | raw _ => True

end NdOption

/-- The classes of messages. -/
inductive NdClass
  | neighbor
  | routerSolicit
  | routerAdvert
  deriving DecidableEq, Repr

namespace NdClass

/-- The types that are registered in `_ND_OPTION_TYPES`. -/
def optionTypes : NdClass → List ℕ
  | neighbor => [1, 2]
  | routerSolicit => [1]
  | routerAdvert => [1, 3, 5]

/-- The parsers of the registered types. -/
def optionParser (optionType : ℕ) (buf : List UInt8) : Except PyError NdOption :=
  match optionType with
  | 1 => (NdOptionLa.parser buf).map .sla
  | 2 => (NdOptionLa.parser buf).map .tla
  | 3 => (NdOptionPi.parser buf).map .pi
  | _ => (NdOption.mtuPackStr.unpackFrom buf).map fun (_, _, _, v, ()) => .mtu v

/-- The octets of an option without a class: all that are left, or those of its units. -/
def unknown (c : NdClass) (length : ℕ) (buf : List UInt8) : List UInt8 :=
  match c with
  | neighbor | routerSolicit => buf
  | routerAdvert => buf.take (length * 8)

/-- One option of a message. -/
def parseOption (c : NdClass) (buf : List UInt8) : Except PyError NdOption :=
  match Format.unpackFrom [.num 1, .num 1] buf with
  | .error e => .error e
  | .ok (optionType, length, ()) =>
    if length = 0 then .error structError
    else if optionType ∈ c.optionTypes then optionParser optionType buf
    else .ok (.raw (c.unknown length buf))

/-- Octets of a type without a class, and as many as their length says. -/
def Unknown (c : NdClass) (buf : List UInt8) : Prop :=
  ∃ optionType length body, buf = optionType :: length :: body ∧
    optionType.toNat ∉ c.optionTypes ∧ length ≠ 0 ∧ buf.length = 8 * length.toNat

/-- The option is of a class of its message, and its length is that of its octets. -/
def Keeps (c : NdClass) : NdOption → Prop
  | .sla o => o.Whole
  | .tla o => c = neighbor ∧ o.Whole
  | .pi o => c = routerAdvert ∧ (o.length = 0 ∨ o.length = 4)
  | .mtu _ => False
  | .raw _ => True

end NdClass

/-! ## Lengths -/

variable {a b r body : List UInt8} {length n optionType : ℕ}

theorem fillUnits_append (h : a.length % 8 = 0) : fillUnits (a ++ b) = a ++ fillUnits b := by
  have hmod : (a ++ b).length % 8 = b.length % 8 := by
    rw [List.length_append]
    omega
  rw [fillUnits, fillUnits, hmod]
  split
  · rfl
  · exact List.append_assoc _ _ _

theorem length_fillUnits_mod (b : List UInt8) : (fillUnits b).length % 8 = 0 := by
  rw [fillUnits]
  split
  · assumption
  · rw [List.length_append, List.length_replicate]
    omega

theorem fillUnits_of_mod (h : b.length % 8 = 0) : fillUnits b = b := if_pos h

/-- The length behind the type is filled in, if there is room for it. -/
theorem fillLength_eq_ok_iff (hn : length < 2 ^ 8) {x : List UInt8 × ℕ} (hb : b =
    toBytes 1 optionType ++ (toBytes 1 length ++ body)) (hlen : b.length / 8 = n) :
    fillLength length b = .ok x ↔ (if length = 0 then n else length) < 2 ^ 8 ∧
      x = (toBytes 1 optionType ++ (toBytes 1 (if length = 0 then n else length) ++ body),
        if length = 0 then n else length) := by
  rw [fillLength, hlen]
  by_cases hzero : length = 0
  · simp only [if_pos hzero, map_eq_ok, packInto_eq_ok]
    constructor
    · rintro ⟨c, ⟨hlt, rfl⟩, rfl⟩
      rw [hb, packAt_append (length_toBytes ..) (by simp)]
      exact ⟨hlt, rfl⟩
    · rintro ⟨hlt, rfl⟩
      refine ⟨toBytes 1 n, ⟨hlt, rfl⟩, ?_⟩
      rw [hb, packAt_append (length_toBytes ..) (by simp)]
  · simp only [if_neg hzero, hn, true_and, hb]
    exact ⟨fun h => (Except.ok.inj h).symm, fun h => congrArg Except.ok h.symm⟩

/-- An option that is left as another is left as the other of its class. -/
theorem map_snd_eq_ok_iff {α β : Type} {x : Except PyError (List UInt8 × α)} {f : α → β} {p : Prop}
    {w : List UInt8} {s : α} {s' : β} (h : ∀ b s', x = .ok (b, s') ↔ p ∧ b = w ∧ s' = s) :
    (x.map fun y => (y.1, f y.2)) = .ok (b, s') ↔ p ∧ b = w ∧ s' = f s := by
  rw [map_eq_ok]
  constructor
  · rintro ⟨⟨b, t⟩, hx, heq⟩
    obtain ⟨hp, rfl, rfl⟩ := (h b t).mp hx
    obtain ⟨rfl, rfl⟩ := Prod.mk.inj heq
    exact ⟨hp, rfl, rfl⟩
  · rintro ⟨hp, rfl, rfl⟩
    exact ⟨_, (h _ _).mpr ⟨hp, rfl, rfl⟩, rfl⟩

namespace NdOptionLa

variable {o o' : NdOptionLa}

theorem bytes_packStr (optionType n : ℕ) (o : NdOptionLa) :
    packStr.bytes (optionType, n, o.hwSrc.toNat, ()) =
      toBytes 1 optionType ++ (toBytes 1 n ++ toBytes 6 o.hwSrc.toNat) := by
  simp [Format.bytes]

theorem wire_eq (optionType : ℕ) (o : NdOptionLa) : o.wire optionType =
    toBytes 1 optionType ++ (toBytes 1 o.written.length ++
      (toBytes 6 o.hwSrc.toNat ++ fillUnits (o.data.getD []))) := by
  rw [wire, bytes_packStr]
  simp only [List.append_assoc]

theorem serialize_eq_ok_iff (ht : optionType < 2 ^ 8) : o.serialize optionType = .ok (b, o') ↔
    o.written.length < 2 ^ 8 ∧ b = o.wire optionType ∧ o' = o.written := by
  rw [serialize, wire_eq]
  by_cases hlt : o.length < 2 ^ 8
  · have hbuf := bytes_packStr optionType o.length o
    have hfill : fillUnits (packStr.bytes (optionType, o.length, o.hwSrc.toNat, ()) ++
        o.data.getD []) = toBytes 1 optionType ++ (toBytes 1 o.length ++
          (toBytes 6 o.hwSrc.toNat ++ fillUnits (o.data.getD []))) := by
      rw [fillUnits_append (by rw [hbuf]; simp), hbuf]
      simp only [List.append_assoc]
    have hlen : (fillUnits (packStr.bytes (optionType, o.length, o.hwSrc.toNat, ()) ++
        o.data.getD [])).length / 8 = 1 + (fillUnits (o.data.getD [])).length / 8 := by
      rw [hfill]
      simp only [List.length_append, length_toBytes]
      omega
    have hpack : packStr.pack (optionType, o.length, o.hwSrc.toNat, ()) =
        .ok (packStr.bytes (optionType, o.length, o.hwSrc.toNat, ())) :=
      Format.pack_bytes ⟨ht, hlt, o.hwSrc.isLt, trivial⟩
    rw [hpack]
    simp only [map_eq_ok, fillLength_eq_ok_iff hlt hfill hlen]
    constructor
    · rintro ⟨x, ⟨hfits, rfl⟩, heq⟩
      obtain ⟨rfl, rfl⟩ := Prod.mk.inj heq
      exact ⟨hfits, rfl, rfl⟩
    · rintro ⟨hfits, rfl, rfl⟩
      exact ⟨_, ⟨hfits, rfl⟩, rfl⟩
  · have hne : o.length ≠ 0 := by
      rintro hzero
      exact hlt (by rw [hzero]; decide)
    have hwritten : o.written.length = o.length := if_neg hne
    constructor
    · intro h
      split at h
      · cases h
      · next c hc => exact absurd (Format.pack_eq_ok_iff.mp hc).1.2.1 hlt
    · rintro ⟨hfits, -⟩
      exact absurd (hwritten ▸ hfits) hlt

theorem numeric_packStr : packStr.Numeric := trivial

theorem parser_wire (ht : optionType < 2 ^ 8) (hn : o.written.length < 2 ^ 8) (r : List UInt8) :
    parser (o.wire optionType ++ r) = .ok { o.written with
      data := if fillUnits (o.data.getD []) ++ r = [] then none
        else some (fillUnits (o.data.getD []) ++ r) } := by
  have hfits : packStr.Fits (optionType, o.written.length, o.hwSrc.toNat, ()) :=
    ⟨ht, hn, o.hwSrc.isLt, trivial⟩
  have hread := Format.unpackFrom_bytes hfits (Format.Numeric.exact numeric_packStr _)
    (fillUnits (o.data.getD []) ++ r)
  have hlen := Format.length_bytes hfits
  have hdrop : (packStr.bytes (optionType, o.written.length, o.hwSrc.toNat, ()) ++
      (fillUnits (o.data.getD []) ++ r)).drop packStr.calcsize = fillUnits (o.data.getD []) ++ r :=
    List.drop_left' hlen
  rw [parser, wire, List.append_assoc, hread, hdrop, List.length_append, hlen]
  have hpos : packStr.calcsize < packStr.calcsize + (fillUnits (o.data.getD []) ++ r).length ↔
      ¬ fillUnits (o.data.getD []) ++ r = [] := by
    rw [← List.length_eq_zero_iff]
    omega
  simp only [Except.map, hpos, ite_not, BitVec.ofNat_toNat, BitVec.setWidth_eq]
  rfl

/-- A link-layer address is read back if nothing is behind it. -/
theorem parser_wire_iff (ht : optionType < 2 ^ 8) (hn : o.written.length < 2 ^ 8) :
    parser (o.wire optionType ++ r) = .ok o.written ↔
      (o.data ≠ some [] ∧ o.len % 8 = 0) ∧ r = [] := by
  have hdata {x : Option (List UInt8)} : ({ o.written with data := x } : NdOptionLa) = o.written ↔
      x = o.data := ⟨fun h => congrArg NdOptionLa.data h, fun h => by rw [h]; rfl⟩
  rw [parser_wire ht hn, Except.ok.injEq, hdata, len]
  cases o.data with
  | none =>
    have hnil : fillUnits [] = [] := rfl
    by_cases hr : r = []
    · simp [hnil, hr, Format.calcsize]
    · simp [hnil, hr]
  | some d =>
    have hmod : (packStr.calcsize + d.length) % 8 = 0 ↔ d.length % 8 = 0 := by
      simp only [Format.calcsize]
      omega
    simp only [Option.getD_some, hmod, ne_eq, Option.some.injEq]
    constructor
    · intro h
      split at h
      · cases h
      · next hne =>
        have heq := Option.some.inj h
        have hlen := congrArg List.length heq
        have hfill : d.length ≤ (fillUnits d).length := by
          rw [fillUnits]
          split
          · exact le_rfl
          · rw [List.length_append]
            exact Nat.le_add_right _ _
        rw [List.length_append] at hlen
        obtain rfl : r = [] := List.length_eq_zero_iff.mp (by omega)
        have hfull := length_fillUnits_mod d
        rw [List.append_nil] at heq hne
        rw [heq] at hne hfull
        exact ⟨⟨hne, hfull⟩, rfl⟩
    · rintro ⟨⟨hne, hd⟩, rfl⟩
      rw [fillUnits_of_mod hd, List.append_nil, if_neg hne]

/-- The length that is filled in is right, another if it was. -/
theorem len_written_iff (h : o.len % 8 = 0) :
    o.written.len = 8 * o.written.length ↔ o.length = 0 ∨ o.len = 8 * o.length := by
  have hlen : o.written.len = o.len := rfl
  have hd : o.len = 8 + (o.data.getD []).length := rfl
  rw [hlen, written]
  by_cases hzero : o.length = 0
  · simp only [hzero, if_true, fillUnits_of_mod (show (o.data.getD []).length % 8 = 0 by omega),
      true_or, iff_true]
    omega
  · simp only [hzero, if_false, false_or]

end NdOptionLa

namespace NdOptionPi

variable {o o' : NdOptionPi}

theorem bytes_values (o : NdOptionPi) : ∃ body, (toBytes 1 3 ++ (toBytes 1 0 ++ body)).length = 32 ∧
    ∀ n, packStr.bytes { o with length := n }.values =
      toBytes 1 3 ++ (toBytes 1 n ++ body) := by
  refine ⟨Format.bytes [.num 1, .num 1, .num 4, .num 4, .num 4, .num 16]
    (o.pl, o.res1 <<< 5, o.valL, o.preL, o.res2, o.netPrefix.toNat, ()), ?_, fun n => rfl⟩
  simp [Format.bytes]

theorem serialize_eq_ok_iff : o.serialize = .ok (b, o') ↔
    packStr.Fits o.written.values ∧ b = packStr.bytes o.written.values ∧ o' = o.written := by
  obtain ⟨body, hbody, hbytes⟩ := bytes_values o
  have hlen : (packStr.bytes o.values).length / 8 = 4 := by
    rw [hbytes o.length]
    simp only [List.length_append, length_toBytes] at hbody ⊢
    omega
  have hwritten : packStr.Fits o.written.values ↔ packStr.Fits o.values ∧
      (if o.length = 0 then 4 else o.length) < 2 ^ 8 := by
    by_cases hzero : o.length = 0
    · simp [written, values, Format.Fits, hzero]
    · simp only [written, if_neg hzero]
      exact ⟨fun h => ⟨h, h.2.1⟩, fun h => h.1⟩
  have hwire : packStr.bytes o.written.values = _ := hbytes (if o.length = 0 then 4 else o.length)
  rw [serialize, hwritten, hwire]
  constructor
  · intro h
    split at h
    · cases h
    · next hdr hpack =>
      obtain ⟨hfits, rfl⟩ := Format.pack_eq_ok_iff.mp hpack
      obtain ⟨x, hx, heq⟩ := map_eq_ok.1 h
      obtain ⟨hlt, rfl⟩ := (fillLength_eq_ok_iff hfits.2.1 (hbytes o.length) hlen).mp hx
      obtain ⟨rfl, rfl⟩ := Prod.mk.inj heq
      exact ⟨⟨hfits, hlt⟩, rfl, rfl⟩
  · rintro ⟨⟨hfits, hlt⟩, rfl, rfl⟩
    have hx := (fillLength_eq_ok_iff hfits.2.1 (hbytes o.length) hlen).mpr ⟨hlt, rfl⟩
    rw [Format.pack_bytes hfits]
    simp only [hx]
    rfl

theorem numeric_packStr : packStr.Numeric := trivial

/-- A prefix is read back, whatever is behind it. -/
theorem parser_bytes (h : packStr.Fits o.values) (r : List UInt8) :
    parser (packStr.bytes o.values ++ r) = .ok o := by
  rw [parser, Format.unpackFrom_bytes h (Format.Numeric.exact numeric_packStr _)]
  simp [Except.map, values]

end NdOptionPi

namespace NdOption

variable {o o' : NdOption}

theorem serialize_eq_ok_iff :
    o.serialize = .ok (b, o') ↔ o.Fits ∧ b = o.wire ∧ o' = o.written := by
  cases o with
  | sla o => exact map_snd_eq_ok_iff fun b o' => NdOptionLa.serialize_eq_ok_iff (by decide)
  | tla o => exact map_snd_eq_ok_iff fun b o' => NdOptionLa.serialize_eq_ok_iff (by decide)
  | pi o => exact map_snd_eq_ok_iff fun b o' => NdOptionPi.serialize_eq_ok_iff
  | mtu v =>
    have hv : mtuPackStr.Fits (5, mtuPackStr.calcsize / 8, 0, v, ()) ↔ v < 2 ^ 32 := by
      simp [Format.Fits, Format.calcsize]
    simp only [serialize, map_eq_ok, Format.pack_eq_ok_iff, Prod.mk.injEq, Fits, wire, written, hv]
    constructor
    · rintro ⟨b, ⟨hfits, rfl⟩, rfl, rfl⟩
      exact ⟨hfits, rfl, rfl⟩
    · rintro ⟨hfits, rfl, rfl⟩
      exact ⟨_, ⟨hfits, rfl⟩, rfl, rfl⟩
  | raw buf =>
    simp only [serialize, Except.ok.injEq, Prod.mk.injEq, Fits, wire, written, true_and]
    exact and_congr eq_comm eq_comm

end NdOption

namespace NdClass

variable {c : NdClass} {o : NdOption}

/-- The class is looked up by the type in front of the length. -/
theorem parseOption_eq (ht : optionType < 2 ^ 8) (hn : length < 2 ^ 8) (hpos : length ≠ 0)
    (hb : b = toBytes 1 optionType ++ (toBytes 1 length ++ body)) :
    c.parseOption b = if optionType ∈ c.optionTypes then optionParser optionType b
      else .ok (.raw (c.unknown length b)) := by
  have hread : Format.unpackFrom [.num 1, .num 1] b = .ok (optionType, length, ()) := by
    have hfits : Format.Fits [.num 1, .num 1] (optionType, length, ()) := ⟨ht, hn, trivial⟩
    have hbytes : Format.bytes [.num 1, .num 1] (optionType, length, ()) ++ body = b := by
      rw [hb]
      simp [Format.bytes]
    have h := Format.unpackFrom_bytes hfits trivial body
    rwa [hbytes] at h
  rw [parseOption, hread]
  exact if_neg hpos

/-- Nothing is behind an option that takes all there is. -/
def Behind (c : NdClass) (r : List UInt8) : NdOption → Prop
  | .sla _ | .tla _ => r = []
  | .pi _ | .mtu _ => True
  | .raw _ => c = routerAdvert ∨ r = []

/-- The class of a link-layer address is looked up by its type. -/
theorem parseOption_la (ht : optionType < 2 ^ 8) {o : NdOptionLa} (hn : o.written.length < 2 ^ 8) :
    c.parseOption (o.wire optionType ++ r) = if optionType ∈ c.optionTypes
      then optionParser optionType (o.wire optionType ++ r)
      else .ok (.raw (c.unknown o.written.length (o.wire optionType ++ r))) := by
  have hpos : o.written.length ≠ 0 := by
    change (if o.length = 0 then _ else _) ≠ 0
    split
    · omega
    · assumption
  have hwire : o.wire optionType ++ r = toBytes 1 optionType ++ (toBytes 1 o.written.length ++
      (toBytes 6 o.hwSrc.toNat ++ (fillUnits (o.data.getD []) ++ r))) := by
    rw [NdOptionLa.wire_eq]
    simp only [List.append_assoc]
  exact parseOption_eq ht hn hpos hwire

theorem parseOption_pi {o : NdOptionPi} (hf : NdOptionPi.packStr.Fits o.written.values) :
    c.parseOption (NdOptionPi.packStr.bytes o.written.values ++ r) =
      if c = routerAdvert then .ok (.pi o.written) else .ok (.raw
        (c.unknown o.written.length (NdOptionPi.packStr.bytes o.written.values ++ r))) := by
  obtain ⟨body, -, hbytes⟩ := NdOptionPi.bytes_values o.written
  have hpos : o.written.length ≠ 0 := by
    change (if o.length = 0 then _ else _) ≠ 0
    split
    · decide
    · assumption
  have hwire : NdOptionPi.packStr.bytes o.written.values ++ r =
      toBytes 1 3 ++ (toBytes 1 o.written.length ++ (body ++ r)) := by
    rw [hbytes o.written.length]
    simp only [List.append_assoc]
  have hmem : 3 ∈ c.optionTypes ↔ c = routerAdvert := by
    cases c <;> decide
  rw [parseOption_eq (by decide) hf.2.1 hpos hwire]
  simp only [hmem, optionParser, NdOptionPi.parser_bytes hf]
  rfl

/-- Octets without a class are taken as they are, in front of others if their length is used. -/
theorem parseOption_raw_iff (h : c.Unknown b) :
    c.parseOption (b ++ r) = .ok (.raw b) ↔ c = routerAdvert ∨ r = [] := by
  obtain ⟨optionType, length, body, hb, hunknown, hpos, hlen⟩ := h
  have hone (x : UInt8) : toBytes 1 x.toNat = [x] := by
    simp [toBytes]
  have hpos' : length.toNat ≠ 0 := fun hzero => hpos (UInt8.toNat_inj.mp hzero)
  have hcons : b ++ r = toBytes 1 optionType.toNat ++ (toBytes 1 length.toNat ++ (body ++ r)) := by
    rw [hone, hone, hb]
    rfl
  rw [parseOption_eq optionType.toNat_lt length.toNat_lt hpos' hcons, if_neg hunknown]
  cases c with
  | routerAdvert =>
    have htake : (b ++ r).take (length.toNat * 8) = b := List.take_left' (by omega)
    simp [unknown, htake]
  | neighbor | routerSolicit => simp [unknown]

theorem length_raw (h : c.Unknown b) : b.length = 8 * (NdOption.raw b).length := by
  obtain ⟨optionType, length, body, rfl, -, -, hlen⟩ := h
  rw [hlen]
  simp [NdOption.length, ofBytes]

theorem parseOption_la_iff {f : NdOptionLa → NdOption} (ht : optionType < 2 ^ 8)
    (hne : ∀ o buf, f o ≠ .raw buf)
    (hparser : ∀ buf, optionParser optionType buf = (NdOptionLa.parser buf).map f)
    (hinj : ∀ o o', f o = f o' → o = o') {o : NdOptionLa} (hn : o.written.length < 2 ^ 8) :
    c.parseOption (o.wire optionType ++ r) = .ok (f o.written) ∧
      o.written.len = 8 * o.written.length ↔ (optionType ∈ c.optionTypes ∧ o.Whole) ∧ r = [] := by
  rw [parseOption_la ht hn]
  by_cases hmem : optionType ∈ c.optionTypes
  · have hmap : (NdOptionLa.parser (o.wire optionType ++ r)).map f = .ok (f o.written) ↔
        NdOptionLa.parser (o.wire optionType ++ r) = .ok o.written := by
      rw [map_eq_ok]
      constructor
      · rintro ⟨o', ho', heq⟩
        rwa [hinj _ _ heq] at ho'
      · exact fun h => ⟨_, h, rfl⟩
    rw [if_pos hmem, hparser, hmap, NdOptionLa.parser_wire_iff ht hn, NdOptionLa.Whole]
    constructor
    · rintro ⟨⟨⟨hdata, hmod⟩, hr⟩, hlen⟩
      exact ⟨⟨hmem, hdata, hmod, (NdOptionLa.len_written_iff hmod).mp hlen⟩, hr⟩
    · rintro ⟨⟨-, hdata, hmod, hlen⟩, hr⟩
      exact ⟨⟨⟨hdata, hmod⟩, hr⟩, (NdOptionLa.len_written_iff hmod).mpr hlen⟩
  · rw [if_neg hmem]
    constructor
    · rintro ⟨h, -⟩
      exact absurd (Except.ok.inj h).symm (hne _ _)
    · rintro ⟨⟨h, -⟩, -⟩
      exact absurd h hmem

/-- An option is read back with the length it has exactly if it is kept, and nothing is behind it
where all there is is taken. -/
theorem parseOption_wire_iff (hf : o.Fits) (hraw : ∀ buf, o = .raw buf → c.Unknown buf) :
    c.parseOption (o.wire ++ r) = .ok o.written ∧ o.written.len = .ok (8 * o.written.length) ↔
      c.Keeps o ∧ c.Behind r o := by
  cases o with
  | sla o =>
    have hmem : 1 ∈ c.optionTypes := by
      cases c <;> decide
    have hparser (buf : List UInt8) :
        optionParser 1 buf = (NdOptionLa.parser buf).map .sla := rfl
    have hne (o : NdOptionLa) (buf : List UInt8) : NdOption.sla o ≠ .raw buf := by simp
    have h := parseOption_la_iff (c := c) (r := r) (by decide) hne hparser
      (fun _ _ => NdOption.sla.inj) hf
    simpa [NdOption.wire, NdOption.written, NdOption.len, NdOption.length, Keeps, Behind, hmem]
      using h
  | tla o =>
    have hmem : 2 ∈ c.optionTypes ↔ c = neighbor := by
      cases c <;> decide
    have hparser (buf : List UInt8) :
        optionParser 2 buf = (NdOptionLa.parser buf).map .tla := rfl
    have hne (o : NdOptionLa) (buf : List UInt8) : NdOption.tla o ≠ .raw buf := by simp
    have h := parseOption_la_iff (c := c) (r := r) (by decide) hne hparser
      (fun _ _ => NdOption.tla.inj) hf
    simpa [NdOption.wire, NdOption.written, NdOption.len, NdOption.length, Keeps, Behind, hmem]
      using h
  | pi o =>
    rw [NdOption.wire, NdOption.written, parseOption_pi hf]
    by_cases hc : c = routerAdvert
    · have hlen : 32 = 8 * o.written.length ↔ o.length = 0 ∨ o.length = 4 := by
        change 32 = 8 * (if o.length = 0 then 4 else o.length) ↔ _
        split <;> omega
      simp [hc, NdOption.len, NdOption.length, Keeps, Behind, Format.calcsize, hlen]
    · simp [hc, Keeps]
  | mtu v => simp [NdOption.written, NdOption.len, Keeps]
  | raw buf =>
    have hlen := length_raw (hraw buf rfl)
    have hread := parseOption_raw_iff (r := r) (hraw buf rfl)
    simp only [NdOption.wire, NdOption.written, NdOption.len, ← hlen, hread, Keeps, Behind, and_true,
      true_and]

theorem length_wire (hf : o.Fits) (hraw : ∀ buf, o = .raw buf → c.Unknown buf) (hk : c.Keeps o) :
    o.wire.length = 8 * o.written.length := by
  have hla {t : ℕ} {o : NdOptionLa} (hw : o.Whole) :
      (o.wire t).length = 8 * o.written.length := by
    obtain ⟨-, hmod, hlen⟩ := hw
    have hd : o.len = 8 + (o.data.getD []).length := rfl
    rw [← (NdOptionLa.len_written_iff hmod).mpr hlen, NdOptionLa.wire_eq,
      fillUnits_of_mod (by omega)]
    simp only [List.length_append, length_toBytes]
    change _ = 8 + (o.data.getD []).length
    omega
  cases o with
  | sla o => exact hla hk
  | tla o => exact hla hk.2
  | pi o =>
    have hlen : 32 = 8 * o.written.length := by
      change 32 = 8 * (if o.length = 0 then 4 else o.length)
      obtain ⟨-, hk⟩ := hk
      split <;> omega
    exact (Format.length_bytes hf).trans hlen
  | mtu v => exact hk.elim
  | raw buf => exact length_raw (hraw buf rfl)

theorem optionParser_ne_raw (h : optionParser optionType b = .ok o) (buf : List UInt8) :
    o ≠ .raw buf := by
  rintro rfl
  unfold optionParser at h
  split at h
  all_goals
    obtain ⟨x, -, hx⟩ := map_eq_ok.1 h
    cases hx

/-- Something is there where an option is parsed, and an option that has a length has octets. -/
theorem pos_of_parseOption (h : c.parseOption b = .ok o) (hn : o.len = .ok n) :
    0 < n ∧ 0 < b.length := by
  rw [parseOption] at h
  split at h
  · cases h
  · next optionType length hread =>
    have htwo : 2 ≤ b.length := Format.calcsize_le hread
    refine ⟨?_, by omega⟩
    split_ifs at h with hzero hmem
    · have hne := optionParser_ne_raw h
      cases o with
      | sla o | tla o =>
        obtain rfl := Except.ok.inj hn
        exact Nat.lt_add_right _ (by decide)
      | pi o =>
        obtain rfl := Except.ok.inj hn
        decide
      | mtu v => cases hn
      | raw buf => exact absurd rfl (hne buf)
    · obtain rfl := Except.ok.inj h
      obtain rfl := Except.ok.inj hn
      cases c with
      | neighbor | routerSolicit =>
        change 0 < b.length
        omega
      | routerAdvert =>
        change 0 < (b.take (length * 8)).length
        rw [List.length_take]
        omega

/-- Options one after the other. None of them is of no octets, so that the loop ends. -/
def decoder (c : NdClass) : Decoder PyError UInt8 NdOption where
  read buf :=
    match c.parseOption buf with
    | .error e => .error e
    | .ok o => o.len.map fun n => (o, buf.drop n)
  read_lt := by
    intro b r o h
    split at h
    · cases h
    · next o' hparse =>
      obtain ⟨n, hn, heq⟩ := map_eq_ok.1 h
      obtain ⟨rfl, rfl⟩ := Prod.mk.inj heq
      have hpos := pos_of_parseOption hparse hn
      rw [List.length_drop]
      omega

/-- One round reads back an option that is kept, and leaves what is behind it. -/
theorem read_wire_iff {r' : List UInt8} (hf : o.Fits)
    (hraw : ∀ buf, o = .raw buf → c.Unknown buf) :
    c.decoder.read (o.wire ++ r) = .ok (o.written, r') ∧
        o.written.len = .ok (8 * o.written.length) ↔
      (c.Keeps o ∧ c.Behind r o) ∧ r' = r := by
  have hdrop (hk : c.Keeps o) : (o.wire ++ r).drop (8 * o.written.length) = r :=
    List.drop_left' (length_wire hf hraw hk)
  rw [← parseOption_wire_iff hf hraw]
  constructor
  · rintro ⟨hread, hlen⟩
    simp only [decoder] at hread
    split at hread
    · cases hread
    · next o' hparse =>
      obtain ⟨n, hn, heq⟩ := map_eq_ok.1 hread
      obtain ⟨rfl, rfl⟩ := Prod.mk.inj heq
      obtain rfl := Except.ok.inj (hn.symm.trans hlen)
      have hk := ((parseOption_wire_iff hf hraw).mp ⟨hparse, hlen⟩).1
      exact ⟨⟨hparse, hlen⟩, hdrop hk⟩
  · rintro ⟨⟨hparse, hlen⟩, rfl⟩
    have hk := ((parseOption_wire_iff hf hraw).mp ⟨hparse, hlen⟩).1
    simp only [decoder, hparse, hlen, Except.map, hdrop hk, and_self]

end NdClass

end Ryu.Packet
