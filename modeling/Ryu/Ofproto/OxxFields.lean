import Ryu.Lib.Layout
import Ryu.Ofproto.FieldTables
import Ryu.Ofproto13.OxmFields

/-! # OXM and OXS fields on the wire

A field is written as a number, a mark for a mask and a length, a header of the experimenter, the
value and the mask. What is written of a known field is read again. A field that is read need not
be known, and the length of one with a mask need not be even. The octets are written back if the
length is even where there is a mask, and the field is known where it is of an experimenter.
-/

namespace Ryu.Oxx

open Bytes Ofproto13

/-- `msg_pack_into`. -/
def msgPackInto (fmt : Format) (buf : List UInt8) (offset : ℕ) (vals : fmt.Values) :
    Except PyError (List UInt8) :=
  (fmt.pack vals).map (packAt buf offset)

def FieldDesc.experimenterId (d : FieldDesc) : Option ℕ :=
  match d.cls with
  | .plain _ => none
  | .experimenter id => some id
  | .oldONFExperimenter => some onfExperimenterId

section

variable (types : List FieldDesc)

/-- `num_to_field`. Of two fields with one number it has the later one. -/
def numToField (n : OxmNum) : Option FieldDesc := types.reverse.find? (·.num = n)

/-- What `_make_exp_hdr` packs for a field of an experimenter. -/
def packExpHdr (d : FieldDesc) (expId expType : ℕ) : Except PyError (List UInt8) :=
  if d.experimenterId ≠ some expId then .error .assertionError
  else if d.expType = 2560 then Format.pack [.num 4, .num 2] (expId, d.expType, ())
  else if d.type_ ≠ expType ||| (ofpxxcExperimenter <<< 7) then .error .assertionError
  else Format.pack [.num 4] (expId, ())

/-- `_make_exp_hdr`. A field that is not known keeps its number. -/
def makeExpHdr (n : OxmNum) : Except PyError (OxmNum × List UInt8) :=
  match numToField types n with
  | none => .ok (n, [])
  | some d =>
    if d.class_ = ofpxxcExperimenter then
      match n with
      | .basic _ => .error (.typeError "cannot unpack non-iterable int object")
      | .experimenter expId expType => do
        let expHdr ← packExpHdr d expId expType
        if d.type_ >>> 7 = ofpxxcExperimenter then .ok (.basic d.type_, expHdr)
        else .error .assertionError
    else .ok (n, [])

/-- `n << 9`, which a pair does not have. -/
def shifted : OxmNum → Except PyError ℕ
  | .basic n => .ok (n <<< 9)
  | .experimenter .. => .error (.typeError "unsupported operand type(s) for <<: 'tuple' and 'int'")

/-- `_serialize`: the buffer and the length. An empty mask is none. -/
def serialize (n : OxmNum) (value : List UInt8) (mask : Option (List UInt8)) (buf : List UInt8)
    (offset : ℕ) : Except PyError (List UInt8 × ℕ) := do
  let (n, expHdr) ← makeExpHdr types n
  match mask.filter (· ≠ []) with
  | some mask =>
    if value.length ≠ mask.length then .error .assertionError
    else do
      let n ← shifted n
      let buf ← msgPackInto
        [.num 4, .str expHdr.length, .str value.length, .str mask.length] buf offset
        (n ||| (1 <<< 8) ||| (expHdr.length + value.length * 2), expHdr, value, mask, ())
      .ok (buf, 4 + expHdr.length + value.length + mask.length)
  | none => do
    let n ← shifted n
    let buf ← msgPackInto [.num 4, .str expHdr.length, .str value.length] buf offset
      (n ||| (0 <<< 8) ||| (expHdr.length + value.length), expHdr, value, ())
    .ok (buf, 4 + expHdr.length + value.length)

/-- What is parsed at an offset is written as it was there, wherever it is written. -/
def WritesBack (buf : List UInt8) (offset : ℕ) (t : Oxm) : Prop :=
  ∀ (buf' : List UInt8) (offset' : ℕ), ∃ out,
    serialize types t.num t.value t.mask buf' offset' = .ok (out, t.fieldLen) ∧
      (out.drop offset').take t.fieldLen = (buf.drop offset).take t.fieldLen

/-- The first number at an offset. -/
def headerAt (buf : List UInt8) (offset : ℕ) : ℕ := ofBytes ((buf.drop offset).take 4)

/-- The number of a field of an experimenter at an offset. -/
def experimenterAt (buf : List UInt8) (offset : ℕ) : OxmNum :=
  let id := ofBytes (((buf.drop offset).drop 4).take 4)
  if id = onfExperimenterId ∧ (headerAt buf offset >>> 9) &&& 0x7f = 0 then
    .experimenter id (ofBytes (((buf.drop offset).drop 8).take 2))
  else .experimenter id (headerAt buf offset >>> 9)

/-- The length is even where there is a mask, and a field of an experimenter is known. -/
structure Whole (buf : List UInt8) (offset : ℕ) : Prop where
  even : (headerAt buf offset >>> 8) &&& 1 = 1 → headerAt buf offset % 2 = 0
  known : headerAt buf offset >>> 16 = ofpxxcExperimenter →
    (numToField types (experimenterAt buf offset)).isSome

end

section Wire

/-- The number of a field whose header has a type, and goes on with octets. -/
inductive Names : ℕ → List UInt8 → OxmNum → Prop
  | basic {type_ : ℕ} : type_ >>> 7 ≠ ofpxxcExperimenter → Names type_ [] (.basic type_)
  | experimenter {type_ id : ℕ} : type_ >>> 7 = ofpxxcExperimenter → id < 256 ^ 4 →
      ¬(id = onfExperimenterId ∧ type_ &&& 0x7f = 0) →
      Names type_ (toBytes 4 id) (.experimenter id type_)
  | ext256 {expType : ℕ} : expType < 256 ^ 2 →
      Names (ofpxxcExperimenter <<< 7) (toBytes 4 onfExperimenterId ++ toBytes 2 expType)
        (.experimenter onfExperimenterId expType)

/-- Whether there is a mask. -/
def mark (mask : Option (List UInt8)) : ℕ := if mask.isSome then 1 else 0

def payload (value : List UInt8) (mask : Option (List UInt8)) : List UInt8 := value ++ mask.getD []

/-- The octets of a field, whose header counts a payload of some length. -/
def octets (type_ len : ℕ) (expHdr value : List UInt8) (mask : Option (List UInt8)) : List UInt8 :=
  toBytes 4 (type_ * 512 + mark mask * 256 + (expHdr.length + len)) ++
    (expHdr ++ payload value mask)

/-- What is parsed of a field whose header counts a payload of some length. -/
structure Reads (type_ len : ℕ) (expHdr : List UInt8) (t : Oxm) : Prop where
  names : Names type_ expHdr t.num
  type_lt : type_ < 2 ^ 23
  length_lt : expHdr.length + len < 256
  value_pos : 0 < t.value.length
  value_length : t.value.length = len / (mark t.mask + 1)
  mask_length : ∀ m ∈ t.mask, m.length = t.value.length
  fieldLen : t.fieldLen = 4 + (expHdr.length + len)

variable {b w : List UInt8} {size v k type_ len : ℕ} {t : Oxm} {n : OxmNum}

theorem unpackFrom_num_iff : Ofproto13.unpackFrom [.num size] b 0 = .ok (v, ()) ↔
    v < 256 ^ size ∧ ∃ r, b = toBytes size v ++ r := by
  constructor
  · intro h
    rw [Ofproto13.unpackFrom, List.drop_zero] at h
    have hle := Format.calcsize_le h
    rw [Format.unpackFrom, if_neg hle.not_gt] at h
    change size ≤ b.length at hle
    obtain rfl : ofBytes (b.take size) = v := congrArg Prod.fst (Except.ok.inj h)
    have hlen : (b.take size).length = size := List.length_take_of_le hle
    have hlt := ofBytes_lt (b.take size)
    have hback := toBytes_ofBytes (b.take size)
    rw [hlen] at hlt hback
    exact ⟨hlt, b.drop size, by rw [hback, List.take_append_drop]⟩
  · rintro ⟨hv, r, rfl⟩
    exact unpackFrom_num (packInto_eq_ok.2 ⟨hv, rfl⟩) r

theorem unpackFrom_str_iff {s : List UInt8} : Ofproto13.unpackFrom [.str size] b 0 = .ok (s, ()) ↔
    s.length = size ∧ ∃ r, b = s ++ r := by
  constructor
  · intro h
    rw [Ofproto13.unpackFrom, List.drop_zero] at h
    have hle := Format.calcsize_le h
    rw [Format.unpackFrom, if_neg hle.not_gt] at h
    change size ≤ b.length at hle
    obtain rfl : b.take size = s := congrArg Prod.fst (Except.ok.inj h)
    exact ⟨List.length_take_of_le hle, b.drop size, (List.take_append_drop size b).symm⟩
  · rintro ⟨rfl, r, rfl⟩
    exact unpackFrom_str r

/-- The number of a field is found behind the first four octets. -/
theorem oxmNum_iff (hw : w.length = 4) (htype : type_ < 2 ^ 23) :
    oxmNum (w ++ b) 0 type_ = .ok (n, k) ↔
      ∃ e r, Names type_ e n ∧ e.length = k ∧ b = e ++ r := by
  have hread : ∀ fmt : Format, Ofproto13.unpackFrom fmt (w ++ b) (0 + 4) =
      Ofproto13.unpackFrom fmt b 0 := fun fmt => unpackFrom_append hw
  rw [oxmNum]
  split
  · next hclass =>
    rw [hread]
    constructor
    · intro h
      obtain ⟨⟨id, _⟩, hread', h⟩ := bind_eq_ok.1 h
      obtain ⟨hid, r, rfl⟩ := unpackFrom_num_iff.1 hread'
      dsimp only at h
      split at h
      · next hold =>
        obtain ⟨rfl, hfield⟩ := hold
        obtain ⟨⟨expType, _⟩, hexp, hnum⟩ := bind_eq_ok.1 h
        rw [← List.append_assoc, unpackFrom_append (by simp [hw]), unpackFrom_num_iff] at hexp
        obtain ⟨hlt, r, rfl⟩ := hexp
        obtain ⟨rfl, rfl⟩ := Prod.mk.inj (Except.ok.inj hnum)
        have htype : type_ = ofpxxcExperimenter <<< 7 := by
          rw [Nat.shiftRight_eq_div_pow] at hclass
          rw [Nat.and_two_pow_sub_one_eq_mod _ 7] at hfield
          rw [Nat.shiftLeft_eq]
          omega
        subst htype
        exact ⟨_, r, .ext256 hlt, by simp, by rw [List.append_assoc]⟩
      · next hne =>
        obtain ⟨rfl, rfl⟩ := Prod.mk.inj (Except.ok.inj h)
        exact ⟨_, r, .experimenter hclass hid hne, by simp, rfl⟩
    · rintro ⟨e, r, hnames, rfl, rfl⟩
      cases hnames with
      | basic hne => exact absurd hclass hne
      | experimenter _ hid hne =>
        rw [unpackFrom_num_iff.2 ⟨hid, r, rfl⟩]
        dsimp only [bind, Except.bind]
        rw [if_neg hne, length_toBytes]
      | ext256 hlt =>
        rw [List.append_assoc, unpackFrom_num_iff.2 ⟨by decide, _, rfl⟩]
        dsimp only [bind, Except.bind]
        rw [if_pos (by decide), ← List.append_assoc, unpackFrom_append (by simp [hw]),
          unpackFrom_num_iff.2 ⟨hlt, r, rfl⟩]
        simp
  · next hclass =>
    constructor
    · intro h
      obtain ⟨rfl, rfl⟩ := Prod.mk.inj (Except.ok.inj h)
      exact ⟨[], b, .basic hclass, rfl, rfl⟩
    · rintro ⟨e, r, hnames, rfl, rfl⟩
      cases hnames with
      | basic => rfl
      | experimenter h => exact absurd h hclass
      | ext256 => exact absurd (by decide) hclass

/-- The parts of the first number. -/
theorem word_parts (type_ : ℕ) {hm total : ℕ} (hmark : hm < 2) (htotal : total < 256) :
    (type_ * 512 + hm * 256 + total) >>> 9 = type_ ∧
      ((type_ * 512 + hm * 256 + total) >>> 8) &&& 1 = hm ∧
      (type_ * 512 + hm * 256 + total) &&& 0xff = total := by
  rw [Nat.shiftRight_eq_div_pow, Nat.and_one_is_mod, Nat.shiftRight_eq_div_pow,
    Nat.and_two_pow_sub_one_eq_mod _ 8]
  omega

theorem oxmValueLen_eq {hm e : ℕ} (hmark : hm < 2) :
    oxmValueLen (hm = 1) (e + len) e = ((len / (hm + 1) : ℕ) : ℤ) := by
  obtain rfl | rfl : hm = 0 ∨ hm = 1 := by omega
  · simp [oxmValueLen]
  · simp [oxmValueLen]

/-- What the header says, by what it is made of. -/
theorem parseHeaderImpl_iff {h : OxmHeader} :
    parseHeaderImpl b 0 = .ok h ↔ ∃ type_ hm len e num r, type_ < 2 ^ 23 ∧ hm < 2 ∧
      e.length + len < 256 ∧ 0 < len / (hm + 1) ∧ Names type_ e num ∧
      h = ⟨num, 4 + e.length, hm = 1, len / (hm + 1), 4 + (e.length + len)⟩ ∧
      b = toBytes 4 (type_ * 512 + hm * 256 + (e.length + len)) ++ (e ++ r) := by
  constructor
  · intro hp
    obtain ⟨⟨v, _⟩, hread, hp⟩ := bind_eq_ok.1 hp
    obtain ⟨hv, b, rfl⟩ := unpackFrom_num_iff.1 hread
    obtain ⟨type_, hm, total, htype, hmark, htotal, rfl⟩ : ∃ type_ hm total, type_ < 2 ^ 23 ∧
        hm < 2 ∧ total < 256 ∧ v = type_ * 512 + hm * 256 + total :=
      ⟨v / 512, v / 256 % 2, v % 256, by omega, by omega, by omega, by omega⟩
    obtain ⟨hshift, hmask, hlength⟩ := word_parts type_ hmark htotal
    dsimp only at hp
    rw [hshift, hmask, hlength] at hp
    obtain ⟨⟨num, k⟩, hnum, heq⟩ := bind_eq_ok.1 hp
    obtain ⟨e, r, hnames, rfl, rfl⟩ := (oxmNum_iff (length_toBytes ..) htype).mp hnum
    dsimp only at heq
    split at heq
    · cases heq
    · next hpos =>
      obtain rfl := Except.ok.inj heq
      -- The value has an octet, so that the length counts the header of the experimenter.
      have hle : e.length ≤ total := by
        by_contra hlt
        refine hpos ?_
        rw [oxmValueLen]
        split <;> omega
      obtain ⟨len, rfl⟩ := Nat.exists_eq_add_of_le hle
      rw [oxmValueLen_eq hmark] at hpos ⊢
      rw [Int.toNat_natCast]
      exact ⟨type_, hm, len, e, num, r, htype, hmark, htotal, by omega, hnames, rfl, rfl⟩
  · rintro ⟨type_, hm, len, e, num, r, htype, hmark, hlt, hpos, hnames, rfl, rfl⟩
    obtain ⟨hshift, hmask, hlength⟩ := word_parts type_ hmark hlt
    have hv : type_ * 512 + hm * 256 + (e.length + len) < 256 ^ 4 := by omega
    have hnum := (oxmNum_iff (length_toBytes 4 (type_ * 512 + hm * 256 + (e.length + len)))
      htype).mpr ⟨e, r, hnames, rfl, rfl⟩
    rw [parseHeaderImpl, unpackFrom_num_iff.2 ⟨hv, _, rfl⟩]
    dsimp only [bind, Except.bind]
    rw [hshift, hmask, hlength, hnum]
    dsimp only
    rw [oxmValueLen_eq hmark, if_neg (by omega), Int.toNat_natCast]

/-- What is parsed at the start of octets. -/
theorem oxmParse_iff : oxmParse b 0 = .ok t ↔
    ∃ type_ len e r, Reads type_ len e t ∧ b = octets type_ len e t.value t.mask ++ r := by
  constructor
  · intro hp
    obtain ⟨h, hh, hp⟩ := bind_eq_ok.1 hp
    obtain ⟨type_, hm, len, e, num, r, htype, hmark, hlt, hpos, hnames, rfl, rfl⟩ :=
      parseHeaderImpl_iff.1 hh
    have hhead : (toBytes 4 (type_ * 512 + hm * 256 + (e.length + len)) ++ e).length =
        0 + (4 + e.length) := by simp
    dsimp only at hp
    obtain ⟨⟨value, _⟩, hvalue, hp⟩ := bind_eq_ok.1 hp
    rw [← List.append_assoc, unpackFrom_append hhead, unpackFrom_str_iff] at hvalue
    obtain ⟨hlen, r, rfl⟩ := hvalue
    split at hp
    · next hmask =>
      obtain ⟨⟨mask, _⟩, hread, heq⟩ := bind_eq_ok.1 hp
      rw [← List.append_assoc, ← List.append_assoc,
        unpackFrom_append (by rw [List.length_append, hhead, hlen]), unpackFrom_str_iff] at hread
      obtain ⟨hlen', r, rfl⟩ := hread
      obtain rfl := Except.ok.inj heq
      obtain rfl : hm = 1 := of_decide_eq_true hmask
      refine ⟨type_, len, e, r, ⟨hnames, htype, hlt, hlen.symm ▸ hpos, hlen, ?_, rfl⟩, ?_⟩
      · rintro _ ⟨⟩
        exact hlen'.trans hlen.symm
      · simp [octets, payload, mark]
    · next hmask =>
      obtain rfl := Except.ok.inj hp
      obtain rfl : hm = 0 := by
        have hne : hm ≠ 1 := fun h => hmask (decide_eq_true h)
        omega
      refine ⟨type_, len, e, r, ⟨hnames, htype, hlt, hlen.symm ▸ hpos, hlen, ?_, rfl⟩, ?_⟩
      · rintro _ ⟨⟩
      · simp [octets, payload, mark]
  · rintro ⟨type_, len, e, r, hreads, rfl⟩
    obtain ⟨n, value, mask, fieldLen⟩ := t
    have hmark : mark mask < 2 := by
      rw [mark]
      split <;> omega
    have hhead := parseHeaderImpl_iff.2 ⟨type_, mark mask, len, e, n, payload value mask ++ r,
      hreads.type_lt, hmark, hreads.length_lt, hreads.value_length ▸ hreads.value_pos,
      hreads.names, rfl, rfl⟩
    have hlen4 : (toBytes 4 (type_ * 512 + mark mask * 256 + (e.length + len)) ++ e).length =
        0 + (4 + e.length) := by simp
    have hfield : fieldLen = 4 + (e.length + len) := hreads.fieldLen
    have hvalue : value.length = len / (mark mask + 1) := hreads.value_length
    rw [octets, oxmParse, List.append_assoc, List.append_assoc, hhead]
    dsimp only [bind, Except.bind]
    rw [← hvalue, hfield, payload, List.append_assoc, ← List.append_assoc,
      unpackFrom_append hlen4, unpackFrom_str_iff.2 ⟨rfl, _, rfl⟩]
    dsimp only
    cases mask with
    | none => rfl
    | some mask =>
      have hmask : mask.length = value.length := hreads.mask_length mask rfl
      rw [← List.append_assoc, unpackFrom_append (by rw [List.length_append, hlen4]),
        Option.getD_some, unpackFrom_str_iff.2 ⟨hmask, r, rfl⟩]
      rfl

/-- A number stands for one header. -/
theorem Names.inj {type' : ℕ} {e e' : List UInt8} (h : Names type_ e n) (h' : Names type' e' n) :
    type_ = type' ∧ e = e' := by
  -- A type of an experimenter is too large for a type of `EXT-256`.
  have hlarge : ∀ {t : ℕ}, t >>> 7 = ofpxxcExperimenter → ¬ t < 256 ^ 2 := by
    intro t ht hlt
    rw [Nat.shiftRight_eq_div_pow] at ht
    have hdiv : t / 2 ^ 7 < 0xffff := by omega
    exact hdiv.ne ht
  cases h with
  | basic =>
    cases h' with
    | basic => exact ⟨rfl, rfl⟩
  | experimenter hclass =>
    cases h' with
    | experimenter => exact ⟨rfl, rfl⟩
    | ext256 hlt => exact absurd hlt (hlarge hclass)
  | ext256 hlt =>
    cases h' with
    | experimenter hclass => exact absurd hlt (hlarge hclass)
    | ext256 => exact ⟨rfl, rfl⟩

end Wire

section Serialize

variable {types : List FieldDesc} {d : FieldDesc} {n : OxmNum} {type_ : ℕ} {e v buf : List UInt8}
  {m : Option (List UInt8)} {offset : ℕ}

/-- What `_make_exp_hdr` packs for a known field. -/
def FieldDesc.expHdr (d : FieldDesc) : List UInt8 :=
  match d.cls with
  | .plain _ => []
  | .experimenter id => toBytes 4 id
  | .oldONFExperimenter => toBytes 4 onfExperimenterId ++ toBytes 2 2560

theorem FieldDesc.Fits.type_eq (h : d.Fits) : d.type_ = d.class_ * 128 + d.field :=
  or_shift h.field_lt _

theorem FieldDesc.Fits.type_parts (h : d.Fits) :
    d.type_ >>> 7 = d.class_ ∧ d.type_ &&& 0x7f = d.field := by
  have hlt := h.field_lt
  rw [h.type_eq, Nat.shiftRight_eq_div_pow, Nat.and_two_pow_sub_one_eq_mod _ 7]
  omega

theorem FieldDesc.Fits.names (h : d.Fits) : Names d.type_ d.expHdr d.num := by
  obtain ⟨hclass, hfield⟩ := h.type_parts
  cases hcls : d.cls with
  | plain c =>
    have hnum : d.num = .basic d.type_ := by simp only [num, hcls]
    have hexp : d.expHdr = [] := by simp only [expHdr, hcls]
    rw [hnum, hexp]
    refine .basic ?_
    rw [hclass, class_, hcls]
    exact (h.plain c hcls).ne
  | experimenter id =>
    have hnum : d.num = .experimenter id d.type_ := by simp only [num, hcls]
    have hexp : d.expHdr = toBytes 4 id := by simp only [expHdr, hcls]
    obtain ⟨hid, honf⟩ := h.experimenter id hcls
    rw [hnum, hexp]
    refine .experimenter ?_ hid fun ⟨hid, hzero⟩ => honf hid (hfield.symm.trans hzero)
    rw [hclass, class_, hcls]
  | oldONFExperimenter =>
    have hnum : d.num = .experimenter onfExperimenterId 2560 := by
      simp only [num, hcls, h.ext256 hcls]
    have hexp : d.expHdr = toBytes 4 onfExperimenterId ++ toBytes 2 2560 := by
      simp only [expHdr, hcls]
    have htype : d.type_ = ofpxxcExperimenter <<< 7 := by
      simp only [type_, field, class_, hcls, Nat.zero_or]
    rw [hnum, hexp, htype]
    exact .ext256 (by decide)

theorem numToField_eq_some (h : numToField types n = some d) : d ∈ types ∧ d.num = n := by
  have hnum := List.find?_some h
  exact ⟨List.mem_reverse.mp (List.mem_of_find?_eq_some h), of_decide_eq_true hnum⟩

theorem pack_expHdr_num {id : ℕ} (h : id < 256 ^ 4) :
    Format.pack [.num 4] (id, ()) = .ok (toBytes 4 id) :=
  Format.pack_eq_ok_iff.mpr ⟨⟨h, trivial⟩, List.append_nil _⟩

/-- The header of a known field. -/
theorem makeExpHdr_known (h : numToField types n = some d) (hfits : d.Fits) :
    makeExpHdr types n = .ok (.basic d.type_, d.expHdr) := by
  obtain ⟨hclass, -⟩ := hfits.type_parts
  obtain ⟨-, rfl⟩ := numToField_eq_some h
  simp only [makeExpHdr, h]
  cases hcls : d.cls with
  | plain c =>
    have hne : d.class_ ≠ ofpxxcExperimenter := by
      rw [FieldDesc.class_, hcls]
      exact (hfits.plain c hcls).ne
    rw [if_neg hne]
    simp only [FieldDesc.num, FieldDesc.expHdr, hcls]
  | experimenter id =>
    have hexp : d.class_ = ofpxxcExperimenter := by simp only [FieldDesc.class_, hcls]
    have hne : d.expType ≠ 2560 := by
      have hlt := hfits.field_lt
      simp only [FieldDesc.expType, hcls]
      omega
    have htype : d.type_ = d.type_ ||| (ofpxxcExperimenter <<< 7) := by
      rw [FieldDesc.type_, hexp, Nat.or_assoc, Nat.or_self]
    have hpack : packExpHdr d id d.type_ = .ok (toBytes 4 id) := by
      rw [packExpHdr, if_neg (by simp [FieldDesc.experimenterId, hcls]), if_neg hne,
        if_neg (not_not.mpr htype), pack_expHdr_num (hfits.experimenter id hcls).1]
    rw [if_pos hexp]
    simp only [FieldDesc.num, FieldDesc.expHdr, hcls, hpack]
    dsimp only [bind, Except.bind]
    rw [if_pos (hclass.trans hexp)]
  | oldONFExperimenter =>
    have hexp : d.class_ = ofpxxcExperimenter := by simp only [FieldDesc.class_, hcls]
    have hpack : packExpHdr d onfExperimenterId d.arg =
        .ok (toBytes 4 onfExperimenterId ++ toBytes 2 2560) := by
      rw [packExpHdr, if_neg (by simp [FieldDesc.experimenterId, hcls]),
        if_pos (by simp [FieldDesc.expType, hcls])]
      simp only [FieldDesc.expType, hcls]
      rfl
    rw [if_pos hexp]
    simp only [FieldDesc.num, FieldDesc.expHdr, hcls, hpack]
    dsimp only [bind, Except.bind]
    rw [if_pos (hclass.trans hexp)]

/-- The header of a number that is read, if it is known or not of an experimenter. -/
theorem makeExpHdr_names (hfits : ∀ d ∈ types, d.Fits) (h : Names type_ e n)
    (hknown : type_ >>> 7 = ofpxxcExperimenter → (numToField types n).isSome) :
    makeExpHdr types n = .ok (.basic type_, e) := by
  cases hfield : numToField types n with
  | some d =>
    obtain ⟨hd, hnum⟩ := numToField_eq_some hfield
    obtain ⟨htype, hexp⟩ := (hnum ▸ (hfits d hd).names).inj h
    rw [makeExpHdr_known hfield (hfits d hd), htype, hexp]
  | none =>
    rw [hfield] at hknown
    cases h with
    | basic => simp only [makeExpHdr, hfield]
    | experimenter hclass => exact absurd (hknown hclass) Bool.false_ne_true
    | ext256 => exact absurd (hknown (by decide)) Bool.false_ne_true

/-- A field of an experimenter that is not known is not written. -/
theorem serialize_unknown {id k : ℕ} (h : numToField types (.experimenter id k) = none)
    (hm : ∀ m' ∈ m, m'.length = v.length) (buf : List UInt8) (offset : ℕ) :
    ∃ err, serialize types (.experimenter id k) v m buf offset = .error err := by
  have hexp : makeExpHdr types (.experimenter id k) = .ok (.experimenter id k, []) := by
    simp only [makeExpHdr, h]
  rw [serialize, hexp]
  dsimp only [bind, Except.bind]
  split
  · next m' hm' =>
    have hlen := hm m' (Option.mem_def.mpr (Option.filter_eq_some_iff.mp hm').1)
    rw [if_neg (not_not.mpr hlen.symm)]
    exact ⟨_, rfl⟩
  · exact ⟨_, rfl⟩

theorem padRight_take_length (b : List UInt8) : padRight (b.take b.length) b.length = b := by
  rw [List.take_length, padRight_of_le le_rfl]

/-- What is written of a field whose header is known. -/
theorem serialize_eq (hexp : makeExpHdr types n = .ok (.basic type_, e)) (htype : type_ < 2 ^ 23)
    (hpos : 0 < v.length) (hm : ∀ m' ∈ m, m'.length = v.length)
    (hlt : e.length + (payload v m).length < 256) :
    serialize types n v m buf offset = .ok
      (packAt buf offset (octets type_ (payload v m).length e v m),
        4 + (e.length + (payload v m).length)) := by
  rw [serialize, hexp]
  dsimp only [bind, Except.bind]
  cases m with
  | none =>
    have hlen : payload v none = v := List.append_nil v
    rw [hlen] at hlt ⊢
    have hpack : Format.pack [.num 4, .str e.length, .str v.length]
        (type_ * 512 + 0 * 256 + (e.length + v.length), e, v, ()) =
          .ok (octets type_ v.length e v none) := by
      refine Format.pack_eq_ok_iff.mpr ⟨⟨by omega, trivial⟩, ?_⟩
      simp only [Format.bytes, padRight_take_length, octets, hlen, List.append_nil, mark,
        Option.isSome_none, Bool.false_eq_true, if_false]
    rw [Option.filter_none]
    dsimp only [shifted]
    rw [or_word (by decide) hlt, msgPackInto, hpack, Nat.add_assoc]
    rfl
  | some m =>
    have hmlen : m.length = v.length := hm m rfl
    have hne : m ≠ [] := List.ne_nil_of_length_pos (hmlen.symm ▸ hpos)
    have hlen : (payload v (some m)).length = v.length * 2 := by
      rw [payload, Option.getD_some, List.length_append, hmlen, Nat.mul_two]
    rw [hlen] at hlt ⊢
    have hpack : Format.pack [.num 4, .str e.length, .str v.length, .str m.length]
        (type_ * 512 + 1 * 256 + (e.length + v.length * 2), e, v, m, ()) =
          .ok (octets type_ (v.length * 2) e v (some m)) := by
      refine Format.pack_eq_ok_iff.mpr ⟨⟨by omega, trivial⟩, ?_⟩
      simp only [Format.bytes, padRight_take_length, octets, payload, Option.getD_some,
        List.append_nil, mark, Option.isSome_some, if_true]
    rw [Option.filter_some, if_pos (decide_eq_true hne)]
    dsimp only [shifted]
    rw [if_neg (not_not.mpr hmlen.symm), or_word (by decide) hlt, msgPackInto, hpack]
    refine congrArg (fun k => Except.ok (_, k)) ?_
    omega

end Serialize

section Offset

variable {types : List FieldDesc} {d : FieldDesc} {n : OxmNum} {t : Oxm} {type_ len : ℕ}
  {b e v r buf : List UInt8} {m : Option (List UInt8)} {offset : ℕ}

theorem drop_packAt (buf : List UInt8) (offset : ℕ) (b : List UInt8) :
    ∃ r, (packAt buf offset b).drop offset = b ++ r := by
  have hlen : ((padRight buf (offset + b.length)).take offset).length = offset := by
    rw [List.length_take, length_padRight]
    omega
  exact ⟨_, List.drop_left' hlen⟩

/-- What is parsed at an offset is what is parsed of the octets from there. -/
theorem oxmParse_drop (buf : List UInt8) (offset : ℕ) :
    oxmParse buf offset = oxmParse (buf.drop offset) 0 := by
  have hread : ∀ (fmt : Format) (k : ℕ), Ofproto13.unpackFrom fmt buf (offset + k) =
      Ofproto13.unpackFrom fmt (buf.drop offset) k := by
    intro fmt k
    rw [Ofproto13.unpackFrom, Ofproto13.unpackFrom, List.drop_drop]
  have hread0 : ∀ fmt : Format, Ofproto13.unpackFrom fmt buf offset =
      Ofproto13.unpackFrom fmt (buf.drop offset) 0 := fun fmt => hread fmt 0
  simp only [oxmParse, parseHeaderImpl, oxmNum, hread0, hread, Nat.add_assoc, Nat.zero_add]

theorem length_octets : (octets type_ (payload v m).length e v m).length =
    4 + (e.length + (payload v m).length) := by
  simp [octets]

theorem FieldDesc.Fits.type_lt (h : d.Fits) : d.type_ < 2 ^ 23 := by
  have hfield := h.field_lt
  have hclass : d.class_ ≤ 0xffff := by
    cases hcls : d.cls with
    | plain c =>
      rw [class_, hcls]
      exact (h.plain c hcls).le
    | experimenter | oldONFExperimenter => simp only [class_, hcls, ofpxxcExperimenter, le_refl]
  rw [h.type_eq]
  omega

theorem Names.length_expHdr (h : Names type_ e n) : e.length ≤ 6 ∧ e.length % 2 = 0 := by
  cases h <;> simp

/-- What is written of a known field, of the size of its type, is parsed again. -/
theorem parse_serialize (hfits : ∀ d ∈ types, d.Fits) (h : numToField types n = some d)
    (hv : v.length = d.size) (hm : ∀ m' ∈ m, m'.length = v.length) (buf : List UInt8)
    (offset : ℕ) : ∃ out len, serialize types n v m buf offset = .ok (out, len) ∧
      oxmParse out offset = .ok ⟨n, v, m, len⟩ := by
  obtain ⟨hd, hnum⟩ := numToField_eq_some h
  have hd := hfits d hd
  have hnames : Names d.type_ d.expHdr n := hnum ▸ hd.names
  have hexp := hnames.length_expHdr
  have hpos : 0 < v.length := hv.symm ▸ hd.size_pos
  have hle := hd.size_le
  have hpayload : v.length = (payload v m).length / (mark m + 1) ∧
      (payload v m).length ≤ 32 := by
    cases m with
    | none => simp [payload, mark, hv]; omega
    | some m =>
      have hmlen := hm m rfl
      simp only [payload, mark, Option.getD_some, List.length_append, Option.isSome_some, if_true]
      omega
  have hlt : d.expHdr.length + (payload v m).length < 256 := by omega
  obtain ⟨r, hr⟩ := drop_packAt buf offset (octets d.type_ (payload v m).length d.expHdr v m)
  refine ⟨_, _, serialize_eq (makeExpHdr_known h hd) hd.type_lt hpos hm hlt, ?_⟩
  rw [oxmParse_drop, hr]
  exact oxmParse_iff.2 ⟨d.type_, (payload v m).length, d.expHdr, r,
    ⟨hnames, hd.type_lt, hlt, hpos, hpayload.1, hm, rfl⟩, rfl⟩

theorem mark_lt (m : Option (List UInt8)) : mark m < 2 := by
  rw [mark]
  split <;> decide

/-- The first number of a field that is parsed. -/
theorem headerAt_octets (h : buf.drop offset = octets type_ len e v m ++ r) (htype : type_ < 2 ^ 23)
    (hlt : e.length + len < 256) :
    headerAt buf offset = type_ * 512 + mark m * 256 + (e.length + len) := by
  have hmark := mark_lt m
  rw [headerAt, h, octets, List.append_assoc, List.take_left' (length_toBytes ..), ofBytes_toBytes,
    Nat.mod_eq_of_lt (by omega)]

theorem ofBytes_between {w x : List UInt8} {j k id : ℕ} (hw : w.length = j) (hlt : id < 256 ^ k) :
    ofBytes (((w ++ (toBytes k id ++ x)).drop j).take k) = id := by
  rw [List.drop_left' hw, List.take_left' (length_toBytes ..), ofBytes_toBytes,
    Nat.mod_eq_of_lt hlt]

/-- The number of a field of an experimenter that is parsed. -/
theorem experimenterAt_octets (h : buf.drop offset = octets type_ len e v m ++ r)
    (htype : type_ < 2 ^ 23) (hlt : e.length + len < 256) (hnames : Names type_ e n)
    (hclass : type_ >>> 7 = ofpxxcExperimenter) : experimenterAt buf offset = n := by
  have hmark := mark_lt m
  have hheader : headerAt buf offset >>> 9 = type_ := by
    rw [headerAt_octets h htype hlt]
    exact (word_parts _ hmark hlt).1
  rw [octets, List.append_assoc, List.append_assoc] at h
  simp only [experimenterAt, hheader, h]
  cases hnames with
  | basic hne => exact absurd hclass hne
  | experimenter _ hid hne =>
    rw [ofBytes_between (length_toBytes ..) hid, if_neg hne]
  | ext256 hexp =>
    rw [List.append_assoc, ofBytes_between (length_toBytes ..) (by decide), if_pos (by decide),
      ← List.append_assoc (toBytes 4 _), ofBytes_between (by simp) hexp]

theorem Names.experimenter_of_class (h : Names type_ e n)
    (hclass : type_ >>> 7 = ofpxxcExperimenter) : ∃ id k, n = .experimenter id k := by
  cases h with
  | basic hne => exact absurd hclass hne
  | experimenter => exact ⟨_, _, rfl⟩
  | ext256 => exact ⟨_, _, rfl⟩

theorem Reads.length_payload (h : Reads type_ len e t) :
    (payload t.value t.mask).length = t.value.length * (mark t.mask + 1) := by
  rw [payload, List.length_append]
  cases hmask : t.mask with
  | none => simp [mark]
  | some m =>
    rw [Option.getD_some, h.mask_length m hmask, mark, Option.isSome_some, if_pos rfl]
    omega

/-- Only the last octet of a payload with a mask may be left out. -/
theorem Reads.length_payload_iff (h : Reads type_ len e t) :
    (payload t.value t.mask).length = len ↔ (mark t.mask = 1 → len % 2 = 0) := by
  have hmark := mark_lt t.mask
  rw [h.length_payload, h.value_length]
  obtain hzero | hone : mark t.mask = 0 ∨ mark t.mask = 1 := by omega
  · simp [hzero]
  · simp only [hone, forall_const]
    omega

/-- The condition, by what is parsed. -/
theorem whole_iff (h : Reads type_ len e t)
    (hbuf : buf.drop offset = octets type_ len e t.value t.mask ++ r) :
    Whole types buf offset ↔ (payload t.value t.mask).length = len ∧
      (type_ >>> 7 = ofpxxcExperimenter → (numToField types t.num).isSome) := by
  have hexp := h.names.length_expHdr
  have hmark := mark_lt t.mask
  have hlt := h.length_lt
  have hheader := headerAt_octets hbuf h.type_lt hlt
  obtain ⟨-, hmask, -⟩ := word_parts type_ hmark hlt
  have hclass : headerAt buf offset >>> 16 = type_ >>> 7 := by
    rw [hheader, Nat.shiftRight_eq_div_pow, Nat.shiftRight_eq_div_pow]
    omega
  have heven : headerAt buf offset % 2 = 0 ↔ len % 2 = 0 := by
    rw [hheader]
    omega
  have hnum := experimenterAt_octets hbuf h.type_lt hlt h.names
  rw [h.length_payload_iff]
  constructor
  · rintro ⟨hwhole, hknown⟩
    rw [hheader, hmask, ← hheader, heven] at hwhole
    exact ⟨hwhole, fun hc => hnum hc ▸ hknown (hclass.trans hc)⟩
  · rintro ⟨hwhole, hknown⟩
    refine ⟨?_, fun hc => ?_⟩
    · rwa [hheader, hmask, ← hheader, heven]
    · rw [hclass] at hc
      rw [hnum hc]
      exact hknown hc

/-- The octets of a field that is parsed are written back if and only if it is whole. -/
theorem writesBack_iff_whole (hfits : ∀ d ∈ types, d.Fits) (h : oxmParse buf offset = .ok t) :
    WritesBack types buf offset t ↔ Whole types buf offset := by
  rw [oxmParse_drop] at h
  obtain ⟨type_, len, e, r, hreads, hbuf⟩ := oxmParse_iff.1 h
  have hle : (payload t.value t.mask).length ≤ len := by
    rw [hreads.length_payload, hreads.value_length]
    exact Nat.div_mul_le_self ..
  have hlt : e.length + (payload t.value t.mask).length < 256 := by
    have hlt := hreads.length_lt
    omega
  have hwrite : ∀ (buf : List UInt8) (offset : ℕ),
      (type_ >>> 7 = ofpxxcExperimenter → (numToField types t.num).isSome) →
      serialize types t.num t.value t.mask buf offset = .ok
        (packAt buf offset (octets type_ (payload t.value t.mask).length e t.value t.mask),
          4 + (e.length + (payload t.value t.mask).length)) := fun _ _ hknown =>
    serialize_eq (makeExpHdr_names hfits hreads.names hknown) hreads.type_lt hreads.value_pos
      hreads.mask_length hlt
  rw [whole_iff hreads hbuf]
  constructor
  · intro hback
    obtain ⟨out, hout, -⟩ := hback [] 0
    have hknown : type_ >>> 7 = ofpxxcExperimenter → (numToField types t.num).isSome := by
      intro hexp
      obtain ⟨id, k, hnum⟩ := hreads.names.experimenter_of_class hexp
      by_contra hnone
      rw [Bool.not_eq_true, Option.isSome_eq_false_iff, Option.isNone_iff_eq_none, hnum] at hnone
      obtain ⟨err, herr⟩ := serialize_unknown hnone hreads.mask_length [] 0
      rw [hnum, herr] at hout
      cases hout
    refine ⟨?_, hknown⟩
    rw [hwrite [] 0 hknown] at hout
    have hlen := congrArg Prod.snd (Except.ok.inj hout)
    rw [hreads.fieldLen] at hlen
    dsimp only at hlen
    omega
  · rintro ⟨hlen, hknown⟩ buf' offset'
    obtain ⟨r', hr'⟩ := drop_packAt buf' offset' (octets type_ len e t.value t.mask)
    have hout := hwrite buf' offset' hknown
    have hoctets : (octets type_ len e t.value t.mask).length = t.fieldLen := by
      rw [hreads.fieldLen, ← hlen]
      exact length_octets
    rw [hlen, ← hreads.fieldLen] at hout
    exact ⟨_, hout, by rw [hr', hbuf, List.take_left' hoctets, List.take_left' hoctets]⟩

/-- What is written of a known field is parsed again, at any offset. What is parsed is written back
if and only if its length is even where it has a mask, and it is known where it is of an
experimenter. -/
theorem serialize_parse (mod : Module) :
    (∀ (n : OxmNum) (d : FieldDesc) (value : List UInt8) (mask : Option (List UInt8))
      (buf : List UInt8) (offset : ℕ), numToField mod.types n = some d → value.length = d.size →
      (∀ m ∈ mask, m.length = value.length) → ∃ out len,
        serialize mod.types n value mask buf offset = .ok (out, len) ∧
          oxmParse out offset = .ok ⟨n, value, mask, len⟩) ∧
    ∀ (buf : List UInt8) (offset : ℕ) (t : Oxm), oxmParse buf offset = .ok t →
      (WritesBack mod.types buf offset t ↔ Whole mod.types buf offset) :=
  ⟨fun _ _ _ _ buf offset h hv hm => parse_serialize (fun _ => Module.fits) h hv hm buf offset,
    fun _ _ _ => writesBack_iff_whole fun _ => Module.fits⟩

/-- An Ethernet type with a mask, and an octet that belongs to neither. -/
theorem not_writesBack_eth_type :
    ∃ t, oxmParse [0x80, 0x00, 0x0b, 0x05, 0x08, 0x00, 0xff, 0xff, 0x00] 0 = .ok t ∧
      ¬ WritesBack Module.v1_3.types
        [0x80, 0x00, 0x0b, 0x05, 0x08, 0x00, 0xff, 0xff, 0x00] 0 t := by
  refine ⟨_, rfl, fun h => ?_⟩
  have hwhole := (writesBack_iff_whole (fun _ => Module.fits) rfl).mp h
  exact absurd (hwhole.even (by decide)) (by decide)

end Offset

end Ryu.Oxx
