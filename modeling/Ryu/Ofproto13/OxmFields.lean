import Ryu.Ofproto.Match
import Ryu.Ofproto13.Match

/-! # OXM fields

The fields of a match are known by a name and by a number, and are written behind a header with
their number, a mark for a mask, and a length. The header of a field of an experimenter goes on
with the experimenter. What is written for a registered field is parsed as its number, value and
mask, and the header as its number, whatever is behind it.
-/

namespace Ryu.Ofproto13

open Bytes

/-- The classes of `oxm_fields`. -/
inductive OxmClass
  | openFlowBasic
  | oldONFExperimenter
  | onfExperimenter
  | niciraExperimenter
  | niciraNshExperimenter
  | niciraExtended0
  | niciraExtended1
  deriving DecidableEq, Repr

namespace OxmClass

/-- `_class`. -/
def number : OxmClass → ℕ
  | openFlowBasic => 0x8000
  | niciraExtended0 => 0
  | niciraExtended1 => 1
  | _ => ofpxxcExperimenter

def experimenterId : OxmClass → Option ℕ
  | oldONFExperimenter | onfExperimenter => some onfExperimenterId
  | niciraExperimenter => some 0x2320
  | niciraNshExperimenter => some 0x5ad650
  | _ => none

theorem number_eq_iff {c : OxmClass} : c.number = ofpxxcExperimenter ↔ c.experimenterId.isSome := by
  cases c <;> decide

theorem experimenterId_lt {c : OxmClass} {id : ℕ} (h : c.experimenterId = some id) :
    id < 256 ^ 4 := by
  cases c <;> cases h <;> decide

end OxmClass

/-- An entry of `oxm_types`. -/
structure OxmDesc where
  cls : OxmClass
  name : String
  /-- The argument of the class. -/
  arg : ℕ
  type : OxmType
  deriving DecidableEq, Repr

namespace OxmDesc

/-- The old class of `EXT-256` writes its number behind the experimenter. -/
def isExt256 (d : OxmDesc) : Bool := d.cls = .oldONFExperimenter

def oxmField (d : OxmDesc) : ℕ := if d.isExt256 then 0 else d.arg

def oxmType (d : OxmDesc) : ℕ := d.oxmField ||| (d.cls.number <<< 7)

def num (d : OxmDesc) : OxmNum :=
  match d.cls.experimenterId with
  | none => .basic d.oxmType
  | some id => .experimenter id (if d.isExt256 then d.arg else d.oxmType)

/-- What `_make_exp_hdr` packs. -/
def expHdr (d : OxmDesc) : List UInt8 :=
  match d.cls.experimenterId with
  | none => []
  | some id => if d.isExt256 then toBytes 4 id ++ toBytes 2 2560 else toBytes 4 id

/-- The numbers fit the header, and no other class has the numbers of `EXT-256`. -/
structure Fits (d : OxmDesc) : Prop where
  field_lt : d.oxmField < 128
  ext256 : d.isExt256 → d.arg = 2560
  not_ext256 : ¬ d.isExt256 → d.cls.experimenterId = some onfExperimenterId → d.oxmField ≠ 0
  size_pos : 0 < d.type.size
  len_lt : d.expHdr.length + 2 * d.type.size < 256

instance (d : OxmDesc) : Decidable d.Fits :=
  decidable_of_iff (d.oxmField < 128 ∧ (d.isExt256 → d.arg = 2560) ∧
      (¬ d.isExt256 → d.cls.experimenterId = some onfExperimenterId → d.oxmField ≠ 0) ∧
      0 < d.type.size ∧ d.expHdr.length + 2 * d.type.size < 256)
    ⟨fun ⟨h₁, h₂, h₃, h₄, h₅⟩ => ⟨h₁, h₂, h₃, h₄, h₅⟩,
      fun h => ⟨h.field_lt, h.ext256, h.not_ext256, h.size_pos, h.len_lt⟩⟩

end OxmDesc

/-- What the serializers and parsers of the module use: its fields, which have a name and a number
each, and what reads and writes texts. -/
structure Ofp where
  oxmTypes : List OxmDesc
  names_nodup : (oxmTypes.map OxmDesc.name).Nodup
  nums_nodup : (oxmTypes.map OxmDesc.num).Nodup
  fits : ∀ d ∈ oxmTypes, d.Fits
  addr : AddrConv
  b64decode : Text → Option (List UInt8)
  b64encode : List UInt8 → Text
  /-- The header of a subfield of `OFPMatchField._FIELDS_HEADERS` says how long it is. -/
  fieldsHeaders : ℕ → Option Format
  fieldsHeaders_le : ∀ {header fmt}, fieldsHeaders header = some fmt →
    fmt.calcsize ≤ header &&& 0xff

/-- The type of a field. A field that is not registered has `UnknownType`. -/
inductive FieldType
  | known (type : OxmType)
  | unknown
  deriving DecidableEq, Repr

/-- The first number of a header. -/
def headerWord (n hasmask len : ℕ) : Except PyError (List UInt8) :=
  packInto 4 ((n <<< 9) ||| (hasmask <<< 8) ||| len)

namespace Ofp

variable (ofp : Ofp)

def nameToField (name : String) : Option OxmDesc := ofp.oxmTypes.find? (·.name = name)

def numToField (n : OxmNum) : Option OxmDesc := ofp.oxmTypes.find? (·.num = n)

/-- The number in a name `field_N`. -/
def fieldNumber (name : String) : Except PyError ℕ :=
  match (name.toList.splitOn '_')[1]?.bind Numeral.int? with
  | some (.ofNat n) => .ok n
  | _ => .error (.valueError "invalid literal for int() with base 10")

/-- `_get_field_info_by_name`. -/
def fieldInfoByName (name : String) : Except PyError (OxmNum × FieldType) :=
  match ofp.nameToField name with
  | some d => .ok (d.num, .known d.type)
  | none =>
    if "field_".toList.isPrefixOf name.toList then
      (fieldNumber name).map fun n => (.basic n, .unknown)
    else .error (.keyError "unknown OXM field")

/-- `_get_field_info_by_number`. -/
def fieldInfoByNumber : OxmNum → Except PyError (String × FieldType) := fun n =>
  match ofp.numToField n, n with
  | some d, _ => .ok (d.name, .known d.type)
  | none, .basic n => .ok ("field_" ++ String.ofList (Numeral.dec n), .unknown)
  | none, .experimenter .. => .error (.keyError "unknown OXM field number")

/-- `oxm_from_user_header`. -/
def oxmFromUserHeader (name : String) : Except PyError OxmNum :=
  (ofp.fieldInfoByName name).map Prod.fst

/-- `oxm_to_user_header`. -/
def oxmToUserHeader (n : OxmNum) : Except PyError String :=
  (ofp.fieldInfoByNumber n).map Prod.fst

/-- `from_user` of a type: the value, and the mask of a text with a network length. -/
def fromUser : FieldType → Value → Except PyError (List UInt8 × Option (List UInt8))
  | .known type, v => (Ryu.fromUser ofp.addr type v).map fun x =>
    (toBytes type.size x.1, x.2.map (toBytes type.size))
  | .unknown, .str s =>
    match ofp.b64decode s with
    | some b => .ok (b, none)
    | none => .error (.other "binascii.Error")
  | .unknown, .int _ => .error (.typeError "argument should be a bytes-like object or ASCII string")

/-- `to_user` of a type. -/
def toUser : FieldType → List UInt8 → Value
  | .known (.int _), b => .int (ofBytes b)
  | .known (.addr kind), b => .str (ofp.addr.binToText kind (ofBytes b))
  | .unknown, b => .str (ofp.b64encode b)

/-- `oxm_from_user`. A mask beside a text that has one of its own is refused later. -/
def oxmFromUser (name : String) :
    UserValue → Except PyError (OxmNum × List UInt8 × Option (List UInt8))
  | .one value => do
    let (n, t) ← ofp.fieldInfoByName name
    let (v, m) ← ofp.fromUser t value
    .ok (n, v, m)
  | .pair value mask => do
    let (n, t) ← ofp.fieldInfoByName name
    match ← ofp.fromUser t value, ← ofp.fromUser t mask with
    | (v, none), (m, none) => .ok (n, v, some m)
    | _, _ => .error (.valueError "invalid literal for int() with base 10")

/-- The value has the size of its type, if that has a size. -/
def FieldType.accepts (t : FieldType) (v : List UInt8) : Bool :=
  match t with
  | .known type => type.size = v.length
  | .unknown => true

/-- `oxm_to_user`. -/
def oxmToUser (n : OxmNum) (v : List UInt8) (m : Option (List UInt8)) :
    Except PyError (String × UserValue) := do
  let (name, t) ← ofp.fieldInfoByNumber n
  if FieldType.accepts t v then
    match m with
    | none => .ok (name, .one (ofp.toUser t v))
    | some m => .ok (name, .pair (ofp.toUser t v) (ofp.toUser t m))
  else .error (.other "Unexpected OXM payload length")

/-- `_make_exp_hdr`. -/
def makeExpHdr (n : OxmNum) : Except PyError (ℕ × List UInt8) :=
  match ofp.numToField n, n with
  | some d, _ => .ok (d.oxmType, d.expHdr)
  | none, .basic n => .ok (n, [])
  | none, .experimenter .. => .error (.typeError "unsupported operand type(s) for <<")

/-- What `oxm_serialize_header` packs. -/
def oxmSerializeHeader (n : OxmNum) : Except PyError (List UInt8) := do
  let valueLen := ((ofp.numToField n).map (·.type.size)).getD 0
  let (n, expHdr) ← ofp.makeExpHdr n
  let word ← headerWord n 0 (expHdr.length + valueLen)
  .ok (word ++ expHdr)

/-- What `oxm_serialize` packs. An empty mask is none. -/
def oxmSerialize (n : OxmNum) (value : List UInt8) (mask : Option (List UInt8)) :
    Except PyError (List UInt8) := do
  let (n, expHdr) ← ofp.makeExpHdr n
  match mask.filter (· ≠ []) with
  | some mask =>
    if value.length ≠ mask.length then .error .assertionError
    else do
      let word ← headerWord n 1 (expHdr.length + value.length * 2)
      .ok (word ++ (expHdr ++ (value ++ mask)))
  | none => do
    let word ← headerWord n 0 (expHdr.length + value.length)
    .ok (word ++ (expHdr ++ value))

/-- The header of a field by its name. -/
def fieldHeader (name : String) : Except PyError (List UInt8) := do
  let n ← ofp.oxmFromUserHeader name
  ofp.oxmSerializeHeader n

end Ofp

section Header

variable {d : OxmDesc} {n hm len : ℕ} {w r : List UInt8}

theorem unpackFrom_num {size v : ℕ} (h : packInto size v = .ok w) (r : List UInt8) :
    unpackFrom [.num size] (w ++ r) 0 = .ok (v, ()) := by
  have hpack : Format.pack [.num size] (v, ()) = .ok w := by
    rw [Format.pack, h]
    exact congrArg Except.ok (List.append_nil w)
  exact Format.unpackFrom_pack hpack trivial r

theorem unpackFrom_str {v : List UInt8} (r : List UInt8) :
    unpackFrom [.str v.length] (v ++ r) 0 = .ok (v, ()) :=
  Format.unpackFrom_str r

theorem unpackFrom_append {fmt : Format} {a b : List UInt8} {k : ℕ} (h : a.length = k) :
    unpackFrom fmt (a ++ b) k = unpackFrom fmt b 0 := by
  rw [unpackFrom, unpackFrom, List.drop_left' h, List.drop_zero]

theorem or_shift {a i : ℕ} (h : a < 2 ^ i) (b : ℕ) : a ||| (b <<< i) = b * 2 ^ i + a := by
  rw [Nat.or_comm, ← Nat.shiftLeft_add_eq_or_of_lt h, Nat.shiftLeft_eq]

theorem or_word (hmark : hm < 2) (hlen : len < 256) :
    (n <<< 9) ||| (hm <<< 8) ||| len = n * 512 + hm * 256 + len := by
  rw [Nat.or_assoc, Nat.or_comm (hm <<< 8), or_shift (i := 8) (by omega), Nat.or_comm,
    or_shift (by omega)]
  omega

theorem headerWord_eq (hmark : hm < 2) (hlen : len < 256) :
    headerWord n hm len = packInto 4 (n * 512 + hm * 256 + len) := by
  rw [headerWord, or_word hmark hlen]

theorem OxmDesc.Fits.oxmType_eq (h : d.Fits) : d.oxmType = d.cls.number * 128 + d.oxmField :=
  or_shift h.field_lt _

/-- The number of a field is found behind its header. -/
theorem oxmNum_expHdr (h : d.Fits) (hw : w.length = 4) (r : List UInt8) :
    oxmNum (w ++ (d.expHdr ++ r)) 0 d.oxmType = .ok (d.num, d.expHdr.length) := by
  have hcls : d.oxmType >>> 7 = d.cls.number := by
    rw [h.oxmType_eq, Nat.shiftRight_eq_div_pow]
    have hlt := h.field_lt
    omega
  have hfield : d.oxmType &&& 0x7f = d.oxmField := by
    rw [h.oxmType_eq, Nat.and_two_pow_sub_one_eq_mod _ 7]
    have hlt := h.field_lt
    omega
  have hexp : ∀ (id : ℕ) (r : List UInt8), id < 256 ^ 4 →
      unpackFrom [.num 4] (w ++ (toBytes 4 id ++ r)) (0 + 4) = .ok (id, ()) := by
    intro id r hlt
    rw [unpackFrom_append hw]
    exact unpackFrom_num (packInto_eq_ok.2 ⟨hlt, rfl⟩) r
  rw [oxmNum, hcls, hfield]
  cases hc : d.cls.experimenterId with
  | none =>
    have hnumber : d.cls.number ≠ ofpxxcExperimenter := by
      rw [Ne, OxmClass.number_eq_iff, hc]
      decide
    have hnum : d.num = .basic d.oxmType := by
      simp only [OxmDesc.num, hc]
    have hhdr : d.expHdr = [] := by
      simp only [OxmDesc.expHdr, hc]
    rw [if_neg hnumber, hnum, hhdr]
    rfl
  | some id =>
    have hnumber : d.cls.number = ofpxxcExperimenter := by
      rw [OxmClass.number_eq_iff, hc]
      rfl
    have hlt := OxmClass.experimenterId_lt hc
    rw [if_pos hnumber]
    cases hext : d.isExt256 with
    | true =>
      have hid : id = onfExperimenterId := by
        have hold : d.cls = .oldONFExperimenter := of_decide_eq_true hext
        rw [hold] at hc
        exact (Option.some.inj hc).symm
      have hfield : d.oxmField = 0 := by
        rw [OxmDesc.oxmField, hext, if_pos rfl]
      have hnum : d.num = .experimenter id 2560 := by
        simp only [OxmDesc.num, hc, hext, if_pos, h.ext256 hext]
      have hhdr : d.expHdr = toBytes 4 id ++ toBytes 2 2560 := by
        simp only [OxmDesc.expHdr, hc, hext, if_pos]
      have htype : unpackFrom [.num 2] (w ++ (toBytes 4 id ++ (toBytes 2 2560 ++ r))) (0 + 4 + 4) =
          .ok (2560, ()) := by
        rw [← List.append_assoc, unpackFrom_append (by rw [List.length_append, hw, length_toBytes])]
        exact unpackFrom_num (packInto_eq_ok.2 ⟨by decide, rfl⟩) r
      rw [hhdr, hnum, hfield, List.append_assoc, hexp id _ hlt]
      dsimp only [bind, Except.bind]
      rw [if_pos ⟨hid, rfl⟩, htype]
      rfl
    | false =>
      have hne : ¬(id = onfExperimenterId ∧ d.oxmField = 0) := by
        rintro ⟨rfl, hzero⟩
        exact h.not_ext256 (Bool.eq_false_iff.mp hext) hc hzero
      have hnum : d.num = .experimenter id d.oxmType := by
        simp only [OxmDesc.num, hc, hext, Bool.false_eq_true, if_false]
      have hhdr : d.expHdr = toBytes 4 id := by
        simp only [OxmDesc.expHdr, hc, hext, Bool.false_eq_true, if_false]
      rw [hhdr, hnum, hexp id _ hlt]
      dsimp only [bind, Except.bind]
      rw [if_neg hne]
      rfl

/-- What `_parse_header_impl` finds of a field, its length a multiple of one for its value. -/
theorem parseHeaderImpl_header (h : d.Fits) (hmark : hm < 2) (hlen : d.expHdr.length + len < 256)
    (hpos : 0 < len / (hm + 1)) (hw : headerWord d.oxmType hm (d.expHdr.length + len) = .ok w)
    (r : List UInt8) :
    parseHeaderImpl (w ++ (d.expHdr ++ r)) 0 =
      .ok ⟨d.num, 4 + d.expHdr.length, hm = 1, len / (hm + 1), 4 + (d.expHdr.length + len)⟩ := by
  rw [headerWord_eq hmark hlen] at hw
  have hlen4 : w.length = 4 := by
    obtain ⟨-, rfl⟩ := packInto_eq_ok.1 hw
    exact length_toBytes _ _
  generalize hv : d.oxmType * 512 + hm * 256 + (d.expHdr.length + len) = v at hw
  have htype : v >>> 9 = d.oxmType := by
    rw [Nat.shiftRight_eq_div_pow]
    omega
  have hmask : (v >>> 8) &&& 1 = hm := by
    rw [Nat.and_one_is_mod, Nat.shiftRight_eq_div_pow]
    omega
  have hlength : v &&& 0xff = d.expHdr.length + len := by
    rw [Nat.and_two_pow_sub_one_eq_mod _ 8]
    omega
  have hvalue : oxmValueLen (hm = 1) (d.expHdr.length + len) d.expHdr.length =
      ((len / (hm + 1) : ℕ) : ℤ) := by
    obtain rfl | rfl : hm = 0 ∨ hm = 1 := by omega
    · simp [oxmValueLen]
    · simp [oxmValueLen]
  have hnotle : ¬((len / (hm + 1) : ℕ) : ℤ) ≤ 0 := by omega
  rw [parseHeaderImpl, unpackFrom_num hw]
  dsimp only [bind, Except.bind]
  rw [htype, hmask, hlength, oxmNum_expHdr h hlen4 r]
  dsimp only
  rw [hvalue, if_neg hnotle, Int.toNat_natCast]

/-- The number of a header is parsed, and where the value is. -/
theorem oxmParseHeader_header (h : d.Fits)
    (hw : headerWord d.oxmType 0 (d.expHdr.length + d.type.size) = .ok w) (r : List UInt8) :
    oxmParseHeader (w ++ (d.expHdr ++ r)) 0 = .ok (d.num, 4 + d.expHdr.length) := by
  have hlt := h.len_lt
  have hpos : 0 < d.type.size / (0 + 1) := by
    rw [Nat.div_one]
    exact h.size_pos
  rw [oxmParseHeader, parseHeaderImpl_header h (by decide) (by omega) hpos hw]
  dsimp only [bind, Except.bind]
  rw [Nat.div_one, show 4 + (d.expHdr.length + d.type.size) - d.type.size =
    4 + d.expHdr.length by omega]

/-- A value without a mask is parsed. -/
theorem oxmParse_value (h : d.Fits) {v : List UInt8} (hv : v.length = d.type.size)
    (hw : headerWord d.oxmType 0 (d.expHdr.length + v.length) = .ok w) (r : List UInt8) :
    oxmParse (w ++ (d.expHdr ++ (v ++ r))) 0 =
      .ok ⟨d.num, v, none, 4 + (d.expHdr.length + v.length)⟩ := by
  have hlt := h.len_lt
  have hpos : 0 < v.length / (0 + 1) := by
    rw [Nat.div_one, hv]
    exact h.size_pos
  have hlen4 : w.length = 4 := by
    obtain ⟨-, rfl⟩ := packInto_eq_ok.1 hw
    exact length_toBytes _ _
  have hread : unpackFrom [.str v.length] (w ++ (d.expHdr ++ (v ++ r))) (0 + (4 + d.expHdr.length)) =
      .ok (v, ()) := by
    rw [← List.append_assoc, unpackFrom_append (by rw [List.length_append, hlen4, Nat.zero_add])]
    exact unpackFrom_str r
  rw [oxmParse, parseHeaderImpl_header h (by decide) (by omega) hpos hw]
  dsimp only [bind, Except.bind]
  rw [Nat.div_one, hread]
  rfl

/-- A value with a mask is parsed. -/
theorem oxmParse_masked (h : d.Fits) {v m : List UInt8} (hv : v.length = d.type.size)
    (hm : v.length = m.length)
    (hw : headerWord d.oxmType 1 (d.expHdr.length + v.length * 2) = .ok w) (r : List UInt8) :
    oxmParse (w ++ (d.expHdr ++ (v ++ (m ++ r)))) 0 =
      .ok ⟨d.num, v, some m, 4 + (d.expHdr.length + v.length * 2)⟩ := by
  have hlt := h.len_lt
  have hhalf : v.length * 2 / (1 + 1) = v.length := by omega
  have hpos : 0 < v.length * 2 / (1 + 1) := by
    rw [hhalf, hv]
    exact h.size_pos
  have hlen4 : w.length = 4 := by
    obtain ⟨-, rfl⟩ := packInto_eq_ok.1 hw
    exact length_toBytes _ _
  have hread : unpackFrom [.str v.length] (w ++ (d.expHdr ++ (v ++ (m ++ r))))
      (0 + (4 + d.expHdr.length)) = .ok (v, ()) := by
    rw [← List.append_assoc, unpackFrom_append (by rw [List.length_append, hlen4, Nat.zero_add])]
    exact unpackFrom_str _
  have hread' : unpackFrom [.str v.length] (w ++ (d.expHdr ++ (v ++ (m ++ r))))
      (0 + (4 + d.expHdr.length) + v.length) = .ok (m, ()) := by
    rw [← List.append_assoc, ← List.append_assoc, unpackFrom_append
      (by rw [List.length_append, List.length_append, hlen4, Nat.zero_add]), hm]
    exact unpackFrom_str r
  rw [oxmParse, parseHeaderImpl_header h (by decide) (by omega) hpos hw]
  dsimp only [bind, Except.bind]
  rw [hhalf, hread]
  dsimp only
  rw [if_pos (by decide), hread']

end Header

theorem find?_of_nodup {α β : Type*} [DecidableEq β] {f : α → β} {l : List α} {a : α}
    (h : (l.map f).Nodup) (ha : a ∈ l) : l.find? (f · = f a) = some a := by
  induction l with
  | nil => cases ha
  | cons x l ih =>
    rw [List.map_cons, List.nodup_cons] at h
    obtain rfl | hal := List.mem_cons.mp ha
    · exact List.find?_cons_of_pos (decide_eq_true rfl)
    · have hne : ¬ f x = f a := fun he => h.1 (he ▸ List.mem_map_of_mem hal)
      rw [List.find?_cons_of_neg (by rwa [decide_eq_true_eq])]
      exact ih h.2 hal

section Registered

variable {ofp : Ofp} {d : OxmDesc} {n : OxmNum} {uv : UserValue} {v b : List UInt8}
  {m : Option (List UInt8)}

namespace Ofp

theorem nameToField_name (hd : d ∈ ofp.oxmTypes) : ofp.nameToField d.name = some d :=
  find?_of_nodup ofp.names_nodup hd

theorem numToField_num (hd : d ∈ ofp.oxmTypes) : ofp.numToField d.num = some d :=
  find?_of_nodup ofp.nums_nodup hd

theorem fieldInfoByName_name (hd : d ∈ ofp.oxmTypes) :
    ofp.fieldInfoByName d.name = .ok (d.num, .known d.type) := by
  rw [fieldInfoByName, nameToField_name hd]

theorem fieldInfoByNumber_num (hd : d ∈ ofp.oxmTypes) :
    ofp.fieldInfoByNumber d.num = .ok (d.name, .known d.type) := by
  simp only [fieldInfoByNumber, numToField_num hd]

theorem makeExpHdr_num (hd : d ∈ ofp.oxmTypes) :
    ofp.makeExpHdr d.num = .ok (d.oxmType, d.expHdr) := by
  simp only [makeExpHdr, numToField_num hd]

theorem oxmToUserHeader_num (hd : d ∈ ofp.oxmTypes) : ofp.oxmToUserHeader d.num = .ok d.name := by
  rw [oxmToUserHeader, fieldInfoByNumber_num hd]
  rfl

/-- The header of a registered field. -/
theorem fieldHeader_eq_ok (hd : d ∈ ofp.oxmTypes) (h : ofp.fieldHeader d.name = .ok b) :
    ∃ w, headerWord d.oxmType 0 (d.expHdr.length + d.type.size) = .ok w ∧ b = w ++ d.expHdr := by
  have hn : ofp.oxmFromUserHeader d.name = .ok d.num := by
    rw [oxmFromUserHeader, fieldInfoByName_name hd]
    rfl
  rw [fieldHeader, hn] at h
  change ofp.oxmSerializeHeader d.num = _ at h
  rw [oxmSerializeHeader, makeExpHdr_num hd, numToField_num hd] at h
  dsimp only [bind, Except.bind] at h
  change headerWord d.oxmType 0 _ >>= _ = _ at h
  obtain ⟨w, hw, h⟩ := bind_eq_ok.1 h
  exact ⟨w, hw, (Except.ok.inj h).symm⟩

/-- A header is parsed as its field, whatever is behind it. -/
theorem oxmParseHeader_fieldHeader (hd : d ∈ ofp.oxmTypes) (h : ofp.fieldHeader d.name = .ok b)
    (r : List UInt8) : oxmParseHeader (b ++ r) 0 = .ok (d.num, b.length) := by
  obtain ⟨w, hw, rfl⟩ := fieldHeader_eq_ok hd h
  have hlen4 : w.length = 4 := by
    obtain ⟨-, rfl⟩ := packInto_eq_ok.1 hw
    exact length_toBytes _ _
  rw [List.append_assoc, oxmParseHeader_header (ofp.fits d hd) hw, List.length_append, hlen4]

/-- What a field is set to has the size of its type. -/
theorem oxmFromUser_size (hd : d ∈ ofp.oxmTypes) (h : ofp.oxmFromUser d.name uv = .ok (n, v, m)) :
    n = d.num ∧ v.length = d.type.size ∧ ∀ m' ∈ m, m'.length = d.type.size := by
  have hfrom : ∀ {value : Value} {x : List UInt8 × Option (List UInt8)},
      ofp.fromUser (.known d.type) value = .ok x →
        x.1.length = d.type.size ∧ ∀ m' ∈ x.2, m'.length = d.type.size := by
    intro value x hx
    obtain ⟨y, -, rfl⟩ := map_eq_ok.1 hx
    refine ⟨length_toBytes _ _, fun m' hm' => ?_⟩
    obtain ⟨k, -, rfl⟩ := Option.map_eq_some_iff.mp hm'
    exact length_toBytes _ _
  cases uv with
  | one value =>
    rw [oxmFromUser, fieldInfoByName_name hd] at h
    change ofp.fromUser (.known d.type) value >>= _ = _ at h
    obtain ⟨x, hx, h⟩ := bind_eq_ok.1 h
    obtain ⟨rfl, rfl⟩ : d.num = n ∧ x = (v, m) := by simpa using h
    exact ⟨rfl, hfrom hx⟩
  | pair value mask =>
    rw [oxmFromUser, fieldInfoByName_name hd] at h
    change ofp.fromUser (.known d.type) value >>= _ = _ at h
    obtain ⟨⟨v', _ | mv⟩, hv', h⟩ := bind_eq_ok.1 h
    · obtain ⟨⟨m', _ | mm⟩, hm', h⟩ := bind_eq_ok.1 h
      · obtain ⟨rfl, rfl, rfl⟩ : d.num = n ∧ v' = v ∧ some m' = m := by simpa using h
        refine ⟨rfl, (hfrom hv').1, fun k hk => ?_⟩
        obtain rfl := Option.some.inj hk
        exact (hfrom hm').1
      · cases h
    · obtain ⟨x, -, h⟩ := bind_eq_ok.1 h
      cases h

/-- A value in user form is read again. -/
theorem fromUser_toUser {type : OxmType} (hv : v.length = type.size) :
    ofp.fromUser (.known type) (ofp.toUser (.known type) v) = .ok (v, none) := by
  have hlt := ofBytes_lt v
  have hback : toBytes type.size (ofBytes v) = v := by
    rw [← hv]
    exact toBytes_ofBytes v
  rw [hv] at hlt
  cases type with
  | int size =>
    have hlt : ofBytes v < 256 ^ size := hlt
    have hmod : ((ofBytes v : ℤ) % (256 ^ size : ℕ)).toNat = ofBytes v := by
      rw [← Int.natCast_mod, Nat.mod_eq_of_lt hlt, Int.toNat_natCast]
    simp only [fromUser, toUser, Ryu.fromUser, hmod, hback, Except.map, Option.map_none]
  | addr kind =>
    simp only [fromUser, toUser, Ryu.fromUser, ofp.addr.text_bin hlt, hback, Except.map,
      Option.map_none]

/-- What a field is set to in user form is what was there. -/
theorem oxmFromUser_toUser (hd : d ∈ ofp.oxmTypes) (hv : v.length = d.type.size)
    (hm : ∀ m' ∈ m, m'.length = d.type.size) :
    ∃ uv, ofp.oxmToUser d.num v m = .ok (d.name, uv) ∧
      ofp.oxmFromUser d.name uv = .ok (d.num, v, m) := by
  have hacc : FieldType.accepts (.known d.type) v = true := decide_eq_true hv.symm
  rw [oxmToUser, fieldInfoByNumber_num hd]
  dsimp only [bind, Except.bind]
  rw [if_pos hacc]
  cases m with
  | none =>
    refine ⟨_, rfl, ?_⟩
    rw [oxmFromUser, fieldInfoByName_name hd]
    dsimp only [bind, Except.bind]
    rw [fromUser_toUser hv]
  | some m =>
    refine ⟨_, rfl, ?_⟩
    rw [oxmFromUser, fieldInfoByName_name hd]
    dsimp only [bind, Except.bind]
    rw [fromUser_toUser hv, fromUser_toUser (hm m rfl)]

/-- What is serialized of a registered field is parsed as its number, value and mask. -/
theorem oxmParse_oxmSerialize (hd : d ∈ ofp.oxmTypes) (hv : v.length = d.type.size)
    (hm : ∀ m' ∈ m, m'.length = d.type.size) (h : ofp.oxmSerialize d.num v m = .ok b)
    (r : List UInt8) : oxmParse (b ++ r) 0 = .ok ⟨d.num, v, m, b.length⟩ := by
  have hlen4 : ∀ {n hm len : ℕ} {w : List UInt8}, headerWord n hm len = .ok w → w.length = 4 := by
    intro n hm len w hw
    obtain ⟨-, rfl⟩ := packInto_eq_ok.1 hw
    exact length_toBytes _ _
  have hfits := ofp.fits d hd
  rw [oxmSerialize, makeExpHdr_num hd] at h
  dsimp only [bind, Except.bind] at h
  cases m with
  | none =>
    obtain ⟨w, hw, h⟩ := bind_eq_ok.1 h
    obtain rfl := Except.ok.inj h
    rw [List.append_assoc, List.append_assoc, oxmParse_value hfits hv hw]
    simp only [List.length_append, hlen4 hw]
  | some m =>
    have hsize := hm m rfl
    have hne : m ≠ [] := by
      rintro rfl
      exact hfits.size_pos.ne hsize
    rw [Option.filter_some, if_pos (decide_eq_true hne)] at h
    dsimp only at h
    rw [if_neg (not_not.mpr (hv.trans hsize.symm))] at h
    obtain ⟨w, hw, h⟩ := bind_eq_ok.1 h
    obtain rfl := Except.ok.inj h
    rw [List.append_assoc, List.append_assoc, List.append_assoc,
      oxmParse_masked hfits hv (hv.trans hsize.symm) hw]
    simp only [List.length_append, hlen4 hw, hv, hsize, mul_two]

end Ofp

end Registered

end Ryu.Ofproto13
