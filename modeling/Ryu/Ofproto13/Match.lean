import Ryu.Lib.Scan
import Ryu.Lib.Struct

/-! # The match of an OpenFlow 1.3 message

A parser returns, raises or does not end, and returns what later code reads of the object it
makes: a length, or nothing. The match of a message is read twice, by the parser of the old
interface and by that of the new one. Each moves over a field by four octets and the length
octet of its header, so that both end, whatever the octets are.
-/

namespace Ryu.Ofproto13

open Prog

abbrev Parse := Prog PyError

/-- `struct.unpack_from`, at an offset. -/
def unpackFrom (fmt : Format) (buf : List UInt8) (offset : ℕ) : Except PyError fmt.Values :=
  fmt.unpackFrom (buf.drop offset)

/-- An entry that is only unpacked has the length of its class. -/
def unpackedEntry (fmt : Format) (len : ℕ) (buf : List UInt8) (offset : ℕ) : Except PyError ℕ := do
  let _ ← unpackFrom fmt buf offset
  .ok len

/-- `utils.round_up`. -/
def roundUp (x y : ℕ) : ℕ := (x + y - 1) / y * y

/-- `try` with `except struct.error`: whether it was raised. -/
def raisesStructError {α : Type} (x : Parse α) : Parse Bool :=
  tryCatch (x >>= fun _ => pure false) fun e => if e = structError then pure true else throw e

def ofpTruncatedMessage : PyError := .other "OFPTruncatedMessage"

/-- The number of a field: its class and field, or an experimenter and its type. -/
inductive OxmNum
  | basic (n : ℕ)
  | experimenter (id type_ : ℕ)
  deriving DecidableEq, Repr

/-- What is registered when the modules are loaded. -/
structure Registry where
  /-- `num_to_field`, the sizes of the types of the fields. -/
  numToField : OxmNum → Option ℕ
  /-- `OFPMatchField._FIELDS_HEADERS`, what the classes unpack behind the header. -/
  fieldsHeaders : ℕ → Option Format
  /-- `NXAction._subtypes`, those whose parsers have no `while`. -/
  nxSubtypes : ℕ → Option (List UInt8 → Except PyError Unit)

def ofpxxcExperimenter : ℕ := 0xffff

def onfExperimenterId : ℕ := 0x4f4e4600

/-- What `_parse_header_impl` finds. -/
structure OxmHeader where
  num : OxmNum
  totalHdrLen : ℕ
  hasmask : Bool
  valueLen : ℕ
  fieldLen : ℕ

/-- The number of a field, and how long its experimenter header is. -/
def oxmNum (buf : List UInt8) (offset oxxType : ℕ) : Except PyError (OxmNum × ℕ) :=
  if oxxType >>> 7 = ofpxxcExperimenter then do
    let (expId, _) ← unpackFrom [.num 4] buf (offset + 4)
    if expId = onfExperimenterId ∧ oxxType &&& 0x7f = 0 then do
      let (expType, _) ← unpackFrom [.num 2] buf (offset + 4 + 4)
      .ok (.experimenter expId expType, 6)
    else .ok (.experimenter expId oxxType, 4)
  else .ok (.basic oxxType, 0)

/-- How long the value is, of what the header counts. -/
def oxmValueLen (hasmask : Bool) (oxxLength expHdrLen : ℕ) : ℤ :=
  if hasmask then (oxxLength - expHdrLen : ℤ) / 2 else oxxLength - expHdrLen

def parseHeaderImpl (buf : List UInt8) (offset : ℕ) : Except PyError OxmHeader := do
  let (header, _) ← unpackFrom [.num 4] buf offset
  let hasmask : Bool := (header >>> 8) &&& 1 = 1
  let oxxLength := header &&& 0xff
  let (num, expHdrLen) ← oxmNum buf offset (header >>> 9)
  let valueLen := oxmValueLen hasmask oxxLength expHdrLen
  if valueLen ≤ 0 then .error .assertionError
  else .ok ⟨num, 4 + expHdrLen, hasmask, valueLen.toNat, 4 + oxxLength⟩

/-- `oxm_parse_header`: the number, and the length of what precedes the value. -/
def oxmParseHeader (buf : List UInt8) (offset : ℕ) : Except PyError (OxmNum × ℕ) := do
  let h ← parseHeaderImpl buf offset
  .ok (h.num, h.fieldLen - h.valueLen)

structure Oxm where
  num : OxmNum
  value : List UInt8
  mask : Option (List UInt8)
  fieldLen : ℕ

/-- `oxm_parse`. -/
def oxmParse (buf : List UInt8) (offset : ℕ) : Except PyError Oxm := do
  let h ← parseHeaderImpl buf offset
  let valueOffset := offset + h.totalHdrLen
  let (value, _) ← unpackFrom [.str h.valueLen] buf valueOffset
  if h.hasmask then do
    let (mask, _) ← unpackFrom [.str h.valueLen] buf (valueOffset + h.valueLen)
    .ok ⟨h.num, value, some mask, h.fieldLen⟩
  else .ok ⟨h.num, value, none, h.fieldLen⟩

variable (reg : Registry)

/-- `oxm_to_user`. The value for the user is a pair if there is a mask. -/
def oxmToUser (o : Oxm) : Except PyError Bool :=
  match reg.numToField o.num, o.num with
  | some size, _ =>
    if size ≠ o.value.length then .error (.other "Unexpected OXM payload length")
    else .ok o.mask.isSome
  | none, .basic _ => .ok o.mask.isSome
  | none, .experimenter .. => .error (.keyError "unknown OXM field number")

/-- `oxm_to_user_header`. -/
def oxmToUserHeader (num : OxmNum) : Except PyError Unit :=
  match reg.numToField num, num with
  | none, .experimenter .. => .error (.keyError "unknown OXM field number")
  | _, _ => .ok ()

/-- `OFPMatchField.parser`, the length of the field. -/
def OFPMatchField.parser (buf : List UInt8) (offset : ℕ) : Except PyError ℕ := do
  let (header, _) ← unpackFrom [.num 4] buf offset
  match reg.fieldsHeaders header with
  | some fmt => do
    let _ ← unpackFrom fmt buf (offset + 4)
    .ok ((header &&& 0xff) + 4)
  | none => .ok ((header &&& 0xff) + 4)

namespace OFPMatch

/-- `parser_old`. -/
def parserOld (buf : List UInt8) (offset : ℕ) (length : ℤ) : Parse (ℕ × ℤ) :=
  Cursor.counted.scan (fun s => .of (OFPMatchField.parser reg buf s.1)) (offset, length)

/-- A field of the new interface. -/
def field (buf : List UInt8) (offset : ℕ) : Except PyError ℕ := do
  let o ← oxmParse buf offset
  let _ ← oxmToUser reg o
  .ok o.fieldLen

/-- The length of the match. -/
def parser (buf : List UInt8) (offset : ℕ) : Parse ℕ := do
  let (_, length, _) ← .of (unpackFrom [.num 2, .num 2] buf offset)
  let old ← raisesStructError (parserOld reg buf (offset + 4) (length - 4))
  let new ← raisesStructError
    (Cursor.counted.scan (fun s => .of (field reg buf s.1)) (offset + 4, (length - 4 : ℤ)))
  if old || new then throw ofpTruncatedMessage else pure length

end OFPMatch

variable {reg} {buf : List UInt8} {offset n : ℕ}

@[simp] theorem ends_raisesStructError {α : Type} {x : Parse α} :
    (raisesStructError x).Ends ↔ x.Ends := by
  have hhandle : ∀ e, (if e = structError then pure true else throw e : Parse Bool).Ends := by
    intro e
    split
    · exact ends_pure _
    · exact ends_throw e
  simp only [raisesStructError, ends_tryCatch_iff, ends_bind_iff, ends_pure, implies_true, hhandle,
    and_true]

theorem exists_unpackFrom_iff {fmt : Format} (h : 0 < fmt.calcsize) :
    (∃ vals, unpackFrom fmt buf offset = .ok vals) ↔ offset + fmt.calcsize ≤ buf.length := by
  unfold unpackFrom Format.unpackFrom
  rw [List.length_drop]
  split
  · next hlt =>
    refine iff_of_false ?_ (by omega)
    rintro ⟨vals, hvals⟩
    cases hvals
  · exact iff_of_true ⟨_, rfl⟩ (by omega)

theorem moves_unpackedEntry {fmt : Format} {len : ℕ} (h : len ≠ 0) :
    Moves (of (unpackedEntry fmt len buf offset)) := by
  refine moves_of.2 fun hp => ?_
  obtain ⟨_, -, hp⟩ := bind_eq_ok.1 hp
  exact h (Except.ok.inj hp)

theorem parseHeaderImpl_fieldLen {h : OxmHeader} (hp : parseHeaderImpl buf offset = .ok h) :
    4 ≤ h.fieldLen := by
  obtain ⟨⟨header, _⟩, -, hp⟩ := bind_eq_ok.1 hp
  obtain ⟨⟨num, expHdrLen⟩, -, hp⟩ := bind_eq_ok.1 hp
  dsimp only at hp
  split at hp
  · cases hp
  · obtain rfl := Except.ok.inj hp
    exact Nat.le_add_right 4 _

theorem oxmParse_fieldLen {o : Oxm} (hp : oxmParse buf offset = .ok o) : 4 ≤ o.fieldLen := by
  obtain ⟨h, hh, hp⟩ := bind_eq_ok.1 hp
  obtain ⟨⟨value, _⟩, -, hp⟩ := bind_eq_ok.1 hp
  have hlen := parseHeaderImpl_fieldLen hh
  dsimp only at hp
  split at hp
  · obtain ⟨⟨mask, _⟩, -, hp⟩ := bind_eq_ok.1 hp
    obtain rfl := Except.ok.inj hp
    exact hlen
  · obtain rfl := Except.ok.inj hp
    exact hlen

theorem OFPMatchField.parser_pos (h : OFPMatchField.parser reg buf offset = .ok n) : 4 ≤ n := by
  obtain ⟨⟨header, _⟩, -, h⟩ := bind_eq_ok.1 h
  dsimp only at h
  split at h
  · obtain ⟨vals, -, h⟩ := bind_eq_ok.1 h
    obtain rfl := Except.ok.inj h
    exact Nat.le_add_left 4 _
  · obtain rfl := Except.ok.inj h
    exact Nat.le_add_left 4 _

namespace OFPMatch

theorem field_pos (h : field reg buf offset = .ok n) : 4 ≤ n := by
  obtain ⟨o, ho, h⟩ := bind_eq_ok.1 h
  obtain ⟨pair, -, h⟩ := bind_eq_ok.1 h
  obtain rfl := Except.ok.inj h
  exact oxmParse_fieldLen ho

theorem ends_parserOld (buf : List UInt8) (offset : ℕ) (length : ℤ) :
    (parserOld reg buf offset length).Ends := by
  refine Cursor.ends_scan (fun s => moves_of.2 fun h0 => ?_) _
  have hpos := OFPMatchField.parser_pos h0
  omega

/-- No match makes the parser hang. -/
theorem parser_ends (buf : List UInt8) (offset : ℕ) : (parser reg buf offset).Ends := by
  have hnew : ∀ s, (Cursor.counted.scan (fun s => of (field reg buf s.1)) s).Ends := by
    refine Cursor.ends_scan fun s => moves_of.2 fun h0 => ?_
    have hpos := field_pos h0
    omega
  rw [parser, ends_bind_iff]
  refine ⟨ends_of _, fun ⟨_, length, _⟩ _ => ?_⟩
  refine ends_bind_iff.2 ⟨ends_raisesStructError.2 (ends_parserOld _ _ _), fun old _ => ?_⟩
  refine ends_bind_iff.2 ⟨ends_raisesStructError.2 (hnew _), fun new _ => ?_⟩
  split
  · exact ends_throw _
  · exact ends_pure _

end OFPMatch

end Ryu.Ofproto13
