import Ryu.Lib.Items
import Ryu.Lib.Struct

/-! # TLVs of monitoring messages

The statistics and the pieces of information in the messages of `bmp`: a type, a length and a value,
which is a text, a number or octets as the type says. Serializing fills in the length. A statistic
of an unknown type is left out, and a piece of information of an unknown type has the value of the
one before it where a session is terminated.
-/

namespace Ryu.Packet.Bmp

open Bytes

/-- What `StreamParser.TooSmallException` stands for. -/
def tooSmall : PyError := .other "TooSmallException"

inductive TlvValue
  | text (s : String)
  | num (n : ℕ)
  | octets (b : List UInt8)
  deriving DecidableEq, Repr

structure Tlv where
  type : ℕ
  len : ℕ
  value : TlvValue
  deriving DecidableEq, Repr

/-- `encode('utf-8')`. -/
def encodeUtf8 (s : String) : List UInt8 := s.toUTF8.data.toList

/-- `decode('utf-8')`. -/
def decodeUtf8 (b : List UInt8) : Except PyError String :=
  match String.fromUTF8? ⟨b.toArray⟩ with
  | some s => .ok s
  | none => .error (.valueError "'utf-8' codec can't decode")

/-- The form of the values of a type. -/
inductive TlvForm
  | text
  | num (size : ℕ)
  | octets
  deriving DecidableEq, Repr

namespace TlvForm

def decode : TlvForm → List UInt8 → Except PyError TlvValue
  | text, b => (decodeUtf8 b).map .text
  | num size, b => (Format.unpackFrom [.num size] b).map fun x => .num x.1
  | octets, b => .ok (.octets b)

def encode : TlvForm → TlvValue → Except PyError (List UInt8)
  | text, .text s => .ok (encodeUtf8 s)
  | text, _ => .error (.attributeError "encode")
  | num size, .num n => packInto size n
  | num _, _ => .error structError
  | octets, .octets b => .ok b
  | octets, _ => .error (.typeError "can't concat")

/-- The length of a value is that of its form. -/
def Admits (len : ℕ) : TlvForm → Prop
  | num size => len = size
  | text | octets => True

end TlvForm

/-- The size of a known statistic. -/
def statSize (type : ℕ) : Option ℕ :=
  if type ∈ [0, 1, 2, 3, 4, 5, 6] then some 4
  else if type ∈ [7, 8, 14, 15] then some 8
  else none

def statForm (type : ℕ) : TlvForm :=
  match statSize type with
  | some size => .num size
  | none => .octets

def initiationForm (type : ℕ) : TlvForm := if type = 0 then .text else .octets

def terminationForm (type : ℕ) : TlvForm :=
  if type = 0 then .text else if type = 1 then .num 2 else .octets

@[reducible] def tlvPackStr : Format := [.num 2, .num 2]

/-- One round of the loops of the parsers. A type and a length are taken off, so that they end. -/
def tlvDecoder (form : ℕ → TlvForm) : Decoder PyError UInt8 Tlv where
  read buf :=
    if buf.length < tlvPackStr.calcsize then .error tooSmall
    else
      let (type, len, ()) := tlvPackStr.unpack buf
      if buf.length < tlvPackStr.calcsize + len then .error tooSmall
      else ((form type).decode ((buf.drop tlvPackStr.calcsize).take len)).map fun value =>
        (⟨type, len, value⟩, buf.drop (tlvPackStr.calcsize + len))
  read_lt := by
    intro b r t h
    split at h
    · cases h
    · next hlen =>
      simp only at h
      split at h
      · cases h
      · obtain ⟨value, -, heq⟩ := map_eq_ok.1 h
        obtain ⟨-, rfl⟩ := Prod.mk.inj heq
        simp only [Format.calcsize] at hlen
        simp only [List.length_drop, Format.calcsize]
        omega

/-- A statistic, with what is left of it. One of an unknown type is left out. -/
def writeStat (v : Tlv) : Except PyError (List UInt8 × Tlv) :=
  match statSize v.type with
  | none => .ok ([], v)
  | some size =>
    match v.value with
    | .num n => (Format.pack [.num 2, .num 2, .num size] (v.type, size, n, ())).map fun b =>
        (b, { v with len := size })
    | _ => .error structError

/-- A piece of information, with what is left of it. -/
def writeTlv (form : ℕ → TlvForm) (v : Tlv) : Except PyError (List UInt8 × Tlv) :=
  match (form v.type).encode v.value with
  | .error e => .error e
  | .ok value => (tlvPackStr.pack (v.type, value.length, ())).map fun hdr =>
      (hdr ++ value, { v with len := value.length })

/-- The loop where a session is terminated, with the value of the round before. -/
def writeTermination : Option (List UInt8) → List Tlv → Except PyError (List UInt8 × List Tlv)
  | _, [] => .ok ([], [])
  | last, v :: info =>
    let value := if v.type ∈ [0, 1] then ((terminationForm v.type).encode v.value).map some
      else .ok last
    match value with
    | .error e => .error e
    | .ok none => .error (.other "UnboundLocalError")
    | .ok (some value) =>
      match tlvPackStr.pack (v.type, value.length, ()) with
      | .error e => .error e
      | .ok hdr => (writeTermination (some value) info).map fun x =>
          (hdr ++ value ++ x.1, { v with len := value.length } :: x.2)

variable {form : ℕ → TlvForm} {f : TlvForm} {t t' : Tlv} {v : TlvValue} {b body r : List UInt8}
  {s : String} {info info' : List Tlv}

/-! ## Values -/

theorem decodeUtf8_eq_ok_iff : decodeUtf8 b = .ok s ↔ encodeUtf8 s = b := by
  rw [decodeUtf8, String.fromUTF8?, encodeUtf8]
  constructor
  · intro h
    split at h
    · next s' hs' =>
      split at hs'
      · obtain rfl := Except.ok.inj h
        obtain rfl := Option.some.inj hs'
        rfl
      · cases hs'
    · cases h
  · rintro rfl
    have hbytes : (⟨s.toUTF8.data.toList.toArray⟩ : ByteArray) = s.toByteArray := rfl
    have hvalid : (⟨s.toUTF8.data.toList.toArray⟩ : ByteArray).IsValidUTF8 := hbytes ▸ s.isValidUTF8
    rw [dif_pos hvalid]
    rfl

/-- A value is written to the octets it is read from, if they are as many as its form has. -/
theorem TlvForm.encode_eq_ok_iff :
    f.encode v = .ok b ↔ f.decode b = .ok v ∧ f.Admits b.length := by
  cases f with
  | text =>
    cases v with
    | text s =>
      simp only [encode, decode, Admits, map_eq_ok, TlvValue.text.injEq, exists_eq_right,
        decodeUtf8_eq_ok_iff, and_true, Except.ok.injEq]
    | num n | octets b => simp [encode, decode, map_eq_ok]
  | num size =>
    cases v with
    | num n =>
      have hread : Format.unpackFrom [.num size] b = .ok (n, ()) ↔
          n < 256 ^ size ∧ ∃ r, b = toBytes size n ++ r := by
        have hn : Format.Numeric [.num size] := trivial
        rw [Format.Numeric.unpackFrom_eq_ok_iff hn]
        simp [Format.Fits, Format.bytes]
      have hdecode : (num size).decode b = .ok (.num n) ↔
          Format.unpackFrom [.num size] b = .ok (n, ()) := by
        simp only [decode, map_eq_ok, TlvValue.num.injEq, Prod.exists, exists_and_right,
          exists_eq_right]
        exact ⟨fun ⟨_, h⟩ => h, fun h => ⟨(), h⟩⟩
      rw [hdecode, hread]
      constructor
      · intro h
        obtain ⟨hlt, rfl⟩ := packInto_eq_ok.1 h
        exact ⟨⟨hlt, [], by simp⟩, length_toBytes ..⟩
      · rintro ⟨⟨hlt, r, rfl⟩, hlen⟩
        have hr : r = [] := by simpa [Admits] using hlen
        exact packInto_eq_ok.2 ⟨hlt, by simp [hr]⟩
    | text s | octets b => simp [encode, decode, map_eq_ok]
  | octets =>
    cases v with
    | octets b => simp [encode, decode, Admits, eq_comm]
    | text s | num n => simp [encode, decode]

/-! ## Lists -/

theorem numeric_tlvPackStr : tlvPackStr.Numeric := trivial

/-- A type, a length and as many octets are read, of a value of the form of the type. -/
theorem read_eq_ok_iff : (tlvDecoder form).read b = .ok (t, r) ↔
    ∃ body, tlvPackStr.Fits (t.type, t.len, ()) ∧
      b = tlvPackStr.bytes (t.type, t.len, ()) ++ (body ++ r) ∧ body.length = t.len ∧
      (form t.type).decode body = .ok t.value := by
  have hhdr {vals : tlvPackStr.Values} (hf : tlvPackStr.Fits vals) :
      (tlvPackStr.bytes vals).length = tlvPackStr.calcsize := Format.length_bytes hf
  by_cases hlen : b.length < tlvPackStr.calcsize
  · constructor
    · intro h
      simp only [tlvDecoder, if_pos hlen] at h
      cases h
    · rintro ⟨body, hf, rfl, -⟩
      rw [List.length_append, hhdr hf] at hlen
      omega
  · have hread : tlvPackStr.unpackFrom b = .ok (tlvPackStr.unpack b) := if_neg hlen
    simp only [tlvDecoder, if_neg hlen]
    generalize tlvPackStr.unpack b = vals at hread
    obtain ⟨type, len, ⟨⟩⟩ := vals
    obtain ⟨hf, rest, rfl⟩ := (Format.Numeric.unpackFrom_eq_ok_iff numeric_tlvPackStr).mp hread
    have hdrop : (tlvPackStr.bytes (type, len, ()) ++ rest).drop tlvPackStr.calcsize = rest :=
      List.drop_left' (hhdr hf)
    have hshort : (tlvPackStr.bytes (type, len, ()) ++ rest).length < tlvPackStr.calcsize + len ↔
        rest.length < len := by
      rw [List.length_append, hhdr hf]
      omega
    simp only [← List.drop_drop, hdrop, hshort]
    constructor
    · intro h
      split at h
      · cases h
      · next hle =>
        obtain ⟨value, hvalue, heq⟩ := map_eq_ok.1 h
        obtain ⟨rfl, rfl⟩ := Prod.mk.inj heq
        refine ⟨rest.take len, hf, ?_, ?_, hvalue⟩
        · rw [List.take_append_drop]
        · exact List.length_take_of_le (not_lt.mp hle)
    · rintro ⟨body, hf', heq, hbody, hvalue⟩
      have hread' : tlvPackStr.unpackFrom (tlvPackStr.bytes (type, len, ()) ++ rest) =
          .ok (t.type, t.len, ()) :=
        (Format.Numeric.unpackFrom_eq_ok_iff numeric_tlvPackStr).mpr ⟨hf', _, heq⟩
      obtain ⟨htype, hlen', -⟩ : type = t.type ∧ len = t.len ∧ True := by
        simpa using Except.ok.inj (hread.symm.trans hread')
      subst htype hlen'
      obtain rfl := List.append_cancel_left heq
      have hle : ¬ (body ++ r).length < t.len := by
        rw [List.length_append, hbody]
        omega
      rw [if_neg hle, List.take_left' hbody, List.drop_left' hbody, hvalue]
      rfl

/-- What is written of a piece of information is read back. -/
theorem read_writeTlv (h : writeTlv form t = .ok (b, t')) (r : List UInt8) :
    (tlvDecoder form).read (b ++ r) = .ok (t', r) := by
  rw [writeTlv] at h
  split at h
  · cases h
  · next value hvalue =>
    obtain ⟨hdr, hpack, heq⟩ := map_eq_ok.1 h
    obtain ⟨rfl, rfl⟩ := Prod.mk.inj heq
    obtain ⟨hf, rfl⟩ := Format.pack_eq_ok_iff.mp hpack
    obtain ⟨hdecode, -⟩ := TlvForm.encode_eq_ok_iff.1 hvalue
    exact read_eq_ok_iff.2 ⟨value, hf, List.append_assoc .., rfl, hdecode⟩

/-- What is read of the length that its form has is written again. -/
theorem writeTlv_of_read (h : (tlvDecoder form).read b = .ok (t, r))
    (hlen : (form t.type).Admits t.len) : ∃ w, writeTlv form t = .ok (w, t) ∧ b = w ++ r := by
  obtain ⟨body, hf, rfl, hbody, hdecode⟩ := read_eq_ok_iff.1 h
  have hencode := TlvForm.encode_eq_ok_iff.2 ⟨hdecode, hbody ▸ hlen⟩
  refine ⟨tlvPackStr.bytes (t.type, t.len, ()) ++ body, ?_, (List.append_assoc ..).symm⟩
  rw [writeTlv, hencode]
  simp only [hbody, Format.pack_bytes hf]
  rfl

theorem lt_of_statSize {type size : ℕ} (h : statSize type = some size) :
    type < 256 ^ 2 ∧ size < 256 ^ 2 := by
  unfold statSize at h
  split_ifs at h with hfour height
  · obtain rfl := Option.some.inj h
    simp only [List.mem_cons, List.not_mem_nil, or_false] at hfour
    omega
  · obtain rfl := Option.some.inj h
    simp only [List.mem_cons, List.not_mem_nil, or_false] at height
    omega

/-- A known statistic is written as a piece of information. -/
theorem writeStat_eq (h : statSize t.type ≠ none) : writeStat t = writeTlv statForm t := by
  obtain ⟨size, hsize⟩ := Option.ne_none_iff_exists'.mp h
  have hform : statForm t.type = .num size := by rw [statForm, hsize]
  rw [writeStat, writeTlv, hsize, hform]
  cases t.value with
  | num n =>
    obtain ⟨htype, hlt⟩ := lt_of_statSize hsize
    have htype' : packInto 2 t.type = .ok (toBytes 2 t.type) := if_pos htype
    have hsize' : packInto 2 size = .ok (toBytes 2 size) := if_pos hlt
    by_cases hn : n < 256 ^ size
    · have hn' : packInto size n = .ok (toBytes size n) := if_pos hn
      simp [TlvForm.encode, Format.pack, htype', hsize', hn', Except.map]
    · have hn' : packInto size n = .error structError := if_neg hn
      simp [TlvForm.encode, Format.pack, htype', hsize', hn', Except.map]
  | text s => rfl
  | octets b => rfl

/-- Where all types are known, the value of the round before is never used. -/
theorem writeTermination_eq {last : Option (List UInt8)} (h : ∀ t ∈ info, t.type ∈ [0, 1]) :
    writeTermination last info = writeEach (writeTlv terminationForm) info := by
  induction info generalizing last with
  | nil => rfl
  | cons t info ih =>
    obtain ⟨ht, h⟩ := List.forall_mem_cons.mp h
    rw [writeTermination, writeEach, if_pos ht, writeTlv]
    cases hencode : (terminationForm t.type).encode t.value with
    | error e => rfl
    | ok value =>
      simp only [Except.map, ih h]
      cases tlvPackStr.pack (t.type, value.length, ()) with
      | error e => rfl
      | ok hdr => rfl

end Ryu.Packet.Bmp
