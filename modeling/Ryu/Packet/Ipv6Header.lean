import Mathlib.Data.List.Basic
import Ryu.Lib.BitFields
import Ryu.Lib.Span
import Ryu.Lib.Struct

/-! # Extension headers of IPv6

Options, source routes, fragments and authentication. The length of a header is computed from its
field, whatever is serialized: the options of a header need not fill its size, and the padding of a
source route is counted and not written.
-/

namespace Ryu.Packet.Ipv6

open Bytes

/-- An `option`. -/
structure Opt where
  type : ℕ
  len : ℤ
  data : Option (List UInt8)
  deriving DecidableEq, Repr

/-- What `hop_opts` and `dst_opts` have of `opt_header`. -/
structure OptHeader where
  nxt : ℕ
  size : ℕ
  data : Option (List Opt)
  deriving DecidableEq, Repr

structure RoutingType3 where
  nxt : ℕ
  size : ℕ
  type : ℕ
  seg : ℕ
  cmpi : ℕ
  cmpe : ℕ
  adrs : List (BitVec 128)
  deriving DecidableEq, Repr

structure Fragment where
  nxt : ℕ
  offset : ℕ
  more : ℕ
  id : ℕ
  deriving DecidableEq, Repr

structure Auth where
  nxt : ℕ
  size : ℕ
  spi : ℕ
  seq : ℕ
  data : List UInt8
  deriving DecidableEq, Repr

inductive ExtHeader
  | hopOpts (o : OptHeader)
  | dstOpts (o : OptHeader)
  | routing (r : RoutingType3)
  | fragment (f : Fragment)
  | auth (a : Auth)
  deriving DecidableEq, Repr

namespace Opt

@[reducible] def packStr : Format := [.num 1, .num 1]

/-- `parser`. An option of type zero is a single octet. -/
def parser (buf : List UInt8) : Except PyError Opt :=
  match Format.unpackFrom [.num 1] buf with
  | .error e => .error e
  | .ok (type, ()) =>
    if type = 0 then .ok ⟨type, -1, none⟩
    else
      match packStr.unpackFrom buf with
      | .error e => .error e
      | .ok (type, len, ()) =>
        if len = 0 then .ok ⟨type, len, none⟩
        else (Format.unpackFrom [.str len] (buf.drop packStr.calcsize)).map fun x =>
          ⟨type, len, some x.1⟩

/-- `serialize`. A negative size is no format, and `None` is no string. -/
def serialize (o : Opt) : Except PyError (List UInt8) :=
  if o.type = 0 then Format.pack [.num 1] (o.type, ())
  else if o.len = 0 then packStr.pack (o.type, 0, ())
  else
    match o.data with
    | none => .error structError
    | some data =>
      if o.len < 0 then .error structError
      else Format.pack [.num 1, .num 1, .str o.len.toNat] (o.type, o.len.toNat, data, ())

/-- `__len__`. -/
def size (o : Opt) : ℤ := packStr.calcsize + o.len

/-- An option as the parser makes it. -/
def Normal (o : Opt) : Prop :=
  if o.type = 0 then o.len = -1 ∧ o.data = none
  else o.type < 256 ∧ o.len < 256 ∧ o.len = (o.data.getD []).length ∧ o.data ≠ some []

def wire (o : Opt) : List UInt8 :=
  if o.type = 0 then [0] else packStr.bytes (o.type, o.len.toNat, ()) ++ o.data.getD []

end Opt

namespace OptHeader

@[reducible] def packStr : Format := [.num 1, .num 1]

def fixSize : ℕ := 8

/-- `__len__`. -/
def len (o : OptHeader) : ℕ := fixSize + o.size

/-- `parser`. The constructor asserts that the size is of whole units. -/
def parser (buf : List UInt8) : Except PyError OptHeader :=
  match packStr.unpackFrom buf with
  | .error e => .error e
  | .ok (nxt, len, ()) =>
    let span := fixSize + len - packStr.calcsize
    match readSpan Opt.parser (fun o => o.size.toNat) span span (buf.drop packStr.calcsize) with
    | .error e => .error e
    | .ok (data, _) =>
      if len % 8 = 0 then .ok ⟨nxt, len, some data⟩ else .error .assertionError

/-- The options that are serialized. -/
def options (o : OptHeader) : List Opt := o.data.getD [⟨1, 4, some [0, 0, 0, 0]⟩]

/-- The header as it is left by `serialize`. -/
def written (o : OptHeader) : OptHeader := { o with data := some o.options }

def serialize (o : OptHeader) : Except PyError (List UInt8 × OptHeader) :=
  match packStr.pack (o.nxt, o.size, ()) with
  | .error e => .error e
  | .ok buf => (writeAll Opt.serialize o.options).map fun b => (buf ++ b, o.written)

/-- The size is of whole units and filled by the options. -/
def Readable (o : OptHeader) : Prop :=
  o.nxt < 256 ∧ o.size < 256 ∧ o.size % 8 = 0 ∧ (∀ x ∈ o.options, x.Normal) ∧
    (o.options.flatMap Opt.wire).length = 6 + o.size

def wire (o : OptHeader) : List UInt8 :=
  packStr.bytes (o.nxt, o.size, ()) ++ o.options.flatMap Opt.wire

end OptHeader

namespace RoutingType3

/-- `!BBBBBB2x`. -/
@[reducible] def packStr : Format := [.num 1, .num 1, .num 1, .num 1, .num 1, .num 1, .pad 2]

/-- `_get_size`, of the size field. -/
def getSize (size : ℕ) : ℕ := (size + 1) * 8

/-- `__len__`. -/
def len (r : RoutingType3) : ℕ := getSize r.size

/-- `_pad`, which the constructor computes. -/
def pad (r : RoutingType3) : ℤ :=
  (8 - ((r.adrs.length - 1) * (16 - r.cmpi) + (16 - r.cmpe) % 8)) % 8

/-- The size, computed where it is zero. -/
def filled (r : RoutingType3) : ℤ :=
  if r.size = 0 then ((r.adrs.length - 1) * (16 - r.cmpi) + (16 - r.cmpe) + r.pad) / 8
  else r.size

/-- An address without its first `cmp` octets. -/
def packAdr (cmp : ℕ) (adr : BitVec 128) : Except PyError (List UInt8) :=
  if 16 < cmp then .error structError else .ok ((toBytes 16 adr.toNat).drop cmp)

/-- The addresses, of which the last one has a compression of its own. -/
def packAdrs (r : RoutingType3) : Except PyError (List UInt8) :=
  match writeAll (packAdr r.cmpi) r.adrs.dropLast with
  | .error e => .error e
  | .ok b =>
    match r.adrs.getLast? with
    | none => .error (.other "IndexError")
    | some adr => (packAdr r.cmpe adr).map (b ++ ·)

/-- `serialize`, with what is left of the header. -/
def serialize (r : RoutingType3) : Except PyError (List UInt8 × RoutingType3) :=
  if r.filled < 0 then .error structError
  else
    let size := r.filled.toNat
    match packStr.pack (r.nxt, size, r.type, r.seg, r.cmpi <<< 4 ||| r.cmpe,
        r.pad.toNat <<< 4, ()) with
    | .error e => .error e
    | .ok buf =>
      (if size = 0 then .ok [] else r.packAdrs).map fun b => (buf ++ b, { r with size })

/-- An address of which `len` octets are read, behind zeros. -/
def readAdr (len : ℕ) (buf : List UInt8) : Except PyError (BitVec 128) :=
  (Format.unpackFrom [.str len] buf).map fun x => BitVec.ofNat 128 (ofBytes x.1)

def parser (buf : List UInt8) : Except PyError RoutingType3 :=
  match packStr.unpackFrom buf with
  | .error e => .error e
  | .ok (nxt, size, type, seg, cmp, pad, ()) =>
    let cmpi := cmp >>> 4
    let cmpe := cmp &&& 0xf
    let pad := pad >>> 4
    if size = 0 then .ok ⟨nxt, size, type, seg, cmpi, cmpe, []⟩
    else
      let span := getSize size - (16 - cmpe + pad) - packStr.calcsize
      match readSpan (readAdr (16 - cmpi)) (fun _ => 16 - cmpi) span span
          (buf.drop packStr.calcsize) with
      | .error e => .error e
      | .ok (adrs, rest) =>
        (readAdr (16 - cmpe) rest).map fun adr =>
          ⟨nxt, size, type, seg, cmpi, cmpe, adrs ++ [adr]⟩

/-- The octets of the addresses. -/
def octets (r : RoutingType3) : ℕ := r.adrs.dropLast.length * (16 - r.cmpi) + (16 - r.cmpe)

/-- The addresses have the zeros that are left out, and need no padding. Without addresses there is
nothing behind the header. -/
def Readable (r : RoutingType3) : Prop :=
  r.nxt < 256 ∧ r.type = 3 ∧ r.seg < 256 ∧ r.cmpi < 16 ∧ r.cmpe < 16 ∧
    match r.adrs.getLast? with
    | none => r.size = 0 ∧ r.cmpi ≤ r.cmpe ∧ r.cmpe < r.cmpi + 8
    | some adr =>
      (∀ a ∈ r.adrs.dropLast, a.toNat < 256 ^ (16 - r.cmpi)) ∧ adr.toNat < 256 ^ (16 - r.cmpe) ∧
        r.octets % 8 = 0 ∧ r.octets < 8 * 256 ∧ (r.size = 0 ∨ 8 * r.size = r.octets)

end RoutingType3

namespace Fragment

/-- `!BxHI`. -/
@[reducible] def packStr : Format := [.num 1, .pad 1, .num 2, .num 4]

def parser (buf : List UInt8) : Except PyError Fragment :=
  (packStr.unpackFrom buf).map fun (nxt, offM, id, ()) => ⟨nxt, offM >>> 3, offM &&& 1, id⟩

def values (f : Fragment) : packStr.Values := (f.nxt, f.offset <<< 3 ||| f.more, f.id, ())

def serialize (f : Fragment) : Except PyError (List UInt8) := packStr.pack f.values

/-- The offset is one of thirteen bits, and `more` is a bit. -/
def Readable (f : Fragment) : Prop :=
  f.nxt < 256 ∧ f.offset < 2 ^ 13 ∧ f.more < 2 ∧ f.id < 256 ^ 4

end Fragment

namespace Auth

/-- `!BB2xII`. -/
@[reducible] def packStr : Format := [.num 1, .num 1, .pad 2, .num 4, .num 4]

/-- `_get_size`, of the size field. -/
def getSize (size : ℕ) : ℕ := (size + 2) * 4

/-- `__len__`. -/
def len (a : Auth) : ℕ := getSize a.size

/-- `parser`. The string behind the numbers may have a negative size. -/
def parser (buf : List UInt8) : Except PyError Auth :=
  match packStr.unpackFrom buf with
  | .error e => .error e
  | .ok (nxt, size, spi, seq, ()) =>
    if getSize size < packStr.calcsize then .error structError
    else
      (Format.unpackFrom [.str (getSize size - packStr.calcsize)]
        (buf.drop packStr.calcsize)).map fun x => ⟨nxt, size, spi, seq, x.1⟩

def serialize (a : Auth) : Except PyError (List UInt8) :=
  match packStr.pack (a.nxt, a.size, a.spi, a.seq, ()) with
  | .error e => .error e
  | .ok buf =>
    if getSize a.size < packStr.calcsize then .error structError
    else
      (Format.pack [.str (getSize a.size - packStr.calcsize)] (a.data, ())).map (buf ++ ·)

/-- The data has the size of the header. -/
def Readable (a : Auth) : Prop :=
  a.nxt < 256 ∧ a.size < 256 ∧ a.spi < 256 ^ 4 ∧ a.seq < 256 ^ 4 ∧
    packStr.calcsize + a.data.length = getSize a.size

end Auth

namespace ExtHeader

/-- The type that a class is registered for. -/
def type : ExtHeader → ℕ
  | hopOpts _ => 0
  | dstOpts _ => 60
  | routing _ => 43
  | fragment _ => 44
  | auth _ => 51

def nxt : ExtHeader → ℕ
  | hopOpts o | dstOpts o => o.nxt
  | routing r => r.nxt
  | fragment f => f.nxt
  | auth a => a.nxt

/-- `__len__`. -/
def len : ExtHeader → ℕ
  | hopOpts o | dstOpts o => o.len
  | routing r => r.len
  | fragment _ => Fragment.packStr.calcsize
  | auth a => a.len

/-- The octets of a header, with what is left of it. -/
def serialize : ExtHeader → Except PyError (List UInt8 × ExtHeader)
  | hopOpts o => o.serialize.map fun x => (x.1, hopOpts x.2)
  | dstOpts o => o.serialize.map fun x => (x.1, dstOpts x.2)
  | routing r => r.serialize.map fun x => (x.1, routing x.2)
  | fragment f => f.serialize.map (·, fragment f)
  | auth a => a.serialize.map (·, auth a)

/-- `routing.parser`, which has no class for another type than the third. The `None` it returns
then has no length. -/
def routingParser (buf : List UInt8) : Except PyError RoutingType3 :=
  match Format.unpackFrom [.num 1] (buf.drop 2) with
  | .error e => .error e
  | .ok (type, ()) =>
    if type = 3 then RoutingType3.parser buf
    else .error (.typeError "object of type 'NoneType' has no len()")

/-- `_IPV6_EXT_HEADER_TYPE`. -/
def parserOf : ℕ → Option (List UInt8 → Except PyError ExtHeader)
  | 0 => some fun buf => (OptHeader.parser buf).map hopOpts
  | 43 => some fun buf => (routingParser buf).map routing
  | 44 => some fun buf => (Fragment.parser buf).map fragment
  | 51 => some fun buf => (Auth.parser buf).map auth
  | 60 => some fun buf => (OptHeader.parser buf).map dstOpts
  | _ => none

/-- The header is read back from what is serialized. -/
def Readable : ExtHeader → Prop
  | hopOpts o | dstOpts o => o.Readable
  | routing r => r.Readable
  | fragment f => f.Readable
  | auth a => a.Readable

end ExtHeader

/-! ## What is serialized is read back -/

/-- What is serialized has the length that is left of it, and is read back whatever is behind. -/
def ReadBack {α : Type} (serialized : Except PyError (List UInt8 × α))
    (parser : List UInt8 → Except PyError α) (len : α → ℕ) : Prop :=
  ∃ b a, serialized = .ok (b, a) ∧ b.length = len a ∧ ∀ r, parser (b ++ r) = .ok a

theorem map_map {ε α β γ : Type} (x : Except ε α) (f : α → β) (g : β → γ) :
    (x.map f).map g = x.map fun a => g (f a) := by
  cases x <;> rfl

theorem ReadBack.map {α β : Type} {serialized : Except PyError (List UInt8 × α)}
    {parser : List UInt8 → Except PyError α} {len : α → ℕ} {len' : β → ℕ}
    (h : ReadBack serialized parser len) (f : α → β) (hlen : ∀ a, len' (f a) = len a) :
    ReadBack (serialized.map fun x => (x.1, f x.2)) (fun buf => (parser buf).map f) len' := by
  obtain ⟨b, a, rfl, hb, hread⟩ := h
  exact ⟨b, f a, rfl, hb.trans (hlen a).symm, fun r => congrArg (Except.map f) (hread r)⟩

namespace Opt

variable {o : Opt}

theorem wire_ne_nil (o : Opt) : o.wire ≠ [] := by
  rw [wire]
  split_ifs
  · exact List.cons_ne_nil _ _
  · exact List.cons_ne_nil _ _

theorem serialize_of_normal (h : o.Normal) : o.serialize = .ok o.wire := by
  obtain ⟨type, len, data⟩ := o
  by_cases htype : type = 0
  · have hfits : Format.Fits [.num 1] (0, ()) := ⟨by decide, trivial⟩
    subst htype
    rw [serialize, if_pos rfl, wire, if_pos rfl, Format.pack_bytes hfits]
    rfl
  · rw [Normal, if_neg htype] at h
    obtain ⟨htype', hlt, hlen, hdata⟩ := h
    rw [serialize, if_neg htype, wire, if_neg htype]
    simp only at htype' hlt hlen hdata ⊢
    cases data with
    | none =>
      obtain rfl : len = 0 := hlen
      have hfits : packStr.Fits (type, 0, ()) := ⟨htype', by decide, trivial⟩
      rw [if_pos rfl, Format.pack_bytes hfits]
      exact congrArg Except.ok (List.append_nil _).symm
    | some data =>
      obtain rfl : len = (data.length : ℤ) := hlen
      have hpos : data.length ≠ 0 := by
        rw [Ne, List.length_eq_zero_iff]
        rintro rfl
        exact hdata rfl
      have hfits : Format.Fits [.num 1, .num 1, .str data.length] (type, data.length, data, ()) :=
        ⟨htype', by omega, trivial⟩
      have hpad : padRight (data.take data.length) data.length = data := by
        rw [List.take_length, padRight, Nat.sub_self, List.replicate_zero, List.append_nil]
      rw [if_neg (by omega)]
      simp only
      rw [if_neg (by omega), Int.toNat_natCast, Format.pack_bytes hfits]
      simp only [Format.bytes, hpad, Option.getD_some, List.append_assoc, List.append_nil]

theorem parser_wire (h : o.Normal) (r : List UInt8) : parser (o.wire ++ r) = .ok o := by
  obtain ⟨type, len, data⟩ := o
  by_cases htype : type = 0
  · rw [Normal, if_pos htype] at h
    obtain ⟨hlen, hdata⟩ := h
    simp only at hlen hdata
    subst htype hlen hdata
    have hfits : Format.Fits [.num 1] (0, ()) := ⟨by decide, trivial⟩
    rw [parser, wire, if_pos rfl]
    have hread := Format.unpackFrom_bytes hfits trivial r
    rw [show Format.bytes [.num 1] (0, ()) = [0] from rfl] at hread
    rw [hread]
    rfl
  · rw [Normal, if_neg htype] at h
    obtain ⟨htype', hlt, hlen, hdata⟩ := h
    simp only at htype' hlt hlen hdata
    have hfits : packStr.Fits (type, len.toNat, ()) := ⟨htype', by omega, trivial⟩
    have hone : Format.Fits [.num 1] (type, ()) := ⟨htype', trivial⟩
    have hfirst : Format.unpackFrom [.num 1]
        (packStr.bytes (type, len.toNat, ()) ++ (data.getD [] ++ r)) = .ok (type, ()) := by
      have hread := Format.unpackFrom_bytes hone trivial
        (Format.bytes [.num 1] (len.toNat, ()) ++ (data.getD [] ++ r))
      simpa [Format.bytes] using hread
    rw [parser, wire, if_neg htype, List.append_assoc, hfirst]
    simp only
    rw [if_neg htype, Format.unpackFrom_bytes hfits trivial]
    simp only
    rw [List.drop_left' (Format.length_bytes hfits)]
    cases data with
    | none =>
      obtain rfl : len = 0 := hlen
      rfl
    | some data =>
      obtain rfl : len = (data.length : ℤ) := hlen
      have hpos : data.length ≠ 0 := by
        rw [Ne, List.length_eq_zero_iff]
        rintro rfl
        exact hdata rfl
      rw [Int.toNat_natCast, if_neg hpos, Option.getD_some, Format.unpackFrom_str]
      rfl

theorem size_of_normal (h : o.Normal) : o.size.toNat = o.wire.length := by
  obtain ⟨type, len, data⟩ := o
  by_cases htype : type = 0
  · rw [Normal, if_pos htype] at h
    obtain ⟨hlen, -⟩ := h
    simp only at hlen
    subst hlen
    rw [wire, if_pos htype]
    rfl
  · rw [Normal, if_neg htype] at h
    obtain ⟨htype', hlt, hlen, -⟩ := h
    simp only at htype' hlt hlen
    have hfits : packStr.Fits (type, len.toNat, ()) := ⟨htype', by omega, trivial⟩
    rw [wire, if_neg htype, List.length_append, Format.length_bytes hfits, size]
    simp only [Format.calcsize] at *
    omega

end Opt

namespace OptHeader

/-- The options of a header that fill its size are read back. -/
theorem readBack {o : OptHeader} (h : o.Readable) : ReadBack o.serialize parser len := by
  obtain ⟨hnxt, hsize, hunits, hnormal, hfill⟩ := h
  have hfits : packStr.Fits (o.nxt, o.size, ()) := ⟨hnxt, hsize, trivial⟩
  have hwrite : writeAll Opt.serialize o.options = .ok (o.options.flatMap Opt.wire) :=
    writeAll_ok fun x hx => Opt.serialize_of_normal (hnormal x hx)
  refine ⟨packStr.bytes (o.nxt, o.size, ()) ++ o.options.flatMap Opt.wire, o.written, ?_, ?_, ?_⟩
  · rw [serialize, Format.pack_bytes hfits]
    simp only
    rw [hwrite]
    rfl
  · rw [List.length_append, Format.length_bytes hfits, hfill]
    simp only [Format.calcsize, len, written, fixSize]
    omega
  · intro r
    have hspan : fixSize + o.size - packStr.calcsize = 6 + o.size := by
      simp only [fixSize, Format.calcsize]
      omega
    have hread : readSpan Opt.parser (fun o => o.size.toNat) (6 + o.size) (6 + o.size)
        (o.options.flatMap Opt.wire ++ r) = .ok (o.options, r) :=
      readSpan_flatMap (fun x _ => Opt.wire_ne_nil x)
        (fun x hx => Opt.size_of_normal (hnormal x hx))
        (fun x hx => Opt.parser_wire (hnormal x hx)) hfill le_rfl
    rw [parser, List.append_assoc, Format.unpackFrom_bytes hfits trivial]
    simp only
    rw [List.drop_left' (Format.length_bytes hfits), hspan, hread]
    simp only
    rw [if_pos hunits]
    rfl

end OptHeader

namespace Fragment

theorem readBack {f : Fragment} (h : f.Readable) :
    ReadBack (f.serialize.map (·, f)) parser fun _ => packStr.calcsize := by
  obtain ⟨hnxt, hoffset, hmore, hid⟩ := h
  have hmore' : f.more < 2 ^ 3 := by omega
  have hfits : packStr.Fits f.values := by
    refine ⟨hnxt, ?_, hid, trivial⟩
    rw [show 256 ^ 2 = 2 ^ (13 + 3) from rfl, BitFields.shiftLeft_or_lt_iff hmore']
    exact hoffset
  refine ⟨packStr.bytes f.values, f, ?_, Format.length_bytes hfits, fun r => ?_⟩
  · rw [serialize, Format.pack_bytes hfits]
    rfl
  · rw [parser, Format.unpackFrom_bytes hfits trivial]
    have hbit : (f.offset <<< 3 ||| f.more) &&& 1 = f.more := by
      rw [BitFields.shiftLeft_or hmore', show 1 = 2 ^ 1 - 1 from rfl,
        Nat.and_two_pow_sub_one_eq_mod]
      omega
    simp only [values, Except.map, BitFields.shiftRight_shiftLeft_or hmore', hbit]

end Fragment

namespace Auth

theorem readBack {a : Auth} (h : a.Readable) :
    ReadBack (a.serialize.map (·, a)) parser len := by
  obtain ⟨hnxt, hsize, hspi, hseq, hlen⟩ := h
  have hfits : packStr.Fits (a.nxt, a.size, a.spi, a.seq, ()) :=
    ⟨hnxt, hsize, hspi, hseq, trivial⟩
  have hdata : getSize a.size - packStr.calcsize = a.data.length := by omega
  have hle : ¬ getSize a.size < packStr.calcsize := by omega
  have hpack : Format.pack [.str a.data.length] (a.data, ()) = .ok a.data := by
    have hfits : Format.Fits [.str a.data.length] (a.data, ()) := trivial
    have hpad : padRight (a.data.take a.data.length) a.data.length = a.data := by
      rw [List.take_length, padRight, Nat.sub_self, List.replicate_zero, List.append_nil]
    rw [Format.pack_bytes hfits]
    simp only [Format.bytes, hpad, List.append_nil]
  refine ⟨packStr.bytes (a.nxt, a.size, a.spi, a.seq, ()) ++ a.data, a, ?_, ?_, fun r => ?_⟩
  · rw [serialize, Format.pack_bytes hfits]
    simp only
    rw [if_neg hle, hdata, hpack]
    rfl
  · rw [List.length_append, Format.length_bytes hfits, hlen, len]
  · rw [parser, List.append_assoc, Format.unpackFrom_bytes hfits trivial]
    simp only
    rw [if_neg hle, List.drop_left' (Format.length_bytes hfits), hdata, Format.unpackFrom_str]
    rfl

end Auth
namespace RoutingType3

variable {r : RoutingType3} {cmp : ℕ} {adr : BitVec 128}

theorem readAdr_packed (h : adr.toNat < 256 ^ (16 - cmp)) (rest : List UInt8) :
    readAdr (16 - cmp) (toBytes (16 - cmp) adr.toNat ++ rest) = .ok adr := by
  have hlen : (toBytes (16 - cmp) adr.toNat).length = 16 - cmp := length_toBytes ..
  have hread := Format.unpackFrom_str (v := toBytes (16 - cmp) adr.toNat) rest
  rw [hlen] at hread
  rw [readAdr, hread]
  change Except.ok (BitVec.ofNat 128 (ofBytes (toBytes (16 - cmp) adr.toNat))) = _
  rw [ofBytes_toBytes, Nat.mod_eq_of_lt h, BitVec.ofNat_toNat, BitVec.setWidth_eq]

theorem packAdr_eq (hcmp : cmp < 16) : packAdr cmp adr = .ok (toBytes (16 - cmp) adr.toNat) := by
  rw [packAdr, if_neg (by omega), drop_toBytes]

/-- The octets of the addresses. -/
def adrsWire (r : RoutingType3) (adr : BitVec 128) : List UInt8 :=
  r.adrs.dropLast.flatMap (fun a => toBytes (16 - r.cmpi) a.toNat) ++
    toBytes (16 - r.cmpe) adr.toNat

theorem length_packedAdrs (cmp : ℕ) (l : List (BitVec 128)) :
    (l.flatMap fun a => toBytes (16 - cmp) a.toNat).length = l.length * (16 - cmp) := by
  rw [List.length_flatMap]
  simp only [length_toBytes, List.map_const', List.sum_replicate_nat]

theorem length_adrsWire (r : RoutingType3) (adr : BitVec 128) :
    (r.adrsWire adr).length = r.octets := by
  rw [adrsWire, List.length_append, length_toBytes, octets, length_packedAdrs]

theorem packAdrs_eq (hcmpi : r.cmpi < 16) (hcmpe : r.cmpe < 16)
    (hlast : r.adrs.getLast? = some adr) :
    r.packAdrs = .ok (r.adrsWire adr) := by
  have hwrite : writeAll (packAdr r.cmpi) r.adrs.dropLast =
      .ok (r.adrs.dropLast.flatMap fun a => toBytes (16 - r.cmpi) a.toNat) :=
    writeAll_ok fun _ _ => packAdr_eq hcmpi
  rw [packAdrs, hwrite, hlast]
  simp only
  rw [packAdr_eq hcmpe]
  rfl

theorem pad_eq_zero (hne : r.adrs ≠ []) (hoctets : r.octets % 8 = 0) (hcmpi : r.cmpi < 16)
    (hcmpe : r.cmpe < 16) : r.pad = 0 := by
  have hlen : r.adrs.dropLast.length + 1 = r.adrs.length := by
    rw [List.length_dropLast]
    have := List.length_pos_iff.mpr hne
    omega
  rw [pad]
  rw [octets] at hoctets
  have hcast : ((r.adrs.length : ℤ) - 1) * (16 - r.cmpi) =
      ((r.adrs.dropLast.length * (16 - r.cmpi) : ℕ) : ℤ) := by
    rw [← hlen]
    push_cast [hcmpi.le]
    ring
  rw [hcast]
  generalize r.adrs.dropLast.length * (16 - r.cmpi) = k at hoctets ⊢
  omega

/-- The values of the fixed part, as they are packed. -/
def values (r : RoutingType3) (size pad : ℕ) : packStr.Values :=
  (r.nxt, size, r.type, r.seg, r.cmpi <<< 4 ||| r.cmpe, pad <<< 4, ())

theorem fits_values {size pad : ℕ} (h : r.Readable) (hsize : size < 256) (hpad : pad < 16) :
    packStr.Fits (r.values size pad) := by
  obtain ⟨hnxt, htype, hseg, hcmpi, hcmpe, -⟩ := h
  refine ⟨hnxt, hsize, by omega, hseg, ?_, ?_, trivial⟩
  · rw [show 256 ^ 1 = 2 ^ (4 + 4) from rfl, BitFields.shiftLeft_or_lt_iff hcmpe]
    exact hcmpi
  · rw [Nat.shiftLeft_eq]
    omega

/-- The fixed part is read back, and its type selects the parser. -/
theorem parse_fixed {size pad : ℕ} (h : r.Readable) (hsize : size < 256) (hpad : pad < 16)
    (rest : List UInt8) :
    ExtHeader.routingParser (packStr.bytes (r.values size pad) ++ rest) =
      if size = 0 then .ok ⟨r.nxt, size, r.type, r.seg, r.cmpi, r.cmpe, []⟩
      else
        let span := getSize size - (16 - r.cmpe + pad) - packStr.calcsize
        match readSpan (readAdr (16 - r.cmpi)) (fun _ => 16 - r.cmpi) span span rest with
        | .error e => .error e
        | .ok (adrs, rest) =>
          (readAdr (16 - r.cmpe) rest).map fun adr =>
            ⟨r.nxt, size, r.type, r.seg, r.cmpi, r.cmpe, adrs ++ [adr]⟩ := by
  have hfits := fits_values h hsize hpad
  obtain ⟨hnxt, htype, hseg, hcmpi, hcmpe, -⟩ := h
  have hone : Format.Fits [.num 1] (r.type, ()) := ⟨by omega, trivial⟩
  have hthird : Format.unpackFrom [.num 1] ((packStr.bytes (r.values size pad) ++ rest).drop 2) =
      .ok (r.type, ()) := by
    have hread := Format.unpackFrom_bytes hone trivial
      (Format.bytes [.num 1, .num 1, .num 1, .pad 2]
        (r.seg, r.cmpi <<< 4 ||| r.cmpe, pad <<< 4, ()) ++ rest)
    simpa [Format.bytes, values, toBytes] using hread
  rw [ExtHeader.routingParser, hthird]
  simp only
  rw [if_pos htype, parser, Format.unpackFrom_bytes hfits trivial]
  have hbits : r.cmpe < 2 ^ 4 := hcmpe
  have hmask : (r.cmpi <<< 4 ||| r.cmpe) &&& 0xf = r.cmpe := BitFields.shiftLeft_or_and hbits
  rw [List.drop_left' (Format.length_bytes hfits)]
  simp only [values, BitFields.shiftRight_shiftLeft_or hbits, hmask, Nat.shiftLeft_shiftRight]

theorem readBack (h : r.Readable) : ReadBack r.serialize ExtHeader.routingParser len := by
  have h' := h
  obtain ⟨hnxt, htype, hseg, hcmpi, hcmpe, hadrs⟩ := h'
  cases hlast : r.adrs.getLast? with
  | none =>
    -- The padding makes up for the difference of the compressions.
    rw [hlast] at hadrs
    obtain ⟨hsize, hle, hlt⟩ := hadrs
    have hnil : r.adrs = [] := List.getLast?_eq_none_iff.mp hlast
    have hpad : r.pad = ((r.cmpe - r.cmpi : ℕ) : ℤ) := by
      rw [pad, hnil, List.length_nil]
      push_cast [hle]
      omega
    have hfilled : r.filled = 0 := by
      rw [filled, if_pos hsize, hpad, hnil, List.length_nil]
      push_cast [hle]
      omega
    have hfits : packStr.Fits (r.values 0 (r.cmpe - r.cmpi)) :=
      fits_values h (by decide) (by omega)
    refine ⟨packStr.bytes (r.values 0 (r.cmpe - r.cmpi)), { r with size := 0 }, ?_,
      Format.length_bytes hfits, fun rest => ?_⟩
    · rw [serialize, if_neg (by omega), hfilled, hpad, Int.toNat_natCast]
      simp only [Int.toNat_zero]
      have hpack := Format.pack_bytes hfits
      rw [values] at hpack
      rw [hpack]
      simp [Except.map, values]
    · rw [parse_fixed h (by decide) (by omega), if_pos rfl]
      rw [← hnil]
  | some adr =>
    rw [hlast] at hadrs
    obtain ⟨hfit, hfit', hoctets, hmax, hsize⟩ := hadrs
    have hne : r.adrs ≠ [] := by
      rintro hnil
      rw [hnil] at hlast
      cases hlast
    have hpad := pad_eq_zero hne hoctets hcmpi hcmpe
    have hpos : 0 < r.octets := by
      rw [octets]
      omega
    have hlen : r.adrs.dropLast.length + 1 = r.adrs.length := by
      rw [List.length_dropLast]
      have := List.length_pos_iff.mpr hne
      omega
    have hfilled : r.filled = ((r.octets / 8 : ℕ) : ℤ) := by
      rw [filled]
      split_ifs with hzero
      · have hcast :
            ((r.adrs.length : ℤ) - 1) * (16 - r.cmpi) + (16 - r.cmpe) = (r.octets : ℤ) := by
          rw [octets, ← hlen]
          push_cast [hcmpi.le, hcmpe.le]
          ring
        rw [hpad, hcast, add_zero]
        rfl
      · omega
    have hn : r.octets / 8 < 256 := by omega
    have hfits : packStr.Fits (r.values (r.octets / 8) 0) := fits_values h hn (by decide)
    refine ⟨packStr.bytes (r.values (r.octets / 8) 0) ++ r.adrsWire adr,
      { r with size := r.octets / 8 }, ?_, ?_, fun rest => ?_⟩
    · rw [serialize, if_neg (by omega), hfilled, hpad, Int.toNat_natCast]
      simp only [Int.toNat_zero]
      have hpack := Format.pack_bytes hfits
      rw [values] at hpack
      rw [hpack]
      simp only
      rw [if_neg (by omega), packAdrs_eq hcmpi hcmpe hlast]
      rfl
    · rw [List.length_append, Format.length_bytes hfits, length_adrsWire, len, getSize]
      simp only [Format.calcsize]
      omega
    · have hspan : getSize (r.octets / 8) - (16 - r.cmpe + 0) - packStr.calcsize =
          r.adrs.dropLast.length * (16 - r.cmpi) := by
        have heq : r.octets = r.adrs.dropLast.length * (16 - r.cmpi) + (16 - r.cmpe) := rfl
        simp only [getSize, Format.calcsize]
        omega
      rw [List.append_assoc, parse_fixed h hn (by decide), if_neg (by omega), hspan, adrsWire,
        List.append_assoc]
      have hread : readSpan (readAdr (16 - r.cmpi)) (fun _ => 16 - r.cmpi)
          (r.adrs.dropLast.length * (16 - r.cmpi)) (r.adrs.dropLast.length * (16 - r.cmpi))
          (r.adrs.dropLast.flatMap (fun a => toBytes (16 - r.cmpi) a.toNat) ++
            (toBytes (16 - r.cmpe) adr.toNat ++ rest)) =
          .ok (r.adrs.dropLast, toBytes (16 - r.cmpe) adr.toNat ++ rest) :=
        readSpan_flatMap (fun a _ hnil => by simp [← List.length_eq_zero_iff] at hnil; omega)
          (fun a _ => (length_toBytes ..).symm)
          (fun a ha rest => readAdr_packed (hfit a ha) rest) (length_packedAdrs ..) le_rfl
      simp only
      rw [hread]
      simp only
      rw [readAdr_packed hfit']
      have hadrs : r.adrs.dropLast ++ [adr] = r.adrs :=
        List.dropLast_append_getLast? adr hlast
      simp only [Except.map, hadrs]

end RoutingType3
namespace ExtHeader

variable {hdr hdr' : ExtHeader} {b : List UInt8}

theorem len_pos (hdr : ExtHeader) : 0 < hdr.len := by
  cases hdr with
  | hopOpts o | dstOpts o =>
    change 0 < 8 + o.size
    omega
  | routing r =>
    change 0 < (r.size + 1) * 8
    omega
  | fragment f =>
    change 0 < 8
    decide
  | auth a =>
    change 0 < (a.size + 2) * 4
    omega

/-- A header keeps its type, and the type of what is behind it. -/
theorem serialize_keeps (h : hdr.serialize = .ok (b, hdr')) :
    hdr'.type = hdr.type ∧ hdr'.nxt = hdr.nxt := by
  cases hdr with
  | hopOpts o | dstOpts o =>
    obtain ⟨x, hx, heq⟩ := map_eq_ok.1 h
    obtain ⟨-, rfl⟩ := Prod.mk.inj heq
    rw [OptHeader.serialize] at hx
    split at hx
    · cases hx
    · obtain ⟨_, -, rfl⟩ := map_eq_ok.1 hx
      exact ⟨rfl, rfl⟩
  | routing r =>
    obtain ⟨x, hx, heq⟩ := map_eq_ok.1 h
    obtain ⟨-, rfl⟩ := Prod.mk.inj heq
    rw [RoutingType3.serialize] at hx
    split_ifs at hx
    simp only at hx
    split at hx
    · cases hx
    · obtain ⟨_, -, rfl⟩ := map_eq_ok.1 hx
      exact ⟨rfl, rfl⟩
  | fragment f | auth a =>
    obtain ⟨x, -, heq⟩ := map_eq_ok.1 h
    obtain ⟨-, rfl⟩ := Prod.mk.inj heq
    exact ⟨rfl, rfl⟩

/-- The parser that is registered for the type of a header reads it back. -/
theorem readBack (h : hdr.Readable) : ∃ parser, parserOf hdr.type = some parser ∧
    ReadBack hdr.serialize parser len := by
  cases hdr with
  | hopOpts o => exact ⟨_, rfl, (OptHeader.readBack h).map hopOpts fun _ => rfl⟩
  | dstOpts o => exact ⟨_, rfl, (OptHeader.readBack h).map dstOpts fun _ => rfl⟩
  | routing r => exact ⟨_, rfl, (RoutingType3.readBack h).map routing fun _ => rfl⟩
  | fragment f =>
    refine ⟨_, rfl, ?_⟩
    have hread : ReadBack _ _ len := (Fragment.readBack h).map fragment fun _ => rfl
    rw [map_map] at hread
    exact hread
  | auth a =>
    refine ⟨_, rfl, ?_⟩
    have hread : ReadBack _ _ len := (Auth.readBack h).map auth fun _ => rfl
    rw [map_map] at hread
    exact hread

end ExtHeader

end Ryu.Packet.Ipv6
