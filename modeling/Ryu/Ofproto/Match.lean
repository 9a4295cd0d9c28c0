import Mathlib.Data.Nat.Bitwise
import Ryu.Lib.Numeral
import Ryu.Lib.Python

/-! # OpenFlow matches

A match gives some of the basic OXM fields a value and perhaps a mask. It is built from
values in user form: integers, and texts of addresses, which `netaddr` reads and writes.
-/

namespace Ryu

/-- A value of a REST dictionary. -/
inductive Value
  | int (n : ℤ)
  | str (s : Text)
  deriving DecidableEq, Repr

/-- `oxm_types` of class `OPENFLOW_BASIC`, in the order of their numbers. -/
inductive OxmField
  | inPort | inPhyPort | metadata | ethDst | ethSrc | ethType | vlanVid | vlanPcp | ipDscp
  | ipEcn | ipProto | ipv4Src | ipv4Dst | tcpSrc | tcpDst | udpSrc | udpDst | sctpSrc | sctpDst
  | icmpv4Type | icmpv4Code | arpOp | arpSpa | arpTpa | arpSha | arpTha | ipv6Src | ipv6Dst
  | ipv6Flabel | icmpv6Type | icmpv6Code | ipv6NdTarget | ipv6NdSll | ipv6NdTll | mplsLabel
  | mplsTc | mplsBos | pbbIsid | tunnelId | ipv6Exthdr
  deriving DecidableEq, Repr

inductive AddrKind
  | mac | ipv4 | ipv6
  deriving DecidableEq, Repr

/-- `type_desc`: integers of a number of bytes, and addresses. -/
inductive OxmType
  | int (size : ℕ)
  | addr (kind : AddrKind)
  deriving DecidableEq, Repr

/-- In bytes. -/
def AddrKind.size : AddrKind → ℕ
  | .mac => 6
  | .ipv4 => 4
  | .ipv6 => 16

def OxmType.size : OxmType → ℕ
  | .int size => size
  | .addr kind => kind.size

namespace OxmField

def all : List OxmField :=
  [inPort, inPhyPort, metadata, ethDst, ethSrc, ethType, vlanVid, vlanPcp, ipDscp, ipEcn, ipProto,
    ipv4Src, ipv4Dst, tcpSrc, tcpDst, udpSrc, udpDst, sctpSrc, sctpDst, icmpv4Type, icmpv4Code,
    arpOp, arpSpa, arpTpa, arpSha, arpTha, ipv6Src, ipv6Dst, ipv6Flabel, icmpv6Type, icmpv6Code,
    ipv6NdTarget, ipv6NdSll, ipv6NdTll, mplsLabel, mplsTc, mplsBos, pbbIsid, tunnelId, ipv6Exthdr]

def type : OxmField → OxmType
  | vlanPcp | ipDscp | ipEcn | ipProto | icmpv4Type | icmpv4Code | icmpv6Type | icmpv6Code
  | mplsTc | mplsBos => .int 1
  | ethType | vlanVid | tcpSrc | tcpDst | udpSrc | udpDst | sctpSrc | sctpDst | arpOp
  | ipv6Exthdr => .int 2
  | pbbIsid => .int 3
  | inPort | inPhyPort | ipv6Flabel | mplsLabel => .int 4
  | metadata | tunnelId => .int 8
  | ethDst | ethSrc | arpSha | arpTha | ipv6NdSll | ipv6NdTll => .addr .mac
  | ipv4Src | ipv4Dst | arpSpa | arpTpa => .addr .ipv4
  | ipv6Src | ipv6Dst | ipv6NdTarget => .addr .ipv6

theorem mem_all (f : OxmField) : f ∈ all := by
  cases f <;> decide

end OxmField

/-- `lib/addrconv` over `netaddr`: what is relied on is that an address that was written is read
again, and that it is written without a slash and not as a number. -/
structure AddrConv where
  /-- `text_to_bin`; a text only `IPNetwork` accepts also gives a mask. -/
  textToBin : AddrKind → Text → Option (ℕ × Option ℕ)
  /-- `bin_to_text`. -/
  binToText : AddrKind → ℕ → Text
  /-- The texts of the address and the netmask of `netaddr.ip.IPNetwork`. -/
  ipNetwork : Text → Option (Text × Text)
  lt_size : ∀ {k t v m}, textToBin k t = some (v, m) →
    v < 256 ^ k.size ∧ ∀ m' ∈ m, m' < 256 ^ k.size
  text_bin : ∀ {k v}, v < 256 ^ k.size → textToBin k (binToText k v) = some (v, none)
  no_slash : ∀ {k v}, v < 256 ^ k.size → '/' ∉ binToText k v
  not_digits : ∀ {k v}, v < 256 ^ k.size → Numeral.isDigits (binToText k v) = false
  ipv4_zero : binToText .ipv4 0 = "0.0.0.0".toList
  ipv6_zero : binToText .ipv6 0 = "::".toList

/-- The payload of a field. -/
structure Tlv where
  value : ℕ
  mask : Option ℕ
  deriving DecidableEq, Repr

/-- Value and mask have the size of the field, and no bit of the value is masked out. -/
structure Tlv.Fits (t : Tlv) (f : OxmField) : Prop where
  value : t.value < 256 ^ f.type.size
  mask : ∀ m ∈ t.mask, m < 256 ^ f.type.size
  masked : ∀ m ∈ t.mask, t.value &&& m = t.value

/-- `OFPMatch`: its fields by number. -/
structure OFPMatch where
  field : OxmField → Option Tlv
  fits : ∀ f, ∀ t ∈ field f, t.Fits f

@[ext] theorem OFPMatch.ext {m n : OFPMatch} (h : ∀ f, m.field f = n.field f) : m = n := by
  cases m
  cases n
  congr
  exact funext h

instance : DecidableEq OFPMatch := fun m n =>
  decidable_of_iff (∀ f ∈ OxmField.all, m.field f = n.field f)
    ⟨fun h => OFPMatch.ext fun f => h f (OxmField.mem_all f), fun h _ _ => h ▸ rfl⟩

/-- A keyword argument of `OFPMatch`: a value, or a pair of a value and a mask. -/
inductive UserValue
  | one (value : Value)
  | pair (value mask : Value)
  deriving DecidableEq, Repr

variable (ac : AddrConv)

/-- `from_user` of a field's type: the value, and a mask if the text of an address has one. -/
def fromUser (ty : OxmType) (v : Value) : Except PyError (ℕ × Option ℕ) :=
  match ty, v with
  | .int size, .int n => .ok ((n % (256 ^ size : ℕ)).toNat, none)
  | .int _, .str _ => .error (.typeError "unsupported operand type(s) for &: 'str' and 'int'")
  | .addr kind, .str s =>
    match ac.textToBin kind s with
    | some r => .ok r
    | none => .error (.other "AddrFormatError")
  | .addr _, .int _ => .error (.other "AddrFormatError")

/-- `oxm_normalize_user` and `oxm_from_user`: the value is masked. A mask beside a text that has
one of its own is refused. -/
def normalizeUser (f : OxmField) : UserValue → Except PyError Tlv
  | .one value =>
    match fromUser ac f.type value with
    | .error e => .error e
    | .ok (v, none) => .ok ⟨v, none⟩
    | .ok (v, some m) => .ok ⟨v &&& m, some m⟩
  | .pair value mask =>
    match fromUser ac f.type value, fromUser ac f.type mask with
    | .error e, _ => .error e
    | .ok _, .error e => .error e
    | .ok (v, none), .ok (m, none) => .ok ⟨v &&& m, some m⟩
    | .ok _, .ok _ => .error (.valueError "invalid literal for int() with base 10")

/-- `to_user` of a field's type. -/
def toUser (f : OxmField) (v : ℕ) : Value :=
  match f.type with
  | .int _ => .int v
  | .addr kind => .str (ac.binToText kind v)

/-- `oxm_to_user`. -/
def Tlv.toUser (f : OxmField) (t : Tlv) : UserValue :=
  match t.mask with
  | none => .one (Ryu.toUser ac f t.value)
  | some m => .pair (Ryu.toUser ac f t.value) (Ryu.toUser ac f m)

variable {ac} {f : OxmField} {v m : ℕ} {t : Tlv} {u : UserValue}

theorem fromUser_lt {ty : OxmType} {value : Value} {r : ℕ × Option ℕ}
    (h : fromUser ac ty value = .ok r) :
    r.1 < 256 ^ ty.size ∧ ∀ m ∈ r.2, m < 256 ^ ty.size := by
  cases ty with
  | int size =>
    cases value with
    | str s => cases h
    | int n =>
      cases h
      refine ⟨?_, by simp⟩
      have hpos : (0 : ℤ) < ((256 ^ size : ℕ) : ℤ) := by positivity
      have hlt := Int.emod_lt_of_pos n hpos
      have hnn := Int.emod_nonneg n hpos.ne'
      simp only [OxmType.size]
      omega
  | addr kind =>
    cases value with
    | int n => cases h
    | str s =>
      dsimp only [fromUser] at h
      cases ht : ac.textToBin kind s with
      | none => simp [ht] at h
      | some r' =>
        rw [ht] at h
        cases h
        exact ac.lt_size ht

theorem fits_of_and (hv : v < 256 ^ f.type.size) (hm : m < 256 ^ f.type.size) :
    Tlv.Fits ⟨v &&& m, some m⟩ f where
  value := Nat.and_le_left.trans_lt hv
  mask := by simpa using hm
  masked := by simp [Nat.and_assoc]

theorem normalizeUser_fits (h : normalizeUser ac f u = .ok t) : t.Fits f := by
  cases u with
  | one value =>
    dsimp only [normalizeUser] at h
    cases hr : fromUser ac f.type value with
    | error e => simp [hr] at h
    | ok r =>
      obtain ⟨v, m⟩ := r
      obtain ⟨hv, hm⟩ := fromUser_lt hr
      rw [hr] at h
      cases m with
      | none =>
        cases h
        exact ⟨hv, by simp, by simp⟩
      | some m =>
        cases h
        exact fits_of_and hv (hm m rfl)
  | pair value mask =>
    dsimp only [normalizeUser] at h
    cases hr : fromUser ac f.type value with
    | error e => simp [hr] at h
    | ok r =>
      cases hs : fromUser ac f.type mask with
      | error e => simp [hr, hs] at h
      | ok s =>
        obtain ⟨v, m⟩ := r
        obtain ⟨w, n⟩ := s
        rw [hr, hs] at h
        cases m with
        | some m => cases n <;> cases h
        | none =>
          cases n with
          | some n => cases h
          | none =>
            cases h
            exact fits_of_and (fromUser_lt hr).1 (fromUser_lt hs).1

/-- What is written in user form is read again. -/
theorem fromUser_toUser (hv : v < 256 ^ f.type.size) :
    fromUser ac f.type (toUser ac f v) = .ok (v, none) := by
  unfold toUser
  cases hty : f.type with
  | int size =>
    rw [hty] at hv
    have hlt : v < 256 ^ size := hv
    have hmod : ((v : ℤ) % (256 ^ size : ℕ)).toNat = v := by
      rw [← Int.natCast_mod, Nat.mod_eq_of_lt hlt, Int.toNat_natCast]
    simp only [fromUser, hmod]
  | addr kind =>
    rw [hty] at hv
    simp [fromUser, ac.text_bin hv]

theorem normalizeUser_toUser (ht : t.Fits f) : normalizeUser ac f (t.toUser ac f) = .ok t := by
  obtain ⟨v, m⟩ := t
  cases m with
  | none => simp [Tlv.toUser, normalizeUser, fromUser_toUser ht.value]
  | some m =>
    simpa [Tlv.toUser, normalizeUser, fromUser_toUser ht.value, fromUser_toUser (ht.mask m rfl)] using
      ht.masked m rfl

end Ryu
