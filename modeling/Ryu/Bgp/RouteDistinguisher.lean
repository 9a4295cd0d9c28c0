import Ryu.Lib.Struct
import Ryu.Ofproto.Address
import Ryu.Bgp.AddrPrefix

/-! # Route distinguishers

Eight octets: a type, an administrator and an assigned number. An RD is read back from the octets
it is serialized to if its numbers fit, and from its text as one of the same text, unless the
class that the text is given is too narrow for the number of the AS.
-/

namespace Ryu.Bgp.Wire

open Bytes Numeral

section Model

/-- `_RouteDistinguisher`, by class. -/
inductive RouteDistinguisher
  | twoOctetAs (admin assigned : ℤ)
  | ipv4Address (admin : Text) (assigned : ℤ)
  | fourOctetAs (admin assigned : ℤ)
  deriving DecidableEq, Repr

namespace RouteDistinguisher

def type : RouteDistinguisher → ℕ
  | twoOctetAs .. => 0
  | ipv4Address .. => 1
  | fourOctetAs .. => 2

/-- `formatted_str`. -/
def formattedStr : RouteDistinguisher → Text
  | twoOctetAs admin assigned | fourOctetAs admin assigned =>
    decInt admin ++ ':' :: decInt assigned
  | ipv4Address admin assigned => admin ++ ':' :: decInt assigned

/-- `from_str`. -/
def fromStr (str : Text) : Except PyError RouteDistinguisher :=
  match str.splitOn ':' with
  | [first, second] =>
    if '.' ∈ first then
      match int? second with
      | some assigned => .ok (ipv4Address first assigned)
      | none => .error (.valueError "invalid literal for int() with base 10")
    else
      match int? first, int? second with
      | some admin, some assigned =>
        if admin > 1 <<< 16 then .ok (fourOctetAs admin assigned)
        else .ok (twoOctetAs admin assigned)
      | _, _ => .error (.valueError "invalid literal for int() with base 10")
  | _ => .error (.valueError "not enough values to unpack (expected 2)")

/-- A number for an unsigned format, which takes no negative one. -/
def unsigned (z : ℤ) : Except PyError ℕ := if z < 0 then .error structError else .ok z.toNat

/-- What an unsigned format of so many bits takes. -/
def IsUnsigned (bits : ℕ) (z : ℤ) : Prop := 0 ≤ z ∧ z < ((2 ^ bits : ℕ) : ℤ)

variable (c : AddrConv)

/-- `serialize_value`. -/
def serializeValue : RouteDistinguisher → Except PyError (List UInt8)
  | twoOctetAs admin assigned => do
    Format.pack [.num 2, .num 4] (← unsigned admin, ← unsigned assigned, ())
  | ipv4Address admin assigned => do
    Format.pack [.str 4, .num 2] (← toBin c .ipv4 admin, ← unsigned assigned, ())
  | fourOctetAs admin assigned => do
    Format.pack [.num 4, .num 2] (← unsigned admin, ← unsigned assigned, ())

/-- `serialize`. -/
def serialize (r : RouteDistinguisher) : Except PyError (List UInt8) :=
  (r.serializeValue c).map (toBytes 2 r.type ++ ·)

/-- `parse_value` and the constructor, by the type. None is registered for other types. -/
def parseValue (type : ℕ) (rest : List UInt8) : Except PyError RouteDistinguisher :=
  match type with
  | 0 => (Format.unpackFrom [.num 2, .num 4] rest).map fun v => twoOctetAs v.1 v.2.1
  | 1 => (Format.unpackFrom [.str 4, .num 2] rest).map fun v =>
    ipv4Address (c.binToText .ipv4 (ofBytes v.1)) v.2.1
  | 2 => (Format.unpackFrom [.num 4, .num 2] rest).map fun v => fourOctetAs v.1 v.2.1
  | _ => .error (.attributeError "parse_value")

/-- `parser`. -/
def parser (buf : List UInt8) : Except PyError RouteDistinguisher :=
  if buf.length = 8 then parseValue c (ofBytes (buf.take 2)) (buf.drop 2)
  else .error .assertionError

/-- The numbers fit the formats of the class, and an address is one that was written. -/
def Fits : RouteDistinguisher → Prop
  | twoOctetAs admin assigned => IsUnsigned 16 admin ∧ IsUnsigned 32 assigned
  | ipv4Address admin assigned =>
    (∃ v < 256 ^ AddrKind.ipv4.size, admin = c.binToText .ipv4 v) ∧
      IsUnsigned 16 assigned
  | fourOctetAs admin assigned => IsUnsigned 32 admin ∧ IsUnsigned 16 assigned

end RouteDistinguisher

/-- The argument `route_dist`. -/
inductive RouteDist
  | rd (r : RouteDistinguisher)
  | str (s : Text)
  deriving DecidableEq, Repr

/-- A text is read by `from_str`. -/
def RouteDist.resolve : RouteDist → Except PyError RouteDistinguisher
  | .rd r => .ok r
  | .str s => RouteDistinguisher.fromStr s

/-- What `from_str` relies on: an IPv4 address is written with dots and without colons. -/
structure Dotted (c : AddrConv) : Prop where
  dot : ∀ v < 256 ^ AddrKind.ipv4.size, '.' ∈ c.binToText .ipv4 v
  no_colon : ∀ v < 256 ^ AddrKind.ipv4.size, ':' ∉ c.binToText .ipv4 v

theorem dotted_plainConv : Dotted plainConv where
  dot v _ := by
    have hp : plainConv.binToText .ipv4 v = ipv4Format.write v := rfl
    rw [hp]
    exact ipv4Format.sep_mem_write v
  no_colon v _ := GroupFormat.not_mem_write (F := ipv4Format) (n := v) (by decide) (by decide)

end Model

namespace RouteDistinguisher

variable {c : AddrConv} {r : RouteDistinguisher}

theorem IsUnsigned.natCast {bits : ℕ} {z : ℤ} (h : IsUnsigned bits z) :
    ∃ n : ℕ, n < 2 ^ bits ∧ z = n := by
  obtain ⟨h0, hlt⟩ := h
  lift z to ℕ using h0
  exact ⟨z, by exact_mod_cast hlt, rfl⟩

@[simp] theorem unsigned_natCast (n : ℕ) : unsigned n = .ok n := by
  rw [unsigned, if_neg (by omega), Int.toNat_natCast]

theorem length_serializeValue {b : List UInt8} (h : r.serializeValue c = .ok b) :
    b.length = 6 := by
  cases r with
  | twoOctetAs admin assigned =>
    obtain ⟨_, -, h⟩ := bind_eq_ok.1 h
    obtain ⟨_, -, h⟩ := bind_eq_ok.1 h
    exact Format.length_pack h
  | ipv4Address admin assigned =>
    obtain ⟨_, -, h⟩ := bind_eq_ok.1 h
    obtain ⟨_, -, h⟩ := bind_eq_ok.1 h
    exact Format.length_pack h
  | fourOctetAs admin assigned =>
    obtain ⟨_, -, h⟩ := bind_eq_ok.1 h
    obtain ⟨_, -, h⟩ := bind_eq_ok.1 h
    exact Format.length_pack h

/-- What is serialized has the size of an RD. -/
theorem length_serialize {b : List UInt8} (h : r.serialize c = .ok b) : b.length = 8 := by
  obtain ⟨value, hvalue, rfl⟩ := map_eq_ok.1 h
  rw [List.length_append, length_toBytes, length_serializeValue hvalue]

theorem parser_type {type : ℕ} {value : List UInt8} (ht : type < 256 ^ 2)
    (hv : value.length = 6) : parser c (toBytes 2 type ++ value) = parseValue c type value := by
  have hlen : (toBytes 2 type ++ value).length = 8 := by
    rw [List.length_append, length_toBytes, hv]
  rw [parser, if_pos hlen, List.take_left' (length_toBytes ..), List.drop_left' (length_toBytes ..),
    ofBytes_toBytes, Nat.mod_eq_of_lt ht]

theorem type_lt (r : RouteDistinguisher) : r.type < 256 ^ 2 := by
  cases r <;> simp [type]

/-- A value whose numbers fit is packed, and read back. -/
theorem parseValue_serializeValue (h : r.Fits c) :
    ∃ value, r.serializeValue c = .ok value ∧ parseValue c r.type value = .ok r := by
  cases r with
  | twoOctetAs admin assigned =>
    obtain ⟨a, ha, rfl⟩ := h.1.natCast
    obtain ⟨n, hn, rfl⟩ := h.2.natCast
    have hp : Format.pack [.num 2, .num 4] (a, n, ()) = .ok (toBytes 2 a ++ toBytes 4 n) := by
      rw [Format.pack_num_of_lt ha, Format.pack_num_of_lt hn]
      simp [Format.pack, Except.map]
    refine ⟨_, hp, ?_⟩
    rw [type, parseValue, Format.unpackFrom_packed hp trivial]
    rfl
  | ipv4Address admin assigned =>
    obtain ⟨⟨v, hv, rfl⟩, hassigned⟩ := h
    obtain ⟨n, hn, rfl⟩ := hassigned.natCast
    have hbin : toBin c .ipv4 (c.binToText .ipv4 v) = .ok (toBytes 4 v) := by
      rw [toBin, c.text_bin hv]
      rfl
    have hp : Format.pack [.str 4, .num 2] (toBytes 4 v, n, ()) =
        .ok (padRight ((toBytes 4 v).take 4) 4 ++ toBytes 2 n) := by
      rw [Format.pack, Format.pack_num_of_lt hn]
      simp [Format.pack, Except.map]
    refine ⟨padRight ((toBytes 4 v).take 4) 4 ++ toBytes 2 n, ?_, ?_⟩
    · rw [serializeValue, hbin]
      exact hp
    · rw [type, parseValue, Format.unpackFrom_packed hp ⟨length_toBytes .., trivial⟩]
      have hof : ofBytes (toBytes 4 v) = v := (ofBytes_toBytes 4 v).trans (Nat.mod_eq_of_lt hv)
      simp only [Except.map, hof]
  | fourOctetAs admin assigned =>
    obtain ⟨a, ha, rfl⟩ := h.1.natCast
    obtain ⟨n, hn, rfl⟩ := h.2.natCast
    have hp : Format.pack [.num 4, .num 2] (a, n, ()) = .ok (toBytes 4 a ++ toBytes 2 n) := by
      rw [Format.pack_num_of_lt ha, Format.pack_num_of_lt hn]
      simp [Format.pack, Except.map]
    refine ⟨_, hp, ?_⟩
    rw [type, parseValue, Format.unpackFrom_packed hp trivial]
    rfl

/-- An RD whose numbers fit is read back. -/
theorem parser_serialize (h : r.Fits c) :
    ∃ b, r.serialize c = .ok b ∧ b.length = 8 ∧ parser c b = .ok r := by
  obtain ⟨value, hvalue, hparse⟩ := parseValue_serializeValue h
  have hs : r.serialize c = .ok (toBytes 2 r.type ++ value) := by
    rw [serialize, hvalue]
    rfl
  refine ⟨_, hs, length_serialize hs, ?_⟩
  rw [parser_type (type_lt r) (length_serializeValue hvalue), hparse]

/-- The number of the AS does not fit the class that the text of the RD is given. -/
def Misread (r : RouteDistinguisher) : Prop := ∃ assigned, r = fourOctetAs (1 <<< 16) assigned

theorem fromStr_asNumber {admin assigned : ℤ} :
    fromStr (decInt admin ++ ':' :: decInt assigned) =
      .ok (if admin > 1 <<< 16 then fourOctetAs admin assigned else twoOctetAs admin assigned) := by
  have hc : ':' ∉ decInt admin := not_mem_decInt (by decide) (by decide)
  have hc' : ':' ∉ decInt assigned := not_mem_decInt (by decide) (by decide)
  have hdot : '.' ∉ decInt admin := not_mem_decInt (by decide) (by decide)
  rw [fromStr, List.splitOn_append_cons_self_of_not_mem hc, List.splitOn_eq_singleton hc']
  simp only [hdot, if_false, int?_decInt]
  split <;> rfl

/-- The text of an RD is read as an RD of that text, and one that fits. -/
theorem fromStr_formattedStr (hd : Dotted c) (h : r.Fits c) (hm : ¬r.Misread) :
    ∃ r', fromStr r.formattedStr = .ok r' ∧ r'.Fits c ∧ r'.formattedStr = r.formattedStr := by
  cases r with
  | twoOctetAs admin assigned =>
    have hle : ¬admin > 1 <<< 16 := by
      have hlt := h.1.2
      omega
    refine ⟨_, fromStr_asNumber, ?_⟩
    rw [if_neg hle]
    exact ⟨h, rfl⟩
  | ipv4Address admin assigned =>
    obtain ⟨⟨v, hv, rfl⟩, hn⟩ := h
    refine ⟨.ipv4Address (c.binToText .ipv4 v) assigned, ?_, ⟨⟨v, hv, rfl⟩, hn⟩, rfl⟩
    have hc' : ':' ∉ decInt assigned := not_mem_decInt (by decide) (by decide)
    rw [fromStr, formattedStr, List.splitOn_append_cons_self_of_not_mem (hd.no_colon v hv),
      List.splitOn_eq_singleton hc']
    simp only [hd.dot v hv, if_true, int?_decInt]
  | fourOctetAs admin assigned =>
    refine ⟨_, fromStr_asNumber, ?_⟩
    split
    · exact ⟨h, rfl⟩
    · next hle =>
      have hne : admin ≠ 1 <<< 16 := fun he => hm ⟨assigned, by rw [he]⟩
      have hlt : admin < 2 ^ 16 := by
        have he : ((1 : ℤ) <<< 16) = 2 ^ 16 := by decide
        omega
      exact ⟨⟨⟨h.1.1, hlt⟩, h.2.1, h.2.2.trans (by decide)⟩, rfl⟩

/-- The text of an RD that is misread gives one that is not serialized. -/
theorem serialize_misread (hm : r.Misread) :
    ∃ r', fromStr r.formattedStr = .ok r' ∧ (r'.serialize c).isOk = false := by
  obtain ⟨assigned, rfl⟩ := hm
  refine ⟨_, fromStr_asNumber, ?_⟩
  rw [if_neg (lt_irrefl _), serialize, isOk_map]
  rw [Bool.eq_false_iff, ne_eq, isOk_iff]
  rintro ⟨value, hv⟩
  obtain ⟨a, ha, hv⟩ := bind_eq_ok.1 hv
  obtain ⟨n, -, hv⟩ := bind_eq_ok.1 hv
  have hlt := (Format.pack_num hv).1
  obtain rfl := Except.ok.inj ha
  exact absurd hlt (by decide)

/-- A text of numbers and addresses as they are printed, which fit the formats of a class. -/
def Encodable (c : AddrConv) (s : Text) : Prop :=
  ∃ r : RouteDistinguisher, r.Fits c ∧ r.formattedStr = s

/-- The number of the AS is the first that takes four octets. -/
def OnBoundary (s : Text) : Prop :=
  ∃ assigned : ℤ, s = decInt (1 <<< 16) ++ ':' :: decInt assigned

theorem isUnsigned_natCast {bits n : ℕ} (h : n < 2 ^ bits) : IsUnsigned bits n :=
  ⟨Int.natCast_nonneg n, by exact_mod_cast h⟩

/-- What is parsed fits the formats it was parsed by. -/
theorem fits_of_parsed {b : List UInt8} (h : parser c b = .ok r) : r.Fits c := by
  rw [parser] at h
  split at h
  · unfold parseValue at h
    split at h
    · obtain ⟨v, hv, rfl⟩ := map_eq_ok.1 h
      have hin := Format.inRange_unpackFrom hv
      exact ⟨isUnsigned_natCast hin.1, isUnsigned_natCast hin.2.1⟩
    · obtain ⟨v, hv, rfl⟩ := map_eq_ok.1 h
      have hin := Format.inRange_unpackFrom hv
      have hlt : ofBytes v.1 < 256 ^ AddrKind.ipv4.size :=
        (ofBytes_lt v.1).trans_le (Nat.pow_le_pow_right (by decide) hin.1)
      exact ⟨⟨_, hlt, rfl⟩, isUnsigned_natCast hin.2.1⟩
    · obtain ⟨v, hv, rfl⟩ := map_eq_ok.1 h
      have hin := Format.inRange_unpackFrom hv
      exact ⟨isUnsigned_natCast hin.1, isUnsigned_natCast hin.2.1⟩
    · cases h
  · cases h

end RouteDistinguisher

end Ryu.Bgp.Wire
