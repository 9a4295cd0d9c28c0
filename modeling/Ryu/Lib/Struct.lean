import Ryu.Lib.Codec

/-! # Packed records

The formats of `struct` in network byte order: unsigned numbers, strings of a fixed size, and
octets that are skipped. The values of a format are a tuple of numbers and strings, which is read
back from the octets packed from it, provided the strings have the sizes of the format.
-/

namespace Ryu

open Bytes

/-- A field of a format: `B`, `H` or `I`, an `s` with a size, or an `x` with a size. -/
inductive FormatField
  | num (size : ℕ)
  | str (size : ℕ)
  | pad (size : ℕ)
  deriving DecidableEq, Repr

abbrev Format := List FormatField

namespace Format

/-- What is packed by a format. -/
@[reducible] def Values : Format → Type
  | [] => Unit
  | .num _ :: fmt => ℕ × Values fmt
  | .str _ :: fmt => List UInt8 × Values fmt
  | .pad _ :: fmt => Values fmt

/-- `struct.calcsize`. -/
def calcsize : Format → ℕ
  | [] => 0
  | .num size :: fmt | .str size :: fmt | .pad size :: fmt => size + calcsize fmt

/-- `struct.pack`. A string is cut, or filled with zeros. -/
def pack : (fmt : Format) → fmt.Values → Except PyError (List UInt8)
  | [], _ => .ok []
  | .num size :: fmt, (v, vals) =>
    match packInto size v with
    | .error e => .error e
    | .ok b => (pack fmt vals).map (b ++ ·)
  | .str size :: fmt, (s, vals) => (pack fmt vals).map (padRight (s.take size) size ++ ·)
  | .pad size :: fmt, vals => (pack fmt vals).map (List.replicate size 0 ++ ·)

def unpack : (fmt : Format) → List UInt8 → fmt.Values
  | [], _ => ()
  | .num size :: fmt, b => (ofBytes (b.take size), unpack fmt (b.drop size))
  | .str size :: fmt, b => (b.take size, unpack fmt (b.drop size))
  | .pad size :: fmt, b => unpack fmt (b.drop size)

/-- `struct.unpack_from`. -/
def unpackFrom (fmt : Format) (buf : List UInt8) : Except PyError fmt.Values :=
  if buf.length < fmt.calcsize then .error structError else .ok (fmt.unpack buf)

/-- The strings have the sizes of the format. -/
def Exact : (fmt : Format) → fmt.Values → Prop
  | [], _ => True
  | .num _ :: fmt, (_, vals) => Exact fmt vals
  | .str size :: fmt, (s, vals) => s.length = size ∧ Exact fmt vals
  | .pad _ :: fmt, vals => Exact fmt vals

/-- The numbers fit their sizes, and no string is longer than its own. -/
def InRange : (fmt : Format) → fmt.Values → Prop
  | [], _ => True
  | .num size :: fmt, (v, vals) => v < 256 ^ size ∧ InRange fmt vals
  | .str size :: fmt, (s, vals) => s.length ≤ size ∧ InRange fmt vals
  | .pad _ :: fmt, vals => InRange fmt vals

/-- The numbers fit their sizes. -/
def Fits : (fmt : Format) → fmt.Values → Prop
  | [], _ => True
  | .num size :: fmt, (v, vals) => v < 256 ^ size ∧ Fits fmt vals
  | .str _ :: fmt, (_, vals) => Fits fmt vals
  | .pad _ :: fmt, vals => Fits fmt vals

/-- The octets of a record whose numbers fit. -/
def bytes : (fmt : Format) → fmt.Values → List UInt8
  | [], _ => []
  | .num size :: fmt, (v, vals) => toBytes size v ++ bytes fmt vals
  | .str size :: fmt, (s, vals) => padRight (s.take size) size ++ bytes fmt vals
  | .pad size :: fmt, vals => List.replicate size 0 ++ bytes fmt vals

/-- The strings as they are packed. -/
def padded : (fmt : Format) → fmt.Values → fmt.Values
  | [], _ => ()
  | .num _ :: fmt, (v, vals) => (v, padded fmt vals)
  | .str size :: fmt, (s, vals) => (padRight (s.take size) size, padded fmt vals)
  | .pad _ :: fmt, vals => padded fmt vals

attribute [local simp] pack unpack bytes Fits

variable {fmt : Format} {vals : fmt.Values} {b r : List UInt8}

theorem pack_eq_ok_iff : fmt.pack vals = .ok b ↔ fmt.Fits vals ∧ fmt.bytes vals = b := by
  induction fmt generalizing b with
  | nil => simp
  | cons f fmt ih =>
    cases f with
    | num size =>
      obtain ⟨v, vals⟩ := vals
      rw [pack, packInto]
      by_cases hv : v < 256 ^ size
      · simp [hv, map_eq_ok, ih, and_assoc]
      · simp [hv]
    | str size | pad size => simp [map_eq_ok, ih, and_assoc]

theorem isOk_pack_iff : (fmt.pack vals).isOk ↔ fmt.Fits vals := by
  simp [isOk_iff, pack_eq_ok_iff]

theorem length_padRight_take (s : List UInt8) (size : ℕ) :
    (padRight (s.take size) size).length = size := by
  rw [padRight, List.length_append, List.length_replicate, List.length_take]
  omega

theorem length_pack (h : fmt.pack vals = .ok b) : b.length = fmt.calcsize := by
  induction fmt generalizing b with
  | nil =>
    obtain rfl := Except.ok.inj h
    rfl
  | cons f fmt ih =>
    cases f with
    | num size =>
      rw [pack] at h
      split at h
      · cases h
      · next a ha =>
        obtain ⟨rest, hrest, rfl⟩ := map_eq_ok.1 h
        obtain ⟨-, rfl⟩ := packInto_eq_ok.1 ha
        rw [List.length_append, length_toBytes, ih hrest, calcsize]
    | str size =>
      obtain ⟨rest, hrest, rfl⟩ := map_eq_ok.1 h
      rw [List.length_append, length_padRight_take, ih hrest, calcsize]
    | pad size =>
      obtain ⟨rest, hrest, rfl⟩ := map_eq_ok.1 h
      rw [List.length_append, List.length_replicate, ih hrest, calcsize]

theorem unpack_pack (h : fmt.pack vals = .ok b) (he : fmt.Exact vals) (r : List UInt8) :
    fmt.unpack (b ++ r) = vals := by
  induction fmt generalizing b with
  | nil => rfl
  | cons f fmt ih =>
    cases f with
    | num size =>
      rw [pack] at h
      split at h
      · cases h
      · next a ha =>
        obtain ⟨rest, hrest, rfl⟩ := map_eq_ok.1 h
        obtain ⟨hv, rfl⟩ := packInto_eq_ok.1 ha
        rw [unpack, List.append_assoc, List.take_left' (length_toBytes ..),
          List.drop_left' (length_toBytes ..), ih hrest he, ofBytes_toBytes, Nat.mod_eq_of_lt hv]
    | str size =>
      obtain ⟨rest, hrest, rfl⟩ := map_eq_ok.1 h
      have hpad : padRight (vals.1.take size) size = vals.1 := by
        rw [List.take_of_length_le he.1.le, padRight, he.1, Nat.sub_self, List.replicate_zero,
          List.append_nil]
      rw [unpack, List.append_assoc, hpad, List.take_left' he.1, List.drop_left' he.1,
        ih hrest he.2]
    | pad size =>
      obtain ⟨rest, hrest, rfl⟩ := map_eq_ok.1 h
      rw [unpack, List.append_assoc, List.drop_left' (List.length_replicate ..), ih hrest he]

theorem inRange_unpack (fmt : Format) (b : List UInt8) : fmt.InRange (fmt.unpack b) := by
  induction fmt generalizing b with
  | nil => trivial
  | cons f fmt ih =>
    cases f with
    | num size =>
      refine ⟨(ofBytes_lt _).trans_le ?_, ih _⟩
      exact Nat.pow_le_pow_right (by decide) (List.length_take_le ..)
    | str size => exact ⟨List.length_take_le .., ih _⟩
    | pad size => exact ih _

/-- What is unpacked is in range. -/
theorem inRange_unpackFrom (h : fmt.unpackFrom b = .ok vals) : fmt.InRange vals := by
  rw [unpackFrom] at h
  split at h
  · cases h
  · obtain rfl := Except.ok.inj h
    exact inRange_unpack fmt b

theorem unpack_append (h : fmt.calcsize ≤ b.length) (r : List UInt8) :
    fmt.unpack (b ++ r) = fmt.unpack b := by
  induction fmt generalizing b with
  | nil => rfl
  | cons f fmt ih =>
    cases f with
    | num size | str size | pad size =>
      rw [calcsize] at h
      have hsize : size ≤ b.length := by omega
      have hrest : calcsize fmt ≤ (b.drop size).length := by
        rw [List.length_drop]
        omega
      simp only [unpack, List.take_append_of_le_length hsize,
        List.drop_append_of_le_length hsize, ih hrest]

theorem calcsize_le (h : fmt.unpackFrom b = .ok vals) : fmt.calcsize ≤ b.length := by
  rw [unpackFrom] at h
  split at h
  · cases h
  · omega

theorem unpack_of_unpackFrom (h : fmt.unpackFrom b = .ok vals) : fmt.unpack b = vals := by
  rw [unpackFrom] at h
  split at h
  · cases h
  · exact Except.ok.inj h

/-- What is behind the record does not matter. -/
theorem unpackFrom_append (h : fmt.unpackFrom b = .ok vals) (r : List UInt8) :
    fmt.unpackFrom (b ++ r) = .ok vals := by
  have hle := calcsize_le h
  rw [unpackFrom, if_neg (by omega)] at h
  rw [unpackFrom, if_neg (by rw [List.length_append]; omega), unpack_append hle, ← h]

/-- A number of one octet is the first octet. -/
theorem headD_pack {v : ℕ} (h : Format.pack (.num 1 :: fmt) (v, vals) = .ok b) :
    (b.headD 0).toNat = v := by
  rw [pack] at h
  split at h
  · cases h
  · next a ha =>
    obtain ⟨rest, -, rfl⟩ := map_eq_ok.1 h
    obtain ⟨hv, rfl⟩ := packInto_eq_ok.1 ha
    have hmod : v / 256 ^ 0 % 256 = v := by omega
    exact UInt8.toNat_ofNat'.trans hmod

/-- A packed number fits its size, and the rest is packed behind it. -/
theorem pack_num {size v : ℕ} (h : Format.pack (.num size :: fmt) (v, vals) = .ok b) :
    v < 256 ^ size ∧ ∃ rest, fmt.pack vals = .ok rest := by
  rw [pack] at h
  split at h
  · cases h
  · next a ha =>
    obtain ⟨rest, hrest, -⟩ := map_eq_ok.1 h
    exact ⟨(packInto_eq_ok.1 ha).1, rest, hrest⟩

theorem pack_num_of_lt {size v : ℕ} (h : v < 256 ^ size) :
    Format.pack (.num size :: fmt) (v, vals) = (fmt.pack vals).map (toBytes size v ++ ·) := by
  rw [pack, packInto, if_pos h]

/-- What is packed is read back, whatever is behind it. -/
theorem unpackFrom_pack (h : fmt.pack vals = .ok b) (he : fmt.Exact vals) (r : List UInt8) :
    fmt.unpackFrom (b ++ r) = .ok vals := by
  have hlen := length_pack h
  rw [unpackFrom, if_neg, unpack_pack h he]
  rw [List.length_append]
  omega

theorem pack_bytes (h : fmt.Fits vals) : fmt.pack vals = .ok (fmt.bytes vals) :=
  pack_eq_ok_iff.2 ⟨h, rfl⟩

theorem unpackFrom_bytes (h : fmt.Fits vals) (he : fmt.Exact vals) (r : List UInt8) :
    fmt.unpackFrom (fmt.bytes vals ++ r) = .ok vals :=
  unpackFrom_pack (pack_bytes h) he r

theorem bytes_padded (fmt : Format) (vals : fmt.Values) :
    fmt.bytes (fmt.padded vals) = fmt.bytes vals := by
  induction fmt with
  | nil => rfl
  | cons f fmt ih =>
    cases f with
    | num size | pad size => simp only [padded, bytes, ih]
    | str size =>
      have hlen := length_padRight_take vals.1 size
      have hpad : padRight ((padRight (vals.1.take size) size).take size) size =
          padRight (vals.1.take size) size := by
        rw [List.take_of_length_le hlen.le, padRight, hlen, Nat.sub_self, List.replicate_zero,
          List.append_nil]
      simp only [padded, bytes, ih, hpad]

theorem exact_padded (fmt : Format) (vals : fmt.Values) : fmt.Exact (fmt.padded vals) := by
  induction fmt with
  | nil => trivial
  | cons f fmt ih =>
    cases f with
    | num size | pad size => exact ih _
    | str size => exact ⟨length_padRight_take .., ih _⟩

theorem fits_padded (h : fmt.Fits vals) : fmt.Fits (fmt.padded vals) := by
  induction fmt with
  | nil => trivial
  | cons f fmt ih =>
    cases f with
    | num size => exact ⟨h.1, ih h.2⟩
    | str size | pad size => exact ih h

/-- The strings are read back as they are packed. -/
theorem unpackFrom_bytes_padded (h : fmt.Fits vals) (r : List UInt8) :
    fmt.unpackFrom (fmt.bytes vals ++ r) = .ok (fmt.padded vals) := by
  rw [← bytes_padded]
  exact unpackFrom_bytes (fits_padded h) (exact_padded ..) r

theorem unpackFrom_packed (h : fmt.pack vals = .ok b) (he : fmt.Exact vals) :
    fmt.unpackFrom b = .ok vals := by
  have hread := unpackFrom_pack h he []
  rwa [List.append_nil] at hread

/-- All fields are numbers. -/
def Numeric : Format → Prop
  | [] => True
  | .num _ :: fmt => Numeric fmt
  | .str _ :: _ => False
  | .pad _ :: _ => False

theorem Numeric.exact (hn : fmt.Numeric) (vals : fmt.Values) : fmt.Exact vals := by
  induction fmt with
  | nil => trivial
  | cons f fmt ih =>
    cases f with
    | num size => exact ih hn vals.2
    | str size => exact hn.elim
    | pad size => exact hn.elim

theorem fits_of_inRange (h : fmt.InRange vals) : fmt.Fits vals := by
  induction fmt with
  | nil => trivial
  | cons f fmt ih =>
    cases f with
    | num size => exact ⟨h.1, ih h.2⟩
    | str size => exact ih h.2
    | pad size => exact ih h

/-- Numbers are packed to the octets they were unpacked from. -/
theorem Numeric.bytes_unpack (hn : fmt.Numeric) (h : fmt.calcsize ≤ b.length) :
    fmt.bytes (fmt.unpack b) = b.take fmt.calcsize := by
  induction fmt generalizing b with
  | nil => rfl
  | cons f fmt ih =>
    cases f with
    | num size =>
      rw [calcsize] at h
      have hsize : (b.take size).length = size := List.length_take_of_le (by omega)
      have hrest : calcsize fmt ≤ (b.drop size).length := by
        rw [List.length_drop]
        omega
      have hnum := toBytes_ofBytes (b.take size)
      rw [hsize] at hnum
      rw [unpack, bytes, ih hn hrest, hnum, calcsize, List.take_add]
    | str size => exact hn.elim
    | pad size => exact hn.elim

theorem length_bytes (h : fmt.Fits vals) : (fmt.bytes vals).length = fmt.calcsize :=
  length_pack (pack_bytes h)

/-- Numbers are unpacked just from the octets they are packed to. -/
theorem Numeric.unpackFrom_eq_ok_iff (hn : fmt.Numeric) :
    fmt.unpackFrom b = .ok vals ↔ fmt.Fits vals ∧ ∃ r, b = fmt.bytes vals ++ r := by
  constructor
  · intro h
    have hle := calcsize_le h
    refine ⟨fits_of_inRange (inRange_unpackFrom h), b.drop fmt.calcsize, ?_⟩
    rw [unpackFrom, if_neg (not_lt.mpr hle)] at h
    rw [← Except.ok.inj h, hn.bytes_unpack hle, List.take_append_drop]
  · rintro ⟨hfits, r, rfl⟩
    exact unpackFrom_bytes hfits (hn.exact vals) r

/-- A string is read back as long as its format is. -/
theorem unpackFrom_str {v : List UInt8} (r : List UInt8) :
    Format.unpackFrom [.str v.length] (v ++ r) = .ok (v, ()) := by
  have hpack : Format.pack [.str v.length] (v, ()) = .ok v := by
    have hpad : padRight (v.take v.length) v.length = v := by
      rw [List.take_length, padRight, Nat.sub_self, List.replicate_zero, List.append_nil]
    change Except.ok (padRight (v.take v.length) v.length ++ []) = _
    rw [hpad, List.append_nil]
  exact unpackFrom_pack hpack ⟨rfl, trivial⟩ r

/-- A string that is read is the front of the buffer. -/
theorem unpackFrom_str_iff {n : ℕ} {v : List UInt8} :
    Format.unpackFrom [.str n] b = .ok (v, ()) ↔ v.length = n ∧ ∃ r, b = v ++ r := by
  constructor
  · intro h
    have hle := calcsize_le h
    obtain rfl : b.take n = v := congrArg Prod.fst (unpack_of_unpackFrom h)
    exact ⟨List.length_take_of_le hle, b.drop n, (List.take_append_drop n b).symm⟩
  · rintro ⟨rfl, r, rfl⟩
    exact unpackFrom_str r

end Format

end Ryu
