import Ryu.Lib.BitFields
import Ryu.Packet.Checksum

/-! # IPv4

The total length is computed where it is zero, and the checksum always. Options are filled up with
zeros to the length of the header, and read with these.
-/

namespace Ryu.Packet

open Bytes

/-- `ipv4`, with its addresses as numbers. -/
structure Ipv4 where
  version : ℕ
  headerLength : ℕ
  tos : ℕ
  totalLength : ℕ
  identification : ℕ
  flags : ℕ
  offset : ℕ
  ttl : ℕ
  proto : ℕ
  csum : ℕ
  src : BitVec 32
  dst : BitVec 32
  option : Option (List UInt8)
  deriving DecidableEq, Repr

namespace Ipv4

/-- `!BBHHHBBH4s4s`, the addresses as numbers. -/
@[reducible] def packStr : Format :=
  [.num 1, .num 1, .num 2, .num 2, .num 2, .num 1, .num 1, .num 2, .num 4, .num 4]

variable (p : Ipv4)

/-- `__len__`. -/
def len : ℕ := p.headerLength * 4

def values : packStr.Values :=
  (p.version <<< 4 ||| p.headerLength, p.tos, p.totalLength, p.identification,
    p.flags <<< 13 ||| p.offset, p.ttl, p.proto, p.csum, p.src.toNat, p.dst.toNat, ())

/-- `parser`: the header, and the payload that the total length leaves. -/
def parser (buf : List UInt8) : Except PyError (Ipv4 × List UInt8) :=
  (packStr.unpackFrom buf).map
    fun (version, tos, totalLength, identification, flags, ttl, proto, csum, src, dst, ()) =>
      let headerLength := version &&& 0xf
      let length := headerLength * 4
      (⟨version >>> 4, headerLength, tos, totalLength, identification, flags >>> 13,
        flags &&& 0x1fff, ttl, proto, csum, BitVec.ofNat 32 src, BitVec.ofNat 32 dst,
        if packStr.calcsize < length then
          some ((buf.drop packStr.calcsize).take (length - packStr.calcsize))
        else none⟩,
        (buf.drop length).take (totalLength - length))

/-- `serialize`, with what is left of the header. -/
def serialize (payload : List UInt8) : Except PyError (List UInt8 × Ipv4) :=
  let length := p.len
  let totalLength := if p.totalLength = 0 then length + payload.length else p.totalLength
  if length < packStr.calcsize then .error structError
  else
    match packStr.pack { p with totalLength, csum := 0 }.values with
    | .error e => .error e
    | .ok hdr =>
      let option := p.option.getD []
      if length - packStr.calcsize < option.length then .error .assertionError
      else
        let hdr := hdr ++ padRight option (length - packStr.calcsize)
        let csum := checksum hdr
        (packInto 2 csum).map fun b =>
          (hdr.take 10 ++ b ++ hdr.drop 12, { p with totalLength, csum })

/-- The numbers fit their fields, the options fill the header, and the total length has room for the
header and so many octets. -/
structure Fits (p : Ipv4) (n : ℕ) : Prop where
  version : p.version < 2 ^ 4
  minLength : 5 ≤ p.headerLength
  maxLength : p.headerLength < 2 ^ 4
  tos : p.tos < 256
  identification : p.identification < 2 ^ 16
  flags : p.flags < 2 ^ 3
  offset : p.offset < 2 ^ 13
  ttl : p.ttl < 256
  proto : p.proto < 256
  total : if p.totalLength = 0 then p.len + n < 2 ^ 16
    else p.len + n ≤ p.totalLength ∧ p.totalLength < 2 ^ 16
  option : if p.headerLength = 5 then p.option = none
    else ∃ o, p.option = some o ∧ packStr.calcsize + o.length = p.len

variable {p : Ipv4} {n : ℕ}

/-- The checksum is put in its place. -/
theorem bytes_csum (p : Ipv4) (csum : ℕ) (o : List UInt8) :
    (packStr.bytes { p with csum := 0 }.values ++ o).take 10 ++ toBytes 2 csum ++
      (packStr.bytes { p with csum := 0 }.values ++ o).drop 12 =
      packStr.bytes { p with csum := csum }.values ++ o := by
  rfl

/-- The header is read back, with as much behind it as the total length says. -/
theorem parser_serialize {payload : List UInt8} (h : p.Fits payload.length) :
    ∃ b p', p.serialize payload = .ok (b, p') ∧ b.length = p.len ∧
      p' = { p with totalLength := p'.totalLength, csum := p'.csum } ∧
      p'.totalLength = (if p.totalLength = 0 then p.len + payload.length else p.totalLength) ∧
      p'.len + payload.length ≤ p'.totalLength ∧
      (∃ r, b = toBytes 1 (p.version <<< 4 ||| p.headerLength) ++ r) ∧
      ∀ rest, parser (b ++ rest) = .ok (p', rest.take (p'.totalLength - p'.len)) := by
  let total := if p.totalLength = 0 then p.len + payload.length else p.totalLength
  have htotal : p.len + payload.length ≤ total ∧ total < 2 ^ 16 := by
    have ht := h.total
    simp only [total]
    split_ifs at ht ⊢
    · exact ⟨le_rfl, ht⟩
    · exact ht
  have hlen : ¬ p.len < packStr.calcsize := by
    have := h.minLength
    simp only [len, Format.calcsize]
    omega
  have hoption : packStr.calcsize + (p.option.getD []).length = p.len := by
    have ho := h.option
    split_ifs at ho with hfive
    · rw [ho, len, hfive]
      rfl
    · obtain ⟨o, ho, hfill⟩ := ho
      rw [ho]
      exact hfill
  have hpad : padRight (p.option.getD []) (p.len - packStr.calcsize) = p.option.getD [] := by
    rw [← hoption, Nat.add_sub_cancel_left, padRight, Nat.sub_self, List.replicate_zero,
      List.append_nil]
  have hfits (csum : ℕ) (hcsum : csum < 2 ^ 16) :
      packStr.Fits { p with totalLength := total, csum }.values := by
    refine ⟨?_, h.tos, htotal.2, h.identification, ?_, h.ttl, h.proto, hcsum, ?_, ?_, trivial⟩
    · rw [show 256 ^ 1 = 2 ^ (4 + 4) from rfl]
      exact (BitFields.shiftLeft_or_lt_iff h.maxLength).2 h.version
    · rw [show 256 ^ 2 = 2 ^ (3 + 13) from rfl]
      exact (BitFields.shiftLeft_or_lt_iff h.offset).2 h.flags
    · exact p.src.isLt
    · exact p.dst.isLt
  let csum := checksum (packStr.bytes { p with totalLength := total, csum := 0 }.values ++
    p.option.getD [])
  have hcsum : csum < 2 ^ 16 := checksum_lt _
  let q : Ipv4 := { p with totalLength := total, csum }
  refine ⟨packStr.bytes q.values ++ p.option.getD [], q, ?_, ?_, rfl, rfl, htotal.1, ⟨_, rfl⟩,
    fun rest => ?_⟩
  · have hpack : packStr.pack { p with totalLength := total, csum := 0 }.values =
        .ok (packStr.bytes { p with totalLength := total, csum := 0 }.values) :=
      Format.pack_bytes (hfits 0 (by decide))
    have hput : packInto 2 csum = .ok (toBytes 2 csum) := by
      rw [packInto, if_pos (show csum < 256 ^ 2 from hcsum)]
    simp only [serialize]
    rw [if_neg hlen, hpack]
    simp only
    rw [if_neg (by omega), hpad, hput]
    exact congrArg (fun b => Except.ok (b, q)) (bytes_csum { p with totalLength := total } csum _)
  · rw [List.length_append, Format.length_bytes (hfits csum hcsum), hoption]
  · rw [parser, List.append_assoc, Format.unpackFrom_bytes (hfits csum hcsum) trivial]
    have hdrop : (packStr.bytes q.values ++ (p.option.getD [] ++ rest)).drop packStr.calcsize =
        p.option.getD [] ++ rest := List.drop_left' (Format.length_bytes (hfits csum hcsum))
    have hrest : (packStr.bytes q.values ++ (p.option.getD [] ++ rest)).drop (p.headerLength * 4) =
        rest := by
      rw [← List.append_assoc]
      refine List.drop_left' ?_
      rw [List.length_append, Format.length_bytes (hfits csum hcsum)]
      exact hoption
    have hlow : (p.version <<< 4 ||| p.headerLength) &&& 0xf = p.headerLength :=
      BitFields.shiftLeft_or_and h.maxLength
    have hflags : (p.flags <<< 13 ||| p.offset) &&& 0x1fff = p.offset :=
      BitFields.shiftLeft_or_and h.offset
    have hopt : (if packStr.calcsize < p.headerLength * 4 then
        some ((p.option.getD [] ++ rest).take (p.headerLength * 4 - packStr.calcsize))
        else none) = p.option := by
      have ho := h.option
      split_ifs at ho with hfive
      · rw [hfive, if_neg (by decide), ho]
      · obtain ⟨o, ho, hfill⟩ := ho
        have hmin := h.minLength
        rw [len] at hfill
        rw [if_pos (by simp only [Format.calcsize] at *; omega), ho, Option.getD_some, ← hfill,
          Nat.add_sub_cancel_left, List.take_left']
        rfl
    simp only [Except.map, q, values, BitFields.shiftRight_shiftLeft_or h.maxLength,
      BitFields.shiftRight_shiftLeft_or h.offset, hlow, hflags, BitVec.ofNat_toNat,
      BitVec.setWidth_eq] at hdrop hrest ⊢
    rw [hdrop, hrest, hopt]
    rfl

end Ipv4

end Ryu.Packet
