import Ryu.Lib.Items
import Ryu.Lib.Struct

/-! # TCP options

The options of `tcp`, each with a kind and a length of its own beside what its class holds. Three
classes compute their length when they are serialized, the others write the one they have. The
parsers of most classes take the kind and the length of the class, whatever the bytes say.
-/

namespace Ryu.Packet

open Bytes

/-- The class of an option, with the attributes of its own. -/
inductive TcpOptionBody
  | unknown (value : List UInt8)
  | endOfOptionList
  | noOperation
  | maximumSegmentSize (maxSegSize : ℕ)
  | windowScale (shiftCnt : ℕ)
  | sackPermitted
  | sack (blocks : List (ℕ × ℕ))
  | timestamps (tsVal tsEcr : ℕ)
  | userTimeout (granularity userTimeout : ℕ)
  | authentication (keyId rNextKeyId : ℕ) (mac : List UInt8)
  deriving DecidableEq, Repr

structure TcpOption where
  kind : ℕ
  length : ℕ
  body : TcpOptionBody
  deriving DecidableEq, Repr

namespace TcpOptionBody

/-- `cls_kind`, which an unknown option does not have. -/
def clsKind : TcpOptionBody → Option ℕ
  | .unknown _ => none
  | .endOfOptionList => some 0
  | .noOperation => some 1
  | .maximumSegmentSize _ => some 2
  | .windowScale _ => some 3
  | .sackPermitted => some 4
  | .sack _ => some 5
  | .timestamps .. => some 8
  | .userTimeout .. => some 28
  | .authentication .. => some 29

/-- `cls_length`. -/
def clsLength : TcpOptionBody → ℕ
  | .unknown _ => 2
  | .endOfOptionList => 1
  | .noOperation => 1
  | .maximumSegmentSize _ => 4
  | .windowScale _ => 3
  | .sackPermitted => 2
  | .sack _ => 2
  | .timestamps .. => 10
  | .userTimeout .. => 4
  | .authentication .. => 4

/-- What is counted beside `cls_length`. -/
def extra : TcpOptionBody → ℕ
  | .unknown value => value.length
  | .sack blocks => 8 * blocks.length
  | .authentication _ _ mac => mac.length
  | _ => 0

/-- The bytes of an option. -/
def size (b : TcpOptionBody) : ℕ := b.clsLength + b.extra

end TcpOptionBody

namespace TcpOption

/-- The registered kinds. -/
def kinds : List ℕ := [0, 1, 2, 3, 4, 5, 8, 28, 29]

def packBlock (b : ℕ × ℕ) : Except PyError (List UInt8) := Format.pack [.num 4, .num 4] (b.1, b.2, ())

/-- `serialize`, with what is left of the option. -/
def serialize (o : TcpOption) : Except PyError (List UInt8 × TcpOption) :=
  match o.body with
  | .unknown value => do
    let o := { o with length := 2 + value.length }
    let b ← Format.pack [.num 1, .num 1] (o.kind, o.length, ())
    return (b ++ value, o)
  | .endOfOptionList => (Format.pack [.num 1] (0, ())).map (·, o)
  | .noOperation => (Format.pack [.num 1] (1, ())).map (·, o)
  | .maximumSegmentSize maxSegSize =>
    (Format.pack [.num 1, .num 1, .num 2] (o.kind, o.length, maxSegSize, ())).map (·, o)
  | .windowScale shiftCnt =>
    (Format.pack [.num 1, .num 1, .num 1] (o.kind, o.length, shiftCnt, ())).map (·, o)
  | .sackPermitted => (Format.pack [.num 1, .num 1] (o.kind, o.length, ())).map (·, o)
  | .sack blocks => do
    let buf ← writeAll packBlock blocks
    let o := { o with length := 2 + buf.length }
    let b ← Format.pack [.num 1, .num 1] (o.kind, o.length, ())
    return (b ++ buf, o)
  | .timestamps tsVal tsEcr =>
    (Format.pack [.num 1, .num 1, .num 4, .num 4] (o.kind, o.length, tsVal, tsEcr, ())).map (·, o)
  | .userTimeout granularity userTimeout =>
    (Format.pack [.num 1, .num 1, .num 2]
      (o.kind, o.length, (granularity <<< 15) ||| userTimeout, ())).map (·, o)
  | .authentication keyId rNextKeyId mac => do
    let o := { o with length := 4 + mac.length }
    let b ← Format.pack [.num 1, .num 1, .num 1, .num 1] (o.kind, o.length, keyId, rNextKeyId, ())
    return (b ++ mac, o)

/-- A block of `TCPOptionSACK`. -/
def readBlock (buf : List UInt8) : Except PyError ((ℕ × ℕ) × List UInt8) :=
  (Format.unpackFrom [.num 4, .num 4] buf).map fun v => ((v.1, v.2.1), buf.drop 8)

/-- The blocks of `TCPOptionSACK`. A block takes eight bytes off, so that the loop ends. -/
def readBlocks (buf : List UInt8) : Except PyError (List (ℕ × ℕ)) :=
  (readItems readBlock buf.length buf).getD (.ok [])

/-- `parse` of the class of a kind. -/
def parse (kind : ℕ) (buf : List UInt8) : Except PyError (TcpOption × List UInt8) := do
  match kind with
  | 0 => return (⟨0, 1, .endOfOptionList⟩, buf.drop 1)
  | 1 => return (⟨1, 1, .noOperation⟩, buf.drop 1)
  | 2 =>
    let (_, _, maxSegSize, ()) ← Format.unpackFrom [.num 1, .num 1, .num 2] buf
    return (⟨2, 4, .maximumSegmentSize maxSegSize⟩, buf.drop 4)
  | 3 =>
    let (_, _, shiftCnt, ()) ← Format.unpackFrom [.num 1, .num 1, .num 1] buf
    return (⟨3, 3, .windowScale shiftCnt⟩, buf.drop 3)
  | 4 => return (⟨4, 2, .sackPermitted⟩, buf.drop 2)
  | 5 =>
    let (_, length, ()) ← Format.unpackFrom [.num 1, .num 1] buf
    let blocks ← readBlocks ((buf.take length).drop 2)
    return (⟨5, length, .sack blocks⟩, buf.drop length)
  | 8 =>
    let (_, _, tsVal, tsEcr, ()) ← Format.unpackFrom [.num 1, .num 1, .num 4, .num 4] buf
    return (⟨8, 10, .timestamps tsVal tsEcr⟩, buf.drop 10)
  | 28 =>
    let (_, _, body, ()) ← Format.unpackFrom [.num 1, .num 1, .num 2] buf
    return (⟨28, 4, .userTimeout (body >>> 15) (body &&& 0x7fff)⟩, buf.drop 4)
  | 29 =>
    let (_, length, keyId, rNextKeyId, ()) ←
      Format.unpackFrom [.num 1, .num 1, .num 1, .num 1] buf
    return (⟨29, length, .authentication keyId rNextKeyId ((buf.take length).drop 4)⟩,
      buf.drop length)
  | _ =>
    let (kind, length, ()) ← Format.unpackFrom [.num 1, .num 1] buf
    return (⟨kind, length, .unknown ((buf.take length).drop 2)⟩, buf.drop length)

/-- `parser`. -/
def read (buf : List UInt8) : Except PyError (TcpOption × List UInt8) := do
  let (kind, ()) ← Format.unpackFrom [.num 1] buf
  parse kind buf

/-- The attributes of an option fit, and its kind, and its length where that is not computed, are
those of its class. -/
def Canonical (o : TcpOption) : Prop :=
  match o.body with
  | .unknown value => o.kind < 2 ^ 8 ∧ o.kind ∉ kinds ∧ 2 + value.length < 2 ^ 8
  | .endOfOptionList => o.kind = 0 ∧ o.length = 1
  | .noOperation => o.kind = 1 ∧ o.length = 1
  | .maximumSegmentSize maxSegSize => o.kind = 2 ∧ o.length = 4 ∧ maxSegSize < 2 ^ 16
  | .windowScale shiftCnt => o.kind = 3 ∧ o.length = 3 ∧ shiftCnt < 2 ^ 8
  | .sackPermitted => o.kind = 4 ∧ o.length = 2
  | .sack blocks =>
    o.kind = 5 ∧ 2 + 8 * blocks.length < 2 ^ 8 ∧ ∀ b ∈ blocks, b.1 < 2 ^ 32 ∧ b.2 < 2 ^ 32
  | .timestamps tsVal tsEcr => o.kind = 8 ∧ o.length = 10 ∧ tsVal < 2 ^ 32 ∧ tsEcr < 2 ^ 32
  | .userTimeout granularity userTimeout =>
    o.kind = 28 ∧ o.length = 4 ∧ granularity < 2 ∧ userTimeout < 2 ^ 15
  | .authentication keyId rNextKeyId mac =>
    o.kind = 29 ∧ 4 + mac.length < 2 ^ 8 ∧ keyId < 2 ^ 8 ∧ rNextKeyId < 2 ^ 8

variable {o o' : TcpOption} {b r r' : List UInt8} {kind : ℕ}

/-! ## What is parsed -/

/-- The kind, and the length where it is not computed, are those of the class, and the parts of a
user timeout have their bits. -/
def Plausible (o : TcpOption) : Prop :=
  match o.body with
  | .unknown _ => o.kind ∉ kinds
  | .sack _ => o.kind = 5
  | .userTimeout granularity userTimeout =>
    o.kind = 28 ∧ o.length = 4 ∧ granularity < 2 ∧ userTimeout < 2 ^ 15
  | .authentication .. => o.kind = 29
  | body => body.clsKind = some o.kind ∧ o.length = body.clsLength

/-- The kind is read twice. -/
theorem kind_eq_of_unpackFrom {fmt : Format} {v : fmt.Values} {k k' : ℕ}
    (h : Format.unpackFrom [.num 1] b = .ok (k, ()))
    (h' : Format.unpackFrom (.num 1 :: fmt) b = .ok (k', v)) : k' = k := by
  rw [Format.unpackFrom] at h h'
  split at h
  · cases h
  · split at h'
    · cases h'
    · have hk := (Prod.mk.inj (Except.ok.inj h)).1
      have hk' := (Prod.mk.inj (Except.ok.inj h')).1
      exact hk'.symm.trans hk

theorem plausible_of_read (h : read b = .ok (o, r)) : o.Plausible := by
  obtain ⟨⟨kind, ⟨⟩⟩, hkind, h⟩ := bind_eq_ok.1 h
  dsimp only [parse] at h
  split at h
  · obtain ⟨rfl, -⟩ := Prod.mk.inj (Except.ok.inj h)
    exact ⟨rfl, rfl⟩
  · obtain ⟨rfl, -⟩ := Prod.mk.inj (Except.ok.inj h)
    exact ⟨rfl, rfl⟩
  · obtain ⟨v, -, h⟩ := bind_eq_ok.1 h
    obtain ⟨rfl, -⟩ := Prod.mk.inj (Except.ok.inj h)
    exact ⟨rfl, rfl⟩
  · obtain ⟨v, -, h⟩ := bind_eq_ok.1 h
    obtain ⟨rfl, -⟩ := Prod.mk.inj (Except.ok.inj h)
    exact ⟨rfl, rfl⟩
  · obtain ⟨rfl, -⟩ := Prod.mk.inj (Except.ok.inj h)
    exact ⟨rfl, rfl⟩
  · obtain ⟨v, -, h⟩ := bind_eq_ok.1 h
    obtain ⟨blocks, -, h⟩ := bind_eq_ok.1 h
    obtain ⟨rfl, -⟩ := Prod.mk.inj (Except.ok.inj h)
    exact rfl
  · obtain ⟨v, -, h⟩ := bind_eq_ok.1 h
    obtain ⟨rfl, -⟩ := Prod.mk.inj (Except.ok.inj h)
    exact ⟨rfl, rfl⟩
  · obtain ⟨⟨v1, v2, body, ⟨⟩⟩, hv, h⟩ := bind_eq_ok.1 h
    obtain ⟨rfl, -⟩ := Prod.mk.inj (Except.ok.inj h)
    have hbody : body < 256 ^ 2 := (Format.inRange_unpackFrom hv).2.2.1
    refine ⟨rfl, rfl, ?_, Nat.and_lt_two_pow _ (by decide)⟩
    change body >>> 15 < 2
    rw [Nat.shiftRight_eq_div_pow]
    omega
  · obtain ⟨v, -, h⟩ := bind_eq_ok.1 h
    obtain ⟨rfl, -⟩ := Prod.mk.inj (Except.ok.inj h)
    exact rfl
  · obtain ⟨⟨kind', length, ⟨⟩⟩, hv, h⟩ := bind_eq_ok.1 h
    obtain ⟨rfl, -⟩ := Prod.mk.inj (Except.ok.inj h)
    obtain rfl := kind_eq_of_unpackFrom hkind hv
    simp only [Plausible, kinds, List.mem_cons, List.not_mem_nil, or_false, not_or]
    refine ⟨?_, ?_, ?_, ?_, ?_, ?_, ?_, ?_, ?_⟩ <;> assumption

/-! ## What is serialized -/

theorem packBlock_eq (b : ℕ × ℕ) (h : b.1 < 2 ^ 32 ∧ b.2 < 2 ^ 32) :
    packBlock b = .ok (toBytes 4 b.1 ++ toBytes 4 b.2) := by
  rw [packBlock, Format.pack_eq_ok_iff]
  simpa [Format.Fits, Format.bytes] using h

theorem packBlock_ok {blocks : List (ℕ × ℕ)} (h : writeAll packBlock blocks = .ok b) :
    b.length = 8 * blocks.length ∧ ∀ x ∈ blocks, x.1 < 2 ^ 32 ∧ x.2 < 2 ^ 32 := by
  induction blocks generalizing b with
  | nil =>
    obtain rfl := Except.ok.inj h
    simp
  | cons x blocks ih =>
    obtain ⟨b1, rest, hb1, hrest, rfl⟩ := writeAll_cons_ok h
    obtain ⟨hlen, hall⟩ := ih hrest
    have hfit : x.1 < 2 ^ 32 ∧ x.2 < 2 ^ 32 := by
      simpa [Format.Fits] using (Format.pack_eq_ok_iff.mp hb1).1
    refine ⟨?_, List.forall_mem_cons.mpr ⟨hfit, hall⟩⟩
    rw [List.length_append, hlen, Format.length_pack hb1, List.length_cons]
    simp only [Format.calcsize]
    omega

/-- Of an option that is serialized and then plausible the attributes are right. -/
theorem canonical_of_serialize (h : o.serialize = .ok (b, o')) (hp : o'.Plausible) :
    o.Canonical := by
  obtain ⟨kind, length, body⟩ := o
  cases body with
  | unknown value =>
    obtain ⟨x, hx, h⟩ := bind_eq_ok.1 h
    obtain ⟨-, rfl⟩ := Prod.mk.inj (Except.ok.inj h)
    obtain ⟨hkind, hlen, -⟩ := (Format.pack_eq_ok_iff.mp hx).1
    exact ⟨by simpa using hkind, hp, by simpa using hlen⟩
  | sack blocks =>
    obtain ⟨buf, hbuf, h⟩ := bind_eq_ok.1 h
    obtain ⟨x, hx, h⟩ := bind_eq_ok.1 h
    obtain ⟨-, rfl⟩ := Prod.mk.inj (Except.ok.inj h)
    obtain ⟨hlen, hall⟩ := packBlock_ok hbuf
    have hsize : 2 + buf.length < 256 ^ 1 := (Format.pack_eq_ok_iff.mp hx).1.2.1
    exact ⟨hp, by rw [← hlen]; simpa using hsize, hall⟩
  | authentication keyId rNextKeyId mac =>
    obtain ⟨x, hx, h⟩ := bind_eq_ok.1 h
    obtain ⟨-, rfl⟩ := Prod.mk.inj (Except.ok.inj h)
    obtain ⟨-, hlen, hkey, hnext, -⟩ := (Format.pack_eq_ok_iff.mp hx).1
    exact ⟨hp, by simpa using hlen, by simpa using hkey, by simpa using hnext⟩
  | endOfOptionList | noOperation =>
    obtain ⟨-, rfl⟩ := Prod.mk.inj (Except.ok.inj h)
    exact ⟨(Option.some.inj hp.1).symm, hp.2⟩
  | sackPermitted =>
    obtain ⟨x, hx, h⟩ := map_eq_ok.1 h
    obtain ⟨-, rfl⟩ := Prod.mk.inj h
    exact ⟨(Option.some.inj hp.1).symm, hp.2⟩
  | maximumSegmentSize v | windowScale v =>
    obtain ⟨x, hx, h⟩ := map_eq_ok.1 h
    obtain ⟨-, rfl⟩ := Prod.mk.inj h
    obtain ⟨-, -, hv, -⟩ := (Format.pack_eq_ok_iff.mp hx).1
    exact ⟨(Option.some.inj hp.1).symm, hp.2, by simpa using hv⟩
  | timestamps tsVal tsEcr =>
    obtain ⟨x, hx, h⟩ := map_eq_ok.1 h
    obtain ⟨-, rfl⟩ := Prod.mk.inj h
    obtain ⟨-, -, hval, hecr, -⟩ := (Format.pack_eq_ok_iff.mp hx).1
    exact ⟨(Option.some.inj hp.1).symm, hp.2, by simpa using hval, by simpa using hecr⟩
  | userTimeout granularity userTimeout =>
    obtain ⟨x, hx, h⟩ := map_eq_ok.1 h
    obtain ⟨-, rfl⟩ := Prod.mk.inj h
    exact hp

/-! ## What is read back -/

/-- The option that is left when one with the right attributes is serialized. -/
def sent (o : TcpOption) : TcpOption := { o with length := o.body.size }

/-- The bytes of an option with the right attributes. -/
def bytes (o : TcpOption) : List UInt8 :=
  match o.body with
  | .unknown value => Format.bytes [.num 1, .num 1] (o.kind, 2 + value.length, ()) ++ value
  | .endOfOptionList | .noOperation => Format.bytes [.num 1] (o.kind, ())
  | .maximumSegmentSize v => Format.bytes [.num 1, .num 1, .num 2] (o.kind, o.length, v, ())
  | .windowScale v => Format.bytes [.num 1, .num 1, .num 1] (o.kind, o.length, v, ())
  | .sackPermitted => Format.bytes [.num 1, .num 1] (o.kind, o.length, ())
  | .sack blocks =>
    Format.bytes [.num 1, .num 1] (o.kind, 2 + 8 * blocks.length, ()) ++
      blocks.flatMap fun b => toBytes 4 b.1 ++ toBytes 4 b.2
  | .timestamps tsVal tsEcr =>
    Format.bytes [.num 1, .num 1, .num 4, .num 4] (o.kind, o.length, tsVal, tsEcr, ())
  | .userTimeout granularity userTimeout =>
    Format.bytes [.num 1, .num 1, .num 2]
      (o.kind, o.length, (granularity <<< 15) ||| userTimeout, ())
  | .authentication keyId rNextKeyId mac =>
    Format.bytes [.num 1, .num 1, .num 1, .num 1]
      (o.kind, 4 + mac.length, keyId, rNextKeyId, ()) ++ mac

theorem length_flatMap_blocks (blocks : List (ℕ × ℕ)) :
    (blocks.flatMap fun b => toBytes 4 b.1 ++ toBytes 4 b.2).length = 8 * blocks.length := by
  induction blocks with
  | nil => rfl
  | cons x blocks ih =>
    rw [List.flatMap_cons, List.length_append, ih]
    simp
    omega

theorem Canonical.serialize (h : o.Canonical) : o.serialize = .ok (o.bytes, o.sent) := by
  obtain ⟨kind, length, body⟩ := o
  cases body with
  | unknown value =>
    obtain ⟨hkind, -, hlen⟩ := h
    simp only [TcpOption.serialize]
    rw [Format.pack_bytes]
    · rfl
    · exact ⟨by simpa using hkind, by simpa using hlen, trivial⟩
  | endOfOptionList | noOperation =>
    obtain ⟨rfl, rfl⟩ := h
    rfl
  | maximumSegmentSize v | windowScale v =>
    obtain ⟨rfl, rfl, hv⟩ := h
    simp only [TcpOption.serialize]
    rw [Format.pack_bytes]
    · rfl
    · exact ⟨by simp, by simp, by simpa using hv, trivial⟩
  | sackPermitted =>
    obtain ⟨rfl, rfl⟩ := h
    rfl
  | sack blocks =>
    obtain ⟨rfl, hlen, hall⟩ := h
    have hblocks := writeAll_ok fun b hb => packBlock_eq b (hall b hb)
    have hpack : Format.pack [.num 1, .num 1] (5, 2 + 8 * blocks.length, ()) =
        .ok (Format.bytes [.num 1, .num 1] (5, 2 + 8 * blocks.length, ())) :=
      Format.pack_bytes ⟨by simp, by simpa using hlen, trivial⟩
    simp only [TcpOption.serialize]
    rw [hblocks]
    simp only [bind, Except.bind, length_flatMap_blocks, hpack]
    rfl
  | timestamps tsVal tsEcr =>
    obtain ⟨rfl, rfl, hval, hecr⟩ := h
    simp only [TcpOption.serialize]
    rw [Format.pack_bytes]
    · rfl
    · exact ⟨by simp, by simp, by simpa using hval, by simpa using hecr, trivial⟩
  | userTimeout granularity userTimeout =>
    obtain ⟨rfl, rfl, hg, ht⟩ := h
    have hbody : (granularity <<< 15) ||| userTimeout < 256 ^ 2 := by
      have hhigh : granularity <<< 15 < 2 ^ 16 := by
        rw [Nat.shiftLeft_eq]
        omega
      exact Nat.or_lt_two_pow hhigh (ht.trans (by decide))
    simp only [TcpOption.serialize]
    rw [Format.pack_bytes]
    · rfl
    · exact ⟨by simp, by simp, hbody, trivial⟩
  | authentication keyId rNextKeyId mac =>
    obtain ⟨rfl, hlen, hkey, hnext⟩ := h
    simp only [TcpOption.serialize]
    rw [Format.pack_bytes]
    · rfl
    · exact ⟨by simp, by simpa using hlen, by simpa using hkey, by simpa using hnext, trivial⟩

/-- The class is that of the kind. -/
theorem read_bytes (h : kind < 2 ^ 8) (fmt : Format) (v : fmt.Values) (x : List UInt8) :
    read (Format.bytes (.num 1 :: fmt) (kind, v) ++ x) =
      parse kind (Format.bytes (.num 1 :: fmt) (kind, v) ++ x) := by
  have hfit : Format.Fits [.num 1] (kind, ()) := ⟨by simpa using h, trivial⟩
  have hread := Format.unpackFrom_bytes hfit trivial (Format.bytes fmt v ++ x)
  rw [Format.bytes, Format.bytes, List.append_nil, ← List.append_assoc] at hread
  rw [read, Format.bytes, hread]
  rfl

theorem readBlocks_flatMap (blocks : List (ℕ × ℕ)) (h : ∀ b ∈ blocks, b.1 < 2 ^ 32 ∧ b.2 < 2 ^ 32) :
    readBlocks (blocks.flatMap fun b => toBytes 4 b.1 ++ toBytes 4 b.2) = .ok blocks := by
  have hread : ∀ b ∈ blocks, ∀ r, readBlock (toBytes 4 b.1 ++ toBytes 4 b.2 ++ r) = .ok (b, r) := by
    intro b hb r
    have hfit : Format.Fits [.num 4, .num 4] (b.1, b.2, ()) := by
      simpa [Format.Fits] using h b hb
    have hun := Format.unpackFrom_bytes hfit trivial r
    rw [Format.bytes, Format.bytes, Format.bytes, List.append_nil] at hun
    rw [readBlock, hun]
    rfl
  have hne : ∀ b ∈ blocks, toBytes 4 b.1 ++ toBytes 4 b.2 ≠ [] := fun b _ => List.cons_ne_nil _ _
  rw [readBlocks, readItems_flatMap hne hread]
  · rfl
  · rw [length_flatMap_blocks]
    omega

theorem parse_unknown (h : kind ∉ kinds) (buf : List UInt8) : parse kind buf =
    (Format.unpackFrom [.num 1, .num 1] buf).map fun v =>
      (⟨v.1, v.2.1, .unknown ((buf.take v.2.1).drop 2)⟩, buf.drop v.2.1) := by
  unfold parse
  split
  case h_10 => cases Format.unpackFrom [.num 1, .num 1] buf <;> rfl
  all_goals exact absurd (by decide) h

/-- What is behind a header, as far as the length in it reaches. -/
theorem drop_take_append (header value r : List UInt8) {k : ℕ} (hk : header.length = k) :
    ((header ++ (value ++ r)).take (k + value.length)).drop k = value ∧
      (header ++ (value ++ r)).drop (k + value.length) = r := by
  subst hk
  rw [List.take_length_add_append, List.drop_length_add_append, List.take_left' rfl,
    List.drop_left' rfl, List.drop_left' rfl]
  exact ⟨rfl, rfl⟩

theorem Canonical.read (h : o.Canonical) (r : List UInt8) :
    read (o.bytes ++ r) = .ok (o.sent, r) := by
  obtain ⟨kind, length, body⟩ := o
  cases body with
  | unknown value =>
    obtain ⟨hkind, hnot, hlen⟩ := h
    have hfit : Format.Fits [.num 1, .num 1] (kind, 2 + value.length, ()) :=
      ⟨by simpa using hkind, by simpa using hlen, trivial⟩
    obtain ⟨hvalue, hrest⟩ := drop_take_append
      (Format.bytes [.num 1, .num 1] (kind, 2 + value.length, ())) value r (k := 2) rfl
    simp only [bytes]
    rw [List.append_assoc, read_bytes hkind, parse_unknown hnot, Format.unpackFrom_bytes hfit trivial]
    simp only [Except.map, hvalue, hrest]
    rfl
  | endOfOptionList | noOperation =>
    obtain ⟨rfl, rfl⟩ := h
    rfl
  | maximumSegmentSize v =>
    obtain ⟨rfl, rfl, hv⟩ := h
    have hfit : Format.Fits [.num 1, .num 1, .num 2] (2, 4, v, ()) :=
      ⟨by simp, by simp, by simpa using hv, trivial⟩
    simp only [bytes]
    rw [read_bytes (by decide), parse, Format.unpackFrom_bytes hfit trivial]
    rfl
  | windowScale v =>
    obtain ⟨rfl, rfl, hv⟩ := h
    have hfit : Format.Fits [.num 1, .num 1, .num 1] (3, 3, v, ()) :=
      ⟨by simp, by simp, by simpa using hv, trivial⟩
    simp only [bytes]
    rw [read_bytes (by decide), parse, Format.unpackFrom_bytes hfit trivial]
    rfl
  | sackPermitted =>
    obtain ⟨rfl, rfl⟩ := h
    rfl
  | sack blocks =>
    obtain ⟨rfl, hlen, hall⟩ := h
    have hfit : Format.Fits [.num 1, .num 1] (5, 2 + 8 * blocks.length, ()) :=
      ⟨by simp, by simpa using hlen, trivial⟩
    obtain ⟨hvalue, hrest⟩ := drop_take_append
      (Format.bytes [.num 1, .num 1] (5, 2 + 8 * blocks.length, ()))
      (blocks.flatMap fun b => toBytes 4 b.1 ++ toBytes 4 b.2) r (k := 2) rfl
    rw [length_flatMap_blocks] at hvalue hrest
    simp only [bytes]
    rw [List.append_assoc, read_bytes (by decide), parse, Format.unpackFrom_bytes hfit trivial]
    simp only [bind, Except.bind, hvalue, hrest, readBlocks_flatMap blocks hall]
    rfl
  | timestamps tsVal tsEcr =>
    obtain ⟨rfl, rfl, hval, hecr⟩ := h
    have hfit : Format.Fits [.num 1, .num 1, .num 4, .num 4] (8, 10, tsVal, tsEcr, ()) :=
      ⟨by simp, by simp, by simpa using hval, by simpa using hecr, trivial⟩
    simp only [bytes]
    rw [read_bytes (by decide), parse, Format.unpackFrom_bytes hfit trivial]
    rfl
  | userTimeout granularity userTimeout =>
    obtain ⟨rfl, rfl, hg, ht⟩ := h
    have hor : (granularity <<< 15) ||| userTimeout = granularity * 2 ^ 15 + userTimeout := by
      rw [← Nat.shiftLeft_add_eq_or_of_lt ht, Nat.shiftLeft_eq]
    have hfit : Format.Fits [.num 1, .num 1, .num 2]
        (28, 4, (granularity <<< 15) ||| userTimeout, ()) := by
      refine ⟨by simp, by simp, ?_, trivial⟩
      rw [hor]
      omega
    have hhigh : ((granularity <<< 15) ||| userTimeout) >>> 15 = granularity := by
      rw [hor, Nat.shiftRight_eq_div_pow]
      omega
    have hlow : ((granularity <<< 15) ||| userTimeout) &&& 0x7fff = userTimeout := by
      rw [hor]
      have hmask := Nat.and_two_pow_sub_one_eq_mod (granularity * 2 ^ 15 + userTimeout) 15
      exact hmask.trans (by omega)
    simp only [bytes]
    rw [read_bytes (by decide), parse, Format.unpackFrom_bytes hfit trivial]
    simp only [bind, Except.bind, hhigh, hlow]
    rfl
  | authentication keyId rNextKeyId mac =>
    obtain ⟨rfl, hlen, hkey, hnext⟩ := h
    have hfit : Format.Fits [.num 1, .num 1, .num 1, .num 1]
        (29, 4 + mac.length, keyId, rNextKeyId, ()) :=
      ⟨by simp, by simpa using hlen, by simpa using hkey, by simpa using hnext, trivial⟩
    obtain ⟨hvalue, hrest⟩ := drop_take_append
      (Format.bytes [.num 1, .num 1, .num 1, .num 1] (29, 4 + mac.length, keyId, rNextKeyId, ()))
      mac r (k := 4) rfl
    simp only [bytes]
    rw [List.append_assoc, read_bytes (by decide), parse, Format.unpackFrom_bytes hfit trivial]
    simp only [bind, Except.bind, hvalue, hrest]
    rfl

/-! ## Lists of options -/

theorem serialize_ne_nil (h : o.serialize = .ok (b, o')) : b ≠ [] := by
  have hne {fmt : Format} {v : fmt.Values} {x : List UInt8} (hx : fmt.pack v = .ok x)
      (hsize : 0 < fmt.calcsize) (y : List UInt8) : x ++ y ≠ [] := by
    rw [← Format.length_pack hx] at hsize
    exact List.append_ne_nil_of_left_ne_nil (List.ne_nil_of_length_pos hsize) y
  obtain ⟨kind, length, body⟩ := o
  cases body with
  | unknown value | authentication keyId rNextKeyId mac =>
    obtain ⟨x, hx, h⟩ := bind_eq_ok.1 h
    obtain ⟨rfl, -⟩ := Prod.mk.inj (Except.ok.inj h)
    exact hne hx (by decide) _
  | sack blocks =>
    obtain ⟨buf, hbuf, h⟩ := bind_eq_ok.1 h
    obtain ⟨x, hx, h⟩ := bind_eq_ok.1 h
    obtain ⟨rfl, -⟩ := Prod.mk.inj (Except.ok.inj h)
    exact hne hx (by decide) _
  | endOfOptionList | noOperation =>
    obtain ⟨rfl, -⟩ := Prod.mk.inj (Except.ok.inj h)
    exact List.cons_ne_nil _ _
  | maximumSegmentSize v | windowScale v | sackPermitted | timestamps tsVal tsEcr
  | userTimeout granularity userTimeout =>
    obtain ⟨x, hx, h⟩ := map_eq_ok.1 h
    obtain ⟨rfl, -⟩ := Prod.mk.inj h
    simpa using hne hx (by decide) []

/-- The option that a padding byte is read as. -/
def padding : TcpOption := ⟨0, 1, .endOfOptionList⟩

theorem read_padding (r : List UInt8) : read (0 :: r) = .ok (padding, r) := rfl

theorem readItems_padding {k n : ℕ} (h : k ≤ n) :
    readItems read n (List.replicate k 0) = some (.ok (List.replicate k padding)) := by
  have hall (k : ℕ) :
      (List.replicate k padding).flatMap (fun _ => [(0 : UInt8)]) = List.replicate k 0 := by
    induction k with
    | zero => rfl
    | succ k ih =>
      rw [List.replicate_succ, List.flatMap_cons, ih]
      rfl
  rw [← hall]
  exact readItems_flatMap (by simp) (fun o ho r => by rw [List.eq_of_mem_replicate ho]; rfl)
    (by simpa using h)

/-- What a list of options leaves is read back, with ends of the list behind it, exactly if the
attributes of all options are right. -/
theorem readItems_iff {l l' : List TcpOption} {buf : List UInt8}
    (h : writeEach serialize l = .ok (buf, l')) {k n : ℕ}
    (hn : (buf ++ List.replicate k 0).length ≤ n) :
    (∃ j, readItems read n (buf ++ List.replicate k 0) =
      some (.ok (l' ++ List.replicate j padding))) ↔ ∀ o ∈ l, o.Canonical := by
  induction l generalizing buf l' n with
  | nil =>
    obtain ⟨rfl, rfl⟩ := Prod.mk.inj (Except.ok.inj h)
    exact iff_of_true ⟨k, readItems_padding (by simpa using hn)⟩ (by simp)
  | cons o l ih =>
    obtain ⟨b, o', rest, l'', hb, hrest, rfl, rfl⟩ := writeEach_cons_ok h
    have hne := serialize_ne_nil hb
    have hlen : (rest ++ List.replicate k (0 : UInt8)).length + 1 ≤ n := by
      have hpos := List.length_pos_iff.mpr hne
      simp only [List.length_append] at hn ⊢
      omega
    obtain ⟨m, rfl⟩ : ∃ m, n = m + 1 := ⟨n - 1, by omega⟩
    have ih := ih hrest (Nat.le_of_succ_le_succ hlen)
    have hne' : b ++ (rest ++ List.replicate k 0) ≠ [] :=
      List.append_ne_nil_of_left_ne_nil hne _
    rw [List.append_assoc, List.forall_mem_cons, ← ih]
    constructor
    · rintro ⟨j, hread⟩
      obtain ⟨m', a, r, l2, hm, ha, hl2, heq⟩ := readItems_inv hread hne'
      obtain rfl : m = m' := by omega
      obtain ⟨rfl, rfl⟩ := List.cons.inj heq
      have hc := canonical_of_serialize hb (plausible_of_read ha)
      obtain ⟨rfl, -⟩ := Prod.mk.inj (Except.ok.inj (hb.symm.trans hc.serialize))
      obtain ⟨-, rfl⟩ := Prod.mk.inj (Except.ok.inj (ha.symm.trans (hc.read _)))
      exact ⟨hc, j, hl2⟩
    · rintro ⟨hc, j, hread⟩
      obtain ⟨rfl, rfl⟩ := Prod.mk.inj (Except.ok.inj (hb.symm.trans hc.serialize))
      refine ⟨j, ?_⟩
      rw [readItems_step (hc.read _) hne', hread]
      rfl

theorem Canonical.length_bytes (h : o.Canonical) : o.bytes.length = o.body.size := by
  obtain ⟨kind, length, body⟩ := o
  cases body with
  | sack blocks =>
    simp only [bytes, List.length_append, length_flatMap_blocks]
    rfl
  | unknown value | authentication keyId rNextKeyId mac =>
    simp only [bytes, List.length_append]
    rfl
  | _ => rfl

/-- Options with the right attributes are as long as they say. -/
theorem length_writeEach {l l' : List TcpOption} {buf : List UInt8}
    (h : writeEach serialize l = .ok (buf, l')) (hc : ∀ o ∈ l, o.Canonical) :
    buf.length = (l.map fun o => o.body.size).sum := by
  induction l generalizing buf l' with
  | nil =>
    obtain ⟨rfl, rfl⟩ := Prod.mk.inj (Except.ok.inj h)
    rfl
  | cons o l ih =>
    obtain ⟨b, o', rest, l'', hb, hrest, rfl, rfl⟩ := writeEach_cons_ok h
    obtain ⟨ho, hc⟩ := List.forall_mem_cons.mp hc
    obtain ⟨rfl, rfl⟩ := Prod.mk.inj (Except.ok.inj (hb.symm.trans ho.serialize))
    rw [List.length_append, ho.length_bytes, ih hrest hc, List.map_cons, List.sum_cons]

theorem exists_writeEach {l : List TcpOption} (hc : ∀ o ∈ l, o.Canonical) :
    ∃ buf l', writeEach serialize l = .ok (buf, l') := by
  induction l with
  | nil => exact ⟨[], [], rfl⟩
  | cons o l ih =>
    obtain ⟨ho, hc⟩ := List.forall_mem_cons.mp hc
    obtain ⟨buf, l', h⟩ := ih hc
    exact ⟨o.bytes ++ buf, o.sent :: l', by rw [writeEach, ho.serialize]; simp only [h]; rfl⟩

end TcpOption

end Ryu.Packet
