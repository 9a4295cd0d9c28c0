import Ryu.Lib.Layout
import Ryu.Packet.Checksum
import Ryu.Packet.TcpOption

/-! # TCP headers

A header is read back from what is serialized as long as its flags are among the first six: the
parser cuts off the others, and the ninth has no room in the byte it is packed into. The bytes
that fill the options up to a word are read as options that end the list.
-/

namespace Ryu.Packet

open Bytes

/-- The `option` of a header. -/
inductive TcpOptions
  | none
  | list (options : List TcpOption)
  | raw (buf : List UInt8)
  deriving DecidableEq, Repr

/-- A `tcp` header. Offset and checksum are computed where they are zero. -/
structure Tcp where
  srcPort : ℕ
  dstPort : ℕ
  seq : ℕ
  ack : ℕ
  offset : ℕ
  bits : ℕ
  windowSize : ℕ
  csum : ℕ
  urgent : ℕ
  option : TcpOptions
  deriving DecidableEq, Repr

namespace TcpOptions

/-- `if self.option`. -/
def Given : TcpOptions → Prop
  | .none => False
  | .list options => options ≠ []
  | .raw buf => buf ≠ []

instance : DecidablePred Given
  | .none => inferInstanceAs (Decidable False)
  | .list options => inferInstanceAs (Decidable (options ≠ []))
  | .raw buf => inferInstanceAs (Decidable (buf ≠ []))

/-- The bytes of the options, with what is left of them. -/
def serialize : TcpOptions → Except PyError (List UInt8 × TcpOptions)
  | .none => .ok ([], .none)
  | .list options => (writeEach TcpOption.serialize options).map fun x => (x.1, .list x.2)
  | .raw buf => .ok (buf, .raw buf)

/-- The options of a header that has no bytes instead of them. -/
def items : TcpOptions → Option (List TcpOption)
  | .none => some []
  | .list options => some options
  | .raw _ => Option.none

end TcpOptions

namespace Tcp

def packStr : Format := [.num 2, .num 2, .num 4, .num 4, .num 1, .num 1, .num 2, .num 2, .num 2]

/-- The values that are packed. -/
def values (t : Tcp) : packStr.Values :=
  (t.srcPort, t.dstPort, t.seq, t.ack, t.offset <<< 4, t.bits, t.windowSize, t.csum, t.urgent, ())

/-- The bytes filled in behind so many bytes of options: up to a word, and up to the offset. -/
def fill (offset size : ℕ) : ℕ :=
  (4 - size % 4) % 4 + ((offset <<< 2) - (20 + (size + (4 - size % 4) % 4)))

/-- The offset, and the header with it, where it is computed. -/
def setOffset (t : Tcp) (h : List UInt8) : Except PyError (List UInt8 × Tcp) :=
  if t.offset = 0 then
    (packInto 1 ((h.length >>> 2) <<< 4)).map fun b =>
      (packAt h 12 b, { t with offset := h.length >>> 2 })
  else .ok (h, t)

/-- The checksum, and the header with it, where it is computed. -/
def setCsum (t : Tcp) (payload : List UInt8) (prev : IpHeader) (h : List UInt8) :
    Except PyError (List UInt8 × Tcp) :=
  if t.csum = 0 then do
    let csum ← prev.checksumIp (h.length + payload.length) (h ++ payload)
    let b ← packInto 2 csum
    return (packAt h 16 b, { t with csum := csum })
  else .ok (h, t)

/-- `serialize`, with what is left of the header. -/
def serialize (t : Tcp) (payload : List UInt8) (prev : IpHeader) :
    Except PyError (List UInt8 × Tcp) := do
  let h ← packStr.pack t.values
  let (optionBuf, option) ← t.option.serialize
  let h := if t.option.Given then
    h ++ (optionBuf ++ List.replicate (fill t.offset optionBuf.length) 0) else h
  let (h, t) ← { t with option := option }.setOffset h
  t.setCsum payload prev h

/-- The options of a header of so many bytes. A loop that leaves the options as they are is
without end. -/
def readOptions (buf : List UInt8) (length : ℕ) : Option (Except PyError TcpOptions) :=
  let optionBuf := (buf.take length).drop 20
  if 20 < length then
    (readItems TcpOption.read optionBuf.length optionBuf).map fun
      | .ok options => .ok (.list options)
      | .error e => if e = structError then .ok (.raw optionBuf) else .error e
  else some (.ok .none)

/-- `parser`, without the class of the payload. It returns nothing if it does not end. -/
def parse (buf : List UInt8) : Option (Except PyError (Tcp × List UInt8)) :=
  match packStr.unpackFrom buf with
  | .error e => some (.error e)
  | .ok (srcPort, dstPort, seq, ack, offset, bits, windowSize, csum, urgent, ()) =>
    let offset := offset >>> 4
    let bits := bits &&& 0x3f
    let length := offset * 4
    (readOptions buf length).map fun option => option.map fun option =>
      (⟨srcPort, dstPort, seq, ack, offset, bits, windowSize, csum, urgent, option⟩,
        buf.drop length)

/-- Serialized in front of a payload, the header is read back: its numbers and flags, the offset
behind it, and its options with ends of the list behind them. -/
def ReadBack (t : Tcp) (payload : List UInt8) (prev : IpHeader) : Prop :=
  ∃ buf t' msg options k, t.serialize payload prev = .ok (buf, t') ∧
    parse (buf ++ payload) = some (.ok (msg, payload)) ∧
    msg = { t with offset := msg.offset, csum := t'.csum, option := msg.option } ∧
    msg.offset * 4 = buf.length ∧ t'.option.items = some options ∧
    msg.option.items = some (options ++ List.replicate k TcpOption.padding)

/-- The bytes of options, filled up to a word. -/
def optionLength (options : List TcpOption) : ℕ :=
  ((options.map fun o => o.body.size).sum + 3) / 4 * 4

/-- The numbers fit, no flag is above the first six, the attributes of the options are right, they
have room, and so has the length the checksum is computed with. -/
structure Regular (t : Tcp) (options : List TcpOption) (payload : List UInt8) (prev : IpHeader) :
    Prop where
  ports : t.srcPort < 2 ^ 16 ∧ t.dstPort < 2 ^ 16
  seq : t.seq < 2 ^ 32
  ack : t.ack < 2 ^ 32
  bits : t.bits < 2 ^ 6
  windowSize : t.windowSize < 2 ^ 16
  urgent : t.urgent < 2 ^ 16
  canonical : ∀ o ∈ options, o.Canonical
  offset : t.offset = 0 ∧ optionLength options ≤ 40 ∨
    t.offset < 2 ^ 4 ∧ options ≠ [] ∧ 20 + optionLength options ≤ 4 * t.offset ∨
    t.offset = 5 ∧ options = []
  csum : t.csum < 2 ^ 16
  checksum : t.csum = 0 →
    prev.Admits (max (20 + optionLength options) (4 * t.offset) + payload.length)

variable {t t' : Tcp} {payload buf body : List UInt8} {prev : IpHeader}

/-! ## What is serialized -/

theorem packAt_offset (t : Tcp) (offset : ℕ) (body : List UInt8) :
    packAt (packStr.bytes t.values ++ body) 12 (toBytes 1 (offset <<< 4)) =
      packStr.bytes { t with offset := offset }.values ++ body := by
  have hsplit (n : ℕ) : packStr.bytes { t with offset := n }.values ++ body =
      (toBytes 2 t.srcPort ++ (toBytes 2 t.dstPort ++ (toBytes 4 t.seq ++ toBytes 4 t.ack))) ++
        (toBytes 1 (n <<< 4) ++ (toBytes 1 t.bits ++ (toBytes 2 t.windowSize ++
          (toBytes 2 t.csum ++ (toBytes 2 t.urgent ++ body))))) := by
    simp [packStr, values, Format.bytes]
  have hold : packStr.bytes t.values ++ body = _ := hsplit t.offset
  rw [hold, hsplit]
  exact packAt_replace (by simp) (by simp)

theorem packAt_csum (t : Tcp) (csum : ℕ) (body : List UInt8) :
    packAt (packStr.bytes t.values ++ body) 16 (toBytes 2 csum) =
      packStr.bytes { t with csum := csum }.values ++ body := by
  have hsplit (n : ℕ) : packStr.bytes { t with csum := n }.values ++ body =
      (toBytes 2 t.srcPort ++ (toBytes 2 t.dstPort ++ (toBytes 4 t.seq ++ (toBytes 4 t.ack ++
        (toBytes 1 (t.offset <<< 4) ++ (toBytes 1 t.bits ++ toBytes 2 t.windowSize)))))) ++
          (toBytes 2 n ++ (toBytes 2 t.urgent ++ body)) := by
    simp [packStr, values, Format.bytes]
  have hold : packStr.bytes t.values ++ body = _ := hsplit t.csum
  rw [hold, hsplit]
  exact packAt_replace (by simp) (by simp)

theorem fits_values : packStr.Fits t.values ↔ (t.srcPort < 2 ^ 16 ∧ t.dstPort < 2 ^ 16) ∧
    t.seq < 2 ^ 32 ∧ t.ack < 2 ^ 32 ∧ t.offset < 2 ^ 4 ∧ t.bits < 2 ^ 8 ∧ t.windowSize < 2 ^ 16 ∧
      t.csum < 2 ^ 16 ∧ t.urgent < 2 ^ 16 := by
  have hoffset : t.offset <<< 4 < 256 ↔ t.offset < 16 := by
    rw [Nat.shiftLeft_eq]
    omega
  simp [packStr, values, Format.Fits, hoffset, and_assoc]

theorem length_bytes (t : Tcp) : (packStr.bytes t.values).length = 20 := by
  simp [packStr, values, Format.bytes]

/-- The offset that is written in front of so many bytes. -/
def offsetOver (t : Tcp) (size : ℕ) : ℕ := if t.offset = 0 then (20 + size) / 4 else t.offset

theorem setOffset_eq_ok (ht : t.offset < 2 ^ 4) :
    t.setOffset (packStr.bytes t.values ++ body) = .ok (buf, t') ↔
      t.offsetOver body.length < 2 ^ 4 ∧ t' = { t with offset := t.offsetOver body.length } ∧
        buf = packStr.bytes t'.values ++ body := by
  rw [setOffset, offsetOver]
  split
  case isTrue h =>
    have hsize : (packStr.bytes t.values ++ body).length >>> 2 = (20 + body.length) / 4 := by
      rw [List.length_append, length_bytes, Nat.shiftRight_eq_div_pow]
    rw [hsize]
    constructor
    · intro hb
      obtain ⟨b, hb, heq⟩ := map_eq_ok.1 hb
      obtain ⟨hlt, rfl⟩ := packInto_eq_ok.1 hb
      obtain ⟨rfl, rfl⟩ := Prod.mk.inj heq
      rw [Nat.shiftLeft_eq] at hlt
      exact ⟨by omega, rfl, packAt_offset t _ body⟩
    · rintro ⟨hlt, rfl, rfl⟩
      have hb : packInto 1 (((20 + body.length) / 4) <<< 4) =
          .ok (toBytes 1 (((20 + body.length) / 4) <<< 4)) := by
        rw [packInto_eq_ok, Nat.shiftLeft_eq]
        exact ⟨by omega, rfl⟩
      rw [hb]
      exact congrArg (fun h => Except.ok (h, _)) (packAt_offset t _ body)
  case isFalse h =>
    constructor
    · intro heq
      obtain ⟨rfl, rfl⟩ := Prod.mk.inj (Except.ok.inj heq)
      exact ⟨ht, rfl, rfl⟩
    · rintro ⟨-, rfl, rfl⟩
      rfl

theorem setCsum_ok (h : t.setCsum payload prev (packStr.bytes t.values ++ body) = .ok (buf, t')) :
    (t.csum = 0 → prev.Admits (20 + body.length + payload.length)) ∧
      t' = { t with csum := t'.csum } ∧ (t.csum < 2 ^ 16 → t'.csum < 2 ^ 16) ∧
        buf = packStr.bytes t'.values ++ body := by
  rw [setCsum] at h
  split at h
  · obtain ⟨csum, hcsum, h⟩ := bind_eq_ok.1 h
    obtain ⟨b, hb, h⟩ := bind_eq_ok.1 h
    obtain ⟨-, rfl⟩ := packInto_eq_ok.1 hb
    obtain ⟨rfl, rfl⟩ := Prod.mk.inj (Except.ok.inj h)
    have hok := IpHeader.isOk_checksumIp_iff.1 (isOk_iff.2 ⟨csum, hcsum⟩)
    rw [List.length_append, length_bytes] at hok
    exact ⟨fun _ => hok, rfl, fun _ => IpHeader.checksumIp_lt hcsum, packAt_csum t csum body⟩
  · next hne =>
    obtain ⟨rfl, rfl⟩ := Prod.mk.inj (Except.ok.inj h)
    exact ⟨fun hz => absurd hz hne, rfl, id, rfl⟩

theorem exists_setCsum (h : t.csum = 0 → prev.Admits (20 + body.length + payload.length)) :
    ∃ x, t.setCsum payload prev (packStr.bytes t.values ++ body) = .ok x := by
  rw [setCsum]
  split
  · next hz =>
    have hadmits := h hz
    rw [← length_bytes t, ← List.length_append] at hadmits
    obtain ⟨csum, hcsum⟩ := isOk_iff.1 (IpHeader.isOk_checksumIp_iff.2 hadmits)
    rw [hcsum]
    have hb : packInto 2 csum = .ok (toBytes 2 csum) :=
      packInto_eq_ok.2 ⟨IpHeader.checksumIp_lt hcsum, rfl⟩
    simp only [bind, Except.bind, hb]
    exact ⟨_, rfl⟩
  · exact ⟨_, rfl⟩

/-- What is behind the first twenty bytes. -/
def optionField (t : Tcp) (optionBuf : List UInt8) : List UInt8 :=
  if t.option.Given then optionBuf ++ List.replicate (fill t.offset optionBuf.length) 0 else []

theorem serialize_eq {optionBuf : List UInt8} {option : TcpOptions} (hfit : packStr.Fits t.values)
    (hoption : t.option.serialize = .ok (optionBuf, option)) :
    t.serialize payload prev = (do
      let (h, t') ← { t with option := option }.setOffset
        (packStr.bytes { t with option := option }.values ++ t.optionField optionBuf)
      t'.setCsum payload prev h) := by
  rw [serialize, Format.pack_bytes hfit, hoption, optionField]
  simp only [bind, Except.bind]
  by_cases hg : t.option.Given
  · rw [if_pos hg, if_pos hg]
    rfl
  · rw [if_neg hg, if_neg hg, List.append_nil]
    rfl

/-- What is serialized: the options, the offset in front of them and the checksum over all. -/
theorem serialize_inv (h : t.serialize payload prev = .ok (buf, t')) :
    packStr.Fits t.values ∧ ∃ optionBuf option, t.option.serialize = .ok (optionBuf, option) ∧
      packStr.Fits t'.values ∧ buf = packStr.bytes t'.values ++ t.optionField optionBuf ∧
      t'.offset = t.offsetOver (t.optionField optionBuf).length ∧
      t' = { t with offset := t'.offset, csum := t'.csum, option := option } ∧
      (t.csum = 0 → prev.Admits (buf.length + payload.length)) := by
  obtain ⟨header, hheader, h'⟩ := bind_eq_ok.1 h
  obtain ⟨⟨optionBuf, option⟩, hoption, -⟩ := bind_eq_ok.1 h'
  have hfit := (Format.pack_eq_ok_iff.mp hheader).1
  have hfields := fits_values.1 hfit
  rw [serialize_eq hfit hoption] at h
  obtain ⟨⟨b, t1⟩, hoffset, h⟩ := bind_eq_ok.1 h
  obtain ⟨hlt, rfl, rfl⟩ :=
    (setOffset_eq_ok (t := { t with option := option }) hfields.2.2.2.1).mp hoffset
  obtain ⟨hadmits, ht', hcsum, rfl⟩ := setCsum_ok h
  have hfit' : packStr.Fits t'.values := by
    rw [ht', fits_values]
    obtain ⟨hports, hseq, hack, -, hbits, hwindow, hc, hurgent⟩ := hfields
    exact ⟨hports, hseq, hack, hlt, hbits, hwindow, hcsum hc, hurgent⟩
  refine ⟨hfit, optionBuf, option, hoption, hfit', rfl, ?_, ?_, ?_⟩
  · rw [ht']
    rfl
  · rw [ht']
  · rw [List.length_append, length_bytes]
    exact hadmits

theorem exists_serialize {optionBuf : List UInt8} {option : TcpOptions}
    (hfit : packStr.Fits t.values) (hoption : t.option.serialize = .ok (optionBuf, option))
    (hoffset : t.offsetOver (t.optionField optionBuf).length < 2 ^ 4)
    (hcsum : t.csum = 0 →
      prev.Admits (20 + (t.optionField optionBuf).length + payload.length)) :
    ∃ buf t', t.serialize payload prev = .ok (buf, t') := by
  have hset := (setOffset_eq_ok (t := { t with option := option })
    (fits_values.1 hfit).2.2.2.1).mpr ⟨hoffset, rfl, rfl⟩
  obtain ⟨⟨buf, t'⟩, h⟩ := exists_setCsum (t := { t with option := option, offset := _ }) hcsum
  refine ⟨buf, t', ?_⟩
  rw [serialize_eq hfit hoption, hset]
  exact h

/-! ## What is read back -/

theorem parse_bytes (h : packStr.Fits t.values) (r : List UInt8) :
    parse (packStr.bytes t.values ++ r) =
      (readOptions (packStr.bytes t.values ++ r) (t.offset * 4)).map fun option =>
        option.map fun option => ({ t with bits := t.bits &&& 0x3f, option := option },
          (packStr.bytes t.values ++ r).drop (t.offset * 4)) := by
  have hshift : (t.offset <<< 4) >>> 4 = t.offset := by
    rw [Nat.shiftRight_eq_div_pow, Nat.shiftLeft_eq]
    omega
  rw [parse, Format.unpackFrom_bytes h trivial]
  simp only [values, hshift]

theorem and_mask_eq_iff (n : ℕ) : n &&& 0x3f = n ↔ n < 2 ^ 6 := by
  have hmask : n &&& 0x3f = n % 2 ^ 6 := Nat.and_two_pow_sub_one_eq_mod n 6
  rw [hmask]
  omega

/-- A header that is read back has no flag above the first six. -/
theorem bits_of_readBack (h : t.ReadBack payload prev) : t.bits < 2 ^ 6 := by
  obtain ⟨buf, t', msg, l, k, hser, hparse, hmsg, -⟩ := h
  obtain ⟨-, optionBuf, option, -, hfit', rfl, -, ht', -⟩ := serialize_inv hser
  rw [List.append_assoc, parse_bytes hfit'] at hparse
  obtain ⟨x, -, hparse⟩ := Option.map_eq_some_iff.mp hparse
  obtain ⟨o, -, heq⟩ := map_eq_ok.1 hparse
  obtain ⟨rfl, -⟩ := Prod.mk.inj heq
  have hbits := congrArg Tcp.bits hmsg
  rw [ht'] at hbits
  exact (and_mask_eq_iff _).mp hbits

/-- The options are read back from the bytes behind the header. -/
theorem readOptions_iff {header optionBuf : List UInt8} {options l' : List TcpOption} {j : ℕ}
    (hheader : header.length = 20)
    (h : writeEach TcpOption.serialize options = .ok (optionBuf, l'))
    (hbody : body = if options ≠ [] then optionBuf ++ List.replicate j 0 else [])
    (payload : List UInt8) :
    (∃ o k, readOptions (header ++ (body ++ payload)) (20 + body.length) = some (.ok o) ∧
      o.items = some (l' ++ List.replicate k TcpOption.padding)) ↔
        ∀ o ∈ options, o.Canonical := by
  have hfield : ((header ++ (body ++ payload)).take (20 + body.length)).drop 20 = body := by
    rw [← hheader, List.take_length_add_append, List.take_left' rfl, List.drop_left' rfl]
  rw [readOptions, hfield]
  by_cases hne : options = []
  · subst hne hbody
    obtain ⟨rfl, rfl⟩ := Prod.mk.inj (Except.ok.inj h)
    exact iff_of_true ⟨.none, 0, rfl, rfl⟩ (by simp)
  · rw [if_pos hne] at hbody
    obtain ⟨o, rest, rfl⟩ := List.exists_cons_of_ne_nil hne
    have hpos : 0 < body.length := by
      obtain ⟨b, o', buf, l, hb, -, rfl, -⟩ := writeEach_cons_ok h
      have hlen := List.length_pos_iff.mpr (TcpOption.serialize_ne_nil hb)
      rw [hbody, List.length_append, List.length_append]
      omega
    rw [if_pos (by omega), ← TcpOption.readItems_iff h (n := body.length) (by rw [hbody]), ← hbody]
    constructor
    · rintro ⟨option, k, hread, hitems⟩
      obtain ⟨x, hx, heq⟩ := Option.map_eq_some_iff.mp hread
      cases x with
      | ok l =>
        obtain rfl := Except.ok.inj heq
        obtain rfl : l = l' ++ List.replicate k TcpOption.padding := Option.some.inj hitems
        exact ⟨k, hx⟩
      | error e =>
        dsimp only at heq
        split at heq
        · obtain rfl := Except.ok.inj heq
          cases hitems
        · cases heq
    · rintro ⟨k, hread⟩
      rw [hread]
      exact ⟨.list _, k, rfl, rfl⟩

theorem length_optionField {options l' : List TcpOption} {optionBuf : List UInt8}
    (h : writeEach TcpOption.serialize options = .ok (optionBuf, l'))
    (hc : ∀ o ∈ options, o.Canonical) (ht : t.option = .list options) :
    (t.optionField optionBuf).length = if options ≠ [] then
      max (optionLength options) (4 * t.offset - 20) else 0 := by
  have hgiven : t.option.Given ↔ options ≠ [] := by rw [ht]; rfl
  by_cases hne : options = []
  · rw [optionField, if_neg (by rw [hgiven]; exact not_not_intro hne), if_neg (not_not_intro hne)]
    rfl
  · rw [optionField, if_pos (hgiven.mpr hne), if_pos hne, List.length_append,
      List.length_replicate, fill, TcpOption.length_writeEach h hc, optionLength, Nat.shiftLeft_eq]
    omega

/-- The offset points behind the options exactly if it is computed or leaves room for them. -/
theorem offset_iff {options l' : List TcpOption} {optionBuf : List UInt8}
    (h : writeEach TcpOption.serialize options = .ok (optionBuf, l'))
    (hc : ∀ o ∈ options, o.Canonical) (ht : t.option = .list options) :
    t.offsetOver (t.optionField optionBuf).length < 2 ^ 4 ∧
        t.offsetOver (t.optionField optionBuf).length * 4 =
          20 + (t.optionField optionBuf).length ↔
      t.offset = 0 ∧ optionLength options ≤ 40 ∨
        t.offset < 2 ^ 4 ∧ options ≠ [] ∧ 20 + optionLength options ≤ 4 * t.offset ∨
          t.offset = 5 ∧ options = [] := by
  have hmod : optionLength options % 4 = 0 := by
    rw [optionLength]
    omega
  rw [length_optionField h hc ht, offsetOver]
  by_cases hne : options = []
  · subst hne
    have hzero : optionLength [] = 0 := rfl
    rw [if_neg (not_not_intro rfl), hzero]
    split <;> simp <;> omega
  · rw [if_pos hne]
    simp only [ne_eq, hne, not_false_iff, true_and, and_false, or_false]
    split <;> omega

/-- The bytes of the header, where its offset points behind them. -/
theorem length_of_offset {options l' : List TcpOption} {optionBuf : List UInt8}
    (h : writeEach TcpOption.serialize options = .ok (optionBuf, l'))
    (hc : ∀ o ∈ options, o.Canonical) (ht : t.option = .list options)
    (hoffset : t.offset = 0 ∧ optionLength options ≤ 40 ∨
      t.offset < 2 ^ 4 ∧ options ≠ [] ∧ 20 + optionLength options ≤ 4 * t.offset ∨
        t.offset = 5 ∧ options = []) :
    20 + (t.optionField optionBuf).length = max (20 + optionLength options) (4 * t.offset) := by
  rw [length_optionField h hc ht]
  by_cases hne : options = []
  · subst hne
    have hzero : optionLength [] = 0 := rfl
    rw [if_neg (not_not_intro rfl), hzero]
    obtain ⟨h0, -⟩ | ⟨-, h1, -⟩ | ⟨h2, -⟩ := hoffset
    · omega
    · exact absurd rfl h1
    · omega
  · rw [if_pos hne]
    omega

/-- A header with a list of options is read back exactly if its flags are among the first six,
the attributes of the options are right and its fields have room. -/
theorem readBack_iff (t : Tcp) (options : List TcpOption) (payload : List UInt8)
    (prev : IpHeader) : ({ t with option := .list options }).ReadBack payload prev ↔
      t.Regular options payload prev := by
  set u : Tcp := { t with option := .list options } with hu
  have hitemsOf : ∀ {optionBuf option}, u.option.serialize = .ok (optionBuf, option) →
      ∃ l', writeEach TcpOption.serialize options = .ok (optionBuf, l') ∧ option = .list l' := by
    intro optionBuf option h
    obtain ⟨⟨b, l'⟩, hl, heq⟩ := map_eq_ok.1 h
    obtain ⟨rfl, rfl⟩ := Prod.mk.inj heq
    exact ⟨l', hl, rfl⟩
  constructor
  · intro h
    have hbits : t.bits < 2 ^ 6 := bits_of_readBack (t := u) h
    obtain ⟨buf, t', msg, l, k, hser, hparse, -, hlen, hitems, hback⟩ := h
    obtain ⟨hfit, optionBuf, option, hoption, hfit', rfl, hoff, ht', hadmits⟩ := serialize_inv hser
    obtain ⟨l', hwrite, rfl⟩ := hitemsOf hoption
    obtain rfl : l' = l := by
      rw [ht'] at hitems
      exact Option.some.inj hitems
    obtain ⟨hports, hseq, hack, -, -, hwindow, hcsum, hurgent⟩ := fits_values.1 hfit
    rw [List.append_assoc, parse_bytes hfit'] at hparse
    obtain ⟨x, hx, hparse⟩ := Option.map_eq_some_iff.mp hparse
    obtain ⟨o, rfl, heq⟩ := map_eq_ok.1 hparse
    obtain ⟨rfl, hpayload⟩ := Prod.mk.inj heq
    rw [List.length_append, length_bytes] at hlen hadmits
    have hlen : t'.offset * 4 = 20 + (u.optionField optionBuf).length := hlen
    rw [hlen] at hx
    have hc : ∀ o ∈ options, o.Canonical :=
      (readOptions_iff (length_bytes t') hwrite rfl payload).mp ⟨o, k, hx, hback⟩
    have hoffset := (offset_iff hwrite hc rfl).mp
      ⟨hoff ▸ (fits_values.1 hfit').2.2.2.1, hoff ▸ hlen⟩
    refine ⟨hports, hseq, hack, hbits, hwindow, hurgent, hc, hoffset, hcsum, ?_⟩
    rw [← length_of_offset (t := u) hwrite hc rfl hoffset]
    exact hadmits
  · intro h
    have hlt : t.offset < 2 ^ 4 := by
      obtain ⟨h0, -⟩ | ⟨h1, -⟩ | ⟨h2, -⟩ := h.offset <;> omega
    have hbits := h.bits
    have hfit : packStr.Fits u.values := fits_values.2
      ⟨h.ports, h.seq, h.ack, hlt, hbits.trans (by decide), h.windowSize, h.csum, h.urgent⟩
    obtain ⟨optionBuf, l', hwrite⟩ := TcpOption.exists_writeEach h.canonical
    have hoption : u.option.serialize = .ok (optionBuf, .list l') := by
      rw [hu, TcpOptions.serialize, hwrite]
      rfl
    obtain ⟨hsmall, hbehind⟩ := (offset_iff (t := u) hwrite h.canonical rfl).mpr h.offset
    have hadmits := h.checksum
    rw [← length_of_offset (t := u) hwrite h.canonical rfl h.offset] at hadmits
    obtain ⟨buf, t', hser⟩ := exists_serialize hfit hoption hsmall hadmits
    obtain ⟨-, optionBuf', option', hoption', hfit', rfl, hoff, ht', -⟩ := serialize_inv hser
    obtain ⟨rfl, rfl⟩ := Prod.mk.inj (Except.ok.inj (hoption.symm.trans hoption'))
    have hfield : u.optionField optionBuf = _ := rfl
    obtain ⟨o, k, hread, hitems⟩ :=
      (readOptions_iff (length_bytes t') hwrite hfield payload).mpr h.canonical
    have hlen : t'.offset * 4 = 20 + (u.optionField optionBuf).length := hoff ▸ hbehind
    have hsize : (packStr.bytes t'.values ++ u.optionField optionBuf).length = t'.offset * 4 := by
      rw [List.length_append, length_bytes, hlen]
    have hmask : t'.bits &&& 0x3f = t.bits := by
      rw [ht']
      exact (and_mask_eq_iff _).mpr h.bits
    refine ⟨_, t', { t' with bits := t'.bits &&& 0x3f, option := o }, l', k, hser, ?_, ?_,
      hsize.symm, by rw [ht']; rfl, hitems⟩
    · rw [List.append_assoc, parse_bytes hfit', hlen, hread, ← hlen, ← hsize, ← List.append_assoc,
        List.drop_left' rfl]
      rfl
    · rw [hmask, ht']

/-- A header with the flag `TCP_ECE` is not read back. -/
theorem not_readBack_ece : ¬ (⟨1, 1, 0, 0, 0, 0x40, 0, 0, 0, .list []⟩ : Tcp).ReadBack []
    (.ipv4 [10, 0, 0, 1] [10, 0, 0, 2] 6) :=
  fun h => absurd (bits_of_readBack h) (by decide)

end Tcp

end Ryu.Packet
