import Ryu.Packet.Ipv6Header

/-! # IPv6

The fixed header and the extension headers behind it, each of which says of which type the next one
is. The payload length is computed where it is zero. It counts the extension headers, and the parser
takes as many octets behind them.
-/

namespace Ryu.Packet

open Bytes

/-- `ipv6`, with its addresses as numbers. -/
structure Ipv6 where
  version : ℕ
  trafficClass : ℕ
  flowLabel : ℕ
  payloadLength : ℕ
  nxt : ℕ
  hopLimit : ℕ
  src : BitVec 128
  dst : BitVec 128
  extHdrs : List Ipv6.ExtHeader
  deriving DecidableEq, Repr

namespace Ipv6

/-- The loop of the parser over the extension headers: at most so many, and the type and the octets
behind them. -/
def readExtHdrs : ℕ → ℕ → List UInt8 → Except PyError (List ExtHeader × ℕ × List UInt8)
  | fuel, last, buf =>
    match ExtHeader.parserOf last with
    | none => .ok ([], last, buf)
    | some parser =>
      match fuel, parser buf with
      | 0, _ => .error structError
      | _, .error e => .error e
      | fuel + 1, .ok hdr =>
        (readExtHdrs fuel hdr.nxt (buf.drop hdr.len)).map fun x => (hdr :: x.1, x.2)

/-- `!IHBB16s16s`, the addresses as numbers. -/
@[reducible] def packStr : Format := [.num 4, .num 2, .num 1, .num 1, .num 16, .num 16]

variable (p : Ipv6)

def vTcFlow : ℕ := p.version <<< 28 ||| p.trafficClass <<< 20 ||| p.flowLabel

def values : packStr.Values :=
  (p.vTcFlow, p.payloadLength, p.nxt, p.hopLimit, p.src.toNat, p.dst.toNat, ())

/-- `parser`: the header, the type of what is behind it, and its octets. A header is not empty, so
there are no more of them than octets. -/
def parser (buf : List UInt8) : Except PyError (Ipv6 × ℕ × List UInt8) :=
  match packStr.unpackFrom buf with
  | .error e => .error e
  | .ok (vTcFlow, payloadLength, nxt, hlim, src, dst, ()) =>
    (readExtHdrs buf.length nxt (buf.drop packStr.calcsize)).map fun (extHdrs, last, rest) =>
      (⟨vTcFlow >>> 28, (vTcFlow >>> 20) &&& 0xff, vTcFlow &&& 0xfffff, payloadLength, nxt, hlim,
        BitVec.ofNat 128 src, BitVec.ofNat 128 dst, extHdrs⟩, last, rest.take payloadLength)

/-- `serialize`, with what is left of the header. -/
def serialize (payload : List UInt8) : Except PyError (List UInt8 × Ipv6) :=
  match packStr.pack p.values with
  | .error e => .error e
  | .ok hdr =>
    match writeEach ExtHeader.serialize p.extHdrs with
    | .error e => .error e
    | .ok (ext, extHdrs) =>
      if p.payloadLength = 0 then
        let payloadLength := payload.length + (extHdrs.map ExtHeader.len).sum
        (packInto 2 payloadLength).map fun b =>
          (hdr.take 4 ++ b ++ hdr.drop 6 ++ ext, { p with payloadLength, extHdrs })
      else .ok (hdr ++ ext, { p with extHdrs })

/-- `__len__`. -/
def len : ℕ := packStr.calcsize + (p.extHdrs.map ExtHeader.len).sum

/-- Each header says of which type the next one is, and the last one of which type the payload
is, which is not that of a header. -/
def Chain : ℕ → List ExtHeader → ℕ → Prop
  | nxt, [], last => nxt = last ∧ ExtHeader.parserOf last = none
  | nxt, hdr :: l, last => hdr.type = nxt ∧ Chain hdr.nxt l last

variable {l : List ExtHeader} {nxt last fuel : ℕ} {r : List UInt8}

/-- Headers that are chained are read back, whatever is behind them. -/
theorem readExtHdrs_written (hchain : Chain nxt l last) (hl : ∀ hdr ∈ l, hdr.Readable) :
    ∃ b l', writeEach ExtHeader.serialize l = .ok (b, l') ∧
      b.length = (l'.map ExtHeader.len).sum ∧
      ∀ fuel r, b.length ≤ fuel → readExtHdrs fuel nxt (b ++ r) = .ok (l', last, r) := by
  induction l generalizing nxt with
  | nil =>
    obtain ⟨rfl, hnone⟩ := hchain
    refine ⟨[], [], rfl, rfl, fun fuel r _ => ?_⟩
    rw [readExtHdrs, hnone]
    rfl
  | cons hdr l ih =>
    obtain ⟨rfl, hchain⟩ := hchain
    obtain ⟨hhdr, hl⟩ := List.forall_mem_cons.mp hl
    obtain ⟨parser, hparser, b, hdr', hb, hlen, hread⟩ := ExtHeader.readBack hhdr
    obtain ⟨htype, hnxt⟩ := ExtHeader.serialize_keeps hb
    obtain ⟨ext, l', hext, hlen', hread'⟩ := ih hchain hl
    refine ⟨b ++ ext, hdr' :: l', ?_, ?_, fun fuel r hfuel => ?_⟩
    · rw [writeEach, hb, hext]
      rfl
    · rw [List.length_append, hlen, hlen', List.map_cons, List.sum_cons]
    · have hpos := hdr'.len_pos
      rw [List.length_append] at hfuel
      obtain ⟨fuel, rfl⟩ := Nat.exists_eq_succ_of_ne_zero (show fuel ≠ 0 by omega)
      rw [readExtHdrs, hparser, List.append_assoc]
      simp only
      rw [hread]
      simp only
      rw [hnxt, List.drop_left' hlen, hread' fuel r (by omega)]
      rfl

variable {p : Ipv6}

/-- The numbers fit their fields, and the headers are read back and chained. -/
structure Readable (p : Ipv6) (last : ℕ) : Prop where
  version : p.version < 2 ^ 4
  trafficClass : p.trafficClass < 2 ^ 8
  flowLabel : p.flowLabel < 2 ^ 20
  payloadLength : p.payloadLength < 2 ^ 16
  nxt : p.nxt < 256
  hopLimit : p.hopLimit < 256
  extHdrs : ∀ hdr ∈ p.extHdrs, hdr.Readable
  chain : Chain p.nxt p.extHdrs last

/-- The headers as `serialize` leaves them. -/
def written (p : Ipv6) : List ExtHeader :=
  match writeEach ExtHeader.serialize p.extHdrs with
  | .error _ => p.extHdrs
  | .ok (_, extHdrs) => extHdrs

/-- The first number is made of three. -/
theorem vTcFlow_eq (h : p.Readable last) :
    p.vTcFlow < 2 ^ 32 ∧ p.vTcFlow >>> 28 = p.version ∧
      (p.vTcFlow >>> 20) &&& 0xff = p.trafficClass ∧ p.vTcFlow &&& 0xfffff = p.flowLabel := by
  have hlow : p.trafficClass <<< 20 ||| p.flowLabel < 2 ^ (8 + 20) :=
    (BitFields.shiftLeft_or_lt_iff h.flowLabel).2 h.trafficClass
  have hsplit : p.vTcFlow = p.version <<< 28 ||| (p.trafficClass <<< 20 ||| p.flowLabel) := by
    rw [vTcFlow, Nat.or_assoc]
  have hsplit' : p.vTcFlow = (p.version <<< 8 ||| p.trafficClass) <<< 20 ||| p.flowLabel := by
    rw [vTcFlow, Nat.shiftLeft_or_distrib, ← Nat.shiftLeft_add]
  refine ⟨?_, ?_, ?_, ?_⟩
  · rw [hsplit, show 2 ^ 32 = 2 ^ (4 + 28) from rfl, BitFields.shiftLeft_or_lt_iff hlow]
    exact h.version
  · rw [hsplit, BitFields.shiftRight_shiftLeft_or hlow]
  · rw [hsplit', BitFields.shiftRight_shiftLeft_or h.flowLabel]
    exact BitFields.shiftLeft_or_and h.trafficClass
  · rw [hsplit']
    exact BitFields.shiftLeft_or_and h.flowLabel

theorem fits_values (h : p.Readable last) : packStr.Fits p.values := by
  refine ⟨?_, ?_, h.nxt, h.hopLimit, ?_, ?_, trivial⟩
  · rw [show 256 ^ 4 = 2 ^ 32 from rfl]
    exact (vTcFlow_eq h).1
  · exact h.payloadLength
  · exact p.src.isLt
  · exact p.dst.isLt

/-- The payload length is put in its place behind the first number. -/
theorem bytes_payloadLength (p : Ipv6) (n : ℕ) :
    (packStr.bytes p.values).take 4 ++ toBytes 2 n ++ (packStr.bytes p.values).drop 6 =
      packStr.bytes { p with payloadLength := n }.values := by
  rfl

/-- The fixed header is read back, with the headers and what is behind them. -/
theorem parser_bytes (h : p.Readable last) {b : List UInt8} {extHdrs : List ExtHeader}
    {rest : List UInt8} (hread : ∀ fuel, b.length ≤ fuel →
      readExtHdrs fuel p.nxt (b ++ rest) = .ok (extHdrs, last, rest)) :
    parser (packStr.bytes p.values ++ (b ++ rest)) =
      .ok ({ p with extHdrs }, last, rest.take p.payloadLength) := by
  obtain ⟨-, hversion, htc, hflow⟩ := vTcFlow_eq h
  have hfits := fits_values h
  rw [parser, Format.unpackFrom_bytes hfits trivial]
  simp only [values]
  rw [hversion, htc, hflow, BitVec.ofNat_toNat, BitVec.ofNat_toNat, BitVec.setWidth_eq,
    BitVec.setWidth_eq]
  have hdrop : (packStr.bytes p.values ++ (b ++ rest)).drop packStr.calcsize = b ++ rest :=
    List.drop_left' (Format.length_bytes hfits)
  rw [values] at hdrop
  rw [hdrop, hread _ (by simp only [List.length_append]; omega)]
  rfl

/-- Headers that are chained are read back, with as much behind them as the payload length says.
Where it is computed, it counts the payload and the headers. -/
theorem parser_serialize (h : p.Readable last) (payload : List UInt8)
    (hlen : p.payloadLength = 0 →
      payload.length + (p.written.map ExtHeader.len).sum < 2 ^ 16) :
    ∃ b p', p.serialize payload = .ok (b, p') ∧ b.length = p'.len ∧
      p' = { p with payloadLength := p'.payloadLength, extHdrs := p.written } ∧
      (∃ r, b = toBytes 4 p.vTcFlow ++ r) ∧
      (p.payloadLength = 0 → p'.payloadLength + packStr.calcsize = p'.len + payload.length) ∧
      (p.payloadLength ≠ 0 → p'.payloadLength = p.payloadLength) ∧
      ∀ rest, parser (b ++ rest) = .ok (p', last, rest.take p'.payloadLength) := by
  obtain ⟨ext, extHdrs, hwrite, hext, hread⟩ := readExtHdrs_written h.chain h.extHdrs
  have hwritten : p.written = extHdrs := by rw [written, hwrite]
  rw [hwritten] at hlen
  have hfits := fits_values h
  rw [serialize, Format.pack_bytes hfits, hwrite]
  simp only
  split_ifs with hzero
  · have hsum := hlen hzero
    have hfit : payload.length + (extHdrs.map ExtHeader.len).sum < 256 ^ 2 := hsum
    let q : Ipv6 := { p with payloadLength := payload.length + (extHdrs.map ExtHeader.len).sum }
    have hq : q.Readable last :=
      ⟨h.version, h.trafficClass, h.flowLabel, hsum, h.nxt, h.hopLimit, h.extHdrs, h.chain⟩
    rw [packInto, if_pos hfit]
    refine ⟨_, { q with extHdrs }, rfl, ?_, by rw [hwritten], ⟨_, rfl⟩, ?_,
      fun hne => absurd hzero hne, fun rest => ?_⟩
    · rw [bytes_payloadLength, List.length_append, Format.length_bytes (fits_values hq), hext]
      rfl
    · intro _
      simp only [q, len]
      omega
    · rw [bytes_payloadLength, List.append_assoc]
      exact parser_bytes hq fun fuel hfuel => hread fuel rest hfuel
  · refine ⟨_, { p with extHdrs }, rfl, ?_, by rw [hwritten], ⟨_, rfl⟩, fun hz => absurd hz hzero,
      fun _ => rfl, fun rest => ?_⟩
    · rw [List.length_append, Format.length_bytes hfits, hext]
      rfl
    · rw [List.append_assoc]
      exact parser_bytes h fun fuel hfuel => hread fuel rest hfuel

end Ipv6

end Ryu.Packet
