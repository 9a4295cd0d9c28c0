import Ryu.Lib.Crc
import Ryu.Lib.Layout
import Ryu.Lib.Struct

/-! # The checksum of SCTP packets

A packet that is serialized without a checksum gets one by a pass through a table. The table is
that of CRC-32C, so that a pass over the bytes of the packet is the checksum of RFC 3309. The pass
is not over the bytes, but over the characters of their printed form.
-/

namespace Ryu.Packet

open Bytes Crc Polynomial

/-- An `sctp` packet. What its chunks are is left to their classes. -/
structure Sctp (χ : Type) where
  srcPort : ℕ
  dstPort : ℕ
  vtag : ℕ
  csum : ℕ
  chunks : List χ

namespace Sctp

/-- `crc_c`, from RFC 3309. -/
def crcC : List ℕ :=
  [0x00000000, 0xF26B8303, 0xE13B70F7, 0x1350F3F4, 0xC79A971F, 0x35F1141C, 0x26A1E7E8, 0xD4CA64EB,
   0x8AD958CF, 0x78B2DBCC, 0x6BE22838, 0x9989AB3B, 0x4D43CFD0, 0xBF284CD3, 0xAC78BF27, 0x5E133C24,
   0x105EC76F, 0xE235446C, 0xF165B798, 0x030E349B, 0xD7C45070, 0x25AFD373, 0x36FF2087, 0xC494A384,
   0x9A879FA0, 0x68EC1CA3, 0x7BBCEF57, 0x89D76C54, 0x5D1D08BF, 0xAF768BBC, 0xBC267848, 0x4E4DFB4B,
   0x20BD8EDE, 0xD2D60DDD, 0xC186FE29, 0x33ED7D2A, 0xE72719C1, 0x154C9AC2, 0x061C6936, 0xF477EA35,
   0xAA64D611, 0x580F5512, 0x4B5FA6E6, 0xB93425E5, 0x6DFE410E, 0x9F95C20D, 0x8CC531F9, 0x7EAEB2FA,
   0x30E349B1, 0xC288CAB2, 0xD1D83946, 0x23B3BA45, 0xF779DEAE, 0x05125DAD, 0x1642AE59, 0xE4292D5A,
   0xBA3A117E, 0x4851927D, 0x5B016189, 0xA96AE28A, 0x7DA08661, 0x8FCB0562, 0x9C9BF696, 0x6EF07595,
   0x417B1DBC, 0xB3109EBF, 0xA0406D4B, 0x522BEE48, 0x86E18AA3, 0x748A09A0, 0x67DAFA54, 0x95B17957,
   0xCBA24573, 0x39C9C670, 0x2A993584, 0xD8F2B687, 0x0C38D26C, 0xFE53516F, 0xED03A29B, 0x1F682198,
   0x5125DAD3, 0xA34E59D0, 0xB01EAA24, 0x42752927, 0x96BF4DCC, 0x64D4CECF, 0x77843D3B, 0x85EFBE38,
   0xDBFC821C, 0x2997011F, 0x3AC7F2EB, 0xC8AC71E8, 0x1C661503, 0xEE0D9600, 0xFD5D65F4, 0x0F36E6F7,
   0x61C69362, 0x93AD1061, 0x80FDE395, 0x72966096, 0xA65C047D, 0x5437877E, 0x4767748A, 0xB50CF789,
   0xEB1FCBAD, 0x197448AE, 0x0A24BB5A, 0xF84F3859, 0x2C855CB2, 0xDEEEDFB1, 0xCDBE2C45, 0x3FD5AF46,
   0x7198540D, 0x83F3D70E, 0x90A324FA, 0x62C8A7F9, 0xB602C312, 0x44694011, 0x5739B3E5, 0xA55230E6,
   0xFB410CC2, 0x092A8FC1, 0x1A7A7C35, 0xE811FF36, 0x3CDB9BDD, 0xCEB018DE, 0xDDE0EB2A, 0x2F8B6829,
   0x82F63B78, 0x709DB87B, 0x63CD4B8F, 0x91A6C88C, 0x456CAC67, 0xB7072F64, 0xA457DC90, 0x563C5F93,
   0x082F63B7, 0xFA44E0B4, 0xE9141340, 0x1B7F9043, 0xCFB5F4A8, 0x3DDE77AB, 0x2E8E845F, 0xDCE5075C,
   0x92A8FC17, 0x60C37F14, 0x73938CE0, 0x81F80FE3, 0x55326B08, 0xA759E80B, 0xB4091BFF, 0x466298FC,
   0x1871A4D8, 0xEA1A27DB, 0xF94AD42F, 0x0B21572C, 0xDFEB33C7, 0x2D80B0C4, 0x3ED04330, 0xCCBBC033,
   0xA24BB5A6, 0x502036A5, 0x4370C551, 0xB11B4652, 0x65D122B9, 0x97BAA1BA, 0x84EA524E, 0x7681D14D,
   0x2892ED69, 0xDAF96E6A, 0xC9A99D9E, 0x3BC21E9D, 0xEF087A76, 0x1D63F975, 0x0E330A81, 0xFC588982,
   0xB21572C9, 0x407EF1CA, 0x532E023E, 0xA145813D, 0x758FE5D6, 0x87E466D5, 0x94B49521, 0x66DF1622,
   0x38CC2A06, 0xCAA7A905, 0xD9F75AF1, 0x2B9CD9F2, 0xFF56BD19, 0x0D3D3E1A, 0x1E6DCDEE, 0xEC064EED,
   0xC38D26C4, 0x31E6A5C7, 0x22B65633, 0xD0DDD530, 0x0417B1DB, 0xF67C32D8, 0xE52CC12C, 0x1747422F,
   0x49547E0B, 0xBB3FFD08, 0xA86F0EFC, 0x5A048DFF, 0x8ECEE914, 0x7CA56A17, 0x6FF599E3, 0x9D9E1AE0,
   0xD3D3E1AB, 0x21B862A8, 0x32E8915C, 0xC083125F, 0x144976B4, 0xE622F5B7, 0xF5720643, 0x07198540,
   0x590AB964, 0xAB613A67, 0xB831C993, 0x4A5A4A90, 0x9E902E7B, 0x6CFBAD78, 0x7FAB5E8C, 0x8DC0DD8F,
   0xE330A81A, 0x115B2B19, 0x020BD8ED, 0xF0605BEE, 0x24AA3F05, 0xD6C1BC06, 0xC5914FF2, 0x37FACCF1,
   0x69E9F0D5, 0x9B8273D6, 0x88D28022, 0x7AB90321, 0xAE7367CA, 0x5C18E4C9, 0x4F48173D, 0xBD23943E,
   0xF36E6F75, 0x0105EC76, 0x12551F82, 0xE03E9C81, 0x34F4F86A, 0xC69F7B69, 0xD5CF889D, 0x27A40B9E,
   0x79B737BA, 0x8BDCB4B9, 0x988C474D, 0x6AE7C44E, 0xBE2DA0A5, 0x4C4623A6, 0x5F16D052, 0xAD7D5351]

/-- How a byte is printed inside quotes. -/
def escape (c : UInt8) : List UInt8 :=
  if c = 0x27 ∨ c = 0x5c then [0x5c, c]
  else if c = 9 then [0x5c, 0x74]
  else if c = 10 then [0x5c, 0x6e]
  else if c = 13 then [0x5c, 0x72]
  else if c < 0x20 ∨ 0x7f ≤ c then [0x5c, 0x78, hexDigit (c / 16), hexDigit (c % 16)]
  else [c]
where
  hexDigit (d : UInt8) : UInt8 := if d < 10 then 0x30 + d else 0x57 + d

/-- `str` of a `bytearray`: `bytearray(b'...')`. Single quotes are taken unless there are single
quotes and no double ones inside. -/
def str (data : List UInt8) : List UInt8 :=
  let quote := if 0x27 ∈ data ∧ 0x22 ∉ data then 0x22 else 0x27
  "bytearray(b".toUTF8.data.toList ++ [quote] ++ data.flatMap escape ++ [quote, 0x29]

/-- What is packed with the lowest byte first is read with the highest byte first. -/
def swap (n : ℕ) : ℕ := ofBytes (toBytes 4 n).reverse

/-- The pass of `_checksum` over a string. -/
def pass (text : List UInt8) : ℕ :=
  swap (text.foldl (update fun k => crcC.getD k 0) 0xffffffff ^^^ 0xffffffff)

/-- `_checksum`. -/
def checksum (data : List UInt8) : ℕ := pass (str data)

def packStr : Format := [.num 2, .num 2, .num 4, .num 4]

/-- `serialize`, with what is left of the packet. -/
def serialize {χ : Type} (chunk : χ → Except PyError (List UInt8)) (p : Sctp χ) :
    Except PyError (List UInt8 × Sctp χ) := do
  let header ← packStr.pack (p.srcPort, p.dstPort, p.vtag, p.csum, ())
  let chunks ← writeAll chunk p.chunks
  let buf := header ++ chunks
  if p.csum = 0 then
    let csum := checksum buf
    let csumField ← packInto 4 csum
    return (packAt buf 8 csumField, { p with csum := csum })
  return (buf, p)

/-! ## RFC 3309 -/

/-- The generator polynomial of CRC-32C. -/
noncomputable def castagnoli : (ZMod 2)[X] :=
  X ^ 32 + X ^ 28 + X ^ 27 + X ^ 26 + X ^ 25 + X ^ 23 + X ^ 22 + X ^ 20 + X ^ 19 + X ^ 18 + X ^ 14 +
    X ^ 13 + X ^ 11 + X ^ 10 + X ^ 9 + X ^ 8 + X ^ 6 + 1

/-- The checksum of RFC 3309: the complement of the remainder, its bytes in reverse. -/
noncomputable def rfc3309 (data : List UInt8) : ℕ :=
  swap (toRegister 32 (dividend 32 0xffffffff data %ₘ castagnoli) ^^^ 0xffffffff)

/-- The checksum field of a packet. -/
def csumField (buf : List UInt8) : ℕ := ofBytes ((buf.drop 8).take 4)

/-- A packet without its checksum. -/
def zeroed (buf : List UInt8) : List UInt8 := buf.take 8 ++ [0, 0, 0, 0] ++ buf.drop 12

theorem generator_eq_castagnoli : generator 32 0x82F63B78 = castagnoli := by
  simp only [generator, ofRegister, castagnoli, Finset.sum_range_succ, Finset.sum_range_zero]
  norm_num [Nat.testBit, Nat.shiftRight_eq_div_pow]
  simp only [add_assoc]

theorem crcC_eq : crcC = (List.range 256).map fun k => (shift 0x82F63B78)^[8] k := by
  decide +kernel

theorem isTable_crcC : IsTable 32 0x82F63B78 fun k => crcC.getD k 0 where
  width := by decide
  taps_lt := by decide
  entry k hk := by
    rw [crcC_eq, List.getD_eq_getElem?_getD, List.getElem?_map, List.getElem?_range hk]
    rfl

variable {χ : Type} {chunk : χ → Except PyError (List UInt8)} {p p' : Sctp χ}
  {data buf : List UInt8} {m n : ℕ}

theorem swap_lt (n : ℕ) : swap n < 2 ^ 32 := by
  have h := ofBytes_lt (toBytes 4 n).reverse
  rwa [List.length_reverse, length_toBytes] at h

theorem swap_inj (hm : m < 2 ^ 32) (hn : n < 2 ^ 32) : swap m = swap n ↔ m = n := by
  have hpow : 256 ^ 4 = 2 ^ 32 := by decide
  refine ⟨fun h => ?_, congrArg swap⟩
  have hback (k : ℕ) : toBytes 4 (swap k) = (toBytes 4 k).reverse := by
    have hlen : (toBytes 4 k).reverse.length = 4 := by simp
    have hbytes := toBytes_ofBytes (toBytes 4 k).reverse
    rwa [hlen] at hbytes
  have hrev : (toBytes 4 m).reverse = (toBytes 4 n).reverse := by rw [← hback, h, hback]
  have hof := congrArg ofBytes (List.reverse_injective hrev)
  rwa [ofBytes_toBytes, ofBytes_toBytes, hpow, Nat.mod_eq_of_lt hm, Nat.mod_eq_of_lt hn] at hof

/-- The pass over the bytes of a message is its checksum. -/
theorem pass_eq_rfc3309 (data : List UInt8) : pass data = rfc3309 data := by
  rw [pass, isTable_crcC.foldl_eq (by decide), remainder, generator_eq_castagnoli, rfc3309]

example : pass "123456789".toUTF8.data.toList = 0x839206e3 := by decide +kernel

theorem remainder_lt (data : List UInt8) :
    remainder 32 0x82F63B78 0xffffffff data < 2 ^ 32 := by
  rw [← isTable_crcC.foldl_eq (by decide)]
  exact (isTable_crcC.same_foldl (by decide) data).1

theorem rfc3309_eq_iff (data data' : List UInt8) : rfc3309 data = rfc3309 data' ↔
    castagnoli ∣ dividend 32 0xffffffff data - dividend 32 0xffffffff data' := by
  have hmask : 0xffffffff < 2 ^ 32 := by decide
  rw [← generator_eq_castagnoli, ← isTable_crcC.remainder_eq_iff hmask, rfc3309, rfc3309,
    ← generator_eq_castagnoli]
  refine (swap_inj (Nat.xor_lt_two_pow (remainder_lt data) hmask)
    (Nat.xor_lt_two_pow (remainder_lt data') hmask)).trans ⟨fun h => ?_, fun h => by rw [h]⟩
  have hx := congrArg (· ^^^ 0xffffffff) h
  simpa only [Nat.xor_assoc, Nat.xor_self, Nat.xor_zero] using hx

/-! ## What is written -/

theorem zeroed_append {a b rest : List UInt8} (ha : a.length = 8) (hb : b.length = 4) :
    zeroed (a ++ (b ++ rest)) = a ++ ([0, 0, 0, 0] ++ rest) := by
  have hdrop : (a ++ (b ++ rest)).drop 12 = rest := by
    rw [← List.append_assoc]
    exact List.drop_left' (by simp [ha, hb])
  rw [zeroed, List.take_left' ha, hdrop, List.append_assoc]

theorem csumField_append {a b rest : List UInt8} (ha : a.length = 8) (hb : b.length = 4) :
    csumField (a ++ (b ++ rest)) = ofBytes b := by
  rw [csumField, List.drop_left' ha, List.take_left' hb]

/-- A packet without a checksum gets that of its bytes as they are before. -/
theorem serialize_of_csum (h : p.serialize chunk = .ok (buf, p')) (hc : p.csum = 0) :
    p'.csum = csumField buf ∧ csumField buf = checksum (zeroed buf) := by
  obtain ⟨header, hheader, h⟩ := bind_eq_ok.1 h
  obtain ⟨chunks, -, h⟩ := bind_eq_ok.1 h
  rw [if_pos hc] at h
  obtain ⟨field, hfield, h⟩ := bind_eq_ok.1 h
  obtain ⟨hlt, rfl⟩ := packInto_eq_ok.1 hfield
  obtain ⟨rfl, rfl⟩ := Prod.mk.inj (Except.ok.inj h)
  obtain ⟨a, ha, rfl⟩ : ∃ a : List UInt8, a.length = 8 ∧ header = a ++ [0, 0, 0, 0] := by
    obtain ⟨h1, b1, hb1⟩ := Format.pack_num hheader
    obtain ⟨h2, b2, hb2⟩ := Format.pack_num hb1
    obtain ⟨h3, -⟩ := Format.pack_num hb2
    unfold packStr at hheader
    rw [Format.pack_num_of_lt h1, Format.pack_num_of_lt h2, Format.pack_num_of_lt h3, hc,
      Format.pack_num_of_lt (by decide)] at hheader
    refine ⟨toBytes 2 p.srcPort ++ (toBytes 2 p.dstPort ++ toBytes 4 p.vtag), by simp, ?_⟩
    rw [← Except.ok.inj hheader]
    simp only [List.append_assoc]
    rfl
  rw [List.append_assoc] at hlt ⊢
  have hlen (n : ℕ) : ([0, 0, 0, 0] : List UInt8).length = (toBytes 4 n).length :=
    (length_toBytes 4 n).symm
  rw [packAt_replace ha (hlen _), zeroed_append ha (length_toBytes ..),
    csumField_append ha (length_toBytes ..), ofBytes_toBytes, Nat.mod_eq_of_lt hlt]
  exact ⟨rfl, rfl⟩

/-- The checksum written is that of RFC 3309 exactly if the bytes of the packet, with the field
zero, and their printed form leave one remainder. -/
theorem csumField_serialize_iff (h : p.serialize chunk = .ok (buf, p')) (hc : p.csum = 0) :
    csumField buf = rfc3309 (zeroed buf) ↔
      castagnoli ∣ dividend 32 0xffffffff (str (zeroed buf)) -
        dividend 32 0xffffffff (zeroed buf) := by
  rw [(serialize_of_csum h hc).2, checksum, pass_eq_rfc3309, rfc3309_eq_iff]

theorem serialize_eq {header chunks : List UInt8} (hc : p.csum = 0)
    (hheader : packStr.pack (p.srcPort, p.dstPort, p.vtag, p.csum, ()) = .ok header)
    (hchunks : writeAll chunk p.chunks = .ok chunks) :
    p.serialize chunk = .ok (packAt (header ++ chunks) 8 (toBytes 4 (checksum (header ++ chunks))),
      { p with csum := checksum (header ++ chunks) }) := by
  have hsum : packInto 4 (checksum (header ++ chunks)) = .ok (toBytes 4 (checksum (header ++ chunks))) :=
    packInto_eq_ok.2 ⟨swap_lt _, rfl⟩
  rw [serialize, hheader, hchunks]
  simp only [bind, Except.bind, if_pos hc, hsum]
  rfl

/-- The packet that the constructor makes without arguments. -/
theorem serialize_default : (⟨1, 1, 0, 0, []⟩ : Sctp Unit).serialize (fun _ => .ok []) =
    .ok ([0, 1, 0, 1, 0, 0, 0, 0, 129, 238, 128, 190], ⟨1, 1, 0, 0x81ee80be, []⟩) := by
  have hsum : checksum ([0, 1, 0, 1, 0, 0, 0, 0, 0, 0, 0, 0] ++ []) = 0x81ee80be := by
    decide +kernel
  have hheader : packStr.pack (1, 1, 0, 0, ()) = .ok [0, 1, 0, 1, 0, 0, 0, 0, 0, 0, 0, 0] := rfl
  rw [serialize_eq rfl hheader rfl, hsum]
  rfl

theorem csumField_default_iff :
    csumField [0, 1, 0, 1, 0, 0, 0, 0, 129, 238, 128, 190] =
        rfc3309 (zeroed [0, 1, 0, 1, 0, 0, 0, 0, 129, 238, 128, 190]) ↔
      castagnoli ∣
        dividend 32 0xffffffff (str (zeroed [0, 1, 0, 1, 0, 0, 0, 0, 129, 238, 128, 190])) -
          dividend 32 0xffffffff (zeroed [0, 1, 0, 1, 0, 0, 0, 0, 129, 238, 128, 190]) :=
  csumField_serialize_iff serialize_default rfl

/-- Its checksum is not that of its bytes. -/
theorem serialize_default_ne :
    ∃ buf p', (⟨1, 1, 0, 0, []⟩ : Sctp Unit).serialize (fun _ => .ok []) = .ok (buf, p') ∧
      csumField buf ≠ rfc3309 (zeroed buf) := by
  have hne : csumField [0, 1, 0, 1, 0, 0, 0, 0, 129, 238, 128, 190] ≠
      pass (zeroed [0, 1, 0, 1, 0, 0, 0, 0, 129, 238, 128, 190]) := by
    decide +kernel
  rw [pass_eq_rfc3309] at hne
  exact ⟨[0, 1, 0, 1, 0, 0, 0, 0, 129, 238, 128, 190], ⟨1, 1, 0, 0x81ee80be, []⟩, serialize_default,
    hne⟩

end Sctp

end Ryu.Packet
