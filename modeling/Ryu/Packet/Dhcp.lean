import Ryu.Lib.Layout
import Ryu.Lib.Struct

/-! # DHCP messages

Options are read back, and so are addresses of six or sixteen bytes. The loop over the options
stops at a pad byte as it does at the end option, so that what is behind padding is lost.
-/

namespace Ryu.Packet

open Bytes

/-- An `option`, with the length of its value as it was when it was serialized or parsed. -/
structure DhcpOption where
  tag : ℕ
  value : List UInt8
  length : ℕ
  deriving DecidableEq, Repr

/-- What is on the list of options: an option, or bytes that were not parsed. -/
inductive DhcpItem
  | option (o : DhcpOption)
  | raw (buf : List UInt8)
  deriving DecidableEq, Repr

/-- `options`. The magic cookie is an address. -/
structure DhcpOptions where
  optionList : List DhcpItem
  optionsLen : ℕ
  magicCookie : ℕ
  deriving DecidableEq, Repr

/-- A hardware address: the text of a MAC address, or bytes. -/
inductive Chaddr
  | text (mac : ℕ)
  | bytes (buf : List UInt8)
  deriving DecidableEq, Repr

/-- A `dhcp` message. An IPv4 address is the number that its text stands for. -/
structure Dhcp where
  op : ℕ
  htype : ℕ
  hlen : ℕ
  hops : ℕ
  xid : ℕ
  secs : ℕ
  flags : ℕ
  ciaddr : ℕ
  yiaddr : ℕ
  siaddr : ℕ
  giaddr : ℕ
  chaddr : Chaddr
  sname : String
  bootFile : String
  options : Option DhcpOptions
  deriving DecidableEq, Repr

/-- `encode('ascii')`. -/
def encodeAscii (s : String) : Except PyError (List UInt8) :=
  if s.toList.all (·.toNat < 128) then .ok (s.toList.map fun c => UInt8.ofNat c.toNat)
  else .error (.other "UnicodeEncodeError")

/-- `decode('ascii')`. -/
def decodeAscii (b : List UInt8) : Except PyError String :=
  if b.all (·.toNat < 128) then .ok (String.ofList (b.map fun c => Char.ofNat c.toNat))
  else .error (.other "UnicodeDecodeError")

/-- The bytes of a hardware address. -/
def Chaddr.octets : Chaddr → List UInt8
  | .text mac => toBytes 6 mac
  | .bytes buf => buf

namespace DhcpOption

def serialize (o : DhcpOption) : Except PyError (List UInt8 × DhcpOption) :=
  let o := { o with length := o.value.length }
  (Format.pack [.num 1, .num 1, .str o.length] (o.tag, o.length, o.value, ())).map (·, o)

/-- `parser`, which returns nothing for the end option and for padding. -/
def parse (buf : List UInt8) : Except PyError (Option DhcpOption) := do
  let (tag, ()) ← Format.unpackFrom [.num 1] buf
  if tag = 255 ∨ tag = 0 then return none
  let buf := buf.drop 1
  let (length, ()) ← Format.unpackFrom [.num 1] buf
  let buf := buf.drop 1
  let (value, ()) ← Format.unpackFrom [.str length] buf
  return some ⟨tag, value, length⟩

end DhcpOption

def DhcpItem.serialize : DhcpItem → Except PyError (List UInt8 × DhcpItem)
  | .option o => o.serialize.map fun x => (x.1, .option x.2)
  | .raw buf => .ok (buf, .raw buf)

namespace DhcpOptions

def serialize (o : DhcpOptions) : Except PyError (List UInt8 × DhcpOptions) := do
  let cookie ← Format.pack [.num 4] (o.magicCookie, ())
  let (buf, optionList) ← writeEach DhcpItem.serialize o.optionList
  match optionList.getLast? with
  | none => throw (.other "list index out of range")
  | some (.option _) =>
    let buf := cookie ++ (buf ++ [0xff])
    return (buf, ⟨optionList, buf.length, o.magicCookie⟩)
  | some (.raw _) =>
    let buf := cookie ++ buf
    return (buf, ⟨optionList, buf.length, o.magicCookie⟩)

/-- The loop of `parser`, in at most so many rounds. -/
def scan : ℕ → List UInt8 → List DhcpItem
  | 0, _ => []
  | n + 1, buf =>
    if buf = [] then []
    else
      match DhcpOption.parse buf with
      | .error _ => [.raw buf]
      | .ok none => []
      | .ok (some o) => .option o :: scan n (buf.drop (o.length + 2))

/-- `parser`. A round goes two bytes ahead or more. -/
def parse (buf : List UInt8) : Except PyError DhcpOptions := do
  let (cookie, ()) ← Format.unpackFrom [.num 4] buf
  return ⟨scan buf.length (buf.drop 4), buf.length, cookie⟩

end DhcpOptions

namespace Dhcp

def packStr : Format :=
  [.num 1, .num 1, .num 1, .num 1, .num 4, .num 2, .num 2, .num 4, .num 4, .num 4, .num 4,
    .str 16, .str 64, .str 128]

/-- The values that are packed. -/
def values (m : Dhcp) (sname bootFile : List UInt8) : packStr.Values :=
  (m.op, m.htype, m.chaddr.octets.length, m.hops, m.xid, m.secs, m.flags, m.ciaddr, m.yiaddr,
    m.siaddr, m.giaddr, m.chaddr.octets, sname, bootFile, ())

/-- What `serialize` packs in front of the options. -/
def header (m : Dhcp) : Except PyError (List UInt8) := do
  let sname ← encodeAscii m.sname
  let bootFile ← encodeAscii m.bootFile
  packStr.pack (m.values sname bootFile)

/-- `serialize`, with what is left of the message. -/
def serialize (m : Dhcp) : Except PyError (List UInt8 × Dhcp) := do
  let (optBuf, options) ← match m.options with
    | none => .ok ([], none)
    | some options => options.serialize.map fun x => (x.1, some x.2)
  let header ← m.header
  return (header ++ optBuf, { m with hlen := m.chaddr.octets.length, options := options })

/-- `parser`, with what is behind the message. -/
def parse (buf : List UInt8) : Except PyError (Dhcp × List UInt8) := do
  let (op, htype, hlen, hops, xid, secs, flags, ciaddr, yiaddr, siaddr, giaddr, chaddr, sname,
    bootFile, ()) ← packStr.unpackFrom buf
  let chaddr := if hlen = 6 then .text (ofBytes (chaddr.take 6)) else .bytes chaddr
  let options ← if 236 < buf.length then (DhcpOptions.parse (buf.drop 236)).map some else .ok none
  let length := 236 + (options.map fun o => o.optionsLen).getD 0
  let sname ← decodeAscii sname
  let bootFile ← decodeAscii bootFile
  return (⟨op, htype, hlen, hops, xid, secs, flags, ciaddr, yiaddr, siaddr, giaddr, chaddr, sname,
    bootFile, options⟩, buf.drop length)

/-- Serialized, the message is read back, but for the form of its hardware address and what its
names are filled up with. -/
def ReadBack (m : Dhcp) : Prop :=
  ∃ buf m' msg, m.serialize = .ok (buf, m') ∧ parse buf = .ok (msg, []) ∧
    msg = { m' with chaddr := msg.chaddr, sname := msg.sname, bootFile := msg.bootFile } ∧
    msg.chaddr.octets = m.chaddr.octets

end Dhcp

namespace DhcpOption

variable {o o' : DhcpOption} {b r : List UInt8} {n k : ℕ}

/-- The tag is one of an option, and the value has room. -/
def Canonical (o : DhcpOption) : Prop := 0 < o.tag ∧ o.tag < 255 ∧ o.value.length < 2 ^ 8

instance (o : DhcpOption) : Decidable o.Canonical :=
  inferInstanceAs (Decidable (0 < o.tag ∧ o.tag < 255 ∧ o.value.length < 2 ^ 8))

def bytes (o : DhcpOption) : List UInt8 :=
  Format.bytes [.num 1, .num 1, .str o.value.length] (o.tag, o.value.length, o.value, ())

/-- What `serialize` leaves. -/
def sent (o : DhcpOption) : DhcpOption := { o with length := o.value.length }

theorem bytes_eq (o : DhcpOption) :
    o.bytes = toBytes 1 o.tag ++ (toBytes 1 o.value.length ++ o.value) := by
  simp [bytes, Format.bytes, padRight]

theorem serialize_eq_ok_iff : o.serialize = .ok (b, o') ↔
    (o.tag < 2 ^ 8 ∧ o.value.length < 2 ^ 8) ∧ b = o.bytes ∧ o' = o.sent := by
  simp only [serialize, map_eq_ok, Format.pack_eq_ok_iff, Prod.mk.injEq]
  constructor
  · rintro ⟨b, ⟨⟨htag, hlen, -⟩, rfl⟩, rfl, rfl⟩
    exact ⟨⟨by simpa using htag, by simpa using hlen⟩, rfl, rfl⟩
  · rintro ⟨⟨htag, hlen⟩, rfl, rfl⟩
    exact ⟨_, ⟨⟨by simpa using htag, by simpa using hlen, trivial⟩, rfl⟩, rfl, rfl⟩

theorem unpackFrom_byte (h : n < 2 ^ 8) (r : List UInt8) :
    Format.unpackFrom [.num 1] (toBytes 1 n ++ r) = .ok (n, ()) := by
  have hfit : Format.Fits [.num 1] (n, ()) := ⟨by simpa using h, trivial⟩
  have hread := Format.unpackFrom_bytes hfit trivial r
  rwa [Format.bytes, Format.bytes, List.append_nil] at hread

theorem unpackFrom_str (b r : List UInt8) :
    Format.unpackFrom [.str b.length] (b ++ r) = .ok (b, ()) := by
  have hread := @Format.unpackFrom_bytes [.str b.length] (b, ()) trivial ⟨rfl, trivial⟩ r
  simpa [Format.bytes, padRight] using hread

theorem parse_end (h : n = 255 ∨ n = 0) (r : List UInt8) :
    parse (toBytes 1 n ++ r) = .ok none := by
  have hlt : n < 2 ^ 8 := by omega
  rw [parse, unpackFrom_byte hlt]
  simp only [bind, Except.bind, if_pos h]
  rfl

theorem parse_bytes (h : o.Canonical) (r : List UInt8) :
    parse (o.bytes ++ r) = .ok (some o.sent) := by
  obtain ⟨hpos, htag, hlen⟩ := h
  have hne : ¬(o.tag = 255 ∨ o.tag = 0) := by omega
  rw [bytes_eq, List.append_assoc, List.append_assoc, parse, unpackFrom_byte (by omega)]
  simp only [bind, Except.bind, if_neg hne]
  rw [List.drop_left' (length_toBytes ..), unpackFrom_byte hlen]
  simp only [List.drop_left' (length_toBytes ..), unpackFrom_str]
  rfl

end DhcpOption

namespace DhcpItem

def Fits : DhcpItem → Prop
  | .option o => o.tag < 2 ^ 8 ∧ o.value.length < 2 ^ 8
  | .raw _ => True

def bytes : DhcpItem → List UInt8
  | .option o => o.bytes
  | .raw buf => buf

/-- What `serialize` leaves. -/
def sent : DhcpItem → DhcpItem
  | .option o => .option o.sent
  | .raw buf => .raw buf

theorem serialize_eq_ok_iff {i i' : DhcpItem} {b : List UInt8} :
    i.serialize = .ok (b, i') ↔ i.Fits ∧ b = i.bytes ∧ i' = i.sent := by
  cases i with
  | option o =>
    simp only [serialize, map_eq_ok, Prod.mk.injEq]
    constructor
    · rintro ⟨⟨b, o'⟩, ho, rfl, rfl⟩
      obtain ⟨hfit, rfl, rfl⟩ := DhcpOption.serialize_eq_ok_iff.mp ho
      exact ⟨hfit, rfl, rfl⟩
    · rintro ⟨hfit, rfl, rfl⟩
      exact ⟨_, DhcpOption.serialize_eq_ok_iff.mpr ⟨hfit, rfl, rfl⟩, rfl, rfl⟩
  | raw buf => simp [serialize, Fits, bytes, sent, eq_comm]

end DhcpItem

namespace DhcpOptions

/-- Options, each behind so many pad bytes, and the end option behind so many others. -/
def paddedOptions (q : List (ℕ × DhcpOption)) (k : ℕ) : List UInt8 :=
  q.flatMap (fun x => List.replicate x.1 0 ++ x.2.bytes) ++ (List.replicate k 0 ++ [0xff])

variable {q : List (ℕ × DhcpOption)} {k n : ℕ} {buf : List UInt8} {o o' : DhcpOptions}

theorem scan_end {c : UInt8} (hc : c = 255 ∨ c = 0) (hn : 0 < n) (r : List UInt8) :
    scan n (c :: r) = [] := by
  obtain ⟨m, rfl⟩ := Nat.exists_eq_succ_of_ne_zero hn.ne'
  have hparse : DhcpOption.parse (c :: r) = .ok none := by
    obtain rfl | rfl := hc
    · exact DhcpOption.parse_end (.inl rfl) r
    · exact DhcpOption.parse_end (.inr rfl) r
  rw [scan, if_neg (List.cons_ne_nil _ _), hparse]

theorem scan_tag {x : DhcpOption} (htag : x.tag < 2 ^ 8) (hlen : x.value.length < 2 ^ 8)
    (r : List UInt8) :
    scan (n + 1) (x.bytes ++ r) = if x.Canonical then .option x.sent :: scan n r else [] := by
  have hne : x.bytes ++ r ≠ [] := by
    rw [DhcpOption.bytes_eq]
    exact List.cons_ne_nil _ _
  by_cases hc : x.Canonical
  · have hdrop : (x.bytes ++ r).drop (x.sent.length + 2) = r := by
      refine List.drop_left' ?_
      simp [DhcpOption.bytes_eq, DhcpOption.sent]
      omega
    rw [scan, if_neg hne, DhcpOption.parse_bytes hc, if_pos hc]
    dsimp only
    rw [hdrop]
  · have htag' : x.tag = 255 ∨ x.tag = 0 := by
      rw [DhcpOption.Canonical] at hc
      omega
    rw [scan, if_neg hne, DhcpOption.bytes_eq, List.append_assoc, DhcpOption.parse_end htag',
      if_neg hc]

/-- Padded options are all read exactly if there is no padding in front of any. -/
theorem scan_paddedOptions (hq : ∀ x ∈ q, x.2.tag < 2 ^ 8 ∧ x.2.value.length < 2 ^ 8)
    (hn : (paddedOptions q k).length ≤ n) :
    scan n (paddedOptions q k) = q.map (fun x => .option x.2.sent) ↔
      ∀ x ∈ q, x.1 = 0 ∧ x.2.Canonical := by
  induction q generalizing n with
  | nil =>
    have hpos : 0 < n := by
      simp [paddedOptions] at hn
      omega
    refine iff_of_true ?_ (by simp)
    cases k with
    | zero => exact scan_end (.inl rfl) hpos []
    | succ k => exact scan_end (.inr rfl) hpos _
  | cons x q ih =>
    obtain ⟨j, x⟩ := x
    obtain ⟨⟨htag, hlen⟩, hq'⟩ := List.forall_mem_cons.mp hq
    have heq : paddedOptions ((j, x) :: q) k =
        List.replicate j 0 ++ (x.bytes ++ paddedOptions q k) := by
      simp [paddedOptions]
    rw [heq] at hn ⊢
    rw [List.forall_mem_cons, List.map_cons]
    cases j with
    | succ j =>
      have hpos : 0 < n := by
        simp at hn
        omega
      rw [List.replicate_succ, List.cons_append, scan_end (.inr rfl) hpos]
      simp
    | zero =>
      have hlen' : (paddedOptions q k).length + 1 ≤ n := by
        simp [DhcpOption.bytes_eq] at hn
        omega
      obtain ⟨m, rfl⟩ : ∃ m, n = m + 1 := ⟨n - 1, by omega⟩
      rw [List.replicate_zero, List.nil_append, scan_tag htag hlen]
      have ih := ih hq' (Nat.le_of_succ_le_succ hlen')
      by_cases hc : x.Canonical
      · rw [if_pos hc]
        refine Iff.trans ⟨fun h => (List.cons.inj h).2, fun h => by rw [h]⟩
          (ih.trans ⟨fun h => ⟨⟨rfl, hc⟩, h⟩, And.right⟩)
      · rw [if_neg hc]
        exact iff_of_false (by simp) fun h => hc h.1.2

/-- What is serialized of a list of options. -/
theorem serialize_eq_ok_iff {l : List DhcpOption} {len cookie : ℕ} :
    (⟨l.map .option, len, cookie⟩ : DhcpOptions).serialize = .ok (buf, o') ↔
      cookie < 2 ^ 32 ∧ (∀ x ∈ l, x.tag < 2 ^ 8 ∧ x.value.length < 2 ^ 8) ∧ l ≠ [] ∧
        buf = toBytes 4 cookie ++ paddedOptions (l.map fun x => (0, x)) 0 ∧
        o' = ⟨l.map fun x => .option x.sent, buf.length, cookie⟩ := by
  have hitems : ∀ {b items}, writeEach DhcpItem.serialize (l.map .option) = .ok (b, items) ↔
      (∀ x ∈ l, x.tag < 2 ^ 8 ∧ x.value.length < 2 ^ 8) ∧ b = l.flatMap (·.bytes) ∧
        items = l.map fun x => .option x.sent := by
    intro b items
    rw [writeEach_eq_ok_iff fun i _ _ _ => DhcpItem.serialize_eq_ok_iff, List.flatMap_map,
      List.map_map, List.forall_mem_map]
    rfl
  have hpad : paddedOptions (l.map fun x => (0, x)) 0 = l.flatMap (·.bytes) ++ [0xff] := by
    simp [paddedOptions, List.flatMap_map]
  have hcookie : ∀ {b}, Format.pack [.num 4] (cookie, ()) = .ok b ↔
      cookie < 2 ^ 32 ∧ b = toBytes 4 cookie := by
    intro b
    rw [Format.pack_eq_ok_iff]
    simp [Format.Fits, Format.bytes, eq_comm]
  rw [hpad]
  constructor
  · intro h
    obtain ⟨c, hc, h⟩ := bind_eq_ok.1 h
    obtain ⟨⟨b, items⟩, hb, h⟩ := bind_eq_ok.1 h
    obtain ⟨hlt, rfl⟩ := hcookie.mp hc
    obtain ⟨hfit, rfl, rfl⟩ := hitems.mp hb
    dsimp only at h
    rw [List.getLast?_map] at h
    cases hl : l.getLast? with
    | none =>
      rw [hl] at h
      cases h
    | some x =>
      rw [hl] at h
      obtain ⟨rfl, rfl⟩ := Prod.mk.inj (Except.ok.inj h)
      refine ⟨hlt, hfit, ?_, rfl, rfl⟩
      rintro rfl
      cases hl
  · rintro ⟨hlt, hfit, hne, rfl, rfl⟩
    rw [serialize, hcookie.mpr ⟨hlt, rfl⟩]
    simp only [bind, Except.bind, hitems.mpr ⟨hfit, rfl, rfl⟩]
    rw [List.getLast?_map, List.getLast?_eq_some_getLast hne]
    rfl

theorem parse_append {cookie : ℕ} (h : cookie < 2 ^ 32) (r : List UInt8) :
    parse (toBytes 4 cookie ++ r) = .ok ⟨scan (4 + r.length) r, 4 + r.length, cookie⟩ := by
  have hfit : Format.Fits [.num 4] (cookie, ()) := ⟨by simpa using h, trivial⟩
  have hread := Format.unpackFrom_bytes hfit trivial r
  rw [Format.bytes, Format.bytes, List.append_nil] at hread
  rw [parse, hread]
  simp only [bind, Except.bind, List.length_append, length_toBytes,
    List.drop_left' (length_toBytes 4 cookie)]
  rfl

end DhcpOptions

namespace Dhcp

variable {m m' : Dhcp} {buf h r : List UInt8} {q : List (ℕ × DhcpOption)} {k len cookie : ℕ}

/-- The message, serialized with options that each have so many pad bytes in front, is read with
the same options. -/
def ReadsPadded (m : Dhcp) (cookie : ℕ) (q : List (ℕ × DhcpOption)) (k : ℕ) : Prop :=
  ∃ h msg options, m.header = .ok h ∧
    parse (h ++ (toBytes 4 cookie ++ DhcpOptions.paddedOptions q k)) = .ok (msg, []) ∧
    msg.options = some options ∧ options.optionList = q.map fun x => .option x.2.sent

/-- The message with such options is read back, and so are the options when they are padded. -/
def Kept (m : Dhcp) (len cookie : ℕ) (q : List (ℕ × DhcpOption)) (k : ℕ) : Prop :=
  { m with options := some ⟨(q.map Prod.snd).map .option, len, cookie⟩ }.ReadBack ∧
    m.ReadsPadded cookie q k

/-- The numbers fit, the names are ASCII, the hardware address is as long as a MAC address or as
its field, and there are options, all of which are canonical. -/
structure Regular (m : Dhcp) (cookie : ℕ) (options : List DhcpOption) : Prop where
  op : m.op < 2 ^ 8
  htype : m.htype < 2 ^ 8
  hops : m.hops < 2 ^ 8
  xid : m.xid < 2 ^ 32
  secs : m.secs < 2 ^ 16
  flags : m.flags < 2 ^ 16
  addresses : m.ciaddr < 2 ^ 32 ∧ m.yiaddr < 2 ^ 32 ∧ m.siaddr < 2 ^ 32 ∧ m.giaddr < 2 ^ 32
  cookie : cookie < 2 ^ 32
  chaddr : m.chaddr.octets.length = 6 ∨ m.chaddr.octets.length = 16
  names : (∀ c ∈ m.sname.toList, c.toNat < 128) ∧ ∀ c ∈ m.bootFile.toList, c.toNat < 128
  ne_nil : options ≠ []
  canonical : ∀ o ∈ options, o.Canonical

/-- The hardware address that is read from the bytes of one. -/
def readChaddr (b : List UInt8) : Chaddr :=
  let field := padRight (b.take 16) 16
  if b.length = 6 then .text (ofBytes (field.take 6)) else .bytes field

theorem octets_readChaddr_iff (b : List UInt8) :
    (readChaddr b).octets = b ↔ b.length = 6 ∨ b.length = 16 := by
  by_cases h6 : b.length = 6
  · have hfield : (padRight (b.take 16) 16).take 6 = b := by
      rw [List.take_of_length_le (show b.length ≤ 16 by omega), padRight, List.take_left' h6]
    rw [readChaddr, if_pos h6, hfield, Chaddr.octets]
    nth_rewrite 1 [← h6]
    exact iff_of_true (toBytes_ofBytes b) (.inl h6)
  · rw [readChaddr, if_neg h6, Chaddr.octets]
    constructor
    · intro h
      have hlen := congrArg List.length h
      rw [length_padRight, List.length_take] at hlen
      omega
    · rintro (h | h)
      · exact absurd h h6
      · rw [List.take_of_length_le h.le, padRight_of_le h.ge]

theorem encodeAscii_ok {s : String} {b : List UInt8} (h : encodeAscii s = .ok b) :
    (∀ c ∈ s.toList, c.toNat < 128) ∧ ∀ c ∈ b, c.toNat < 128 := by
  rw [encodeAscii] at h
  split at h
  · next hs =>
    obtain rfl := Except.ok.inj h
    have hs : ∀ c ∈ s.toList, c.toNat < 128 := by simpa using hs
    refine ⟨hs, List.forall_mem_map.mpr fun c hc => ?_⟩
    have hlt := hs c hc
    rw [UInt8.toNat_ofNat']
    omega
  · cases h

theorem exists_encodeAscii {s : String} (h : ∀ c ∈ s.toList, c.toNat < 128) :
    ∃ b, encodeAscii s = .ok b :=
  ⟨_, if_pos (by simpa using h)⟩

/-- What is packed of a name is decoded. -/
theorem exists_decodeAscii {s : String} {b : List UInt8} (h : encodeAscii s = .ok b) (n : ℕ) :
    ∃ name, decodeAscii (padRight (b.take n) n) = .ok name := by
  have hall : ∀ c ∈ padRight (b.take n) n, c.toNat < 128 := by
    intro c hc
    obtain hc | hc := List.mem_append.mp hc
    · exact (encodeAscii_ok h).2 c (List.mem_of_mem_take hc)
    · rw [List.eq_of_mem_replicate hc]
      decide
  exact ⟨_, if_pos (by simpa using hall)⟩

/-- The header of a message is read back from what is in front of anything. -/
theorem parse_header (hh : m.header = .ok h) : ∃ sname bootFile, ∀ r, parse (h ++ r) =
    (if r = [] then .ok none else (DhcpOptions.parse r).map some).map fun options =>
      ({ m with hlen := m.chaddr.octets.length, chaddr := readChaddr m.chaddr.octets,
                sname := sname, bootFile := bootFile, options := options },
        r.drop ((options.map fun o => o.optionsLen).getD 0)) := by
  obtain ⟨sname, hs, hh⟩ := bind_eq_ok.1 hh
  obtain ⟨bootFile, hb, hh⟩ := bind_eq_ok.1 hh
  have hlen := Format.length_pack hh
  obtain ⟨hfit, hbytes⟩ := Format.pack_eq_ok_iff.mp hh
  obtain ⟨name, hname⟩ := exists_decodeAscii hs 64
  obtain ⟨file, hfile⟩ := exists_decodeAscii hb 128
  refine ⟨name, file, fun r => ?_⟩
  have hread := Format.unpackFrom_bytes_padded hfit r
  rw [hbytes] at hread
  have hlen : h.length = 236 := hlen
  have hdrop (n : ℕ) : (h ++ r).drop (236 + n) = r.drop n := by
    rw [← hlen, List.drop_length_add_append]
  have hmore : 236 < (h ++ r).length ↔ r ≠ [] := by
    rw [List.length_append, hlen, ← List.length_pos_iff]
    omega
  rw [parse, hread]
  simp only [Format.padded, packStr, values, bind, Except.bind, hname, hfile, hdrop,
    List.drop_left' hlen]
  by_cases hr : r = []
  · rw [if_neg (fun hlt => hmore.mp hlt hr), if_pos hr]
    rfl
  · rw [if_pos (hmore.mpr hr), if_neg hr]
    cases DhcpOptions.parse r <;> rfl

/-- Options that have nothing behind them are read with the message. -/
theorem parse_options (hh : m.header = .ok h) (hcookie : cookie < 2 ^ 32) :
    ∃ sname bootFile, ∀ x, parse (h ++ (toBytes 4 cookie ++ x)) =
      .ok ({ m with hlen := m.chaddr.octets.length, chaddr := readChaddr m.chaddr.octets,
                    sname := sname, bootFile := bootFile,
                    options := some ⟨DhcpOptions.scan (4 + x.length) x, 4 + x.length, cookie⟩ },
        []) := by
  obtain ⟨sname, bootFile, hparse⟩ := parse_header hh
  refine ⟨sname, bootFile, fun x => ?_⟩
  have hne : toBytes 4 cookie ++ x ≠ [] := List.cons_ne_nil _ _
  have hlen : (toBytes 4 cookie ++ x).length ≤ 4 + x.length := by
    rw [List.length_append, length_toBytes]
  rw [hparse, if_neg hne, DhcpOptions.parse_append hcookie]
  simp only [Except.map, Option.map, Option.getD, List.drop_eq_nil_of_le hlen]

/-- When there is a header: the numbers fit and the names are ASCII. -/
theorem exists_header_iff : (∃ h, m.header = .ok h) ↔
    (m.op < 2 ^ 8 ∧ m.htype < 2 ^ 8 ∧ m.chaddr.octets.length < 2 ^ 8 ∧ m.hops < 2 ^ 8 ∧
      m.xid < 2 ^ 32 ∧ m.secs < 2 ^ 16 ∧ m.flags < 2 ^ 16 ∧ m.ciaddr < 2 ^ 32 ∧
        m.yiaddr < 2 ^ 32 ∧ m.siaddr < 2 ^ 32 ∧ m.giaddr < 2 ^ 32) ∧
      (∀ c ∈ m.sname.toList, c.toNat < 128) ∧ ∀ c ∈ m.bootFile.toList, c.toNat < 128 := by
  constructor
  · rintro ⟨h, hh⟩
    obtain ⟨sname, hs, hh⟩ := bind_eq_ok.1 hh
    obtain ⟨bootFile, hb, hh⟩ := bind_eq_ok.1 hh
    refine ⟨?_, (encodeAscii_ok hs).1, (encodeAscii_ok hb).1⟩
    simpa [packStr, values, Format.Fits] using (Format.pack_eq_ok_iff.mp hh).1
  · rintro ⟨hfit, hs, hb⟩
    obtain ⟨sname, hs⟩ := exists_encodeAscii hs
    obtain ⟨bootFile, hb⟩ := exists_encodeAscii hb
    refine ⟨packStr.bytes (m.values sname bootFile), ?_⟩
    rw [header, hs, hb]
    refine Format.pack_bytes ?_
    simpa [packStr, values, Format.Fits] using hfit

/-- Padded options are read with the message exactly if there is no padding in front of any. -/
theorem readsPadded_iff (hh : m.header = .ok h) (hcookie : cookie < 2 ^ 32)
    (hq : ∀ x ∈ q, x.2.tag < 2 ^ 8 ∧ x.2.value.length < 2 ^ 8) :
    m.ReadsPadded cookie q k ↔ ∀ x ∈ q, x.1 = 0 ∧ x.2.Canonical := by
  obtain ⟨sname, bootFile, hread⟩ := parse_options hh hcookie
  rw [← DhcpOptions.scan_paddedOptions (k := k) hq (Nat.le_add_left _ 4)]
  constructor
  · rintro ⟨h', msg, options, hh', hmsg, hoptions, hlist⟩
    obtain rfl := Except.ok.inj (hh.symm.trans hh')
    obtain ⟨rfl, -⟩ := Prod.mk.inj (Except.ok.inj ((hread _).symm.trans hmsg))
    obtain rfl := Option.some.inj hoptions
    exact hlist
  · intro hscan
    exact ⟨h, _, _, hh, hread _, rfl, hscan⟩

theorem serialize_options {options : DhcpOptions} :
    ({ m with options := some options }).serialize = .ok (buf, m') ↔
      ∃ h b o, m.header = .ok h ∧ options.serialize = .ok (b, o) ∧ buf = h ++ b ∧
        m' = { m with hlen := m.chaddr.octets.length, options := some o } := by
  constructor
  · intro hs
    obtain ⟨⟨b, o⟩, hb, hs⟩ := bind_eq_ok.1 hs
    obtain ⟨⟨b, o⟩, ho, heq⟩ := map_eq_ok.1 hb
    obtain ⟨rfl, rfl⟩ := Prod.mk.inj heq
    obtain ⟨h, hh, hs⟩ := bind_eq_ok.1 hs
    obtain ⟨rfl, rfl⟩ := Prod.mk.inj (Except.ok.inj hs)
    exact ⟨h, b, o, hh, ho, rfl, rfl⟩
  · rintro ⟨h, b, o, hh, hb, rfl, rfl⟩
    have hh : ({ m with options := some options } : Dhcp).header = .ok h := hh
    rw [serialize, hh]
    simp only [bind, Except.bind, hb]
    rfl

/-- A message with options is read back exactly if it is regular. -/
theorem readBack_options_iff {l : List DhcpOption} :
    ({ m with options := some ⟨l.map .option, len, cookie⟩ }).ReadBack ↔ m.Regular cookie l := by
  constructor
  · rintro ⟨buf, m', msg, hs, hmsg, heq, hchaddr⟩
    obtain ⟨h, b, o, hh, ho, rfl, rfl⟩ := serialize_options.1 hs
    obtain ⟨hcookie, hfit, hne, rfl, rfl⟩ := DhcpOptions.serialize_eq_ok_iff.mp ho
    obtain ⟨⟨hop, htype, -, hhops, hxid, hsecs, hflags, haddr⟩, hnames⟩ :=
      exists_header_iff.1 ⟨h, hh⟩
    have hcanonical : m.ReadsPadded cookie (l.map fun x => (0, x)) 0 := by
      refine ⟨h, msg, _, hh, hmsg, congrArg Dhcp.options heq, ?_⟩
      rw [List.map_map]
      rfl
    rw [readsPadded_iff hh hcookie (List.forall_mem_map.mpr hfit)] at hcanonical
    obtain ⟨sname, bootFile, hparse⟩ := parse_header hh
    rw [hparse] at hmsg
    obtain ⟨options, -, hmsg⟩ := map_eq_ok.1 hmsg
    obtain ⟨rfl, -⟩ := Prod.mk.inj hmsg
    exact ⟨hop, htype, hhops, hxid, hsecs, hflags, haddr, hcookie,
      (octets_readChaddr_iff _).mp hchaddr, hnames, hne,
      fun x hx => (List.forall_mem_map.mp hcanonical x hx).2⟩
  · intro hr
    have hlen : m.chaddr.octets.length < 2 ^ 8 := by
      obtain h6 | h16 := hr.chaddr <;> omega
    obtain ⟨h, hh⟩ := exists_header_iff.2
      ⟨⟨hr.op, hr.htype, hlen, hr.hops, hr.xid, hr.secs, hr.flags, hr.addresses⟩, hr.names⟩
    have hfit : ∀ x ∈ l, x.tag < 2 ^ 8 ∧ x.value.length < 2 ^ 8 := fun x hx =>
      ⟨(hr.canonical x hx).2.1.trans (by decide), (hr.canonical x hx).2.2⟩
    have hoptions := (@DhcpOptions.serialize_eq_ok_iff _ _ l len cookie).mpr
      ⟨hr.cookie, hfit, hr.ne_nil, rfl, rfl⟩
    have hs := serialize_options.2 ⟨h, _, _, hh, hoptions, rfl, rfl⟩
    obtain ⟨sname, bootFile, hread⟩ := parse_options hh hr.cookie
    refine ⟨_, _, _, hs, hread _, ?_, (octets_readChaddr_iff _).mpr hr.chaddr⟩
    have hcanonical : ∀ x ∈ l.map fun x => (0, x), x.1 = 0 ∧ x.2.Canonical :=
      List.forall_mem_map.mpr fun x hx => ⟨rfl, hr.canonical x hx⟩
    have hscan := (DhcpOptions.scan_paddedOptions (k := 0) (List.forall_mem_map.mpr hfit)
      (Nat.le_add_left _ 4)).mpr hcanonical
    rw [hscan, List.map_map]
    simp only [List.length_append, length_toBytes]
    rfl

/-- The options of a regular message are read exactly if there is no padding in front of any. -/
theorem Regular.readsPadded_iff (hr : m.Regular cookie (q.map Prod.snd)) :
    m.ReadsPadded cookie q k ↔ ∀ x ∈ q, x.1 = 0 := by
  have hcanonical := List.forall_mem_map.mp hr.canonical
  have hlen : m.chaddr.octets.length < 2 ^ 8 := by
    obtain h6 | h16 := hr.chaddr <;> omega
  obtain ⟨h, hh⟩ := exists_header_iff.2
    ⟨⟨hr.op, hr.htype, hlen, hr.hops, hr.xid, hr.secs, hr.flags, hr.addresses⟩, hr.names⟩
  rw [Dhcp.readsPadded_iff hh hr.cookie fun x hx =>
    ⟨(hcanonical x hx).2.1.trans (by decide), (hcanonical x hx).2.2⟩]
  exact ⟨fun h x hx => (h x hx).1, fun h x hx => ⟨h x hx, hcanonical x hx⟩⟩

/-- Options are kept, padded or not, exactly if the message is regular and there is no padding in
front of any option. -/
theorem kept_padded_iff (m : Dhcp) (len cookie : ℕ) (q : List (ℕ × DhcpOption)) (k : ℕ) :
    m.Kept len cookie q k ↔ m.Regular cookie (q.map Prod.snd) ∧ ∀ x ∈ q, x.1 = 0 := by
  rw [Kept, readBack_options_iff]
  exact and_congr_right Regular.readsPadded_iff

/-- A request from a MAC address. -/
def discover : Dhcp :=
  ⟨1, 1, 6, 0, 1, 0, 0, 0, 0, 0, 0, .text 0xaabbccddeeff, "", "", none⟩

theorem discover_regular : discover.Regular 0x63825363 [⟨53, [1], 0⟩] where
  op := by decide
  htype := by decide
  hops := by decide
  xid := by decide
  secs := by decide
  flags := by decide
  addresses := by decide
  cookie := by decide
  chaddr := .inl rfl
  names := by simp [discover]
  ne_nil := by decide
  canonical := by decide

/-- A pad byte in front of the only option of a regular message. -/
theorem not_kept_discover : discover.Regular 0x63825363 [⟨53, [1], 0⟩] ∧
    ¬discover.Kept 0 0x63825363 [(1, ⟨53, [1], 0⟩)] 0 := by
  refine ⟨discover_regular, fun h => ?_⟩
  have hpads := (discover_regular.readsPadded_iff (q := [(1, ⟨53, [1], 0⟩)])).mp h.2
  exact absurd (hpads _ List.mem_cons_self) one_ne_zero

end Dhcp

end Ryu.Packet
