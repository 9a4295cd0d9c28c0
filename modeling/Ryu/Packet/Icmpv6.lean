import Ryu.Lib.Items
import Ryu.Packet.Checksum
import Ryu.Packet.NdOption

/-! # Messages of neighbor discovery

The neighbor and router messages of `icmpv6`, with their options behind them. A neighbor message and
a router solicitation have one option at most, a router advertisement has a list of them, which is
read as long as there is something left. A message is asked for its length before it is serialized.
-/

namespace Ryu.Packet

open Bytes

/-- What is in a message, of its class. -/
inductive NdPayload
  | neighbor (res : ℕ) (dst : BitVec 128) (option : Option NdOption)
  | routerSolicit (res : ℕ) (option : Option NdOption)
  | routerAdvert (chL res rouL reaT retT : ℕ) (options : List NdOption)
  deriving DecidableEq, Repr

structure Icmpv6 where
  type : ℕ
  code : ℕ
  csum : ℕ
  data : NdPayload
  deriving DecidableEq, Repr

namespace NdClass

/-- What is behind a header that has one option at most. -/
def parseOne (c : NdClass) (buf : List UInt8) : Except PyError (Option NdOption) :=
  if buf = [] then .ok none else (c.parseOption buf).map some

end NdClass

namespace NdPayload

@[reducible] def neighborPackStr : Format := [.num 4, .num 16]

@[reducible] def routerSolicitPackStr : Format := [.num 4]

@[reducible] def routerAdvertPackStr : Format := [.num 1, .num 1, .num 2, .num 4, .num 4]

def cls : NdPayload → NdClass
  | neighbor .. => .neighbor
  | routerSolicit .. => .routerSolicit
  | routerAdvert .. => .routerAdvert

/-- The options there are. -/
def options : NdPayload → List NdOption
  | neighbor _ _ option | routerSolicit _ option => option.toList
  | routerAdvert _ _ _ _ _ options => options

/-- The size of a header with that of the options behind it. -/
def addLen (size : ℕ) (options : List NdOption) : Except PyError ℕ :=
  options.foldlM (fun n o => o.len.map (n + ·)) size

/-- `__len__`. -/
def len : NdPayload → Except PyError ℕ
  | neighbor _ _ option => addLen neighborPackStr.calcsize option.toList
  | routerSolicit _ option => addLen routerSolicitPackStr.calcsize option.toList
  | routerAdvert _ _ _ _ _ options => addLen routerAdvertPackStr.calcsize options

/-- An option, if there is one, with what is left of it. -/
def serializeOne : Option NdOption → Except PyError (List UInt8 × Option NdOption)
  | none => .ok ([], none)
  | some o => o.serialize.map fun x => (x.1, some x.2)

/-- A header with what is serialized behind it, and with what is left of that. -/
def behind {α : Type} (hdr : Except PyError (List UInt8)) (x : Except PyError (List UInt8 × α))
    (f : α → NdPayload) : Except PyError (List UInt8 × NdPayload) :=
  match hdr with
  | .error e => .error e
  | .ok hdr => x.map fun y => (hdr ++ y.1, f y.2)

/-- `serialize`, with what is left of the payload. -/
def serialize : NdPayload → Except PyError (List UInt8 × NdPayload)
  | neighbor res dst option =>
    behind (neighborPackStr.pack (res <<< 29, dst.toNat, ())) (serializeOne option)
      (neighbor res dst)
  | routerSolicit res option =>
    behind (routerSolicitPackStr.pack (res, ())) (serializeOne option) (routerSolicit res)
  | routerAdvert chL res rouL reaT retT options =>
    behind (routerAdvertPackStr.pack (chL, res <<< 6, rouL, reaT, retT, ()))
      (writeEach NdOption.serialize options) (routerAdvert chL res rouL reaT retT)

/-- The octets of the header. -/
def header : NdPayload → List UInt8
  | neighbor res dst _ => neighborPackStr.bytes (res <<< 29, dst.toNat, ())
  | routerSolicit res _ => routerSolicitPackStr.bytes (res, ())
  | routerAdvert chL res rouL reaT retT _ =>
    routerAdvertPackStr.bytes (chL, res <<< 6, rouL, reaT, retT, ())

/-- The payload with the lengths of its options. -/
def written : NdPayload → NdPayload
  | neighbor res dst option => neighbor res dst (option.map .written)
  | routerSolicit res option => routerSolicit res (option.map .written)
  | routerAdvert chL res rouL reaT retT options =>
    routerAdvert chL res rouL reaT retT (options.map .written)

def wire (p : NdPayload) : List UInt8 := p.header ++ p.options.flatMap NdOption.wire

/-- There is room for the numbers of the header and of the options. -/
def Fits (p : NdPayload) : Prop :=
  (match p with
    | neighbor res dst _ => neighborPackStr.Fits (res <<< 29, dst.toNat, ())
    | routerSolicit res _ => routerSolicitPackStr.Fits (res, ())
    | routerAdvert chL res rouL reaT retT _ =>
      routerAdvertPackStr.Fits (chL, res <<< 6, rouL, reaT, retT, ())) ∧
    ∀ o ∈ p.options, o.Fits

/-- The `parser` of a class. -/
def parser (c : NdClass) (buf : List UInt8) : Except PyError NdPayload :=
  match c with
  | .neighbor =>
    match neighborPackStr.unpackFrom buf with
    | .error e => .error e
    | .ok (res, dst, ()) => (c.parseOne (buf.drop neighborPackStr.calcsize)).map
        (neighbor (res >>> 29) (BitVec.ofNat 128 dst))
  | .routerSolicit =>
    match routerSolicitPackStr.unpackFrom buf with
    | .error e => .error e
    | .ok (res, ()) =>
      (c.parseOne (buf.drop routerSolicitPackStr.calcsize)).map (routerSolicit res)
  | .routerAdvert =>
    match routerAdvertPackStr.unpackFrom buf with
    | .error e => .error e
    | .ok (chL, res, rouL, reaT, retT, ()) =>
      (c.decoder.readAll (buf.drop routerAdvertPackStr.calcsize)).map
        (routerAdvert chL (res >>> 6) rouL reaT retT)

end NdPayload

namespace Icmpv6

@[reducible] def packStr : Format := [.num 1, .num 1, .num 2]

/-- The types in `_ICMPV6_TYPES`. -/
def types : List ℕ := [128, 129, 130, 131, 132, 133, 134, 135, 136, 143]

/-- The class of a type, if it is one of neighbor discovery. -/
def ndClass : ℕ → Option NdClass
  | 133 => some .routerSolicit
  | 134 => some .routerAdvert
  | 135 | 136 => some .neighbor
  | _ => none

/-- The checksum in its place, where it is zero. -/
def setCsum (m : Icmpv6) (payload : List UInt8) (prev : IpHeader) (hdr : List UInt8) :
    Except PyError (List UInt8 × Icmpv6) :=
  if m.csum = 0 then
    match prev.checksumIp hdr.length (hdr ++ payload) with
    | .error e => .error e
    | .ok csum => (packInto 2 csum).map fun b => (packAt hdr 2 b, { m with csum := csum })
  else .ok (hdr, m)

/-- The payload behind the header, if its length is not zero. -/
def serializeData (m : Icmpv6) (hdr : List UInt8) : Except PyError (List UInt8 × Icmpv6) :=
  match m.data.len with
  | .error e => .error e
  | .ok n =>
    if n = 0 then .ok (hdr, m)
    else if m.type ∈ types then
      m.data.serialize.map fun x => (hdr ++ x.1, { m with data := x.2 })
    else .error (.typeError "can't concat")

/-- `serialize`, with what is left of the message. -/
def serialize (m : Icmpv6) (payload : List UInt8) (prev : IpHeader) :
    Except PyError (List UInt8 × Icmpv6) :=
  match packStr.pack (m.type, m.code, m.csum, ()) with
  | .error e => .error e
  | .ok hdr =>
    match m.serializeData hdr with
    | .error e => .error e
    | .ok (hdr, m) => m.setCsum payload prev hdr

/-- `parser`. It returns nothing for data of another class, or if there is none. -/
def parser (buf : List UInt8) : Except PyError (Option Icmpv6) :=
  match packStr.unpackFrom buf with
  | .error e => .error e
  | .ok (type, code, csum, ()) =>
    match ndClass type with
    | none => .ok none
    | some c =>
      if packStr.calcsize < buf.length then
        (NdPayload.parser c (buf.drop packStr.calcsize)).map fun data =>
          some ⟨type, code, csum, data⟩
      else .ok none

/-- The options of the serialized message are returned as they are left, and each is of eight times
its length field. -/
def ReturnsOptions (m : Icmpv6) (payload : List UInt8) (prev : IpHeader) : Prop :=
  ∃ buf m' msg, m.serialize payload prev = .ok (buf, m') ∧ parser buf = .ok (some msg) ∧
    msg.data.options = m'.data.options ∧
    ∀ o ∈ msg.data.options, o.len = .ok (8 * o.length)

end Icmpv6

namespace NdClass

variable {c : NdClass} {l : List NdOption} {option : Option NdOption}

theorem wire_ne_nil {o : NdOption} (h : ∀ buf, o = .raw buf → c.Unknown buf) : o.wire ≠ [] := by
  have hcons (t n : ℕ) (body : List UInt8) : toBytes 1 t ++ (toBytes 1 n ++ body) ≠ [] :=
    List.cons_ne_nil _ _
  cases o with
  | sla o | tla o =>
    rw [NdOption.wire, NdOptionLa.wire_eq]
    exact hcons _ _ _
  | pi o =>
    obtain ⟨body, -, hbytes⟩ := NdOptionPi.bytes_values o.written
    have hwire : (NdOption.pi o).wire = _ := hbytes o.written.length
    rw [hwire]
    exact hcons _ _ _
  | mtu v => exact List.cons_ne_nil _ _
  | raw buf =>
    obtain ⟨optionType, length, body, rfl, -⟩ := h buf rfl
    exact List.cons_ne_nil _ _

/-- A list of options is returned exactly if each is kept, and a link-layer address is the last. -/
theorem readAll_iff (hf : ∀ o ∈ l, o.Fits) (hraw : ∀ buf, .raw buf ∈ l → c.Unknown buf) :
    c.decoder.readAll (l.flatMap NdOption.wire) = .ok (l.map .written) ∧
        (∀ o ∈ l, o.written.len = .ok (8 * o.written.length)) ↔
      ∀ o post, o :: post <:+ l → c.Keeps o ∧ c.Behind (post.flatMap NdOption.wire) o := by
  have hmem {o : NdOption} {post : List NdOption} (h : o :: post <:+ l) : o ∈ l :=
    h.subset List.mem_cons_self
  have hraw' {o : NdOption} (ho : o ∈ l) (buf : List UInt8) (h : o = .raw buf) : c.Unknown buf :=
    hraw buf (h ▸ ho)
  exact Decoder.readAll_flatMap_iff (fun o ho => wire_ne_nil (hraw' ho)) fun o post hsuffix r =>
    read_wire_iff (hf o (hmem hsuffix)) (hraw' (hmem hsuffix))

/-- One option is returned exactly if it is kept. -/
theorem parseOne_iff {o : NdOption} (hf : o.Fits) (hraw : ∀ buf, o = .raw buf → c.Unknown buf) :
    c.parseOne o.wire = .ok (some o.written) ∧ o.written.len = .ok (8 * o.written.length) ↔
      c.Keeps o := by
  have hnil : c.Behind [] o := by
    cases o with
    | sla o | tla o => rfl
    | pi o | mtu v => trivial
    | raw buf => exact Or.inr rfl
  have hone := parseOption_wire_iff (r := []) hf hraw
  rw [List.append_nil] at hone
  have hparse : c.parseOne o.wire = .ok (some o.written) ↔ c.parseOption o.wire = .ok o.written := by
    rw [parseOne, if_neg (wire_ne_nil hraw), map_eq_ok]
    simp
  rw [hparse, hone]
  exact and_iff_left hnil

end NdClass

namespace NdPayload

variable {p p' : NdPayload} {b : List UInt8} {options : List NdOption} {size n : ℕ}

theorem options_written (p : NdPayload) : p.written.options = p.options.map .written := by
  cases p with
  | neighbor res dst option => cases option <;> rfl
  | routerSolicit res option => cases option <;> rfl
  | routerAdvert chL res rouL reaT retT options => rfl

theorem addLen_cons (o : NdOption) (size : ℕ) : addLen size (o :: options) =
    (o.len.map (size + ·)).bind fun n => addLen n options := rfl

theorem le_of_addLen (h : addLen size options = .ok n) : size ≤ n := by
  induction options generalizing size with
  | nil => exact (Except.ok.inj h).le
  | cons o options ih =>
    rw [addLen_cons] at h
    obtain ⟨m, hm, hrest⟩ := bind_eq_ok.1 h
    obtain ⟨k, -, rfl⟩ := map_eq_ok.1 hm
    exact (Nat.le_add_right size k).trans (ih hrest)

/-- Asking for the length raises exactly if there is an MTU. -/
theorem isOk_addLen_iff : (addLen size options).isOk ↔ ∀ v, .mtu v ∉ options := by
  induction options generalizing size with
  | nil => exact iff_of_true rfl fun v hv => absurd hv List.not_mem_nil
  | cons o options ih =>
    rw [addLen_cons]
    cases o with
    | mtu v => exact iff_of_false Bool.false_ne_true fun h => h v List.mem_cons_self
    | sla o | tla o | pi o | raw buf => simpa [NdOption.len, Except.map, Except.bind] using ih

theorem isOk_len_iff : p.len.isOk ↔ ∀ v, .mtu v ∉ p.options := by
  cases p <;> exact isOk_addLen_iff

theorem ne_zero_of_len (h : p.len = .ok n) : n ≠ 0 := by
  cases p with
  | neighbor res dst option => exact ((le_of_addLen h).trans_lt' (by decide)).ne'
  | routerSolicit res option => exact ((le_of_addLen h).trans_lt' (by decide)).ne'
  | routerAdvert chL res rouL reaT retT options =>
    exact ((le_of_addLen h).trans_lt' (by decide)).ne'

theorem serializeOne_eq_ok_iff {option option' : Option NdOption} :
    serializeOne option = .ok (b, option') ↔ (∀ o ∈ option.toList, o.Fits) ∧
      b = option.toList.flatMap NdOption.wire ∧ option' = option.map .written := by
  cases option with
  | none => simp [serializeOne, eq_comm]
  | some o =>
    have h : (o.serialize.map fun x => (x.1, some x.2)) = .ok (b, option') ↔
        o.Fits ∧ b = o.wire ∧ option' = some o.written :=
      map_snd_eq_ok_iff fun _ _ => NdOption.serialize_eq_ok_iff
    simpa [serializeOne] using h

theorem behind_eq_ok_iff (fmt : Format) (vals : fmt.Values) {α : Type} {t : α} {f : α → NdPayload}
    {x : Except PyError (List UInt8 × α)} {q : Prop} {w : List UInt8}
    (h : ∀ b t', x = .ok (b, t') ↔ q ∧ b = w ∧ t' = t) :
    behind (fmt.pack vals) x f = .ok (b, p') ↔
      (fmt.Fits vals ∧ q) ∧ b = fmt.bytes vals ++ w ∧ p' = f t := by
  unfold behind
  constructor
  · intro heq
    split at heq
    · cases heq
    · next hdr hpack =>
      obtain ⟨hfits, rfl⟩ := Format.pack_eq_ok_iff.mp hpack
      obtain ⟨⟨b', t'⟩, hx, heq⟩ := map_eq_ok.1 heq
      obtain ⟨hq, rfl, rfl⟩ := (h b' t').mp hx
      obtain ⟨rfl, rfl⟩ := Prod.mk.inj heq
      exact ⟨⟨hfits, hq⟩, rfl, rfl⟩
  · rintro ⟨⟨hfits, hq⟩, rfl, rfl⟩
    rw [Format.pack_bytes hfits, (h w t).mpr ⟨hq, rfl, rfl⟩]
    rfl

theorem serialize_eq_ok_iff :
    p.serialize = .ok (b, p') ↔ p.Fits ∧ b = p.wire ∧ p' = p.written := by
  cases p with
  | neighbor res dst option =>
    simp only [serialize, Fits, wire, header, options, written]
    exact behind_eq_ok_iff neighborPackStr (res <<< 29, dst.toNat, ())
      fun _ _ => serializeOne_eq_ok_iff
  | routerSolicit res option =>
    exact behind_eq_ok_iff routerSolicitPackStr (res, ()) fun _ _ => serializeOne_eq_ok_iff
  | routerAdvert chL res rouL reaT retT options =>
    have heach (b : List UInt8) (l : List NdOption) :
        writeEach NdOption.serialize options = .ok (b, l) ↔ (∀ o ∈ options, o.Fits) ∧
          b = options.flatMap NdOption.wire ∧ l = options.map .written :=
      writeEach_eq_ok_iff fun _ _ _ _ => NdOption.serialize_eq_ok_iff
    exact behind_eq_ok_iff routerAdvertPackStr (chL, res <<< 6, rouL, reaT, retT, ()) heach

/-- The options are returned as they are written, each of eight times its length. -/
def Returns (p : NdPayload) : Prop :=
  ∃ d, parser p.cls p.wire = .ok d ∧ d.options = p.written.options ∧
    ∀ o ∈ d.options, o.len = .ok (8 * o.length)

/-- Only the last option is a source link-layer address. -/
def LastSla (options : List NdOption) : Prop :=
  ∀ o post, .sla o :: post <:+ options → post = []

/-- The numbers of a header are read back, and what is behind it is left. -/
theorem unpackFrom_header {fmt : Format} {vals : fmt.Values} (hn : fmt.Numeric)
    (hf : fmt.Fits vals) (r : List UInt8) : fmt.unpackFrom (fmt.bytes vals ++ r) = .ok vals ∧
      (fmt.bytes vals ++ r).drop fmt.calcsize = r :=
  ⟨Format.unpackFrom_bytes hf (hn.exact vals) r, List.drop_left' (Format.length_bytes hf)⟩

theorem numeric_neighborPackStr : neighborPackStr.Numeric := trivial

theorem numeric_routerSolicitPackStr : routerSolicitPackStr.Numeric := trivial

theorem numeric_routerAdvertPackStr : routerAdvertPackStr.Numeric := trivial

theorem wire_ne_nil (p : NdPayload) : p.wire ≠ [] := by
  cases p <;> exact List.cons_ne_nil _ _

theorem returnsOne_iff {c : NdClass} {option : Option NdOption} {f : Option NdOption → NdPayload}
    (hopt : ∀ option, (f option).options = option.toList) (hf : ∀ o ∈ option.toList, o.Fits)
    (hraw : ∀ buf, .raw buf ∈ option.toList → c.Unknown buf) :
    (∃ d, (c.parseOne (option.toList.flatMap NdOption.wire)).map f = .ok d ∧
      d.options = option.toList.map .written ∧ ∀ o ∈ d.options, o.len = .ok (8 * o.length)) ↔
      (∀ o ∈ option.toList, c.Keeps o) ∧ LastSla option.toList := by
  cases option with
  | none =>
    refine iff_of_true ⟨f none, rfl, hopt none, ?_⟩ ⟨?_, ?_⟩
    · simp [hopt]
    · simp
    · intro o post h
      cases List.suffix_nil.mp h
  | some o =>
    have hone := NdClass.parseOne_iff (c := c) (o := o) (hf o List.mem_cons_self)
      fun buf h => hraw buf (h ▸ List.mem_cons_self)
    have hlast : LastSla [o] := by
      intro o' post h
      have hle := h.length_le
      exact List.length_eq_zero_iff.mp (Nat.le_zero.mp (Nat.le_of_succ_le_succ hle))
    simp only [Option.toList_some, List.flatMap_singleton, List.map_singleton,
      List.forall_mem_singleton, and_iff_left hlast, ← hone, map_eq_ok]
    constructor
    · rintro ⟨d, ⟨option, hparse, rfl⟩, hopts, hlen⟩
      rw [hopt] at hopts hlen
      obtain rfl : option = some o.written := by
        cases option with
        | none => cases hopts
        | some o' => exact congrArg some (List.cons.inj hopts).1
      exact ⟨hparse, hlen _ List.mem_cons_self⟩
    · rintro ⟨hparse, hlen⟩
      refine ⟨_, ⟨_, hparse, rfl⟩, hopt _, ?_⟩
      rw [hopt]
      exact fun o' ho' => List.mem_singleton.mp ho' ▸ hlen

theorem returnsAll_iff {l : List NdOption} (hf : ∀ o ∈ l, o.Fits)
    (hraw : ∀ buf, .raw buf ∈ l → NdClass.routerAdvert.Unknown buf) :
    NdClass.routerAdvert.decoder.readAll (l.flatMap NdOption.wire) = .ok (l.map .written) ∧
        (∀ o ∈ l, o.written.len = .ok (8 * o.written.length)) ↔
      (∀ o ∈ l, NdClass.routerAdvert.Keeps o) ∧ LastSla l := by
  have hne {post : List NdOption} {o : NdOption} (h : o :: post <:+ l) :
      post.flatMap NdOption.wire = [] ↔ post = [] := by
    constructor
    · intro hnil
      by_contra hpost
      obtain ⟨o', post', rfl⟩ := List.exists_cons_of_ne_nil hpost
      have hmem : o' ∈ l := h.subset (List.mem_cons_of_mem _ List.mem_cons_self)
      have ho' := NdClass.wire_ne_nil (o := o') fun buf heq => hraw buf (heq ▸ hmem)
      exact ho' (List.append_eq_nil_iff.mp hnil).1
    · rintro rfl
      rfl
  rw [NdClass.readAll_iff hf hraw]
  constructor
  · intro h
    refine ⟨fun o ho => ?_, fun o post hsuffix => (hne hsuffix).mp (h _ _ hsuffix).2⟩
    obtain ⟨pre, post, rfl⟩ := List.append_of_mem ho
    exact (h o post (List.suffix_append pre _)).1
  · rintro ⟨hkeeps, hlast⟩ o post hsuffix
    have hk := hkeeps o (hsuffix.subset List.mem_cons_self)
    refine ⟨hk, ?_⟩
    cases o with
    | sla o => exact (hne hsuffix).mpr (hlast o post hsuffix)
    | tla o => cases hk.1
    | pi o | mtu v => trivial
    | raw buf => exact Or.inl rfl

/-- A payload returns its options exactly if each is kept, and only the last one takes all there
is. -/
theorem returns_iff (hf : p.Fits) (hraw : ∀ buf, .raw buf ∈ p.options → p.cls.Unknown buf) :
    p.Returns ↔ (∀ o ∈ p.options, p.cls.Keeps o) ∧ LastSla p.options := by
  obtain ⟨hheader, hf⟩ := hf
  rw [Returns, options_written]
  cases p with
  | neighbor res dst option =>
    obtain ⟨hread, hdrop⟩ := unpackFrom_header numeric_neighborPackStr hheader
      (option.toList.flatMap NdOption.wire)
    simp only [parser, cls, wire, header, options, hread, hdrop]
    exact returnsOne_iff (fun _ => rfl) hf hraw
  | routerSolicit res option =>
    obtain ⟨hread, hdrop⟩ := unpackFrom_header numeric_routerSolicitPackStr hheader
      (option.toList.flatMap NdOption.wire)
    simp only [parser, cls, wire, header, options, hread, hdrop]
    exact returnsOne_iff (fun _ => rfl) hf hraw
  | routerAdvert chL res rouL reaT retT l =>
    obtain ⟨hread, hdrop⟩ := unpackFrom_header numeric_routerAdvertPackStr hheader
      (l.flatMap NdOption.wire)
    simp only [parser, cls, wire, header, options, hread, hdrop]
    rw [← returnsAll_iff (l := l) hf hraw]
    have hmap : (∀ o ∈ l.map NdOption.written, o.len = .ok (8 * o.length)) ↔
        ∀ o ∈ l, o.written.len = .ok (8 * o.written.length) := List.forall_mem_map
    constructor
    · rintro ⟨d, hd, hopts, hlen⟩
      obtain ⟨l', hl', rfl⟩ := map_eq_ok.1 hd
      obtain rfl : l' = l.map .written := hopts
      exact ⟨hl', hmap.mp hlen⟩
    · rintro ⟨hl', hlen⟩
      exact ⟨_, map_eq_ok.2 ⟨_, hl', rfl⟩, rfl, hmap.mpr hlen⟩

end NdPayload

namespace Icmpv6

/-- There is room for the numbers, and for the length of the message in the pseudo header if there
is a checksum to be computed. -/
def Fits (m : Icmpv6) (prev : IpHeader) : Prop :=
  (packStr.Fits (m.type, m.code, m.csum, ()) ∧ m.data.Fits) ∧
    (m.csum = 0 → prev.Admits (packStr.calcsize + m.data.wire.length))

variable {m m' : Icmpv6} {payload buf w : List UInt8} {prev : IpHeader} {x : List UInt8 × Icmpv6}

theorem isOk_setCsum_iff :
    (m.setCsum payload prev buf).isOk ↔ (m.csum = 0 → prev.Admits buf.length) := by
  rw [setCsum]
  by_cases hzero : m.csum = 0
  · have hadmits : (prev.checksumIp buf.length (buf ++ payload)).isOk ↔ prev.Admits buf.length :=
      IpHeader.isOk_checksumIp_iff
    rw [if_pos hzero, ← hadmits]
    cases hcsum : prev.checksumIp buf.length (buf ++ payload) with
    | error e => simp [hzero]
    | ok csum =>
      have hlt : csum < 256 ^ 2 := IpHeader.checksumIp_lt hcsum
      simp [packInto_eq_ok.2 ⟨hlt, rfl⟩, Except.map]
  · simp [hzero]

/-- Only the checksum is other in the octets and in what is left of the message. -/
theorem setCsum_ok (hf : packStr.Fits (m.type, m.code, m.csum, ()))
    (h : m.setCsum payload prev (packStr.bytes (m.type, m.code, m.csum, ()) ++ w) = .ok x) :
    ∃ csum, packStr.Fits (m.type, m.code, csum, ()) ∧
      x = (packStr.bytes (m.type, m.code, csum, ()) ++ w, { m with csum := csum }) := by
  have hbytes (csum : ℕ) : packStr.bytes (m.type, m.code, csum, ()) ++ w =
      (toBytes 1 m.type ++ toBytes 1 m.code) ++ (toBytes 2 csum ++ w) := by
    simp [Format.bytes]
  rw [setCsum] at h
  split at h
  · split at h
    · cases h
    · next csum hcsum =>
      have hlt := IpHeader.checksumIp_lt hcsum
      obtain ⟨b, hb, rfl⟩ := map_eq_ok.1 h
      obtain ⟨-, rfl⟩ := packInto_eq_ok.1 hb
      refine ⟨csum, ⟨hf.1, hf.2.1, hlt, trivial⟩, ?_⟩
      rw [hbytes, hbytes, packAt_append (by simp) (by simp)]
  · exact ⟨m.csum, hf, (Except.ok.inj h).symm⟩

theorem type_of_ndClass {type : ℕ} {c : NdClass} (h : ndClass type = some c) :
    type ∈ types ∧ type < 2 ^ 8 := by
  unfold ndClass at h
  split at h
  · decide
  · decide
  · decide
  · decide
  · cases h

/-- The payload is serialized behind the header if no option is an MTU. -/
theorem serializeData_eq_ok_iff (ht : m.type ∈ types) : m.serializeData buf = .ok x ↔
    (m.data.Fits ∧ ∀ v, .mtu v ∉ m.data.options) ∧
      x = (buf ++ m.data.wire, { m with data := m.data.written }) := by
  rw [serializeData]
  cases hlen : m.data.len with
  | error e =>
    have hm : ¬ ∀ v, .mtu v ∉ m.data.options := by
      rw [← NdPayload.isOk_len_iff, hlen]
      exact Bool.false_ne_true
    exact iff_of_false (by simp) fun h => hm h.1.2
  | ok n =>
    have hm : ∀ v, .mtu v ∉ m.data.options := by
      rw [← NdPayload.isOk_len_iff, hlen]
      rfl
    simp only [if_neg (NdPayload.ne_zero_of_len hlen), if_pos ht, map_eq_ok]
    constructor
    · rintro ⟨⟨b, p⟩, hb, rfl⟩
      obtain ⟨hf, rfl, rfl⟩ := NdPayload.serialize_eq_ok_iff.mp hb
      exact ⟨⟨hf, hm⟩, rfl⟩
    · rintro ⟨⟨hf, -⟩, rfl⟩
      exact ⟨_, NdPayload.serialize_eq_ok_iff.mpr ⟨hf, rfl, rfl⟩, rfl⟩

/-- A message that is serialized has its checksum, and the lengths of its options. -/
theorem serialize_ok (hc : ndClass m.type = some m.data.cls)
    (h : m.serialize payload prev = .ok x) : (m.Fits prev ∧ ∀ v, .mtu v ∉ m.data.options) ∧
      ∃ csum, packStr.Fits (m.type, m.code, csum, ()) ∧
        x = (packStr.bytes (m.type, m.code, csum, ()) ++ m.data.wire,
          { m with csum := csum, data := m.data.written }) := by
  rw [serialize] at h
  split at h
  · cases h
  · next hdr hpack =>
    obtain ⟨hf, rfl⟩ := Format.pack_eq_ok_iff.mp hpack
    split at h
    · cases h
    · next buf' m' hdata =>
      obtain ⟨⟨hfits, hm⟩, heq⟩ := (serializeData_eq_ok_iff (type_of_ndClass hc).1).mp hdata
      obtain ⟨rfl, rfl⟩ := Prod.mk.inj heq
      have hadmits := isOk_setCsum_iff.1 (isOk_iff.2 ⟨x, h⟩)
      rw [List.length_append, Format.length_bytes hf] at hadmits
      exact ⟨⟨⟨⟨hf, hfits⟩, hadmits⟩, hm⟩, setCsum_ok (m := { m with data := m.data.written }) hf h⟩

theorem isOk_serialize (payload : List UInt8) (hc : ndClass m.type = some m.data.cls) (hf : m.Fits prev)
    (hm : ∀ v, .mtu v ∉ m.data.options) : (m.serialize payload prev).isOk := by
  obtain ⟨⟨hhdr, hfits⟩, hadmits⟩ := hf
  have hdata : m.serializeData (packStr.bytes (m.type, m.code, m.csum, ())) = .ok
      (packStr.bytes (m.type, m.code, m.csum, ()) ++ m.data.wire,
        { m with data := m.data.written }) :=
    (serializeData_eq_ok_iff (type_of_ndClass hc).1).mpr ⟨⟨hfits, hm⟩, rfl⟩
  rw [serialize, Format.pack_bytes hhdr]
  simp only [hdata]
  rw [isOk_setCsum_iff, List.length_append, Format.length_bytes hhdr]
  exact hadmits

theorem numeric_packStr : packStr.Numeric := trivial

theorem parser_bytes {code csum : ℕ} (hc : ndClass m.type = some m.data.cls)
    (hf : packStr.Fits (m.type, code, csum, ())) {msg : Icmpv6} :
    parser (packStr.bytes (m.type, code, csum, ()) ++ m.data.wire) = .ok (some msg) ↔
      ∃ d, NdPayload.parser m.data.cls m.data.wire = .ok d ∧ ⟨m.type, code, csum, d⟩ = msg := by
  obtain ⟨hread, hdrop⟩ := NdPayload.unpackFrom_header numeric_packStr hf m.data.wire
  have hlen : packStr.calcsize < (packStr.bytes (m.type, code, csum, ()) ++ m.data.wire).length := by
    have hpos := List.length_pos_iff.mpr (NdPayload.wire_ne_nil m.data)
    rw [List.length_append, Format.length_bytes hf]
    omega
  rw [parser, hread]
  simp only [hc, hdrop, if_pos hlen, map_eq_ok, Option.some.injEq]

theorem ReturnsOptions.keeps (h : m.ReturnsOptions payload prev)
    (hc : ndClass m.type = some m.data.cls)
    (hraw : ∀ buf, .raw buf ∈ m.data.options → m.data.cls.Unknown buf) :
    m.Fits prev ∧ (∀ o ∈ m.data.options, m.data.cls.Keeps o) ∧
      NdPayload.LastSla m.data.options := by
  obtain ⟨buf, m', msg, hserialize, hparse, hopts, hlen⟩ := h
  obtain ⟨⟨hf, -⟩, csum, hcsum, heq⟩ := serialize_ok hc hserialize
  obtain ⟨rfl, rfl⟩ := Prod.mk.inj heq
  obtain ⟨d, hd, rfl⟩ := (parser_bytes hc hcsum).mp hparse
  exact ⟨hf, (NdPayload.returns_iff hf.1.2 hraw).mp ⟨d, hd, hopts, hlen⟩⟩

/-- The options of a message are returned exactly if there is room for its numbers, each option is
of a class that its message knows and has the length it says, no option is an MTU, and none but the
last one is a source link-layer address. -/
theorem returnsOptions_iff (m : Icmpv6) (payload : List UInt8) (prev : IpHeader)
    (hc : ndClass m.type = some m.data.cls)
    (hraw : ∀ buf, .raw buf ∈ m.data.options → m.data.cls.Unknown buf) :
    m.ReturnsOptions payload prev ↔
      m.Fits prev ∧ (∀ o ∈ m.data.options, m.data.cls.Keeps o) ∧
        NdPayload.LastSla m.data.options := by
  constructor
  · exact fun h => h.keeps hc hraw
  · rintro ⟨hf, hkeeps, hlast⟩
    have hm (v : ℕ) : .mtu v ∉ m.data.options := fun hmem => hkeeps _ hmem
    obtain ⟨⟨buf, m'⟩, hserialize⟩ := isOk_iff.1 (isOk_serialize payload hc hf hm)
    obtain ⟨-, csum, hcsum, heq⟩ := serialize_ok hc hserialize
    obtain ⟨rfl, rfl⟩ := Prod.mk.inj heq
    obtain ⟨d, hd, hopts, hlen⟩ := (NdPayload.returns_iff hf.1.2 hraw).mpr ⟨hkeeps, hlast⟩
    exact ⟨_, _, _, hserialize, (parser_bytes hc hcsum).mpr ⟨d, hd, rfl⟩, hopts, hlen⟩

/-- A router advertisement with options. -/
def advert (options : List NdOption) : Icmpv6 := ⟨134, 0, 0, .routerAdvert 64 0 1800 0 0 options⟩

def linkLocal : IpHeader := .ipv6 (List.replicate 16 0) (List.replicate 16 0) 58

/-- A prefix, and the address of a link behind it. -/
def prefixAndLink : List NdOption := [.pi ⟨0, 64, 6, 86400, 14400, 0, 0⟩, .sla ⟨0, 1, none⟩]

theorem returnsOptions_iff_prefixAndLink :
    (advert prefixAndLink).ReturnsOptions [] linkLocal ↔
      (advert prefixAndLink).Fits linkLocal ∧
        (∀ o ∈ (advert prefixAndLink).data.options, (advert prefixAndLink).data.cls.Keeps o) ∧
          NdPayload.LastSla (advert prefixAndLink).data.options :=
  returnsOptions_iff (advert prefixAndLink) [] linkLocal rfl fun buf h => by
    simp [advert, prefixAndLink, NdPayload.options] at h

theorem fits_advert {options : List NdOption} (hf : ∀ o ∈ options, o.Fits)
    (hlen : (advert options).data.wire.length < 2 ^ 16) : (advert options).Fits linkLocal := by
  have hnums : packStr.Fits (134, 0, 0, ()) := ⟨by decide, by decide, by decide, trivial⟩
  have hheader : NdPayload.routerAdvertPackStr.Fits (64, 0 <<< 6, 1800, 0, 0, ()) :=
    ⟨by decide, by decide, by decide, by decide, by decide, trivial⟩
  refine ⟨⟨hnums, hheader, hf⟩, fun _ => ⟨?_, by decide⟩⟩
  simp only [Format.calcsize]
  omega

/-- An MTU is not returned, nor is a prefix behind the address of a link. -/
theorem not_returnsOptions :
    ((advert [.mtu 1500]).Fits linkLocal ∧ ¬ (advert [.mtu 1500]).ReturnsOptions [] linkLocal) ∧
      (advert prefixAndLink.reverse).Fits linkLocal ∧
        ¬ (advert prefixAndLink.reverse).ReturnsOptions [] linkLocal := by
  have hmtu : ∀ o ∈ [NdOption.mtu 1500], o.Fits := by
    simp [NdOption.Fits]
  have hlink : ∀ o ∈ prefixAndLink.reverse, o.Fits := by
    simp [prefixAndLink, NdOption.Fits, NdOptionLa.written, NdOptionPi.written, NdOptionPi.values,
      Format.Fits, fillUnits]
  refine ⟨⟨fits_advert hmtu (by decide), fun h => ?_⟩, fits_advert hlink (by decide), fun h => ?_⟩
  · obtain ⟨-, hkeeps, -⟩ := h.keeps rfl fun buf hbuf => by
      simp [advert, NdPayload.options] at hbuf
    exact hkeeps _ List.mem_cons_self
  · obtain ⟨-, -, hlast⟩ := h.keeps rfl fun buf hbuf => by
      simp [advert, prefixAndLink, NdPayload.options] at hbuf
    cases hlast _ _ List.suffix_rfl

end Icmpv6

end Ryu.Packet
