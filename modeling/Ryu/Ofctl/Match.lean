import Ryu.Lib.Dict
import Ryu.Ofproto.Match

/-! # REST dictionaries and matches

`ofctl` makes a match of a REST dictionary and a REST dictionary of a match, for OpenFlow
1.3. Some fields have an older REST name, the ports of TCP and UDP share one, and a match
is written under the older names.
-/

namespace Ryu

open Numeral

/-- The older REST names. -/
inductive LegacyKey
  | dlDst | dlSrc | dlType | dlVlan | nwSrc | nwDst | nwProto | tpSrc | tpDst
  deriving DecidableEq, Repr

/-- The key of a match in a REST dictionary. -/
inductive RestKey
  | legacy (key : LegacyKey)
  | oxm (field : OxmField)
  | unknown (name : String)
  deriving DecidableEq, Repr

/-- The keys an error message names. -/
def LegacyKey.name : LegacyKey → String
  | dlDst => "dl_dst"
  | dlSrc => "dl_src"
  | dlType => "dl_type"
  | dlVlan => "dl_vlan"
  | nwSrc => "nw_src"
  | nwDst => "nw_dst"
  | nwProto => "nw_proto"
  | tpSrc => "tp_src"
  | tpDst => "tp_dst"

/-- How a value is converted. -/
inductive Conversion
  | port | int | maskedInt | eth | vid | ip
  deriving DecidableEq, Repr

/-- `OFPVID_PRESENT`. -/
def ofpvidPresent : ℕ := 0x1000

/-- The bit `OFPVID_PRESENT` is set. -/
def Present (n : ℤ) : Prop := n / ofpvidPresent % 2 = 1

instance (n : ℤ) : Decidable (Present n) := inferInstanceAs (Decidable (_ = _))

/-- `value | OFPVID_PRESENT`. -/
def orPresent (n : ℤ) : ℤ := if Present n then n else n + ofpvidPresent

/-- `str_to_int`. -/
def strToInt : Value → Except PyError ℤ
  | .int n => .ok n
  | .str s =>
    match int0? s with
    | some n => .ok n
    | none => .error (.valueError "invalid literal for int() with base 0")

/-- The constants of a prefix, without it. -/
abbrev Reserved := List (Text × ℕ)

/-- `OFPP_`. -/
def ofpp : Reserved :=
  [("MAX".toList, 0xffffff00), ("IN_PORT".toList, 0xfffffff8), ("TABLE".toList, 0xfffffff9),
    ("NORMAL".toList, 0xfffffffa), ("FLOOD".toList, 0xfffffffb), ("ALL".toList, 0xfffffffc),
    ("CONTROLLER".toList, 0xfffffffd), ("LOCAL".toList, 0xfffffffe), ("ANY".toList, 0xffffffff)]

/-- `_reserved_num_from_user`: a text that is neither a number nor a name is returned. -/
def reservedNumFromUser (start : Text) (names : Reserved) (num : Value) : Value :=
  match num with
  | .int n => .int n
  | .str s =>
    match int0? s with
    | some n => .int n
    | none =>
      let name := if start <+: s then s.drop start.length else s
      match Assoc.lookup (name.map Char.toUpper) names with
      | some n => .int n
      | none => .str s

/-- `_reserved_num_to_user`. -/
def reservedNumToUser (names : Reserved) (n : ℕ) : Value :=
  match names.find? fun x => x.2 = n with
  | some x => .str x.1
  | none => .int n

def ofpPortFromUser : Value → Value := reservedNumFromUser "OFPP_".toList ofpp

def ofpPortToUser : ℕ → Value := reservedNumToUser ofpp

/-- Two halves of a text are converted. -/
def toPair (a b : Text) : Except PyError UserValue :=
  match strToInt (.str a), strToInt (.str b) with
  | .error e, _ => .error e
  | .ok _, .error e => .error e
  | .ok v, .ok m => .ok (.pair (.int v) (.int m))

/-- `to_match_eth`: what follows a second slash is ignored. -/
def toMatchEth : Value → Except PyError UserValue
  | .int _ => .error (.typeError "argument of type 'int' is not iterable")
  | .str s =>
    match s.splitOn '/' with
    | a :: b :: _ => .ok (.pair (.str a) (.str b))
    | _ => .ok (.one (.str s))

variable (ac : AddrConv)

/-- `to_match_ip`. -/
def toMatchIp : Value → Except PyError UserValue
  | .int _ => .error (.typeError "argument of type 'int' is not iterable")
  | .str s =>
    match s.splitOn '/' with
    | [ipAddr, ipMask] =>
      if isDigits ipMask then
        match ac.ipNetwork s with
        | some (ip, netmask) => .ok (.pair (.str ip) (.str netmask))
        | none => .error (.other "AddrFormatError")
      else .ok (.pair (.str ipAddr) (.str ipMask))
    | _ :: _ :: _ :: _ => .error (.valueError "too many values to unpack (expected 2)")
    | _ => .ok (.one (.str s))

/-- `to_match_vid`: only a decimal gets the bit `OFPVID_PRESENT`. -/
def toMatchVid : Value → Except PyError UserValue
  | .int n => .ok (.one (.int (orPresent n)))
  | .str s =>
    match s.splitOn '/' with
    | a :: b :: _ => toPair a b
    | _ =>
      if isDigits s then
        match int? s with
        | some n => .ok (.one (.int (orPresent n)))
        | none => .error (.valueError "invalid literal for int() with base 10")
      else (strToInt (.str s)).map fun n => .one (.int n)

/-- `to_match_masked_int`. -/
def toMatchMaskedInt : Value → Except PyError UserValue
  | .int n => .ok (.one (.int n))
  | .str s =>
    match s.splitOn '/' with
    | a :: b :: _ => toPair a b
    | _ => (strToInt (.str s)).map fun n => .one (.int n)

def convertValue : Conversion → Value → Except PyError UserValue
  | .port, v => .ok (.one (ofpPortFromUser v))
  | .int, v => (strToInt v).map fun n => .one (.int n)
  | .maskedInt, v => toMatchMaskedInt v
  | .eth, v => toMatchEth v
  | .vid, v => toMatchVid v
  | .ip, v => toMatchIp ac v

/-- The table `convert` of `to_match`. -/
def OxmField.conversion : OxmField → Conversion
  | inPort => .port
  | metadata | pbbIsid | tunnelId | ipv6Exthdr => .maskedInt
  | vlanVid => .vid
  | ethDst | ethSrc | arpSha | arpTha | ipv6NdSll | ipv6NdTll => .eth
  | ipv4Src | ipv4Dst | arpSpa | arpTpa | ipv6Src | ipv6Dst | ipv6NdTarget => .ip
  | _ => .int

/-- The field of a key; the ports belong to the protocol. -/
def RestKey.target (ipProto : Value) : RestKey → Option OxmField
  | .oxm f => some f
  | .unknown _ => none
  | .legacy .dlDst => some .ethDst
  | .legacy .dlSrc => some .ethSrc
  | .legacy .dlType => some .ethType
  | .legacy .dlVlan => some .vlanVid
  | .legacy .nwSrc => some .ipv4Src
  | .legacy .nwDst => some .ipv4Dst
  | .legacy .nwProto => some .ipProto
  | .legacy .tpSrc =>
    if ipProto = .int 6 then some .tcpSrc else if ipProto = .int 17 then some .udpSrc else none
  | .legacy .tpDst =>
    if ipProto = .int 6 then some .tcpDst else if ipProto = .int 17 then some .udpDst else none

def RestKey.conversion : RestKey → Option Conversion
  | .unknown _ => none
  | .legacy .tpSrc => some .int
  | .legacy .tpDst => some .int
  | k => (k.target (.int 0)).map OxmField.conversion

/-- `attrs.get('nw_proto', attrs.get('ip_proto', 0))`. -/
def ipProtoOf (attrs : Dict RestKey Value) : Value :=
  (attrs.get? (.legacy .nwProto)).getD ((attrs.get? (.oxm .ipProto)).getD (.int 0))

/-- The keyword argument of an entry, none where the key is unknown. -/
def convertEntry (ipProto : Value) (k : RestKey) (v : Value) :
    Except PyError (Option (OxmField × UserValue)) :=
  match k.conversion with
  | none => .ok none
  | some c =>
    match convertValue ac c v with
    | .error e => .error e
    | .ok u =>
      match k.target ipProto with
      | some f => .ok (some (f, u))
      | none => .error (.keyError "ip_proto")

/-- `attrs[new] = attrs[old]; del attrs[old]`, where `new` is missing. -/
def rename (old new : RestKey) (attrs : Dict RestKey Value) : Dict RestKey Value :=
  match attrs.get? old, attrs.get? new with
  | some v, none => (attrs.set new v).erase old
  | _, _ => attrs

/-- The addresses of an ARP packet are not those of an IP packet. -/
def renameArp (attrs : Dict RestKey Value) : Dict RestKey Value :=
  if attrs.get? (.legacy .dlType) = some (.int 0x806) ∨
      attrs.get? (.oxm .ethType) = some (.int 0x806) then
    rename (.legacy .nwDst) (.oxm .arpTpa) (rename (.legacy .nwSrc) (.oxm .arpSpa) attrs)
  else attrs

/-- The loop of `to_match`. -/
def kwargs (ipProto : Value) :
    List (RestKey × Value) → Dict OxmField UserValue → Except PyError (Dict OxmField UserValue)
  | [], kw => .ok kw
  | (k, v) :: es, kw =>
    match convertEntry ac ipProto k v with
    | .error e => .error e
    | .ok none => kwargs ipProto es kw
    | .ok (some (f, u)) => kwargs ipProto es (kw.set f u)

/-- `OFPMatch.__init__`. -/
def OFPMatch.init (kw : Dict OxmField UserValue) : Except PyError OFPMatch :=
  match kw.entries.findSome? fun x => errorOf (normalizeUser ac x.1 x.2) with
  | some e => .error e
  | none =>
    .ok {
      field := fun f => (kw.get? f).bind fun u => (normalizeUser ac f u).toOption
      fits := by
        intro f t ht
        obtain ⟨u, -, hu⟩ := Option.bind_eq_some_iff.mp ht
        cases hn : normalizeUser ac f u with
        | error e => simp [hn, Except.toOption] at hu
        | ok t' =>
          rw [hn] at hu
          cases hu
          exact normalizeUser_fits hn }

/-- `to_match`. -/
def toMatch (attrs : Dict RestKey Value) : Except PyError OFPMatch :=
  match kwargs ac (ipProtoOf (renameArp attrs)) (renameArp attrs).entries Dict.empty with
  | .error e => .error e
  | .ok kw => OFPMatch.init ac kw

/-- The key a field is written under. -/
def OxmField.statKey : OxmField → RestKey
  | ethSrc => .legacy .dlSrc
  | ethDst => .legacy .dlDst
  | ethType => .legacy .dlType
  | vlanVid => .legacy .dlVlan
  | ipv4Src => .legacy .nwSrc
  | ipv4Dst => .legacy .nwDst
  | ipProto => .legacy .nwProto
  | tcpSrc | udpSrc => .legacy .tpSrc
  | tcpDst | udpDst => .legacy .tpDst
  | f => .oxm f

/-- `match_vid_to_str`. -/
def matchVidToStr (t : Tlv) : Text :=
  match t.mask with
  | some m => hex 4 t.value ++ '/' :: hex 4 m
  | none => if Present t.value then dec (t.value - ofpvidPresent) else hex 4 t.value

/-- `str(value)`. -/
def Value.toStr : Value → Text
  | .int n => if n < 0 then '-' :: dec n.natAbs else dec n.natAbs
  | .str s => s

/-- The value a field is written as. -/
def statValue (f : OxmField) (t : Tlv) : Value :=
  match f with
  | .vlanVid => .str (matchVidToStr t)
  | .inPort => ofpPortToUser t.value
  | f =>
    match t.mask with
    | some m => .str ((toUser ac f t.value).toStr ++ '/' :: (toUser ac f m).toStr)
    | none => toUser ac f t.value

/-- The entries of a match in the order of the fields. -/
def statEntries (m : OFPMatch) : List (RestKey × Value) :=
  OxmField.all.filterMap fun f => (m.field f).map fun t => (f.statKey, statValue ac f t)

/-- `match_to_str`: of two fields under one key the first is written. -/
def matchToStr (m : OFPMatch) : Dict RestKey Value :=
  (statEntries ac m).foldl (fun d x => d.setdefault x.1 x.2) Dict.empty

section Back

variable {ac : AddrConv} {f : OxmField} {t : Tlv} {v m : ℕ} {s a b : Text}

/-- The conversion can yield a mask. -/
def Conversion.masks : Conversion → Bool
  | .port | .int => false
  | .maskedInt | .eth | .vid | .ip => true

theorem conversion_port : f.conversion = .port ↔ f = .inPort := by
  cases f <;> decide

theorem conversion_vid : f.conversion = .vid ↔ f = .vlanVid := by
  cases f <;> decide

theorem type_of_eth (h : f.conversion = .eth) : f.type = .addr .mac := by
  revert h
  cases f <;> decide

theorem type_of_ip (h : f.conversion = .ip) : ∃ k, f.type = .addr k := by
  cases f <;> first | exact ⟨_, rfl⟩ | cases h

theorem type_of_int (he : f.conversion ≠ .eth) (hi : f.conversion ≠ .ip) :
    ∃ n, f.type = .int n := by
  cases f <;> first | exact ⟨_, rfl⟩ | exact absurd rfl he | exact absurd rfl hi

theorem statValue_of_ne (hv : f.conversion ≠ .vid) (hp : f.conversion ≠ .port) (t : Tlv) :
    statValue ac f t =
      match t.mask with
      | some m => .str ((toUser ac f t.value).toStr ++ '/' :: (toUser ac f m).toStr)
      | none => toUser ac f t.value := by
  unfold statValue
  split
  · exact absurd rfl hv
  · exact absurd rfl hp
  · rfl

theorem splitOn_slash (ha : '/' ∉ a) (hb : '/' ∉ b) : (a ++ '/' :: b).splitOn '/' = [a, b] := by
  rw [List.splitOn_append_cons_self_of_not_mem ha, List.splitOn_eq_singleton hb]

theorem slash_not_mem_dec (n : ℕ) : '/' ∉ dec n := not_mem_dec (by decide)

theorem slash_not_mem_hex (n : ℕ) : '/' ∉ hex 4 n := not_mem_hex 4 (by decide) (by decide)

theorem ofpPortFromUser_toUser (n : ℕ) : ofpPortFromUser (ofpPortToUser n) = .int n := by
  unfold ofpPortToUser reservedNumToUser
  cases hf : ofpp.find? fun x => x.2 = n with
  | none => rfl
  | some x =>
    have hx := List.mem_of_find?_eq_some hf
    have hn : x.2 = n := by simpa using List.find?_some hf
    have hall : ∀ x ∈ ofpp, ofpPortFromUser (.str x.1) = .int x.2 := by decide
    simp [hall x hx, hn]

theorem toPair_dec (v m : ℕ) : toPair (dec v) (dec m) = .ok (.pair (.int v) (.int m)) := by
  simp [toPair, strToInt]

theorem toPair_hex (v m : ℕ) : toPair (hex 4 v) (hex 4 m) = .ok (.pair (.int v) (.int m)) := by
  simp [toPair, strToInt]

theorem toStr_int (n : ℕ) : (Value.int n).toStr = dec n := by
  simp [Value.toStr]

theorem orPresent_sub (h : Present v) : orPresent ((v - ofpvidPresent : ℕ) : ℤ) = v := by
  unfold Present at h
  have hle : ofpvidPresent ≤ v := by unfold ofpvidPresent at h ⊢; omega
  have hnot : ¬ Present ((v - ofpvidPresent : ℕ) : ℤ) := by
    unfold Present ofpvidPresent at *
    omega
  rw [orPresent, if_neg hnot]
  unfold ofpvidPresent at *
  omega

theorem toMatchVid_matchVidToStr (t : Tlv) :
    toMatchVid (.str (matchVidToStr t)) =
      .ok (match t.mask with
        | some m => .pair (.int t.value) (.int m)
        | none => .one (.int t.value)) := by
  obtain ⟨v, mask⟩ := t
  cases mask with
  | some m =>
    simp only [matchVidToStr, toMatchVid, splitOn_slash (slash_not_mem_hex v) (slash_not_mem_hex m),
      toPair_hex]
  | none =>
    by_cases hp : Present v
    · simp only [matchVidToStr, hp, if_true, toMatchVid,
        List.splitOn_eq_singleton (slash_not_mem_dec _), isDigits_dec, int?_dec, orPresent_sub hp]
    · simp [matchVidToStr, hp, toMatchVid, List.splitOn_eq_singleton (slash_not_mem_hex _),
        isDigits_hex, strToInt, Except.map]

/-- What is written of a field is converted back to it, if its mask can be. -/
theorem convertValue_statValue (ht : t.Fits f) (hm : t.mask.isSome → f.conversion.masks) :
    convertValue ac f.conversion (statValue ac f t) = .ok (t.toUser ac f) := by
  obtain ⟨v, mask⟩ := t
  cases hc : f.conversion with
  | port =>
    obtain rfl := conversion_port.1 hc
    cases mask with
    | some m => exact absurd (hm rfl) (by rw [hc]; decide)
    | none => exact congrArg (fun x => Except.ok (UserValue.one x)) (ofpPortFromUser_toUser v)
  | vid =>
    obtain rfl := conversion_vid.1 hc
    refine (toMatchVid_matchVidToStr ⟨v, mask⟩).trans ?_
    cases mask <;> rfl
  | int =>
    obtain ⟨n, hty⟩ := type_of_int (f := f) (by simp [hc]) (by simp [hc])
    rw [statValue_of_ne (by simp [hc]) (by simp [hc])]
    cases mask with
    | some m => exact absurd (hm rfl) (by rw [hc]; decide)
    | none => simp [Tlv.toUser, toUser, hty, convertValue, strToInt, Except.map]
  | maskedInt =>
    obtain ⟨n, hty⟩ := type_of_int (f := f) (by simp [hc]) (by simp [hc])
    rw [statValue_of_ne (by simp [hc]) (by simp [hc])]
    cases mask with
    | some m =>
      simp only [Tlv.toUser, toUser, hty, convertValue, toStr_int, toMatchMaskedInt,
        splitOn_slash (slash_not_mem_dec v) (slash_not_mem_dec m), toPair_dec]
    | none => simp [Tlv.toUser, toUser, hty, convertValue, toMatchMaskedInt]
  | eth =>
    have hty := type_of_eth hc
    have hv : v < 256 ^ AddrKind.mac.size := by simpa [hty, OxmType.size] using ht.value
    rw [statValue_of_ne (by simp [hc]) (by simp [hc])]
    cases mask with
    | some m =>
      have hmv : m < 256 ^ AddrKind.mac.size := by simpa [hty, OxmType.size] using ht.mask m rfl
      simp only [Tlv.toUser, toUser, hty, convertValue, Value.toStr, toMatchEth,
        splitOn_slash (ac.no_slash hv) (ac.no_slash hmv)]
    | none =>
      simp only [Tlv.toUser, toUser, hty, convertValue, toMatchEth,
        List.splitOn_eq_singleton (ac.no_slash hv)]
  | ip =>
    obtain ⟨k, hty⟩ := type_of_ip hc
    have hv : v < 256 ^ k.size := by simpa [hty, OxmType.size] using ht.value
    rw [statValue_of_ne (by simp [hc]) (by simp [hc])]
    cases mask with
    | some m =>
      have hmv : m < 256 ^ k.size := by simpa [hty, OxmType.size] using ht.mask m rfl
      simp [Tlv.toUser, toUser, hty, convertValue, Value.toStr, toMatchIp,
        splitOn_slash (ac.no_slash hv) (ac.no_slash hmv), ac.not_digits hmv]
    | none =>
      simp only [Tlv.toUser, toUser, hty, convertValue, toMatchIp,
        List.splitOn_eq_singleton (ac.no_slash hv)]
end Back

section Kwargs

variable {ac : AddrConv} {proto : Value} {f g : OxmField} {k : RestKey} {v : Value}
  {es : List (RestKey × Value)} {kw kw' : Dict OxmField UserValue} {attrs : Dict RestKey Value}
  {m : OFPMatch}

/-- What the entries convert to as arguments for `f`. -/
def argsFor (ac : AddrConv) (proto : Value) (f : OxmField) (es : List (RestKey × Value)) :
    List UserValue :=
  es.filterMap fun e =>
    match convertEntry ac proto e.1 e.2 with
    | .ok (some (g, u)) => if g = f then some u else none
    | _ => none

theorem argsFor_cons (f : OxmField) (k : RestKey) (v : Value) (es : List (RestKey × Value)) :
    argsFor ac proto f ((k, v) :: es) = argsFor ac proto f [(k, v)] ++ argsFor ac proto f es :=
  List.filterMap_append (l := [(k, v)])

/-- The loop ends if every entry converts; the last argument for a field is kept. -/
theorem kwargs_ok (kw : Dict OxmField UserValue) (h : ∀ e ∈ es, (convertEntry ac proto e.1 e.2).isOk) :
    ∃ kw', kwargs ac proto es kw = .ok kw' ∧
      ∀ f, kw'.get? f = ((argsFor ac proto f es).getLast?).or (kw.get? f) := by
  induction es generalizing kw with
  | nil => exact ⟨kw, rfl, fun f => rfl⟩
  | cons e es ih =>
    obtain ⟨k, v⟩ := e
    have hk := h (k, v) List.mem_cons_self
    have hes : ∀ e ∈ es, (convertEntry ac proto e.1 e.2).isOk := fun e he =>
      h e (List.mem_cons_of_mem _ he)
    cases hc : convertEntry ac proto k v with
    | error e => simp [hc] at hk
    | ok r =>
      cases r with
      | none =>
        obtain ⟨kw', hkw, hget⟩ := ih kw hes
        refine ⟨kw', by simp [kwargs, hc, hkw], fun f => ?_⟩
        rw [hget f, argsFor_cons]
        simp [argsFor, hc]
      | some r =>
        obtain ⟨g, u⟩ := r
        obtain ⟨kw', hkw, hget⟩ := ih (kw.set g u) hes
        refine ⟨kw', by simp [kwargs, hc, hkw], fun f => ?_⟩
        rw [hget f, argsFor_cons, Dict.get?_set, List.getLast?_append]
        by_cases hg : g = f
        · simp [argsFor, hc, hg]
        · simp [argsFor, hc, hg]

theorem convertEntry_isOk_of_kwargs (h : kwargs ac proto es kw = .ok kw') :
    ∀ e ∈ es, (convertEntry ac proto e.1 e.2).isOk := by
  induction es generalizing kw with
  | nil => simp
  | cons e es ih =>
    obtain ⟨k, v⟩ := e
    cases hc : convertEntry ac proto k v with
    | error e => simp [kwargs, hc] at h
    | ok r =>
      have hes : ∀ e ∈ es, (convertEntry ac proto e.1 e.2).isOk := by
        cases r with
        | none => exact ih (by simpa [kwargs, hc] using h)
        | some r => exact ih (by simpa [kwargs, hc] using h)
      intro e he
      rcases List.mem_cons.mp he with rfl | he
      · simp [hc]
      · exact hes e he

theorem findSome?_errorOf :
    kw.entries.findSome? (fun x => errorOf (normalizeUser ac x.1 x.2)) = none ↔
      ∀ f u, kw.get? f = some u → (normalizeUser ac f u).isOk := by
  simp only [List.findSome?_eq_none_iff, errorOf_eq_none, Prod.forall, Dict.mem_entries_iff]

theorem init_ok (h : ∀ f u, kw.get? f = some u → (normalizeUser ac f u).isOk) :
    ∃ m, OFPMatch.init ac kw = .ok m ∧
      ∀ f, m.field f = (kw.get? f).bind fun u => (normalizeUser ac f u).toOption := by
  unfold OFPMatch.init
  rw [findSome?_errorOf.2 h]
  exact ⟨_, rfl, fun f => rfl⟩

theorem init_eq_ok (h : OFPMatch.init ac kw = .ok m) :
    (∀ f u, kw.get? f = some u → (normalizeUser ac f u).isOk) ∧
      ∀ f, m.field f = (kw.get? f).bind fun u => (normalizeUser ac f u).toOption := by
  unfold OFPMatch.init at h
  split at h
  · cases h
  · next hnone =>
    cases h
    exact ⟨findSome?_errorOf.1 hnone, fun f => rfl⟩

/-- The argument `to_match` passes on for a field. -/
def argFor (ac : AddrConv) (attrs : Dict RestKey Value) (f : OxmField) : Option UserValue :=
  (argsFor ac (ipProtoOf (renameArp attrs)) f (renameArp attrs).entries).getLast?

/-- `to_match` succeeds if every entry converts and every argument is accepted; the match has
what the last argument for each field gives. -/
theorem toMatch_eq_ok : toMatch ac attrs = .ok m ↔
    (∀ e ∈ (renameArp attrs).entries,
        (convertEntry ac (ipProtoOf (renameArp attrs)) e.1 e.2).isOk) ∧
      (∀ f u, argFor ac attrs f = some u → (normalizeUser ac f u).isOk) ∧
      ∀ f, m.field f = (argFor ac attrs f).bind fun u => (normalizeUser ac f u).toOption := by
  unfold toMatch argFor
  generalize renameArp attrs = attrs
  constructor
  · intro h
    cases hk : kwargs ac (ipProtoOf attrs) attrs.entries Dict.empty with
    | error e => simp [hk] at h
    | ok kw =>
      rw [hk] at h
      have hc := convertEntry_isOk_of_kwargs hk
      obtain ⟨kw', hkw, hget⟩ := kwargs_ok Dict.empty hc
      cases hk.symm.trans hkw
      simp only [Dict.get?_empty, Option.or_none] at hget
      obtain ⟨hn, hf⟩ := init_eq_ok h
      exact ⟨hc, fun f u hu => hn f u ((hget f).trans hu), fun f => hget f ▸ hf f⟩
  · rintro ⟨hc, hn, hf⟩
    obtain ⟨kw, hkw, hget⟩ := kwargs_ok Dict.empty hc
    simp only [Dict.get?_empty, Option.or_none] at hget
    obtain ⟨m', hm', hf'⟩ := init_ok fun f u hu => hn f u ((hget f).symm.trans hu)
    rw [hkw]
    dsimp only
    rw [hm']
    refine congrArg Except.ok (OFPMatch.ext fun f => ?_)
    rw [hf' f, hget f, hf f]

/-- Only the entries of keys that lead to a field give its arguments. -/
theorem argsFor_filter (f : OxmField) :
    argsFor ac proto f (es.filter fun e => decide (e.1.target proto = some f)) =
      argsFor ac proto f es := by
  unfold argsFor
  rw [List.filterMap_filter]
  refine List.filterMap_congr fun e _ => ?_
  by_cases ht : e.1.target proto = some f
  · simp [ht]
  · rw [if_neg (by simpa using ht)]
    unfold convertEntry
    grind

end Kwargs

section Stat

variable {ac : AddrConv} {f g : OxmField} {k : RestKey} {v : Value} {t : Tlv} {m : OFPMatch}
  {proto : Value}

/-- The masks of a match are on fields whose conversion can yield one. -/
def OFPMatch.MaskedByRest (m : OFPMatch) : Prop :=
  ∀ f, ∀ t ∈ m.field f, t.mask.isSome → f.conversion.masks

/-- The fields written under the key of `f`, in order. -/
def OxmField.sharers : OxmField → List OxmField
  | tcpSrc | udpSrc => [tcpSrc, udpSrc]
  | tcpDst | udpDst => [tcpDst, udpDst]
  | f => [f]

theorem filter_statKey (f : OxmField) :
    OxmField.all.filter (fun g => g.statKey = f.statKey) = f.sharers := by
  cases f <;> decide

theorem get?_matchToStr (m : OFPMatch) (k : RestKey) :
    (matchToStr ac m).get? k = ((OxmField.all.filter fun f => f.statKey = k).filterMap fun f =>
      (m.field f).map (statValue ac f)).head? := by
  rw [matchToStr, Dict.get?_foldl_setdefault, Dict.get?_empty, Option.none_or]
  have he : statEntries ac m = OxmField.all.filterMap fun f =>
      ((m.field f).map (statValue ac f)).map fun v => (f.statKey, v) := by
    simp [statEntries, Option.map_map, Function.comp_def]
  rw [he, Assoc.lookup_filterMap]

theorem get?_matchToStr_statKey (m : OFPMatch) (f : OxmField) :
    (matchToStr ac m).get? f.statKey =
      (f.sharers.filterMap fun g => (m.field g).map (statValue ac g)).head? := by
  rw [get?_matchToStr, filter_statKey]

/-- What is written under a key is what is written of some field with that key. -/
theorem of_get?_matchToStr (h : (matchToStr ac m).get? k = some v) :
    ∃ f t, m.field f = some t ∧ f.statKey = k ∧ v = statValue ac f t := by
  rw [get?_matchToStr] at h
  obtain ⟨f, hf, hv⟩ := List.mem_filterMap.mp (List.mem_of_head? h)
  obtain ⟨t, ht, rfl⟩ := Option.map_eq_some_iff.mp hv
  exact ⟨f, t, ht, by simpa using (List.mem_filter.mp hf).2, rfl⟩

theorem statKey_of_target (h : g.statKey.target proto = some f) : g.statKey = f.statKey := by
  revert h
  cases g <;> simp only [OxmField.statKey, RestKey.target] <;> grind [OxmField.statKey]

theorem conversion_statKey (f : OxmField) : f.statKey.conversion = some f.conversion := by
  cases f <;> rfl

/-- A field that is written and whose key leads back to it is converted to itself. -/
theorem convertEntry_stat (hm : m.MaskedByRest) (ht : m.field f = some t)
    (hf : f.statKey.target proto = some f) :
    convertEntry ac proto f.statKey (statValue ac f t) = .ok (some (f, t.toUser ac f)) := by
  unfold convertEntry
  simp only [conversion_statKey, convertValue_statValue (m.fits f t ht) (hm f t ht), hf]

theorem get?_rename {old new : RestKey} (attrs : Dict RestKey Value)
    (k : RestKey) :
    (rename old new attrs).get? k =
      if (attrs.get? old).isSome ∧ attrs.get? new = none then
        if k = old then none else if k = new then attrs.get? old else attrs.get? k
      else attrs.get? k := by
  unfold rename
  cases ho : attrs.get? old with
  | none => simp
  | some v =>
    cases hn : attrs.get? new with
    | some w => simp
    | none => simp [Dict.get?_erase, Dict.get?_set, eq_comm]

theorem rename_eq_self {old new : RestKey} {attrs : Dict RestKey Value}
    (h : (attrs.get? old).isSome → (attrs.get? new).isSome) : rename old new attrs = attrs := by
  unfold rename
  cases ho : attrs.get? old with
  | none => rfl
  | some v =>
    obtain ⟨w, hw⟩ := Option.isSome_iff_exists.mp (h (by simp [ho]))
    simp [hw]

/-- The packets are ARP packets. -/
def IsArp (attrs : Dict RestKey Value) : Prop :=
  attrs.get? (.legacy .dlType) = some (.int 0x806) ∨
    attrs.get? (.oxm .ethType) = some (.int 0x806)

theorem renameArp_of_isArp {attrs : Dict RestKey Value} (h : IsArp attrs) :
    renameArp attrs =
      rename (.legacy .nwDst) (.oxm .arpTpa) (rename (.legacy .nwSrc) (.oxm .arpSpa) attrs) :=
  if_pos h

theorem renameArp_of_not {attrs : Dict RestKey Value} (h : ¬ IsArp attrs) :
    renameArp attrs = attrs :=
  if_neg h

/-- Renaming moves the IP addresses only. -/
theorem get?_renameArp {attrs : Dict RestKey Value} (h₁ : k ≠ .legacy .nwSrc)
    (h₂ : k ≠ .legacy .nwDst) (h₃ : k ≠ .oxm .arpSpa) (h₄ : k ≠ .oxm .arpTpa) :
    (renameArp attrs).get? k = attrs.get? k := by
  unfold renameArp
  split
  · rw [get?_rename]
    simp only [h₂, h₄, if_false, ite_self]
    rw [get?_rename]
    simp only [h₁, h₃, if_false, ite_self]
  · rfl

end Stat

section Masks
variable {ac : AddrConv} {f : OxmField} {k : RestKey} {v : Value} {u : UserValue} {t : Tlv}
  {proto : Value} {attrs : Dict RestKey Value} {m : OFPMatch}

section AlikeBut

variable {a b : RestKey} {d e : Dict RestKey Value}

theorem rename_alikeBut {old new : RestKey} (h : Dict.AlikeBut a b d e) (hab : a ≠ b) :
    Dict.AlikeBut a b (rename old new d) (rename old new e) := by
  unfold rename
  rw [h.get? hab, h.get? hab]
  split
  · exact (h.set _ _).erase _
  · exact h

theorem renameArp_alikeBut (h : Dict.AlikeBut a b d e) (hab : a ≠ b) :
    Dict.AlikeBut a b (renameArp d) (renameArp e) := by
  unfold renameArp
  rw [h.get? hab, h.get? hab]
  split
  · exact rename_alikeBut (rename_alikeBut h hab) hab
  · exact h

theorem argFor_alikeBut (ac : AddrConv) (h : Dict.AlikeBut a b d e) (hab : a ≠ b)
    (ht : ∀ proto f, a.target proto = some f → b.target proto ≠ some f) (f : OxmField) :
    argFor ac d f = argFor ac e f := by
  have hr := renameArp_alikeBut h hab
  have hp : ipProtoOf (renameArp d) = ipProtoOf (renameArp e) := by
    rw [ipProtoOf, ipProtoOf, hr.get? hab, hr.get? hab]
  have hf := hr (fun k => decide (k.target (ipProtoOf (renameArp e)) = some f)) (by
    rw [decide_eq_false_iff_not, decide_eq_false_iff_not, ← not_and_or]
    rintro ⟨ha, hb⟩
    exact ht _ _ ha hb)
  have hent := congrArg Dict.entries hf
  simp only [Dict.filter] at hent
  rw [argFor, argFor, hp, ← argsFor_filter, hent, argsFor_filter]

/-- Entries of keys that lead to different fields may change places. -/
theorem toMatch_alikeBut (ac : AddrConv) (h : Dict.AlikeBut a b d e) (hab : a ≠ b)
    (ht : ∀ proto f, a.target proto = some f → b.target proto ≠ some f) :
    (toMatch ac d).toOption = (toMatch ac e).toOption := by
  have hr := renameArp_alikeBut h hab
  have hp : ipProtoOf (renameArp d) = ipProtoOf (renameArp e) := by
    rw [ipProtoOf, ipProtoOf, hr.get? hab, hr.get? hab]
  ext m
  simp only [toOption_eq_some, toMatch_eq_ok, Prod.forall, Dict.mem_entries_iff, hr.get? hab, hp,
    argFor_alikeBut ac h hab ht]

end AlikeBut

theorem conversion_of_target (h : k.target proto = some f) : k.conversion = some f.conversion := by
  cases k with
  | unknown name => cases h
  | oxm g =>
    cases h
    rfl
  | legacy key =>
    cases key <;> simp only [RestKey.target] at h <;> grind [RestKey.conversion, RestKey.target, OxmField.conversion]

/-- An integer has no mask. -/
theorem mask_of_one_int {n : ℕ} (hty : f.type = .int n) (h : normalizeUser ac f (.one v) = .ok t) :
    t.mask = none := by
  rw [normalizeUser, hty] at h
  cases v with
  | int i =>
    cases h
    rfl
  | str s => cases h

theorem one_of_not_masks (hf : f.conversion.masks = false)
    (h : convertValue ac f.conversion v = .ok u) : ∃ w, u = .one w := by
  cases hc : f.conversion with
  | port =>
    rw [hc] at h
    cases h
    exact ⟨_, rfl⟩
  | int =>
    rw [hc] at h
    dsimp only [convertValue] at h
    cases hs : strToInt v with
    | error e => simp [hs, Except.map] at h
    | ok n =>
      rw [hs] at h
      cases h
      exact ⟨_, rfl⟩
  | _ => simp [hc, Conversion.masks] at hf

theorem maskedByRest_of_toMatch (h : toMatch ac attrs = .ok m) : m.MaskedByRest := by
  obtain ⟨-, -, hget⟩ := toMatch_eq_ok.1 h
  intro f t ht hmask
  by_contra hf
  rw [Bool.not_eq_true] at hf
  obtain ⟨u, hu, hn⟩ := Option.bind_eq_some_iff.mp ((hget f).symm.trans ht)
  obtain ⟨⟨k, v⟩, -, hc⟩ := List.mem_filterMap.mp (List.mem_of_getLast? hu)
  have hk : k.target (ipProtoOf (renameArp attrs)) = some f ∧
      convertValue ac f.conversion v = .ok u := by
    dsimp only [convertEntry] at hc
    have hconv : k.target (ipProtoOf (renameArp attrs)) = some f →
        k.conversion = some f.conversion := conversion_of_target
    grind
  obtain ⟨w, rfl⟩ := one_of_not_masks hf hk.2
  obtain ⟨n, hty⟩ : ∃ n, f.type = .int n :=
    type_of_int (fun he => by simp [he, Conversion.masks] at hf)
      (fun hi => by simp [hi, Conversion.masks] at hf)
  cases hr : normalizeUser ac f (.one w) with
  | error e => simp [hr, Except.toOption] at hn
  | ok t' =>
    rw [hr] at hn
    cases hn
    rw [mask_of_one_int hty hr] at hmask
    cases hmask
end Masks

end Ryu
