import Ryu.Ofctl.Match

/-! # The match of a QoS rule

`Match` checks the match of a request and completes it for `ofctl`, and reads matches of
installed flows back, for a client and for the strict deletion of a rule. The deletion
names the installed match exactly where no field has a value taken for a missing one, the
ports have their protocol, and an ARP rule has no IP addresses of its own.
-/

namespace Ryu.Qos

open Numeral

/-- `_CONVERT`. -/
def convDlType : Reserved :=
  [("ARP".toList, 0x0806), ("IPv4".toList, 0x0800), ("IPv6".toList, 0x86dd)]

def convNwProto : Reserved :=
  [("TCP".toList, 6), ("UDP".toList, 17), ("ICMP".toList, 1), ("ICMPv6".toList, 58)]

def convert : RestKey → Option Reserved
  | .legacy .dlType => some convDlType
  | .legacy .nwProto => some convNwProto
  | _ => none

def invCombi (msg : String) : PyError := .valueError s!"Invalid combination: [{msg}]"

def inv2and1 (a b c : String) : PyError := invCombi s!"{a}={b} and {c}"

def inv2and2 (a b c d : String) : PyError := invCombi s!"{a}={b} and {c}={d}"

def inv1and1 (a b : String) : PyError := invCombi s!"{a} and {b}"

def inv1and2 (a b c : String) : PyError := invCombi s!"{a} and {b}={c}"

/-- `'%s' % value`. -/
def shown : Option Value → String
  | none => "None"
  | some v => String.ofList v.toStr

/-- The first error whose condition holds. -/
def refuse : List (Bool × PyError) → Except PyError Unit
  | [] => .ok ()
  | (c, e) :: l => if c then .error e else refuse l

/-- `if value:`. -/
def truthy : Option Value → Bool
  | none => false
  | some (.int n) => n ≠ 0
  | some (.str s) => s ≠ []

def Named (v : Option Value) (name : String) : Prop := v = some (.str name.toList)

instance (v : Option Value) (name : String) : Decidable (Named v name) :=
  inferInstanceAs (Decidable (_ = _))

/-- The error check of `to_openflow`, and the `dl_type` it infers where none is given. -/
def checkMatch (rest : Dict RestKey Value) : Except PyError (Option String) :=
  let has (k : RestKey) : Bool := (rest.get? k).isSome
  let nwProto := rest.get? (.legacy .nwProto)
  let ipv6Src := has (.oxm .ipv6Src)
  let ipv6Dst := has (.oxm .ipv6Dst)
  let nwSrc := has (.legacy .nwSrc)
  let nwDst := has (.legacy .nwDst)
  let dscp := has (.oxm .ipDscp)
  let icmp : Bool := Named nwProto "ICMP"
  let icmpv6 : Bool := Named nwProto "ICMPv6"
  match rest.get? (.legacy .dlType) with
  | some dlType =>
    if dlType = .str "ARP".toList then
      (refuse [(ipv6Src, inv2and1 "dl_type" "ARP" "ipv6_src"),
        (ipv6Dst, inv2and1 "dl_type" "ARP" "ipv6_dst"),
        (dscp, inv2and1 "dl_type" "ARP" "ip_dscp"),
        (truthy nwProto, inv2and1 "dl_type" "ARP" "nw_proto")]).map fun _ => none
    else if dlType = .str "IPv4".toList then
      (refuse [(ipv6Src, inv2and1 "dl_type" "IPv4" "ipv6_src"),
        (ipv6Dst, inv2and1 "dl_type" "IPv4" "ipv6_dst"),
        (icmpv6, inv2and2 "dl_type" "IPv4" "nw_proto" "ICMPv6")]).map fun _ => none
    else if dlType = .str "IPv6".toList then
      (refuse [(nwSrc, inv2and1 "dl_type" "IPv6" "nw_src"),
        (nwDst, inv2and1 "dl_type" "IPv6" "nw_dst"),
        (icmp, inv2and2 "dl_type" "IPv6" "nw_proto" "ICMP")]).map fun _ => none
    else .error (.valueError ("Unknown dl_type : " ++ shown (some dlType)))
  | none =>
    if nwSrc then
      (refuse [(ipv6Src, inv1and1 "nw_src" "ipv6_src"), (ipv6Dst, inv1and1 "nw_src" "ipv6_dst"),
        (icmpv6, inv1and2 "nw_src" "nw_proto" "ICMPv6")]).map fun _ => some "IPv4"
    else if nwDst then
      (refuse [(ipv6Src, inv1and1 "nw_dst" "ipv6_src"), (ipv6Dst, inv1and1 "nw_dst" "ipv6_dst"),
        (icmpv6, inv1and2 "nw_dst" "nw_proto" "ICMPv6")]).map fun _ => some "IPv4"
    else if ipv6Src then
      (refuse [(icmp, inv1and2 "ipv6_src" "nw_proto" "ICMP")]).map fun _ => some "IPv6"
    else if ipv6Dst then
      (refuse [(icmp, inv1and2 "ipv6_dst" "nw_proto" "ICMP")]).map fun _ => some "IPv6"
    else if dscp then .ok (some "IPv4")
    else if icmp then .ok (some "IPv4")
    else if icmpv6 then .ok (some "IPv6")
    else if Named nwProto "TCP" ∨ Named nwProto "UDP" then
      .error (.valueError "no dl_type was specified")
    else .error (.valueError ("Unknown nw_proto: " ++ shown nwProto))

def invalidParameter (key : LegacyKey) : PyError :=
  .valueError ("Invalid rule parameter. : key=" ++ key.name)

/-- A name of the tables becomes its number. -/
def convName : RestKey → Value → Except PyError Value
  | .legacy key, v =>
    match convert (.legacy key), v with
    | none, v => .ok v
    | some names, .str s =>
      match Assoc.lookup s names with
      | some n => .ok (.int n)
      | none => .error (invalidParameter key)
    | some _, .int _ => .error (invalidParameter key)
  | _, v => .ok v

def convNames (rest : Dict RestKey Value) : Except PyError (Dict RestKey Value) :=
  match rest.entries.findSome? fun e => errorOf (convName e.1 e.2) with
  | some e => .error e
  | none => .ok (rest.mapValues fun k v => (convName k v).toOption.getD v)

/-- `Match.to_openflow`, and the dictionary it leaves. -/
def toOpenflow (rest : Dict RestKey Value) :
    Except PyError (Dict RestKey Value) × Dict RestKey Value :=
  match checkMatch rest with
  | .error e => (.error e, rest)
  | .ok none => (convNames rest, rest)
  | .ok (some dlType) =>
    let rest := rest.set (.legacy .dlType) (.str dlType.toList)
    (convNames rest, rest)

variable (ac : AddrConv)

/-- A value that stands for a missing field. -/
def dontcare (k : RestKey) (v : Value) : Bool :=
  match k with
  | .legacy .dlSrc | .legacy .dlDst => v = .str (ac.binToText .mac 0)
  | .legacy .nwSrc | .legacy .nwDst => v = .str "0.0.0.0".toList
  | .oxm .ipv6Src | .oxm .ipv6Dst => v = .str "::".toList
  | _ => v = .int 0

/-- A number of the tables becomes its name. -/
def restName (k : RestKey) (v : Value) : Except PyError Value :=
  match convert k with
  | none => .ok v
  | some names =>
    match names.find? fun x => v = .int x.2 with
    | some x => .ok (.str x.1)
    | none => .error (.keyError (shown (some v)))

/-- `Match.to_rest`. -/
def toRest (ofMatch : Dict RestKey Value) : Except PyError (Dict RestKey Value) :=
  let kept := ofMatch.filter fun k v => !dontcare ac k v
  match kept.entries.findSome? fun e => errorOf (restName e.1 e.2) with
  | some e => .error e
  | none => .ok (kept.mapValues fun k v => (restName k v).toOption.getD v)

/-- `Match.to_mod_openflow`. -/
def toModOpenflow (ofMatch : Dict RestKey Value) : Dict RestKey Value :=
  ofMatch.filter fun k v => !dontcare ac k v

section Strict
variable {ac : AddrConv} {f g : OxmField} {k : RestKey} {v : Value} {t : Tlv} {m : OFPMatch}
  {proto : Value}

/-- A zero in the field is taken for a missing field. -/
def Stripped : OxmField → Bool
  | .vlanVid | .arpSpa | .arpTpa | .arpSha | .arpTha | .ipv6NdTarget | .ipv6NdSll
  | .ipv6NdTll => false
  | _ => true

/-- The key has a don't-care address. -/
def dontcareKind : RestKey → Option AddrKind
  | .legacy .dlSrc | .legacy .dlDst => some .mac
  | .legacy .nwSrc | .legacy .nwDst => some .ipv4
  | .oxm .ipv6Src | .oxm .ipv6Dst => some .ipv6
  | _ => none

theorem dontcare_eq (ac : AddrConv) (k : RestKey) (v : Value) :
    dontcare ac k v =
      match dontcareKind k with
      | some kind => decide (v = .str (ac.binToText kind 0))
      | none => decide (v = .int 0) := by
  unfold dontcare dontcareKind
  split <;> simp only [ac.ipv4_zero, ac.ipv6_zero]

theorem binToText_eq_zero {kind : AddrKind} {n : ℕ} (hn : n < 256 ^ kind.size) :
    ac.binToText kind n = ac.binToText kind 0 ↔ n = 0 := by
  constructor
  · intro h
    have hr := ac.text_bin hn
    rw [h, ac.text_bin (by positivity)] at hr
    simpa [eq_comm] using hr
  · rintro rfl
    rfl

theorem mask_ne_zero_text {kind : AddrKind} (a b : Text) :
    a ++ '/' :: b ≠ ac.binToText kind 0 := by
  intro h
  have hs := ac.no_slash (k := kind) (v := 0) (by positivity)
  rw [← h] at hs
  simp at hs

theorem type_of_dontcareKind {kind : AddrKind} (h : dontcareKind f.statKey = some kind) :
    f.type = .addr kind ∧ f.conversion ≠ .vid ∧ f.conversion ≠ .port ∧ Stripped f := by
  revert h
  cases f <;> cases kind <;> decide

theorem stripped_of_none (h : dontcareKind f.statKey = none) :
    f = .inPort ∨ f = .vlanVid ∨ f.conversion ≠ .vid ∧ f.conversion ≠ .port ∧
      ((∃ n, f.type = .int n) ∧ Stripped f ∨ (∃ kind, f.type = .addr kind) ∧ Stripped f = false) := by
  revert h
  cases f <;> simp [dontcareKind, OxmField.statKey, OxmField.conversion, OxmField.type, Stripped]

theorem ofpPortToUser_eq_zero {n : ℕ} : ofpPortToUser n = .int 0 ↔ n = 0 := by
  constructor
  · intro h
    have hb := ofpPortFromUser_toUser n
    rw [h] at hb
    have h0 : ofpPortFromUser (.int 0) = .int 0 := rfl
    rw [h0] at hb
    simpa [eq_comm] using hb
  · rintro rfl
    decide

/-- A written field is taken for a missing one if it is an unmasked zero. -/
theorem dontcare_statValue (ac : AddrConv) (hm : m.MaskedByRest) (ht : m.field f = some t) :
    dontcare ac f.statKey (statValue ac f t) = true ↔ Stripped f ∧ t = ⟨0, none⟩ := by
  have hfits := m.fits f t ht
  have hmask := hm f t ht
  obtain ⟨n, mask⟩ := t
  rw [dontcare_eq]
  cases hk : dontcareKind f.statKey with
  | some kind =>
    obtain ⟨hty, hv, hp, hs⟩ := type_of_dontcareKind hk
    have hn : n < 256 ^ kind.size := by simpa [hty, OxmType.size] using hfits.value
    rw [statValue_of_ne hv hp]
    cases mask with
    | some m => simp [toUser, hty, Value.toStr, mask_ne_zero_text]
    | none => simp [toUser, hty, binToText_eq_zero hn, hs]
  | none =>
    rcases stripped_of_none hk with rfl | rfl | ⟨hv, hp, ⟨⟨size, hty⟩, hs⟩ | ⟨⟨kind, hty⟩, hs⟩⟩
    · cases mask with
      | some m => exact absurd (hmask rfl) (by decide)
      | none => simp [statValue, ofpPortToUser_eq_zero, Stripped]
    · simp [statValue, Stripped]
    · rw [statValue_of_ne hv hp]
      cases mask <;> simp [toUser, hty, hs]
    · rw [statValue_of_ne hv hp]
      cases mask <;> simp [toUser, hty, hs]

theorem get?_toModOpenflow (ac : AddrConv) (d : Dict RestKey Value) (k : RestKey) :
    (toModOpenflow ac d).get? k = (d.get? k).filter fun v => !dontcare ac k v :=
  Dict.get?_filter _ _ _

/-- The dictionary of the deletion. -/
def modMatch (ac : AddrConv) (m : OFPMatch) : Dict RestKey Value :=
  toModOpenflow ac (matchToStr ac m)

theorem of_get?_modMatch (h : (modMatch ac m).get? k = some v) :
    ∃ f t, m.field f = some t ∧ f.statKey = k ∧ v = statValue ac f t := by
  rw [modMatch, get?_toModOpenflow] at h
  exact of_get?_matchToStr (Option.filter_eq_some_iff.mp h).1

theorem sharers_cases (f : OxmField) :
    f.sharers = [f] ∨ ∃ g, g ≠ f ∧ (f.sharers = [f, g] ∨ f.sharers = [g, f]) := by
  cases f <;> simp [OxmField.sharers]

/-- No other field is written under the key. -/
def Alone (m : OFPMatch) (f : OxmField) : Prop :=
  ∀ g ∈ f.sharers, g ≠ f → m.field g = none

theorem get?_matchToStr_alone (ha : Alone m f) :
    (matchToStr ac m).get? f.statKey = (m.field f).map (statValue ac f) := by
  rw [get?_matchToStr_statKey]
  rcases sharers_cases f with hf | ⟨g, hg, hf | hf⟩
  · rw [hf]
    cases hm : m.field f <;> simp [hm]
  · have hn := ha g (by simp [hf]) hg
    rw [hf]
    cases hm : m.field f <;> simp [hm, hn]
  · have hn := ha g (by simp [hf]) hg
    rw [hf]
    cases hm : m.field f <;> simp [hm, hn]

/-- A field alone under its key is left out if it is an unmasked zero. -/
theorem get?_modMatch (hm : m.MaskedByRest) (ha : Alone m f) :
    (modMatch ac m).get? f.statKey =
      ((m.field f).filter fun t => !(Stripped f ∧ t = ⟨0, none⟩ : Bool)).map (statValue ac f) := by
  rw [modMatch, get?_toModOpenflow, get?_matchToStr_alone ha]
  cases ht : m.field f with
  | none => rfl
  | some t =>
    have hd := dontcare_statValue ac hm ht
    by_cases h0 : Stripped f ∧ t = ⟨0, none⟩
    · have htrue := hd.mpr h0
      simp [htrue, h0.1, ← h0.2, Option.filter]
    · have hfalse : dontcare ac f.statKey (statValue ac f t) = false := by
        simpa using mt hd.mp h0
      simp [hfalse, h0, Option.filter]

theorem alone_of_sharers (h : f.sharers = [f]) : Alone m f := by
  intro g hg hne
  rw [h] at hg
  exact absurd (List.mem_singleton.mp hg) hne

theorem eq_of_statKey (h : f.sharers = [f]) (hg : g.statKey = f.statKey) : g = f := by
  have hm : g ∈ OxmField.all.filter fun g => g.statKey = f.statKey :=
    List.mem_filter.mpr ⟨g.mem_all, by simpa using hg⟩
  rw [filter_statKey, h] at hm
  exact List.mem_singleton.mp hm

/-- A key of one field is in the deletion only if the field is in the match. -/
theorem isSome_of_get?_modMatch (h : f.sharers = [f])
    (hk : ((modMatch ac m).get? f.statKey).isSome) : (m.field f).isSome := by
  obtain ⟨v, hv⟩ := Option.isSome_iff_exists.mp hk
  obtain ⟨g, t, ht, hg, -⟩ := of_get?_modMatch hv
  rw [eq_of_statKey h hg] at ht
  simp [ht]

theorem get?_modMatch_ne (h : ∀ f : OxmField, f.statKey ≠ k) : (modMatch ac m).get? k = none := by
  cases hk : (modMatch ac m).get? k with
  | none => rfl
  | some v =>
    obtain ⟨f, t, -, hf, -⟩ := of_get?_modMatch hk
    exact absurd hf (h f)

theorem ipProtoOf_modMatch (hm : m.MaskedByRest) :
    ipProtoOf (renameArp (modMatch ac m)) = .int ((m.field .ipProto).elim 0 Tlv.value : ℕ) := by
  have hn : (modMatch ac m).get? (.oxm .ipProto) = none :=
    get?_modMatch_ne fun f => by cases f <;> decide
  have hp : (modMatch ac m).get? (.legacy .nwProto) = _ := get?_modMatch (f := .ipProto) hm (alone_of_sharers rfl)
  rw [ipProtoOf, get?_renameArp (by decide) (by decide) (by decide) (by decide),
    get?_renameArp (by decide) (by decide) (by decide) (by decide), hn, hp]
  cases ht : m.field .ipProto with
  | none => rfl
  | some t =>
    have hmask := hm .ipProto t ht
    obtain ⟨n, mask⟩ := t
    cases mask with
    | some m => exact absurd (hmask rfl) (by decide)
    | none =>
      by_cases h0 : n = 0
      · subst h0
        rfl
      · simp [Option.filter, h0, Stripped, statValue, toUser, OxmField.type]

theorem isArp_modMatch (hm : m.MaskedByRest) :
    IsArp (modMatch ac m) ↔ m.field .ethType = some ⟨0x806, none⟩ := by
  have hn : (modMatch ac m).get? (.oxm .ethType) = none :=
    get?_modMatch_ne fun f => by cases f <;> decide
  have hp : (modMatch ac m).get? (.legacy .dlType) = _ := get?_modMatch (f := .ethType) hm (alone_of_sharers rfl)
  rw [IsArp, hn, hp]
  cases ht : m.field .ethType with
  | none => simp
  | some t =>
    have hmask := hm .ethType t ht
    obtain ⟨n, mask⟩ := t
    cases mask with
    | some m => exact absurd (hmask rfl) (by decide)
    | none =>
      by_cases h0 : n = 0
      · subst h0
        simp [Option.filter, Stripped]
      · simp [Option.filter, h0, Stripped, statValue, toUser, OxmField.type]
        omega

/-- The keys of the deletion lead back to the fields. -/
theorem statKey_of_renameArp (h : ((renameArp (modMatch ac m)).get? k).isSome) :
    ∃ f : OxmField, f.statKey = k := by
  by_cases h₁ : k = .legacy .nwSrc
  · exact ⟨.ipv4Src, h₁.symm⟩
  by_cases h₂ : k = .legacy .nwDst
  · exact ⟨.ipv4Dst, h₂.symm⟩
  by_cases h₃ : k = .oxm .arpSpa
  · exact ⟨.arpSpa, h₃.symm⟩
  by_cases h₄ : k = .oxm .arpTpa
  · exact ⟨.arpTpa, h₄.symm⟩
  rw [get?_renameArp h₁ h₂ h₃ h₄] at h
  obtain ⟨v, hv⟩ := Option.isSome_iff_exists.mp h
  obtain ⟨f, -, -, hf, -⟩ := of_get?_modMatch hv
  exact ⟨f, hf⟩

/-- The fields of the ports of one protocol. -/
def portsOf : ℕ → List OxmField
  | 6 => [.tcpSrc, .tcpDst]
  | 17 => [.udpSrc, .udpDst]
  | _ => []

/-- The installed match is named again: no field is an unmasked zero that stands for a missing
field, ports have their protocol, and the addresses of an ARP rule are not taken from IP. -/
structure Kept (m : OFPMatch) : Prop where
  nonzero : ∀ f, Stripped f → m.field f ≠ some ⟨0, none⟩
  tcp : ∀ f ∈ portsOf 6, (m.field f).isSome → m.field .ipProto = some ⟨6, none⟩
  udp : ∀ f ∈ portsOf 17, (m.field f).isSome → m.field .ipProto = some ⟨17, none⟩
  arpSrc : m.field .ethType = some ⟨0x806, none⟩ → (m.field .ipv4Src).isSome →
    (m.field .arpSpa).isSome
  arpDst : m.field .ethType = some ⟨0x806, none⟩ → (m.field .ipv4Dst).isSome →
    (m.field .arpTpa).isSome

/-- A field of the deleted match comes from an entry under the key it is written under. -/
theorem of_toMatch_modMatch (h : toMatch ac (modMatch ac m) = .ok m) (hf : (m.field f).isSome) :
    ((renameArp (modMatch ac m)).get? f.statKey).isSome ∧
      f.statKey.target (ipProtoOf (renameArp (modMatch ac m))) = some f := by
  obtain ⟨-, -, hget⟩ := toMatch_eq_ok.1 h
  cases ha : argFor ac (modMatch ac m) f with
  | none => simp [hget f, ha] at hf
  | some u =>
    obtain ⟨⟨k, v⟩, he, hu⟩ := List.mem_filterMap.mp (List.mem_of_getLast? ha)
    have hk : k.target (ipProtoOf (renameArp (modMatch ac m))) = some f := by
      dsimp only [convertEntry] at hu
      grind
    have hv := Dict.mem_entries_iff.mp he
    obtain ⟨g, rfl⟩ := statKey_of_renameArp (by rw [hv]; rfl)
    have hs := statKey_of_target hk
    exact ⟨by rw [← hs, hv]; rfl, hs ▸ hk⟩

theorem isSome_of_rename {old new : RestKey} {attrs : Dict RestKey Value} (hk : k ≠ new)
    (h : ((rename old new attrs).get? k).isSome) : (attrs.get? k).isSome := by
  rw [get?_rename, if_neg hk] at h
  split at h
  · split at h
    · cases h
    · exact h
  · exact h

/-- The old key stays only beside the new one. -/
theorem isSome_of_rename_old {old new : RestKey} {attrs : Dict RestKey Value} (hne : old ≠ new)
    (h : ((rename old new attrs).get? old).isSome) : (attrs.get? new).isSome := by
  have ho := isSome_of_rename hne h
  rw [get?_rename, if_pos rfl] at h
  split at h
  · cases h
  · next hn =>
    rw [not_and] at hn
    exact Option.isSome_iff_ne_none.mpr (hn ho)

/-- Renaming adds ARP addresses only. -/
theorem isSome_of_renameArp {attrs : Dict RestKey Value} (h₃ : k ≠ .oxm .arpSpa)
    (h₄ : k ≠ .oxm .arpTpa) (h : ((renameArp attrs).get? k).isSome) : (attrs.get? k).isSome := by
  unfold renameArp at h
  split at h
  · exact isSome_of_rename h₃ (isSome_of_rename h₄ h)
  · exact h

theorem field_ipProto (ac : AddrConv) (hm : m.MaskedByRest) {n : ℕ} (hn : n ≠ 0)
    (h : ipProtoOf (renameArp (modMatch ac m)) = .int n) : m.field .ipProto = some ⟨n, none⟩ := by
  rw [ipProtoOf_modMatch hm, Value.int.injEq, Int.natCast_inj] at h
  cases ht : m.field .ipProto with
  | none =>
    rw [ht] at h
    exact absurd h.symm hn
  | some t =>
    have hmask := hm .ipProto t ht
    obtain ⟨v, mask⟩ := t
    cases mask with
    | some m => exact absurd (hmask rfl) (by decide)
    | none =>
      rw [ht] at h
      obtain rfl : v = n := h
      rfl

theorem proto_of_target {n : ℕ} (hf : f ∈ portsOf n) (h : f.statKey.target proto = some f) :
    proto = .int n := by
  unfold portsOf at hf
  split at hf
  · rcases List.mem_pair.mp hf with rfl | rfl <;>
      simp only [OxmField.statKey, RestKey.target] at h <;> grind
  · rcases List.mem_pair.mp hf with rfl | rfl <;>
      simp only [OxmField.statKey, RestKey.target] at h <;> grind
  · cases hf

/-- Ports that are named again have their protocol. -/
theorem ipProto_of_toMatch (hm : m.MaskedByRest) (h : toMatch ac (modMatch ac m) = .ok m)
    {n : ℕ} (hn : n ≠ 0) (hf : f ∈ portsOf n) (hs : (m.field f).isSome) :
    m.field .ipProto = some ⟨n, none⟩ :=
  field_ipProto ac hm hn (proto_of_target hf (of_toMatch_modMatch h hs).2)

/-- The ports of the two protocols exclude each other. -/
theorem alone_of_ports (htcp : ∀ f ∈ portsOf 6, (m.field f).isSome → m.field .ipProto = some ⟨6, none⟩)
    (hudp : ∀ f ∈ portsOf 17, (m.field f).isSome → m.field .ipProto = some ⟨17, none⟩)
    (hf : (m.field f).isSome) : Alone m f := by
  have hex : ∀ f ∈ portsOf 6, ∀ g ∈ portsOf 17, (m.field f).isSome → (m.field g).isSome → False := by
    intro f hf g hg hsf hsg
    have h := (htcp f hf hsf).symm.trans (hudp g hg hsg)
    simp at h
  intro g hg hne
  by_contra hsome
  have hs := Option.isSome_iff_ne_none.mpr hsome
  revert hg hne hf
  cases f with
  | tcpSrc => 
    intro hf hg hne
    obtain rfl : g = .udpSrc := by simpa [OxmField.sharers, hne] using hg
    exact hex .tcpSrc (by decide) .udpSrc (by decide) hf hs
  | tcpDst =>
    intro hf hg hne
    obtain rfl : g = .udpDst := by simpa [OxmField.sharers, hne] using hg
    exact hex .tcpDst (by decide) .udpDst (by decide) hf hs
  | udpSrc =>
    intro hf hg hne
    obtain rfl : g = .tcpSrc := by simpa [OxmField.sharers, hne] using hg
    exact hex .tcpSrc (by decide) .udpSrc (by decide) hs hf
  | udpDst =>
    intro hf hg hne
    obtain rfl : g = .tcpDst := by simpa [OxmField.sharers, hne] using hg
    exact hex .tcpDst (by decide) .udpDst (by decide) hs hf
  | _ =>
    intro hf hg hne
    exact hne (List.mem_singleton.mp hg)

theorem kept_of_toMatch (hm : m.MaskedByRest) (h : toMatch ac (modMatch ac m) = .ok m) :
    Kept m := by
  have htcp : ∀ f ∈ portsOf 6, (m.field f).isSome → m.field .ipProto = some ⟨6, none⟩ :=
    fun f hf hs => ipProto_of_toMatch hm h (by decide) hf hs
  have hudp : ∀ f ∈ portsOf 17, (m.field f).isSome → m.field .ipProto = some ⟨17, none⟩ :=
    fun f hf hs => ipProto_of_toMatch hm h (by decide) hf hs
  refine ⟨?_, htcp, hudp, ?_, ?_⟩
  · intro f hs hf
    have hsome : (m.field f).isSome := by rw [hf]; rfl
    have hk : ((modMatch ac m).get? f.statKey).isSome := by
      refine isSome_of_renameArp ?_ ?_ (of_toMatch_modMatch h hsome).1
      · revert hs
        cases f <;> decide
      · revert hs
        cases f <;> decide
    rw [get?_modMatch hm (alone_of_ports htcp hudp hsome), hf] at hk
    simp [hs, Option.filter] at hk
  · intro he hs
    have hk := (of_toMatch_modMatch h hs).1
    rw [renameArp_of_isArp ((isArp_modMatch hm).mpr he)] at hk
    have ho := isSome_of_rename_old (by decide) (isSome_of_rename (by decide) hk)
    exact isSome_of_get?_modMatch (f := .arpSpa) rfl ho
  · intro he hs
    have hk := (of_toMatch_modMatch h hs).1
    rw [renameArp_of_isArp ((isArp_modMatch hm).mpr he)] at hk
    have ho := isSome_of_rename (by decide) (isSome_of_rename_old (by decide) hk)
    exact isSome_of_get?_modMatch (f := .arpTpa) rfl ho

theorem Kept.alone (hk : Kept m) (hf : (m.field f).isSome) : Alone m f :=
  alone_of_ports hk.tcp hk.udp hf

/-- Every field is in the deletion. -/
theorem Kept.get?_modMatch (hk : Kept m) (hm : m.MaskedByRest) (ht : m.field f = some t) :
    (modMatch ac m).get? f.statKey = some (statValue ac f t) := by
  have hn : ¬ (Stripped f ∧ t = ⟨0, none⟩) := by
    rintro ⟨hs, rfl⟩
    exact hk.nonzero f hs ht
  rw [Qos.get?_modMatch hm (hk.alone (by rw [ht]; rfl)), ht]
  simp [Option.filter, hn]

theorem Kept.renameArp (hk : Kept m) (hm : m.MaskedByRest) :
    renameArp (modMatch ac m) = modMatch ac m := by
  by_cases ha : IsArp (modMatch ac m)
  · have he := (isArp_modMatch hm).mp ha
    have hsrc : rename (.legacy .nwSrc) (.oxm .arpSpa) (modMatch ac m) = modMatch ac m := by
      refine rename_eq_self fun h => ?_
      obtain ⟨t, ht⟩ := Option.isSome_iff_exists.mp
        (hk.arpSrc he (isSome_of_get?_modMatch (f := .ipv4Src) rfl h))
      exact Option.isSome_iff_exists.mpr ⟨_, hk.get?_modMatch (f := .arpSpa) hm ht⟩
    have hdst : rename (.legacy .nwDst) (.oxm .arpTpa) (modMatch ac m) = modMatch ac m := by
      refine rename_eq_self fun h => ?_
      obtain ⟨t, ht⟩ := Option.isSome_iff_exists.mp
        (hk.arpDst he (isSome_of_get?_modMatch (f := .ipv4Dst) rfl h))
      exact Option.isSome_iff_exists.mpr ⟨_, hk.get?_modMatch (f := .arpTpa) hm ht⟩
    rw [renameArp_of_isArp ha, hsrc, hdst]
  · exact renameArp_of_not ha

/-- Every key leads back to its field. -/
theorem Kept.target (hk : Kept m) (hm : m.MaskedByRest) (hf : (m.field f).isSome) :
    f.statKey.target (ipProtoOf (Ryu.renameArp (modMatch ac m))) = some f := by
  rw [ipProtoOf_modMatch hm]
  cases f with
  | tcpSrc => simp [hk.tcp .tcpSrc (by decide) hf, OxmField.statKey, RestKey.target]
  | tcpDst => simp [hk.tcp .tcpDst (by decide) hf, OxmField.statKey, RestKey.target]
  | udpSrc => simp [hk.udp .udpSrc (by decide) hf, OxmField.statKey, RestKey.target]
  | udpDst => simp [hk.udp .udpDst (by decide) hf, OxmField.statKey, RestKey.target]
  | _ => rfl

/-- The entries of the deletion convert to the fields of the match. -/
theorem Kept.convertEntry (hk : Kept m) (hm : m.MaskedByRest)
    (hv : (modMatch ac m).get? k = some v) :
    ∃ f t, m.field f = some t ∧
      convertEntry ac (ipProtoOf (Ryu.renameArp (modMatch ac m))) k v =
        .ok (some (f, t.toUser ac f)) := by
  obtain ⟨f, t, ht, rfl, rfl⟩ := of_get?_modMatch hv
  exact ⟨f, t, ht, convertEntry_stat hm ht (hk.target hm (by rw [ht]; rfl))⟩

theorem Kept.argFor (hk : Kept m) (hm : m.MaskedByRest) (f : OxmField) :
    argFor ac (modMatch ac m) f = (m.field f).map (Tlv.toUser ac f) := by
  rw [Ryu.argFor]
  have hconv : ∀ k v, (modMatch ac m).get? k = some v → ∃ f t, m.field f = some t ∧
      Ryu.convertEntry ac (ipProtoOf (Ryu.renameArp (modMatch ac m))) k v =
        .ok (some (f, t.toUser ac f)) := fun k v hv => hk.convertEntry hm hv
  have htarget : ∀ t, m.field f = some t →
      Ryu.convertEntry ac (ipProtoOf (Ryu.renameArp (modMatch ac m))) f.statKey
        (statValue ac f t) = .ok (some (f, t.toUser ac f)) := fun t ht =>
    convertEntry_stat hm ht (hk.target hm (by rw [ht]; rfl))
  generalize ipProtoOf (Ryu.renameArp (modMatch ac m)) = proto at hconv htarget
  rw [hk.renameArp hm]
  have hmem : ∀ u ∈ argsFor ac proto f (modMatch ac m).entries,
      ∃ t, m.field f = some t ∧ u = t.toUser ac f := by
    intro u hu
    obtain ⟨⟨k, v⟩, he, hfu⟩ := List.mem_filterMap.mp hu
    obtain ⟨g, t, ht, hc⟩ := hconv k v (Dict.mem_entries_iff.mp he)
    simp only [hc] at hfu
    split at hfu
    · next hg =>
      subst hg
      exact ⟨t, ht, (Option.some.inj hfu).symm⟩
    · cases hfu
  cases ht : m.field f with
  | none =>
    have hnil : argsFor ac proto f (modMatch ac m).entries = [] := by
      refine List.eq_nil_iff_forall_not_mem.mpr fun u hu => ?_
      obtain ⟨t, ht', -⟩ := hmem u hu
      simp [ht] at ht'
    simp [hnil]
  | some t =>
    have hin : t.toUser ac f ∈ argsFor ac proto f (modMatch ac m).entries :=
      List.mem_filterMap.mpr ⟨(f.statKey, statValue ac f t),
        Dict.mem_entries_iff.mpr (hk.get?_modMatch hm ht), by simp [htarget t ht]⟩
    obtain ⟨u, hu⟩ := Option.ne_none_iff_exists'.mp
      (mt List.getLast?_eq_none_iff.mp (List.ne_nil_of_mem hin))
    obtain ⟨t', ht', rfl⟩ := hmem u (List.mem_of_getLast? hu)
    cases ht.symm.trans ht'
    rw [hu]
    rfl

theorem toMatch_modMatch_iff (hm : m.MaskedByRest) :
    toMatch ac (modMatch ac m) = .ok m ↔ Kept m := by
  refine ⟨kept_of_toMatch hm, fun hk => toMatch_eq_ok.2 ⟨?_, ?_, ?_⟩⟩
  · rintro ⟨k, v⟩ he
    rw [hk.renameArp hm, Dict.mem_entries_iff] at he
    obtain ⟨f, t, -, hc⟩ := hk.convertEntry hm he
    exact isOk_iff.2 ⟨_, hc⟩
  · intro f u hu
    rw [hk.argFor hm] at hu
    obtain ⟨t, ht, rfl⟩ := Option.map_eq_some_iff.mp hu
    exact isOk_iff.2 ⟨t, normalizeUser_toUser (m.fits f t ht)⟩
  · intro f
    rw [hk.argFor hm]
    cases ht : m.field f with
    | none => rfl
    | some t => simp [normalizeUser_toUser (m.fits f t ht), Except.toOption]

end Strict

end Ryu.Qos
