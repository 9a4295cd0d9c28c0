import Ryu.Qos.Vlan
import Ryu.RestFirewall.Table

/-! # Listing the rules of a firewall

The type and the protocol of a rule are given by their names. In every version they are written
into the match as the numbers of these, and so each rule can be listed under the names again.
-/

namespace Ryu.RestFirewall

open Numeral Qos

section Names

variable {value attrs : Dict RestKey Value} {k : RestKey} {v : Value} {names : Reserved}

theorem mem_of_lookup {s : Text} {n : ℕ} (h : Assoc.lookup s names = some n) : (s, n) ∈ names := by
  induction names with
  | nil => cases h
  | cons x names ih =>
    obtain ⟨s', n'⟩ := x
    simp only [Assoc.lookup] at h
    split at h
    · next hs =>
      obtain rfl := hs
      obtain rfl := Option.some.inj h
      exact List.mem_cons_self
    · exact List.mem_cons_of_mem _ (ih h)

/-- The value is a number of the names. -/
def Named (names : Reserved) (v : Value) : Prop := ∃ x ∈ names, v = .int (x.2 : ℕ)

theorem named_of_convName {w : Value} (hk : convert k = some names) (h : convName k v = .ok w) :
    Named names w := by
  cases k with
  | legacy key =>
    simp only [convName, hk] at h
    cases v with
    | int n => cases h
    | str s =>
      dsimp only at h
      split at h
      · next n hn =>
        obtain rfl := Except.ok.inj h
        exact ⟨(s, n), mem_of_lookup hn, rfl⟩
      · cases h
  | oxm f => cases hk
  | unknown name => cases hk

theorem of_convNames (h : convNames value = .ok attrs) (hv : attrs.get? k = some v) :
    (value.get? k).isSome ∧ ∀ names, convert k = some names → Named names v := by
  unfold convNames at h
  split at h
  · cases h
  · next hnone =>
    obtain rfl := Except.ok.inj h
    rw [Dict.get?_mapValues] at hv
    obtain ⟨w, hw, hwv⟩ := Option.map_eq_some_iff.mp hv
    refine ⟨by rw [hw]; rfl, ?_⟩
    intro names hk
    have hok := List.findSome?_eq_none_iff.mp hnone (k, w) (Dict.mem_entries_iff.mpr hw)
    obtain ⟨w', hw'⟩ := isOk_iff.1 (errorOf_eq_none.1 hok)
    rw [hw'] at hwv
    obtain rfl : w' = v := hwv
    exact named_of_convName hk hw'

/-- A match that was checked has keys of matches only, with numbers for the names. -/
theorem of_toOpenflow (h : (toOpenflow value).1 = .ok attrs) (hv : attrs.get? k = some v) :
    k ∈ matchKeys ∧ ∀ names, convert k = some names → Named names v := by
  unfold toOpenflow at h
  split at h
  · cases h
  · obtain ⟨hsome, hnamed⟩ := of_convNames h hv
    refine ⟨?_, hnamed⟩
    obtain ⟨w, hw⟩ := Option.isSome_iff_exists.mp hsome
    rw [Dict.get?_filter] at hw
    exact of_decide_eq_true (Option.filter_eq_some_iff.mp hw).2

end Names

section Oxm

variable {ac : AddrConv} {attrs : Dict RestKey Value} {m : OFPMatch} {f : OxmField} {t : Tlv}

/-- Where an integer field of a match comes from. -/
theorem of_field_int {size : ℕ} (hty : f.type = .int size) (hc : f.conversion = .int)
    (h : Ryu.toMatch ac attrs = .ok m) (ht : m.field f = some t) :
    ∃ k v n, (renameArp attrs).get? k = some v ∧ k.target (ipProtoOf (renameArp attrs)) = some f ∧
      strToInt v = .ok n ∧ t = ⟨(n % (256 ^ size : ℕ)).toNat, none⟩ := by
  obtain ⟨-, -, hget⟩ := toMatch_eq_ok.1 h
  obtain ⟨u, hu, hn⟩ := Option.bind_eq_some_iff.mp ((hget f).symm.trans ht)
  obtain ⟨⟨k, v⟩, hmem, harg⟩ := List.mem_filterMap.mp (List.mem_of_getLast? hu)
  have hk : k.target (ipProtoOf (renameArp attrs)) = some f ∧
      convertValue ac f.conversion v = .ok u := by
    dsimp only [convertEntry] at harg
    have hconv : k.target (ipProtoOf (renameArp attrs)) = some f →
        k.conversion = some f.conversion := conversion_of_target
    grind
  obtain ⟨htarget, hval⟩ := hk
  rw [hc] at hval
  obtain ⟨n, hs, rfl⟩ := map_eq_ok.1 hval
  refine ⟨k, v, n, Dict.mem_entries_iff.mp hmem, htarget, hs, ?_⟩
  have hnorm : normalizeUser ac f (.one (.int n)) = .ok ⟨(n % (256 ^ size : ℕ)).toNat, none⟩ := by
    rw [normalizeUser, hty]
    rfl
  rw [hnorm] at hn
  exact (Option.some.inj hn).symm

/-- A field whose only key has a number of the names. -/
theorem nameable_of_toMatch {size : ℕ} {names : Reserved} {k₀ : RestKey} (hty : f.type = .int size)
    (hc : f.conversion = .int) (hlt : ∀ x ∈ names, x.2 < 256 ^ size)
    (hkeys : ∀ proto k, k ∈ RestKey.oxm .arpSpa :: .oxm .arpTpa :: matchKeys →
      k.target proto = some f → k = k₀)
    (hk₀ : k₀ ∈ [RestKey.legacy .dlType, .legacy .nwProto])
    (hattrs : ∀ k v, attrs.get? k = some v → k ∈ matchKeys)
    (hnamed : ∀ v, attrs.get? k₀ = some v → Named names v) (h : Ryu.toMatch ac attrs = .ok m) :
    Nameable m f names := by
  intro t ht
  obtain ⟨k, v, n, hv, htarget, hs, rfl⟩ := of_field_int hty hc h ht
  have hmem : k ∈ RestKey.oxm .arpSpa :: .oxm .arpTpa :: matchKeys := by
    by_cases ha : k = .oxm .arpSpa
    · simp [ha]
    · by_cases hb : k = .oxm .arpTpa
      · simp [hb]
      · have hsome : (attrs.get? k).isSome := by
          have hr : ((renameArp attrs).get? k).isSome := by rw [hv]; rfl
          exact isSome_of_renameArp ha hb hr
        obtain ⟨w, hw⟩ := Option.isSome_iff_exists.mp hsome
        exact .tail _ (.tail _ (hattrs k w hw))
  obtain rfl := hkeys _ k hmem htarget
  have hget : (renameArp attrs).get? k = attrs.get? k := by
    simp only [List.mem_cons, List.not_mem_nil, or_false] at hk₀
    rcases hk₀ with rfl | rfl
    · exact get?_renameArp (by decide) (by decide) (by decide) (by decide)
    · exact get?_renameArp (by decide) (by decide) (by decide) (by decide)
  obtain ⟨x, hx, rfl⟩ := hnamed v (hget ▸ hv)
  obtain rfl : (x.2 : ℤ) = n := Except.ok.inj hs
  have hmod : (x.2 : ℤ) % (256 ^ size : ℕ) = x.2 :=
    Int.emod_eq_of_lt (Int.natCast_nonneg _) (Int.ofNat_lt.mpr (hlt x hx))
  exact ⟨rfl, .inr ⟨x, hx, by rw [hmod]; rfl⟩⟩

end Oxm

section V10

variable {ac : AddrConv} {aton : Text → Option ℕ} {attrs : Dict RestKey Value}
  {m m' : OFPMatch10 Value} {es : List (RestKey × Value)}

/-- The names that the fields have numbers of. -/
structure Numbers (m : OFPMatch10 Value) : Prop where
  dlType : ∀ v ∈ m.dlType, Named convDlType v
  nwProto : ∀ v ∈ m.nwProto, Named convNwProto v

theorem Numbers.setField {k : RestKey} {v : Value} (hm : Numbers m)
    (hv : ∀ names, convert k = some names → Named names v)
    (h : OFPMatch10.setField ac aton m k v = .ok m') : Numbers m' := by
  have hnum : ∀ {names n}, convert k = some names → strToInt v = .ok n →
      Named names (.int n) := by
    intro names n hk hn
    obtain ⟨x, hx, rfl⟩ := hv names hk
    exact ⟨x, hx, by rw [Except.ok.inj hn]⟩
  unfold OFPMatch10.setField at h
  split at h
  case h_5 =>
    obtain ⟨n, hn, rfl⟩ := map_eq_ok.1 h
    refine ⟨?_, hm.nwProto⟩
    intro w hw
    obtain rfl := Option.some.inj hw
    exact hnum rfl hn
  case h_6 =>
    obtain ⟨n, hn, rfl⟩ := map_eq_ok.1 h
    refine ⟨hm.dlType, ?_⟩
    intro w hw
    obtain rfl := Option.some.inj hw
    exact hnum rfl hn
  case h_1 =>
    obtain rfl := Except.ok.inj h
    exact ⟨hm.dlType, hm.nwProto⟩
  case h_11 =>
    split at h
    · obtain ⟨n, -, rfl⟩ := map_eq_ok.1 h
      exact ⟨hm.dlType, hm.nwProto⟩
    · split at h
      · obtain ⟨n, -, rfl⟩ := map_eq_ok.1 h
        exact ⟨hm.dlType, hm.nwProto⟩
      · obtain rfl := Except.ok.inj h
        exact hm
  case h_12 =>
    obtain rfl := Except.ok.inj h
    exact hm
  all_goals
    obtain ⟨n, -, rfl⟩ := map_eq_ok.1 h
    exact ⟨hm.dlType, hm.nwProto⟩

theorem Numbers.setFields (hm : Numbers m)
    (hes : ∀ e ∈ es, ∀ names, convert e.1 = some names → Named names e.2)
    (h : OFPMatch10.setFields ac aton es m = .ok m') : Numbers m' := by
  induction es generalizing m with
  | nil =>
    obtain rfl := Except.ok.inj h
    exact hm
  | cons e es ih =>
    obtain ⟨he, hes⟩ := List.forall_mem_cons.mp hes
    simp only [OFPMatch10.setFields] at h
    split at h
    · cases h
    · next hf => exact ih (hm.setField he hf) hes h

/-- What is sent of the two fields. -/
theorem of_serialize {p : OFPMatch10 ℕ} (h : m.serialize = .ok p) :
    OFPMatch10.packSome 2 m.dlType = .ok p.dlType ∧
      OFPMatch10.packSome 1 m.nwProto = .ok p.nwProto := by
  unfold OFPMatch10.serialize at h
  obtain ⟨inPort, -, h⟩ := bind_eq_ok.1 h
  obtain ⟨dlVlan, -, h⟩ := bind_eq_ok.1 h
  obtain ⟨dlVlanPcp, -, h⟩ := bind_eq_ok.1 h
  obtain ⟨dlType, htype, h⟩ := bind_eq_ok.1 h
  obtain ⟨nwTos, -, h⟩ := bind_eq_ok.1 h
  obtain ⟨nwProto, hproto, h⟩ := bind_eq_ok.1 h
  obtain ⟨tpSrc, -, h⟩ := bind_eq_ok.1 h
  obtain ⟨tpDst, -, h⟩ := bind_eq_ok.1 h
  obtain rfl := Except.ok.inj h
  exact ⟨htype, hproto⟩

theorem named_of_packSome {size : ℕ} {names : Reserved} {o : Option Value} {p : Option ℕ} {n : ℕ}
    (hpack : OFPMatch10.packSome size o = .ok p) (ho : ∀ v ∈ o, Named names v)
    (hn : p = some n) : Named names (.int n) := by
  subst hn
  cases o with
  | none => cases hpack
  | some v =>
    obtain ⟨i, hi, hin⟩ := map_eq_ok.1 hpack
    obtain rfl := Option.some.inj hin
    obtain ⟨x, hx, rfl⟩ := ho v rfl
    obtain ⟨hxi, -⟩ := pack_eq_ok hi
    exact ⟨x, hx, by rw [hxi]⟩

theorem toRest_isOk_v10 {p : OFPMatch10 ℕ}
    (hattrs : ∀ k v, attrs.get? k = some v → ∀ names, convert k = some names → Named names v)
    (h : OFPMatch10.toMatch ac aton attrs = .ok p) : (toRest ac (p.matchToStr ac)).isOk := by
  unfold OFPMatch10.toMatch at h
  split at h
  · cases h
  · next m hm =>
    have h0 : Numbers (OFPMatch10.wildcard Value) := by
      constructor <;> intro v hv <;> cases hv
    have hnum : Numbers m := by
      refine h0.setFields ?_ hm
      rintro ⟨k, v⟩ he names hk
      exact hattrs k v (Dict.mem_entries_iff.mp he) names hk
    obtain ⟨htype, hproto⟩ := of_serialize h
    rw [toRest_isOk_iff]
    intro k v hv _
    rw [restName_isOk_iff]
    intro names hk
    unfold convert at hk
    split at hk
    · obtain rfl := Option.some.inj hk
      rw [OFPMatch10.get?_dlType] at hv
      obtain ⟨n, hn, rfl⟩ := Option.map_eq_some_iff.mp hv
      exact named_of_packSome htype hnum.dlType hn
    · obtain rfl := Option.some.inj hk
      rw [OFPMatch10.get?_nwProto] at hv
      obtain ⟨n, hn, rfl⟩ := Option.map_eq_some_iff.mp hv
      exact named_of_packSome hproto hnum.nwProto hn
    · cases hk

end V10

section Versions

variable {ac : AddrConv} {attrs : Dict RestKey Value} {m : OFPMatch}

theorem toRest_isOk_v13 (hkeys : ∀ k v, attrs.get? k = some v → k ∈ matchKeys)
    (hattrs : ∀ k v, attrs.get? k = some v → ∀ names, convert k = some names → Named names v)
    (h : Ryu.toMatch ac attrs = .ok m) : (toRest ac (Ryu.matchToStr ac m)).isOk := by
  refine toRest_matchToStr_isOk_iff.2 ⟨?_, ?_⟩
  · refine nameable_of_toMatch rfl rfl (by decide) ?_ (.head _) hkeys
      (fun v hv => hattrs _ v hv _ rfl) h
    intro proto k hk htarget
    simp only [matchKeys, List.mem_cons, List.not_mem_nil, or_false] at hk
    rcases hk with rfl | rfl | rfl | rfl | rfl | rfl | rfl | rfl | rfl | rfl | rfl | rfl | rfl | rfl
    all_goals first
      | rfl
      | (simp only [RestKey.target] at htarget; grind)
  · refine nameable_of_toMatch rfl rfl (by decide) ?_ (.tail _ (.head _)) hkeys
      (fun v hv => hattrs _ v hv _ rfl) h
    intro proto k hk htarget
    simp only [matchKeys, List.mem_cons, List.not_mem_nil, or_false] at hk
    rcases hk with rfl | rfl | rfl | rfl | rfl | rfl | rfl | rfl | rfl | rfl | rfl | rfl | rfl | rfl
    all_goals first
      | rfl
      | (simp only [RestKey.target] at htarget; grind)

/-- A rule that is accepted can be listed, in every version. -/
theorem toRest_isOk_of_bodyMatch (ac : AddrConv) (aton : Text → Option ℕ) (version : OfVersion)
    {value : Dict RestKey Value} {m : (version.ofctl ac aton).Match}
    (h : bodyMatch (version.ofctl ac aton) value = some m) :
    (toRest ac ((version.ofctl ac aton).matchToStr m)).isOk := by
  obtain ⟨attrs, hattrs, hm⟩ := Option.bind_eq_some_iff.mp h
  have hof := fun k v => of_toOpenflow (k := k) (v := v) (toOption_eq_some.1 hattrs)
  have hm := toOption_eq_some.1 hm
  cases version with
  | v10 => exact toRest_isOk_v10 (fun k v hv => (hof k v hv).2) hm
  | v12 =>
    have hget : ∀ k v, (attrs.filter fun k _ => k ∉ laterFields).get? k = some v →
        attrs.get? k = some v := by
      intro k v hv
      rw [Dict.get?_filter] at hv
      exact (Option.filter_eq_some_iff.mp hv).1
    exact toRest_isOk_v13 (fun k v hv => (hof k v (hget k v hv)).1)
      (fun k v hv => (hof k v (hget k v hv)).2) hm
  | v13 =>
    exact toRest_isOk_v13 (fun k v hv => (hof k v hv).1) (fun k v hv => (hof k v hv).2) hm

/-- In OpenFlow 1.0 the VLAN of a rule is the number in its match. -/
theorem vidOf_v10 (ac : AddrConv) (m : OFPMatch10 ℕ) :
    ((m.matchToStr ac).get? (.legacy .dlVlan)).getD (.int vlanidNone) =
      .int (m.dlVlan.getD vlanidNone) := by
  rw [OFPMatch10.get?_dlVlan]
  cases m.dlVlan <;> rfl

/-- In the later versions it is a number for a rule without a VLAN only. -/
theorem vidOf_v13 {v : ℕ} :
    ((Ryu.matchToStr ac m).get? (.legacy .dlVlan)).getD (.int vlanidNone) = .int v ↔
      v = vlanidNone ∧ m.field .vlanVid = none := by
  have hg : (Ryu.matchToStr ac m).get? (.legacy .dlVlan) = _ :=
    get?_matchToStr_alone (alone_of_sharers (f := .vlanVid) rfl)
  rw [hg]
  cases m.field .vlanVid with
  | none => simp [vlanidNone, eq_comm]
  | some t => simp [statValue]

end Versions

end Ryu.RestFirewall
