import Ryu.Lib.Grouping
import Ryu.Qos.Delete

/-! # Listing a rule again

`get_qos` and `delete_qos` know a rule by its table, its priority, its identifier and the
VLAN of its match, and each filters on some of these. The VLAN of a match is a text there,
so that a rule for a VLAN is neither listed nor selected under the number it was set for.
-/

namespace Ryu.Qos

section Listing

variable {ac : AddrConv} {flow : FlowStat} {flows : List FlowStat} {k : RestKey} {v : Value}
  {rules rules' : Dict Value (List RestRule)} {rule : RestRule} {vlanId : VlanId} {m : OFPMatch}
  {f : Flow} {s : RuleSwitch} {n : ℕ}

/-- The loop of `get_qos` groups the rules by VLAN. -/
theorem collectRules_eq (ac : AddrConv) (vlanId : VlanId) (flows : List FlowStat)
    (rules : Dict Value (List RestRule)) : collectRules ac vlanId flows rules =
      Grouping.collect (Lists vlanId) vidOf (toRestRule ac) flows rules := by
  induction flows generalizing rules with
  | nil => rfl
  | cons flow flows ih =>
    simp only [collectRules, Grouping.collect, Grouping.under, ih]
    cases toRestRule ac flow with
    | error e => rfl
    | ok rule => rfl

theorem collectRules_isOk_iff :
    (collectRules ac vlanId flows rules).isOk ↔
      ∀ flow ∈ flows, Lists vlanId flow → (toRestRule ac flow).isOk := by
  rw [collectRules_eq]
  exact Grouping.collect_isOk_iff

/-- The rules listed under a VLAN. -/
def under (rules : Dict Value (List RestRule)) (vid : Value) : List RestRule :=
  (rules.get? vid).getD []

theorem mem_collectRules (h : collectRules ac vlanId flows rules = .ok rules') (vid : Value) :
    rule ∈ under rules' vid ↔ rule ∈ under rules vid ∨
      ∃ flow ∈ flows, Lists vlanId flow ∧ vidOf flow = vid ∧ toRestRule ac flow = .ok rule := by
  rw [collectRules_eq] at h
  exact Grouping.mem_collect h vid

theorem reservedNumToUser_eq_int {names : Reserved} {n c : ℕ} (hn : ∀ x ∈ names, x.2 ≠ c) :
    reservedNumToUser names n = .int c ↔ n = c := by
  unfold reservedNumToUser
  cases hf : names.find? fun x => x.2 = n with
  | none => simp
  | some x =>
    have hx : x.2 = n := by simpa using List.find?_some hf
    have hne := hn x (List.mem_of_find?_eq_some hf)
    simp [← hx, hne]

theorem stat_tableId : (f.stat ac).tableId = .int qosTableId ↔ f.tableId = qosTableId :=
  reservedNumToUser_eq_int (c := 0) (by decide)

/-- Without a VLAN in the match it is 0, otherwise a text. -/
theorem vidOf_stat : vidOf (f.stat ac) =
    ((f.ofMatch.field .vlanVid).map fun t => Value.str (matchVidToStr t)).getD (.int 0) := by
  have ha : Alone f.ofMatch .vlanVid := alone_of_sharers rfl
  have hg : (matchToStr ac f.ofMatch).get? (.legacy .dlVlan) = _ := get?_matchToStr_alone ha
  rw [vidOf, Flow.stat, hg]
  rfl

/-- A number covers no VLAN of a match. -/
theorem covers_stat : (VlanId.id n).Covers (vidOf (f.stat ac)) ↔
    n = 0 ∧ f.ofMatch.field .vlanVid = none := by
  rw [vidOf_stat]
  cases f.ofMatch.field .vlanVid with
  | none => simp [VlanId.Covers]
  | some t => simp [VlanId.Covers]

theorem toRest_isOk_iff {d : Dict RestKey Value} : (toRest ac d).isOk ↔
    ∀ k v, d.get? k = some v → dontcare ac k v = false → (restName k v).isOk := by
  have hiff : (toRest ac d).isOk ↔ (d.filter fun k v => !dontcare ac k v).entries.findSome?
      (fun e => errorOf (restName e.1 e.2)) = none := by
    unfold toRest
    dsimp only
    split
    · next e he => simp [he]
    · next he => simp [he]
  rw [hiff]
  simp only [List.findSome?_eq_none_iff, errorOf_eq_none, Prod.forall, Dict.mem_entries_iff,
    Dict.get?_filter, Option.filter_eq_some_iff, Bool.not_eq_true', and_imp]

theorem restName_isOk_iff : (restName k v).isOk ↔
    ∀ names ∈ convert k, ∃ x ∈ names, v = .int x.2 := by
  unfold restName
  cases convert k with
  | none => simp
  | some names =>
    simp only [Option.mem_some_iff, forall_eq']
    cases hf : names.find? fun x => v = .int x.2 with
    | none =>
      have hn := List.find?_eq_none.mp hf
      refine iff_of_false (by simp) ?_
      rintro ⟨x, hx, hv⟩
      exact hn x hx (by simpa using hv)
    | some x =>
      have hv : v = .int x.2 := by simpa using List.find?_some hf
      exact iff_of_true rfl ⟨x, List.mem_of_find?_eq_some hf, hv⟩

/-- The value of the field has a name, or is taken for a missing one. -/
def Nameable (m : OFPMatch) (f : OxmField) (names : Reserved) : Prop :=
  ∀ t ∈ m.field f, t.mask = none ∧ (t.value = 0 ∨ ∃ x ∈ names, t.value = x.2)

theorem nameable_iff (ac : AddrConv) {g : OxmField} {size : ℕ} {names : Reserved} (hs : g.sharers = [g])
    (hi : g.type = .int size) (hv : g.conversion ≠ .vid) (hp : g.conversion ≠ .port)
    (hd : dontcareKind g.statKey = none) :
    (∀ v, (matchToStr ac m).get? g.statKey = some v → dontcare ac g.statKey v = false →
      ∃ x ∈ names, v = .int x.2) ↔ Nameable m g names := by
  rw [get?_matchToStr_alone (alone_of_sharers hs), Nameable]
  simp only [dontcare_eq, hd, Option.map_eq_some_iff, Option.mem_def]
  constructor
  · rintro h ⟨n, mask⟩ ht
    have hval := h _ ⟨_, ht, rfl⟩
    rw [statValue_of_ne hv hp] at hval
    cases mask with
    | some m => simp at hval
    | none =>
      refine ⟨rfl, ?_⟩
      by_cases h0 : n = 0
      · exact Or.inl h0
      · obtain ⟨x, hx, hn⟩ := hval (by simp [toUser, hi, h0])
        exact Or.inr ⟨x, hx, by simpa [toUser, hi] using hn⟩
  · rintro h v ⟨⟨n, mask⟩, ht, rfl⟩ hd0
    obtain ⟨hm, hn⟩ := h _ ht
    obtain rfl : mask = none := hm
    rw [statValue_of_ne hv hp] at hd0 ⊢
    rcases hn with h0 | ⟨x, hx, hn⟩
    · obtain rfl : n = 0 := h0
      simp [toUser, hi] at hd0
    · obtain rfl : n = x.2 := hn
      exact ⟨x, hx, by simp [toUser, hi]⟩

theorem toRest_matchToStr_isOk_iff :
    (toRest ac (matchToStr ac m)).isOk ↔
      Nameable m .ethType convDlType ∧ Nameable m .ipProto convNwProto := by
  rw [toRest_isOk_iff, ← nameable_iff (g := .ethType) ac rfl rfl (by decide) (by decide) rfl,
    ← nameable_iff (g := .ipProto) ac rfl rfl (by decide) (by decide) rfl]
  simp only [restName_isOk_iff]
  constructor
  · intro h
    exact ⟨fun v hv hd => h _ v hv hd convDlType rfl, fun v hv hd => h _ v hv hd convNwProto rfl⟩
  · rintro ⟨ht, hp⟩ k v hv hd names hn
    unfold convert at hn
    split at hn
    · cases hn
      exact ht v hv hd
    · cases hn
      exact hp v hv hd
    · cases hn

theorem actionsToRest_isOk_iff {acts : List ActionStr} :
    (actionsToRest acts).isOk ↔ .writeActions ∉ acts := by
  induction acts with
  | nil => simp [actionsToRest]
  | cons act acts ih =>
    cases act with
    | writeActions => simp [actionsToRest, actionToRest]
    | text s =>
      cases ha : actionsToRest acts with
      | error e => simp [actionsToRest, actionToRest, ha] at ih ⊢; exact ih
      | ok as => simp [actionsToRest, actionToRest, ha] at ih ⊢; exact ih

theorem writeActions_mem_actionsToStr {inst : List Instruction} :
    .writeActions ∈ actionsToStr inst ↔ ∃ actions, actions ≠ [] ∧ .writeActions actions ∈ inst := by
  simp only [actionsToStr, List.mem_flatMap]
  constructor
  · rintro ⟨i, hi, hw⟩
    cases i with
    | writeActions actions =>
      by_cases ha : actions = []
      · simp [instructionToStr, ha] at hw
      · exact ⟨actions, ha, hi⟩
    | _ => simp [instructionToStr] at hw
  · rintro ⟨actions, ha, hi⟩
    exact ⟨_, hi, by simp [instructionToStr, ha]⟩

/-- `get_qos` can write the flow back. -/
structure Readable (f : Flow) : Prop where
  dlType : Nameable f.ofMatch .ethType convDlType
  nwProto : Nameable f.ofMatch .ipProto convNwProto
  actions : ∀ actions, .writeActions actions ∈ f.instructions → actions = []

theorem toRestRule_isOk_iff : (toRestRule ac (f.stat ac)).isOk ↔ Readable f := by
  have hm : (toRest ac (f.stat ac).ofMatch).isOk ↔ _ := toRest_matchToStr_isOk_iff
  have ha : (actionsToRest (f.stat ac).actions).isOk ↔ _ :=
    actionsToRest_isOk_iff.trans (not_congr writeActions_mem_actionsToStr)
  have hr : (toRestRule ac (f.stat ac)).isOk ↔
      (toRest ac (f.stat ac).ofMatch).isOk ∧ (actionsToRest (f.stat ac).actions).isOk := by
    unfold toRestRule
    cases toRest ac (f.stat ac).ofMatch with
    | error e => simp
    | ok d => cases actionsToRest (f.stat ac).actions <;> simp
  rw [hr, hm, ha]
  constructor
  · rintro ⟨⟨ht, hp⟩, hw⟩
    refine ⟨ht, hp, fun actions hi => by_contra fun hne => hw ⟨actions, hne, hi⟩⟩
  · rintro ⟨ht, hp, hw⟩
    refine ⟨⟨ht, hp⟩, ?_⟩
    rintro ⟨actions, hne, hi⟩
    exact hne (hw actions hi)

/-- The loop of `get_qos` writes the rule of the flow. -/
def Shown (ac : AddrConv) (s : RuleSwitch) (vlanId : VlanId) (f : Flow) : Prop :=
  ∃ rules, getQos ac s vlanId = .ok rules ∧ ∃ rule, toRestRule ac (f.stat ac) = .ok rule ∧
    rule ∈ under rules (vidOf (f.stat ac))

theorem toRestRule_priority (h : toRestRule ac flow = .ok rule) :
    rule.priority = flow.priority := by
  unfold toRestRule at h
  split at h
  · cases h
  · cases h
  · cases h
    rfl

/-- A rule is shown if it is asked for and every flow that is asked for can be written. -/
theorem shown_iff (hf : f ∈ s.table) (ht : f.tableId = qosTableId) :
    Shown ac s vlanId f ↔ Lists vlanId (f.stat ac) ∧
      ∀ g ∈ s.table, Lists vlanId (g.stat ac) → Readable g := by
  have hok : (getQos ac s vlanId).isOk ↔
      ∀ g ∈ s.table, Lists vlanId (g.stat ac) → Readable g := by
    simp [getQos, collectRules_isOk_iff, getFlowStats, toRestRule_isOk_iff]
  have hmem : f.stat ac ∈ getFlowStats ac s.table := List.mem_map_of_mem hf
  rw [← hok]
  constructor
  · rintro ⟨rules, hrules, rule, hrule, hin⟩
    refine ⟨?_, isOk_iff.2 ⟨rules, hrules⟩⟩
    rcases (mem_collectRules hrules _).mp hin with hin | ⟨flow, -, hl, hv, hr⟩
    · simp [under] at hin
    · refine ⟨stat_tableId.2 ht, ?_, hv ▸ hl.2.2⟩
      rw [← toRestRule_priority hrule, toRestRule_priority hr]
      exact hl.2.1
  · rintro ⟨hl, h⟩
    obtain ⟨rules, hrules⟩ := isOk_iff.1 h
    obtain ⟨rule, hrule⟩ := isOk_iff.1 (toRestRule_isOk_iff.2 (hok.mp h f hf hl))
    exact ⟨rules, hrules, rule, hrule,
      (mem_collectRules hrules _).mpr (Or.inr ⟨_, hmem, hl, rfl, hrule⟩)⟩

/-- The rule is listed for its VLAN and for all; a deletion by an identifier and the VLAN selects
the rules that are listed under them, and no deletion selects a flow of another table. -/
structure Found (ac : AddrConv) (s : RuleSwitch) (v : ℕ) (f : Flow) : Prop where
  listed : Shown ac s (.id v) f
  listedAll : Shown ac s .all f
  selected : ∀ g ∈ s.table, ∀ n : ℤ, Selects (.id n) (.id v) (g.stat ac) ↔
    Lists (.id v) (g.stat ac) ∧ n = cookieToQosid g.cookie
  others : ∀ g ∈ s.table, ∀ qosId vlanId, Selects qosId vlanId (g.stat ac) →
    g.tableId = qosTableId

/-- A rule of the priority and the match, set for the VLAN, can be found: it has no VLAN, its
priority is not the default one, it can be written as the other rules can, and the flows of
other tables have the default priority. -/
structure Findable (s : RuleSwitch) (v priority : ℕ) (m : OFPMatch) : Prop where
  vlan : v = vlanidNone
  noVlan : m.field .vlanVid = none
  notDefault : priority ≠ defaultFlowPriority
  dlType : Nameable m .ethType convDlType
  nwProto : Nameable m .ipProto convNwProto
  readable : ∀ g ∈ s.table, g.tableId = qosTableId → g.priority ≠ defaultFlowPriority →
    ¬ (g.priority = priority ∧ g.ofMatch = m) → Readable g
  others : ∀ g ∈ s.table, g.tableId ≠ qosTableId → g.priority = defaultFlowPriority

theorem mem_addFlow {table : List Flow} {g : Flow} :
    g ∈ addFlow table f ↔ g ∈ table ∧ ¬ f.Overlaps g ∨ g = f := by
  simp [addFlow]

theorem lists_all : Lists .all (f.stat ac) ↔
    f.tableId = qosTableId ∧ f.priority ≠ defaultFlowPriority := by
  simp only [Lists, stat_tableId, VlanId.Covers, and_true]
  rfl

theorem lists_id : Lists (.id n) (f.stat ac) ↔ f.tableId = qosTableId ∧
    f.priority ≠ defaultFlowPriority ∧ n = 0 ∧ f.ofMatch.field .vlanVid = none := by
  simp only [Lists, stat_tableId, covers_stat]
  rfl

/-- In a table to which a rule without write actions was added, it is found exactly when it is
findable. -/
theorem found_addFlow_iff {q : QoS} (ht : f.tableId = qosTableId)
    (hw : ∀ written, .writeActions written ∉ f.instructions) :
    Found ac ⟨q, addFlow s.table f⟩ n f ↔ Findable s n f.priority f.ofMatch := by
  have hf : f ∈ addFlow s.table f := mem_addFlow.2 (Or.inr rfl)
  constructor
  · rintro ⟨hl, ha, -, ho⟩
    obtain ⟨-, hp, hn, hv⟩ := lists_id.1 ((shown_iff hf ht).mp hl).1
    have hread := ((shown_iff hf ht).mp ha).2
    have hfr := hread f hf (lists_all.2 ⟨ht, hp⟩)
    refine ⟨hn, hv, hp, hfr.dlType, hfr.nwProto, ?_, ?_⟩
    · intro g hg hgt hgp hne
      refine hread g (mem_addFlow.2 (Or.inl ⟨hg, ?_⟩)) (lists_all.2 ⟨hgt, hgp⟩)
      rintro ⟨-, hep, hem⟩
      exact hne ⟨hep.symm, hem.symm⟩
    · intro g hg hgt
      by_contra hgp
      refine hgt (ho g (mem_addFlow.2 (Or.inl ⟨hg, ?_⟩)) .all .all ⟨hgp, trivial, trivial⟩)
      rintro ⟨het, -, -⟩
      exact hgt (het.symm.trans ht)
  · intro h
    have hothers : ∀ g ∈ addFlow s.table f, g.priority ≠ defaultFlowPriority →
        g.tableId = qosTableId := by
      intro g hg hgp
      rcases mem_addFlow.1 hg with ⟨hg, -⟩ | rfl
      · by_contra hgt
        exact hgp (h.others g hg hgt)
      · exact ht
    have hread : ∀ g ∈ addFlow s.table f, Lists .all (g.stat ac) → Readable g := by
      intro g hg hl
      obtain ⟨hgt, hgp⟩ := lists_all.1 hl
      rcases mem_addFlow.1 hg with ⟨hg, hne⟩ | rfl
      · refine h.readable g hg hgt hgp ?_
        rintro ⟨hep, hem⟩
        exact hne ⟨ht.trans hgt.symm, hep.symm, hem.symm⟩
      · exact ⟨h.dlType, h.nwProto, fun written hin => absurd hin (hw written)⟩
    refine ⟨(shown_iff hf ht).mpr ⟨lists_id.2 ⟨ht, h.notDefault, h.vlan, h.noVlan⟩, ?_⟩,
      (shown_iff hf ht).mpr ⟨lists_all.2 ⟨ht, h.notDefault⟩, hread⟩, ?_, ?_⟩
    · intro g hg hl
      exact hread g hg (lists_all.2 ⟨(lists_id.1 hl).1, (lists_id.1 hl).2.1⟩)
    · intro g hg q
      constructor
      · rintro ⟨hgp, hq, hc⟩
        exact ⟨⟨stat_tableId.2 (hothers g hg hgp), hgp, hc⟩, hq⟩
      · rintro ⟨⟨-, hgp, hc⟩, hq⟩
        exact ⟨hgp, hq, hc⟩
    · intro g hg q v hs
      exact hothers g hg hs.1

/-- A request asks for one priority and one match only. -/
theorem Asks.unique {rest : RuleBody} {v p p' : ℕ} {m m' : OFPMatch} (h : Asks ac rest v p m)
    (h' : Asks ac rest v p' m') : p = p' ∧ m = m' := by
  have hp := h.1.symm.trans h'.1
  have hm := h.2.symm.trans h'.2
  exact ⟨by simpa using hp, Option.some.inj hm⟩

/-- A request for one VLAN adds the rule that is accepted. -/
theorem setQos_id {rest : RuleBody}
    (h : (setRule ac (nextCookie s.qos.vlanList n).1 rest n).1 = .ok f) :
    (setQos ac s rest (.id n)).2.2 =
      ⟨{ s.qos with vlanList := (nextCookie s.qos.vlanList n).2 }, addFlow s.table f⟩ := by
  cases hr : setRule ac (nextCookie s.qos.vlanList n).1 rest n with
  | mk r rest' =>
    rw [hr] at h
    obtain rfl : r = .ok f := h
    simp [setQos, getCookie, nextCookies, setRules, hr]

/-- A rule that was accepted is found exactly when the request and the state make it findable. -/
theorem acceptedRule_found_iff (ac : AddrConv) (s : RuleSwitch) (rest : RuleBody) (v : ℕ)
    (flow : Flow) (h : (setRule ac (nextCookie s.qos.vlanList v).1 rest v).1 = .ok flow) :
    Found ac (setQos ac s rest (.id v)).2.2 v flow ↔
      ∃ priority m, Asks ac rest v priority m ∧ Findable s v priority m := by
  have hr := setRule_eq_ok h
  rw [setQos_id h, found_addFlow_iff hr.tableId hr.unwritten]
  constructor
  · intro hfound
    exact ⟨_, _, hr.asks, hfound⟩
  · rintro ⟨priority, m, hask', hfound⟩
    obtain ⟨rfl, rfl⟩ := hr.asks.unique hask'
    exact hfound

theorem acceptedRule_found_mac :
    ∃ flow, (setRule plainConv (nextCookie (QoS.init 1).vlanList 0).1
        (typedBody "IPv4" (.legacy .dlSrc) (.str "00:00:00:00:00:01".toList)) 0).1 = .ok flow ∧
      (Found plainConv (setQos plainConv ⟨QoS.init 1, []⟩
          (typedBody "IPv4" (.legacy .dlSrc) (.str "00:00:00:00:00:01".toList)) (.id 0)).2.2 0 flow ↔
        ∃ priority m, Asks plainConv
          (typedBody "IPv4" (.legacy .dlSrc) (.str "00:00:00:00:00:01".toList)) 0 priority m ∧
          Findable ⟨QoS.init 1, []⟩ 0 priority m) := by
  obtain ⟨flow, h⟩ := isOk_iff.1 (by decide : (setRule plainConv
    (nextCookie (QoS.init 1).vlanList 0).1
    (typedBody "IPv4" (.legacy .dlSrc) (.str "00:00:00:00:00:01".toList)) 0).1.isOk)
  exact ⟨flow, h, acceptedRule_found_iff plainConv ⟨QoS.init 1, []⟩ _ 0 flow h⟩

/-- A rule for VLAN 5 is not listed for VLAN 5. -/
theorem vlanRule_not_found :
    ¬ ∀ flow, (setRule plainConv (nextCookie (QoS.init 1).vlanList 5).1
        (typedBody "IPv4" (.legacy .dlSrc) (.str "00:00:00:00:00:01".toList)) 5).1 = .ok flow →
      Found plainConv (setQos plainConv ⟨QoS.init 1, []⟩
        (typedBody "IPv4" (.legacy .dlSrc) (.str "00:00:00:00:00:01".toList)) (.id 5)).2.2 5 flow := by
  intro hfound
  obtain ⟨flow, h⟩ := isOk_iff.1 (by decide : (setRule plainConv
    (nextCookie (QoS.init 1).vlanList 5).1
    (typedBody "IPv4" (.legacy .dlSrc) (.str "00:00:00:00:00:01".toList)) 5).1.isOk)
  have hr := setRule_eq_ok h
  have hf := hfound flow h
  rw [setQos_id (s := ⟨QoS.init 1, []⟩) h,
    found_addFlow_iff (s := ⟨QoS.init 1, []⟩) hr.tableId hr.unwritten] at hf
  exact absurd hf.vlan (by decide)

end Listing

end Ryu.Qos
