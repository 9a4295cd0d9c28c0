import Ryu.Ofproto.Address
import Ryu.Qos.Rule

/-! # Finding a rule again

A rule that was set is found again through the flow statistics: by its match, which a
strict deletion has to name, and by its VLAN and identifier, by which it is listed and
selected for deletion.
-/

namespace Ryu.Qos

section Strict

variable {ac : AddrConv} {cookie vlanId : ℕ} {rest : RuleBody} {flow : Flow}

theorem toInstructions_eq_ok {as : List ActionDict} {inst : List Instruction}
    {actions : List OfAction} (h : toInstructions as = .ok (inst, actions)) :
    ∀ written, .writeActions written ∉ inst := by
  induction as generalizing inst actions with
  | nil =>
    cases h
    simp
  | cons a as ih =>
    simp only [toInstructions] at h
    cases hr : toInstructions as with
    | error e => simp [hr] at h
    | ok r =>
      have hw := ih hr
      rw [hr] at h
      cases a with
      | setField field value =>
        cases h
        exact hw
      | gotoTable tableId =>
        cases h
        simpa using hw
      | meter meterId =>
        obtain ⟨n, -, hn⟩ := map_eq_ok.1 h
        cases hn
        simpa using hw
      | setQueue queueId =>
        obtain ⟨n, -, hn⟩ := map_eq_ok.1 h
        cases hn
        exact hw

/-- The actions of a rule are applied, not written. -/
theorem toActions_eq_ok {as : List ActionDict} {inst : List Instruction}
    (h : toActions as = .ok inst) : ∀ written, .writeActions written ∉ inst := by
  obtain ⟨⟨inst', actions⟩, hr, hi⟩ := map_eq_ok.1 h
  have hw := toInstructions_eq_ok hr
  rw [← hi]
  split
  · exact hw
  · simpa using hw

/-- The flow of a flow dictionary. -/
theorem modFlowEntry_eq_ok {priority : ℤ} {attrs : Dict RestKey Value} {actions : List ActionDict}
    (h : modFlowEntry ac cookie priority attrs actions = .ok flow) :
    flow.cookie = cookie ∧ flow.tableId = qosTableId ∧
      (priority = flow.priority ∧ flow.priority < 256 ^ 2) ∧
      toMatch ac attrs = .ok flow.ofMatch ∧ ∀ written, .writeActions written ∉ flow.instructions := by
  unfold modFlowEntry at h
  split at h
  · cases h
  · next hm =>
    split at h
    · cases h
    · next hi =>
      split at h
      · cases h
      · next hp =>
        cases h
        exact ⟨rfl, rfl, pack_eq_ok hp, hm, toActions_eq_ok hi⟩

/-- What `to_match` makes of the match `to_openflow` makes of a match dictionary. -/
def bodyMatch (ac : AddrConv) (value : Dict RestKey Value) : Option OFPMatch :=
  (toOpenflow value).1.toOption.bind fun attrs => (toMatch ac attrs).toOption

/-- The match a request names for a VLAN. -/
def ruleMatch (ac : AddrConv) (rest : RuleBody) (vlanId : ℕ) : Option OFPMatch :=
  rest.ofMatch.bind fun value => bodyMatch ac (withVlan value vlanId)

/-- The priority and the match a request asks for. -/
def Asks (ac : AddrConv) (rest : RuleBody) (vlanId priority : ℕ) (m : OFPMatch) : Prop :=
  pyInt (rest.priority.getD (.int qosPriorityMin)) = .ok (priority : ℤ) ∧
    ruleMatch ac rest vlanId = some m

theorem ruleMatch_eq_some {m : OFPMatch} : ruleMatch ac rest vlanId = some m ↔
    ∃ value attrs, rest.ofMatch = some value ∧
      (toOpenflow (withVlan value vlanId)).1 = .ok attrs ∧ toMatch ac attrs = .ok m := by
  simp only [ruleMatch, bodyMatch, Option.bind_eq_some_iff, toOption_eq_some]
  constructor
  · rintro ⟨value, hv, attrs, ha, hm⟩
    exact ⟨value, attrs, hv, ha, hm⟩
  · rintro ⟨value, attrs, hv, ha, hm⟩
    exact ⟨value, hv, attrs, ha, hm⟩

/-- What is known of a rule that is accepted. -/
structure Accepted (ac : AddrConv) (cookie : ℕ) (rest : RuleBody) (vlanId : ℕ) (flow : Flow) :
    Prop where
  cookie : flow.cookie = cookie
  tableId : flow.tableId = qosTableId
  asks : Asks ac rest vlanId flow.priority flow.ofMatch
  bound : flow.priority < 256 ^ 2
  unwritten : ∀ written, .writeActions written ∉ flow.instructions

theorem setRule_eq_ok (h : (setRule ac cookie rest vlanId).1 = .ok flow) :
    Accepted ac cookie rest vlanId flow := by
  unfold setRule at h
  split at h
  · cases h
  · next value hv =>
    dsimp only at h
    split at h
    · cases h
    · next priority hp =>
      split at h
      · cases h
      · split at h
        · cases h
        · next attrs ha =>
          split at h
          · cases h
          · split at h
            · cases h
            · next hmod =>
              cases h
              obtain ⟨hc, ht, ⟨rfl, hb⟩, hm, hw⟩ := modFlowEntry_eq_ok hmod
              exact ⟨hc, ht, ⟨hp, ruleMatch_eq_some.2 ⟨value, attrs, hv, ha, hm⟩⟩, hb, hw⟩

/-- The match of a rule that is accepted has a mask only where a request can give one. -/
theorem maskedByRest_of_setRule (h : (setRule ac cookie rest vlanId).1 = .ok flow) :
    flow.ofMatch.MaskedByRest := by
  obtain ⟨value, attrs, -, -, hm⟩ := ruleMatch_eq_some.1 (setRule_eq_ok h).asks.2
  exact maskedByRest_of_toMatch hm

/-- The match that is deleted is the one that was installed exactly where no field stands for a
missing one, the ports have their protocol and the addresses of an ARP rule are its own. -/
theorem strictDelete_iff (ac : AddrConv) (cookie vlanId : ℕ) (rest : RuleBody) (flow : Flow)
    (h : (setRule ac cookie rest vlanId).1 = .ok flow) :
    toMatch ac (toModOpenflow ac (matchToStr ac flow.ofMatch)) = .ok flow.ofMatch ↔
      Kept flow.ofMatch :=
  toMatch_modMatch_iff (maskedByRest_of_setRule h)

/-- A request with one match field beside the type. -/
def typedBody (dlType : String) (key : RestKey) (v : Value) : RuleBody where
  ofMatch := some ((Dict.empty.set (.legacy .dlType) (.str dlType.toList)).set key v)
  priority := none
  actions := none

theorem strictDelete_mac :
    ∃ flow, (setRule plainConv 1
        (typedBody "IPv4" (.legacy .dlSrc) (.str "00:00:00:00:00:01".toList)) 0).1 = .ok flow ∧
      (toMatch plainConv (toModOpenflow plainConv (matchToStr plainConv flow.ofMatch)) =
        .ok flow.ofMatch ↔ Kept flow.ofMatch) := by
  obtain ⟨flow, h⟩ := isOk_iff.1 (by decide : (setRule plainConv 1
    (typedBody "IPv4" (.legacy .dlSrc) (.str "00:00:00:00:00:01".toList)) 0).1.isOk)
  exact ⟨flow, h, strictDelete_iff plainConv 1 0 _ flow h⟩

/-- A rule for packets of DSCP 0 is deleted as a rule for any DSCP. -/
theorem dscpZero_not_deleted :
    ¬ ∀ flow, (setRule plainConv 1 (typedBody "IPv4" (.oxm .ipDscp) (.int 0)) 0).1 = .ok flow →
      toMatch plainConv (toModOpenflow plainConv (matchToStr plainConv flow.ofMatch)) =
        .ok flow.ofMatch := by
  intro h
  obtain ⟨flow, hflow⟩ := isOk_iff.1
    (by decide : (setRule plainConv 1 (typedBody "IPv4" (.oxm .ipDscp) (.int 0)) 0).1.isOk)
  have hmap : (setRule plainConv 1 (typedBody "IPv4" (.oxm .ipDscp) (.int 0)) 0).1.map
      (fun f => f.ofMatch.field .ipDscp) = .ok (some ⟨0, none⟩) := by decide
  rw [hflow] at hmap
  have hk := (toMatch_modMatch_iff (maskedByRest_of_setRule hflow)).mp (h flow hflow)
  exact hk.nonzero .ipDscp rfl (Except.ok.inj hmap)

end Strict

end Ryu.Qos
