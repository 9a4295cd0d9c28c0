import Ryu.Lib.Carry
import Ryu.Qos.Vlan

/-! # One request for all switches

A request to set a rule on all switches and for all VLANs hands one parsed body from one
rule to the next, and each rule completes the match in it. The rules are those of separate
requests exactly where the VLAN and the type that a rule leaves in the body change nothing
for the rules after it.
-/

namespace Ryu.Qos

variable (ac : AddrConv)

/-- The loop of `_access_switch` for a request to set a rule: the first exception ends it. -/
def setAll : List (ℕ × RuleSwitch) → RuleBody →
    Except PyError (List (List RuleMsg)) × List (ℕ × RuleSwitch)
  | [], _ => (.ok [], [])
  | (dpId, s) :: switches, rest =>
    match setQos ac s rest .all with
    | (.error e, _, s) => (.error e, (dpId, s) :: switches)
    | (.ok msgs, rest, s) =>
      let r := setAll switches rest
      (r.1.map fun all => msgs :: all, (dpId, s) :: r.2)

/-- A rule that a request for all asks of a switch. -/
structure Job where
  dpId : ℕ
  cookie : ℕ
  vlanId : ℕ
  deriving DecidableEq, Repr

def switchJobs (x : ℕ × RuleSwitch) : List Job :=
  (getCookie x.2.qos.vlanList .all).1.map fun c => ⟨x.1, c.1, c.2⟩

/-- The rules in the order in which they are asked for. -/
def jobs (switches : List (ℕ × RuleSwitch)) : List Job := switches.flatMap switchJobs

/-- The rules that a request for all sends. -/
def sent : List Job → RuleBody → List (Job × Flow)
  | [], _ => []
  | j :: js, rest =>
    match setRule ac j.cookie rest j.vlanId with
    | (.error _, _) => []
    | (.ok flow, rest) => (j, flow) :: sent js rest

/-- The rule of a request for one switch and one VLAN, if it is accepted. -/
def separateRule (rest : RuleBody) (x : ℕ × RuleSwitch) (v : ℕ) : Option (Job × Flow) :=
  let cookie := (nextCookie x.2.qos.vlanList v).1
  (setRule ac cookie rest v).1.toOption.map fun flow => (⟨x.1, cookie, v⟩, flow)

/-- The rules of separate requests, each with a fresh body. -/
def separateRules (rest : RuleBody) (switches : List (ℕ × RuleSwitch)) : List (Job × Flow) :=
  switches.flatMap fun x => x.2.qos.vlanList.keys.filterMap (separateRule ac rest x)

/-- The VLANs a request for all goes through. -/
def allVlans (switches : List (ℕ × RuleSwitch)) : List ℕ :=
  switches.flatMap fun x => x.2.qos.vlanList.keys

/-- The priority and the instructions a request asks for. -/
def ruleHead (rest : RuleBody) : Option (ℕ × List Instruction) :=
  (pyInt (rest.priority.getD (.int qosPriorityMin))).toOption.bind fun priority =>
    (ruleActions rest.actions).toOption.bind fun actions =>
      if qosPriorityMax < priority then none
      else (pack 2 (.int priority)).toOption.bind fun p =>
        (toActions actions).toOption.map fun inst => (p, inst)

/-- The request can be translated for a VLAN. -/
def Translates (rest : RuleBody) (v : ℕ) : Prop :=
  (ruleMatch ac rest v).isSome ∧ (ruleHead rest).isSome

/-- The match has a DSCP and the protocol ICMPv6, and no type or address: the type is taken to be
IPv4, which a second check refuses. -/
def DscpOfIcmpv6 (value : Dict RestKey Value) : Prop :=
  value.get? (.legacy .dlType) = none ∧ value.get? (.legacy .nwSrc) = none ∧
    value.get? (.legacy .nwDst) = none ∧ value.get? (.oxm .ipv6Src) = none ∧
    value.get? (.oxm .ipv6Dst) = none ∧ (value.get? (.oxm .ipDscp)).isSome ∧
    Named (value.get? (.legacy .nwProto)) "ICMPv6"

instance (value : Dict RestKey Value) : Decidable (DscpOfIcmpv6 value) :=
  inferInstanceAs (Decidable (_ ∧ _))

/-- A rule leaves nothing in the body that matters for a rule after it. -/
structure Unaltered (rest : RuleBody) (vlans : List ℕ) : Prop where
  refusedLast : vlans.Pairwise fun u v => Translates ac rest v → Translates ac rest u
  checkedOnce : ∀ value ∈ rest.ofMatch, DscpOfIcmpv6 value →
    ∀ v ∈ vlans.tail, ¬ Translates ac rest v
  vlanAlike : ∀ value ∈ rest.ofMatch, ¬ DscpOfIcmpv6 value → ∀ w, w ≠ vlanidNone →
    [w, vlanidNone] <:+: vlans → Translates ac rest w →
    ruleMatch ac rest w = ruleMatch ac rest vlanidNone

section Shared

variable {ac : AddrConv} {rest : RuleBody} {v w u cookie : ℕ} {js : List Job} {j : Job}
  {value d e : Dict RestKey Value} {dlType : String}

@[simp] theorem toOption_ok {α : Type} (a : α) :
    (Except.ok a : Except PyError α).toOption = some a := rfl

@[simp] theorem toOption_error {α : Type} (e : PyError) :
    (Except.error e : Except PyError α).toOption = none := rfl

theorem modFlowEntry_toOption (ac : AddrConv) (cookie : ℕ) (priority : ℤ)
    (attrs : Dict RestKey Value) (actions : List ActionDict) :
    (modFlowEntry ac cookie priority attrs actions).toOption =
      (toMatch ac attrs).toOption.bind fun m =>
        ((pack 2 (.int priority)).toOption.bind fun p =>
          (toActions actions).toOption.map fun inst => (p, inst)).map fun h =>
            ⟨cookie, qosTableId, h.1, m, h.2⟩ := by
  unfold modFlowEntry
  cases toMatch ac attrs with
  | error e => rfl
  | ok m =>
    cases toActions actions with
    | error e => cases pack 2 (.int priority) <;> rfl
    | ok inst => cases pack 2 (.int priority) <;> rfl

/-- A rule is its priority and instructions, which no VLAN changes, and its match. -/
theorem setRule_toOption (ac : AddrConv) (cookie : ℕ) (rest : RuleBody) (v : ℕ) :
    (setRule ac cookie rest v).1.toOption =
      (ruleMatch ac rest v).bind fun m => (ruleHead rest).map fun h =>
        ⟨cookie, qosTableId, h.1, m, h.2⟩ := by
  unfold setRule ruleMatch ruleHead
  cases rest.ofMatch with
  | none => rfl
  | some value =>
    simp only [bodyMatch, Option.bind_some]
    cases pyInt (rest.priority.getD (.int qosPriorityMin)) with
    | error e => simp
    | ok priority =>
      by_cases hmax : (qosPriorityMax : ℤ) < priority
      · cases ruleActions rest.actions <;> simp [hmax]
      · cases (toOpenflow (withVlan value v)).1 with
        | error e => simp [hmax]
        | ok attrs =>
          cases ruleActions rest.actions with
          | error e => simp [hmax]
          | ok actions =>
            simp only [toOption_ok, Option.bind_some, hmax, if_false]
            rw [← modFlowEntry_toOption]
            cases modFlowEntry ac cookie priority attrs actions <;> rfl

/-- The body that an accepted rule leaves. -/
theorem setRule_left {flow : Flow} (hv : rest.ofMatch = some value)
    (h : (setRule ac cookie rest v).1 = .ok flow) :
    (setRule ac cookie rest v).2 =
      { rest with ofMatch := some (toOpenflow (withVlan value v)).2 } := by
  unfold setRule at h ⊢
  simp only [hv] at h ⊢
  split
  · next he =>
    rw [he] at h
    cases h
  · next priority hp =>
    rw [hp] at h
    dsimp only at h
    split
    · next hmax =>
      rw [if_pos hmax] at h
      cases h
    · split
      · rfl
      · split
        · rfl
        · split <;> rfl

theorem withVlan_get? (value : Dict RestKey Value) (v : ℕ) {k : RestKey}
    (hk : k ≠ .legacy .dlVlan) : (withVlan value v).get? k = value.get? k := by
  unfold withVlan
  split
  · rfl
  · exact Dict.get?_set_of_ne (Ne.symm hk)

/-- The check does not read the VLAN. -/
theorem checkMatch_congr (h : ∀ k, k ≠ .legacy .dlVlan → d.get? k = e.get? k) :
    checkMatch d = checkMatch e := by
  have hi : ∀ f, d.get? (.oxm f) = e.get? (.oxm f) := fun f => h _ (by simp)
  unfold checkMatch
  simp only [h (.legacy .dlType) (by decide), h (.legacy .nwProto) (by decide),
    h (.legacy .nwSrc) (by decide), h (.legacy .nwDst) (by decide), hi]

/-- The dictionary the check leaves. -/
def inferred (d : Dict RestKey Value) : Dict RestKey Value := (toOpenflow d).2

theorem inferred_of_some (h : checkMatch d = .ok (some dlType)) :
    inferred d = d.set (.legacy .dlType) (.str dlType.toList) := by
  simp [inferred, toOpenflow, h]

theorem inferred_of_none (h : checkMatch d = .ok none) : inferred d = d := by
  simp [inferred, toOpenflow, h]

theorem toOpenflow_of_isOk (h : (checkMatch d).isOk) :
    toOpenflow d = (convNames (inferred d), inferred d) := by
  obtain ⟨o, ho⟩ := isOk_iff.1 h
  cases o <;> simp [inferred, toOpenflow, ho]

theorem refuse_eq_ok {l : List (Bool × PyError)} :
    refuse l = .ok () ↔ ∀ x ∈ l, x.1 = false := by
  induction l with
  | nil => simp [refuse]
  | cons x l ih =>
    obtain ⟨c, e⟩ := x
    cases c with
    | false => simpa [refuse] using ih
    | true => simp [refuse]

theorem refuse_map_eq_ok {α : Type} {l : List (Bool × PyError)} {a b : α} :
    ((refuse l).map fun _ => a) = .ok b ↔ (∀ x ∈ l, x.1 = false) ∧ a = b := by
  rw [map_eq_ok, ← refuse_eq_ok]
  constructor
  · rintro ⟨u, hu, rfl⟩
    exact ⟨hu, rfl⟩
  · rintro ⟨hu, rfl⟩
    exact ⟨(), hu, rfl⟩

/-- A type is inferred only where none is given. -/
theorem dlType_of_checkMatch (h : checkMatch d = .ok (some dlType)) :
    d.get? (.legacy .dlType) = none := by
  unfold checkMatch at h
  dsimp only at h
  split at h
  · split at h
    · simp [refuse_map_eq_ok] at h
    · split at h
      · simp [refuse_map_eq_ok] at h
      · split at h
        · simp [refuse_map_eq_ok] at h
        · cases h
  · next hn => exact hn

theorem checkMatch_ipv4 (d : Dict RestKey Value) :
    checkMatch (d.set (.legacy .dlType) (.str "IPv4".toList)) = .ok none ↔
      d.get? (.oxm .ipv6Src) = none ∧ d.get? (.oxm .ipv6Dst) = none ∧
        ¬ Named (d.get? (.legacy .nwProto)) "ICMPv6" := by
  simp [checkMatch, Dict.get?_set, refuse_map_eq_ok]

theorem checkMatch_ipv6 (d : Dict RestKey Value) :
    checkMatch (d.set (.legacy .dlType) (.str "IPv6".toList)) = .ok none ↔
      d.get? (.legacy .nwSrc) = none ∧ d.get? (.legacy .nwDst) = none ∧
        ¬ Named (d.get? (.legacy .nwProto)) "ICMP" := by
  simp [checkMatch, Dict.get?_set, refuse_map_eq_ok]

theorem not_named_both {v : Option Value} (h : Named v "ICMP") : ¬ Named v "ICMPv6" := by
  intro h'
  have he := h.symm.trans h'
  simp at he

/-- The check of an inferred type succeeds but in one case. -/
theorem checkMatch_inferred (h : checkMatch d = .ok (some dlType)) :
    checkMatch (inferred d) = .ok none ↔ ¬ DscpOfIcmpv6 d := by
  have hd := dlType_of_checkMatch h
  rw [inferred_of_some h]
  unfold checkMatch at h
  simp only [hd] at h
  unfold DscpOfIcmpv6
  repeat' split at h
  all_goals simp [refuse_map_eq_ok] at h
  · obtain ⟨hc, rfl⟩ := h
    rw [checkMatch_ipv4]
    simp_all [Option.isSome_iff_ne_none]
  · obtain ⟨hc, rfl⟩ := h
    rw [checkMatch_ipv4]
    simp_all [Option.isSome_iff_ne_none]
  · obtain ⟨hc, rfl⟩ := h
    rw [checkMatch_ipv6]
    simp_all [Option.isSome_iff_ne_none]
  · obtain ⟨hc, rfl⟩ := h
    rw [checkMatch_ipv6]
    simp_all [Option.isSome_iff_ne_none]
  · obtain rfl := h
    rw [checkMatch_ipv4]
    simp_all
  · next hicmp =>
    obtain rfl := h
    rw [checkMatch_ipv4]
    have hicmp' := not_named_both (of_decide_eq_true hicmp)
    simp_all
  · obtain rfl := h
    rw [checkMatch_ipv6]
    simp_all

theorem checkMatch_typed {o : Option String} (hd : (d.get? (.legacy .dlType)).isSome)
    (h : checkMatch d = .ok o) : o = none := by
  cases o with
  | none => rfl
  | some dlType =>
    rw [dlType_of_checkMatch h] at hd
    cases hd

theorem dlType_of_checkMatch_none (h : checkMatch d = .ok none) :
    (d.get? (.legacy .dlType)).isSome := by
  by_contra hn
  rw [Option.not_isSome_iff_eq_none] at hn
  unfold checkMatch at h
  simp only [hn] at h
  repeat' split at h
  all_goals simp [refuse_map_eq_ok] at h

/-- The entries are the same, but for the order of the type and the VLAN. -/
def Alike (d e : Dict RestKey Value) : Prop :=
  Dict.AlikeBut (.legacy .dlType) (.legacy .dlVlan) d e

theorem Alike.get? (h : Alike d e) (k : RestKey) : d.get? k = e.get? k :=
  Dict.AlikeBut.get? h (by decide) k

theorem alike_withVlan (h : Alike d e) (v : ℕ) : Alike (withVlan d v) (withVlan e v) := by
  unfold withVlan
  split
  · exact h
  · exact Dict.AlikeBut.set h _ _

theorem convNames_isOk_iff : (convNames d).isOk ↔
    ∀ k v, d.get? k = some v → (convName k v).isOk := by
  have hiff : (convNames d).isOk ↔
      d.entries.findSome? (fun e => errorOf (convName e.1 e.2)) = none := by
    unfold convNames
    split
    · next e he => simp [he]
    · next he => simp [he]
  rw [hiff]
  simp only [List.findSome?_eq_none_iff, errorOf_eq_none, Prod.forall, Dict.mem_entries_iff]

theorem convNames_of_isOk (h : (convNames d).isOk) :
    convNames d = .ok (d.mapValues fun k v => (convName k v).toOption.getD v) := by
  unfold convNames at h ⊢
  split
  · next e he =>
    rw [he] at h
    cases h
  · rfl

/-- What `to_match` makes of the converted names. -/
def namedMatch (ac : AddrConv) (d : Dict RestKey Value) : Option OFPMatch :=
  (convNames d).toOption.bind fun attrs => (toMatch ac attrs).toOption

theorem namedMatch_alike (h : Alike d e) : namedMatch ac d = namedMatch ac e := by
  have hiff : (convNames d).isOk ↔ (convNames e).isOk := by
    simp only [convNames_isOk_iff, h.get?]
  unfold namedMatch
  by_cases hd : (convNames d).isOk
  · rw [convNames_of_isOk hd, convNames_of_isOk (hiff.mp hd)]
    refine toMatch_alikeBut ac (Dict.AlikeBut.mapValues h _) (by decide) ?_
    intro proto f hf hf'
    simp only [RestKey.target, Option.some.injEq] at hf hf'
    rw [← hf] at hf'
    cases hf'
  · have he := mt hiff.mpr hd
    have hnone : ∀ x : Except PyError (Dict RestKey Value), ¬ x.isOk → x.toOption = none := by
      intro x hx
      cases x with
      | error e => rfl
      | ok a => exact absurd rfl hx
    rw [hnone _ hd, hnone _ he]

theorem checkMatch_withVlan (d : Dict RestKey Value) (v : ℕ) :
    checkMatch (withVlan d v) = checkMatch d :=
  checkMatch_congr fun _ hk => withVlan_get? d v hk

theorem dscpOfIcmpv6_withVlan (d : Dict RestKey Value) (v : ℕ) :
    DscpOfIcmpv6 (withVlan d v) ↔ DscpOfIcmpv6 d := by
  have hk : ∀ k, k ≠ .legacy .dlVlan → (withVlan d v).get? k = d.get? k := fun k hk =>
    withVlan_get? d v hk
  have hi : ∀ f, (withVlan d v).get? (.oxm f) = d.get? (.oxm f) := fun f => hk _ (by simp)
  unfold DscpOfIcmpv6
  rw [hk (.legacy .dlType) (by decide), hk (.legacy .nwSrc) (by decide),
    hk (.legacy .nwDst) (by decide), hk (.legacy .nwProto) (by decide), hi, hi, hi]

theorem withVlan_withVlan (hu : u ≠ vlanidNone) (w : ℕ) :
    (withVlan value w).set (.legacy .dlVlan) (.int u) = withVlan value u := by
  rw [withVlan, withVlan, if_neg hu]
  split
  · rfl
  · exact Dict.set_set _ _ _ _

/-- A body that a rule left, completed for another VLAN, is what a fresh body becomes. -/
theorem withVlan_inferred (hB : (checkMatch value).isOk) (w u : ℕ) :
    Alike (withVlan (inferred (withVlan value w)) u)
      (inferred (withVlan value (if u = vlanidNone then w else u))) := by
  by_cases hu : u = vlanidNone
  · rw [if_pos hu, withVlan, if_pos hu]
    exact Dict.AlikeBut.refl _ _ _
  · rw [if_neg hu, withVlan, if_neg hu]
    obtain ⟨o, ho⟩ := isOk_iff.1 hB
    cases o with
    | none =>
      rw [inferred_of_none ((checkMatch_withVlan _ _).trans ho),
        inferred_of_none ((checkMatch_withVlan _ _).trans ho), withVlan_withVlan hu]
      exact Dict.AlikeBut.refl _ _ _
    | some dlType =>
      rw [inferred_of_some ((checkMatch_withVlan _ _).trans ho),
        inferred_of_some ((checkMatch_withVlan _ _).trans ho), ← withVlan_withVlan hu w]
      exact Dict.alikeBut_set_set _ _ _ _ _

/-- The second check. -/
theorem checkMatch_inferred_withVlan (hB : (checkMatch value).isOk) (w : ℕ) :
    (checkMatch (inferred (withVlan value w))).isOk ↔ ¬ DscpOfIcmpv6 value := by
  obtain ⟨o, ho⟩ := isOk_iff.1 hB
  have hw := (checkMatch_withVlan value w).trans ho
  cases o with
  | none =>
    rw [inferred_of_none hw, hw]
    refine iff_of_true rfl fun hd => ?_
    have ht := dlType_of_checkMatch_none ho
    rw [hd.1] at ht
    cases ht
  | some dlType =>
    rw [← dscpOfIcmpv6_withVlan value w, ← checkMatch_inferred hw, isOk_iff]
    constructor
    · rintro ⟨o, hok⟩
      have ht : ((inferred (withVlan value w)).get? (.legacy .dlType)).isSome := by
        rw [inferred_of_some hw, Dict.get?_set_self]
        rfl
      rw [hok, checkMatch_typed ht hok]
    · intro hok
      exact ⟨none, hok⟩

theorem bodyMatch_of_isOk (h : (checkMatch d).isOk) :
    bodyMatch ac d = namedMatch ac (inferred d) := by
  rw [bodyMatch, toOpenflow_of_isOk h]
  rfl

theorem checkMatch_of_bodyMatch (h : (bodyMatch ac d).isSome) : (checkMatch d).isOk := by
  unfold bodyMatch toOpenflow at h
  cases hc : checkMatch d with
  | error e => simp [hc] at h
  | ok o => rfl

/-- A body that is typed stays as it is. -/
theorem toOpenflow_snd_of_typed (h : (d.get? (.legacy .dlType)).isSome) : (toOpenflow d).2 = d := by
  unfold toOpenflow
  cases hc : checkMatch d with
  | error e => rfl
  | ok o =>
    obtain rfl := checkMatch_typed h hc
    rfl

theorem typed_inferred (h : (checkMatch d).isOk) :
    ((inferred d).get? (.legacy .dlType)).isSome := by
  obtain ⟨o, ho⟩ := isOk_iff.1 h
  cases o with
  | none =>
    rw [inferred_of_none ho]
    exact dlType_of_checkMatch_none ho
  | some dlType =>
    rw [inferred_of_some ho, Dict.get?_set_self]
    rfl

/-- What the next rule makes of a body that a rule for the VLAN `w` left. -/
theorem bodyMatch_left (ac : AddrConv) (hB : (checkMatch value).isOk)
    (hd : Alike d (inferred (withVlan value w))) (u : ℕ) :
    bodyMatch ac (withVlan d u) =
        (if DscpOfIcmpv6 value then none
        else bodyMatch ac (withVlan value (if u = vlanidNone then w else u))) ∧
      Alike (toOpenflow (withVlan d u)).2
        (inferred (withVlan value (if u = vlanidNone then w else u))) := by
  have ha := (alike_withVlan hd u).trans (withVlan_inferred hB w u)
  generalize (if u = vlanidNone then w else u) = x at ha ⊢
  have hx : (checkMatch (withVlan value x)).isOk := by rwa [checkMatch_withVlan]
  have hcheck : checkMatch (withVlan d u) = checkMatch (inferred (withVlan value x)) :=
    checkMatch_congr fun k _ => Alike.get? ha k
  have htyped : ((withVlan d u).get? (.legacy .dlType)).isSome := by
    rw [Alike.get? ha]
    exact typed_inferred hx
  rw [toOpenflow_snd_of_typed htyped]
  refine ⟨?_, ha⟩
  split
  · next hdi =>
    by_contra hne
    have hok := checkMatch_of_bodyMatch (Option.isSome_iff_ne_none.mpr hne)
    rw [hcheck] at hok
    exact (checkMatch_inferred_withVlan hB x).mp hok hdi
  · next hdi =>
    have hok : (checkMatch (withVlan d u)).isOk := by
      rw [hcheck]
      exact (checkMatch_inferred_withVlan hB x).mpr hdi
    rw [bodyMatch_of_isOk hok, bodyMatch_of_isOk hx, inferred, toOpenflow_snd_of_typed htyped]
    exact namedMatch_alike ha

/-- The answer to a request for a VLAN: the match, the priority and the instructions. -/
def answer (ac : AddrConv) (rest : RuleBody) (v : ℕ) : Option (OFPMatch × ℕ × List Instruction) :=
  (ruleMatch ac rest v).bind fun m => (ruleHead rest).map fun h => (m, h)

/-- The flow of an answer. -/
def jobFlow (x : Job × OFPMatch × ℕ × List Instruction) : Job × Flow :=
  (x.1, ⟨x.1.cookie, qosTableId, x.2.2.1, x.2.1, x.2.2.2⟩)

theorem jobFlow_injective : Function.Injective jobFlow := by
  rintro ⟨j, m, p, inst⟩ ⟨j', m', p', inst'⟩ h
  simp only [jobFlow, Prod.mk.injEq, Flow.mk.injEq] at h
  obtain ⟨rfl, -, -, rfl, rfl, rfl⟩ := h
  rfl

theorem answer_isSome : (answer ac rest v).isSome ↔ Translates ac rest v := by
  unfold answer Translates
  cases ruleMatch ac rest v <;> cases ruleHead rest <;> simp

theorem answer_eq_iff (h : Translates ac rest w) :
    answer ac rest w = answer ac rest v ↔ ruleMatch ac rest w = ruleMatch ac rest v := by
  obtain ⟨hm, hh⟩ := h
  obtain ⟨m, hm⟩ := Option.isSome_iff_exists.mp hm
  obtain ⟨x, hh⟩ := Option.isSome_iff_exists.mp hh
  unfold answer
  rw [hm, hh]
  cases ruleMatch ac rest v <;> simp

theorem setRule_answer (ac : AddrConv) (rest : RuleBody) (j : Job) :
    (setRule ac j.cookie rest j.vlanId).1.toOption.map (fun flow => (j, flow)) =
      (answer ac rest j.vlanId).map fun x => jobFlow (j, x) := by
  rw [setRule_toOption, answer]
  cases ruleMatch ac rest j.vlanId <;> cases ruleHead rest <;> rfl

theorem sent_cons_none (h : answer ac rest j.vlanId = none) : sent ac (j :: js) rest = [] := by
  have ha := setRule_answer ac rest j
  rw [h] at ha
  cases hr : setRule ac j.cookie rest j.vlanId with
  | mk r left =>
    cases r with
    | error e => simp only [sent, hr]
    | ok flow =>
      rw [hr] at ha
      cases ha

theorem sent_cons_some {x : OFPMatch × ℕ × List Instruction} (hv : rest.ofMatch = some value)
    (h : answer ac rest j.vlanId = some x) :
    sent ac (j :: js) rest = jobFlow (j, x) ::
      sent ac js { rest with ofMatch := some (toOpenflow (withVlan value j.vlanId)).2 } := by
  have ha := setRule_answer ac rest j
  rw [h] at ha
  cases hr : setRule ac j.cookie rest j.vlanId with
  | mk r left =>
    cases r with
    | error e =>
      rw [hr] at ha
      cases ha
    | ok flow =>
      rw [hr] at ha
      have hl := setRule_left hv (congrArg Prod.fst hr)
      rw [hr] at hl
      obtain rfl : left = _ := hl
      simp only [sent, hr]
      exact congrArg (· :: _) (Option.some.inj ha)

/-- With a body that a rule left, the VLAN it left stands for no VLAN. -/
theorem sent_left (hv : rest.ofMatch = some value) (hB : (checkMatch value).isOk)
    (hdi : ¬ DscpOfIcmpv6 value) (hd : Alike d (inferred (withVlan value w))) :
    sent ac js { rest with ofMatch := some d } =
      (carrying Job.vlanId (answer ac rest) vlanidNone w js).map jobFlow := by
  induction js generalizing w d with
  | nil => rfl
  | cons j js ih =>
    obtain ⟨hm, hleft⟩ := bodyMatch_left ac hB hd j.vlanId
    rw [if_neg hdi] at hm
    have ha : answer ac { rest with ofMatch := some d } j.vlanId =
        answer ac rest (if j.vlanId = vlanidNone then w else j.vlanId) := by
      unfold answer ruleMatch
      rw [hv]
      exact congrArg (fun m => Option.bind m fun m => (ruleHead rest).map fun h => (m, h)) hm
    rw [carrying]
    cases hx : answer ac rest (if j.vlanId = vlanidNone then w else j.vlanId) with
    | none => rw [sent_cons_none (ha.trans hx), List.map_nil]
    | some x =>
      rw [sent_cons_some rfl (ha.trans hx), List.map_cons]
      exact congrArg (_ :: ·) (ih hleft)

/-- The second check refuses every rule after the first. -/
theorem sent_left_refused (hB : (checkMatch value).isOk) (hdi : DscpOfIcmpv6 value)
    (hd : Alike d (inferred (withVlan value w))) :
    sent ac js { rest with ofMatch := some d } = [] := by
  cases js with
  | nil => rfl
  | cons j js =>
    obtain ⟨hm, -⟩ := bodyMatch_left ac hB hd j.vlanId
    rw [if_pos hdi] at hm
    refine sent_cons_none ?_
    unfold answer ruleMatch
    rw [Option.bind_some, hm]
    rfl

theorem translates_value (h : Translates ac rest v) :
    ∃ value, rest.ofMatch = some value ∧ (checkMatch value).isOk := by
  obtain ⟨m, hm⟩ := Option.isSome_iff_exists.mp h.1
  obtain ⟨value, hv, hb⟩ := Option.bind_eq_some_iff.mp hm
  have hc := checkMatch_of_bodyMatch (by rw [hb]; rfl : (bodyMatch ac (withVlan value v)).isSome)
  rw [checkMatch_withVlan] at hc
  exact ⟨value, hv, hc⟩

/-- The answer to the first request does not depend on the others. -/
theorem sent_eq_separately_iff (ac : AddrConv) (rest : RuleBody) (js : List Job) :
    sent ac js rest = (separately Job.vlanId (answer ac rest) js).map jobFlow ↔
      Unaltered ac rest (js.map Job.vlanId) := by
  cases js with
  | nil =>
    refine iff_of_true rfl ⟨List.Pairwise.nil, by simp, fun _ _ _ w _ hi => ?_⟩
    have hlen := hi.length_le
    simp at hlen
  | cons j js =>
    have hpair : RefusedLast Job.vlanId (answer ac rest) (j :: js) ↔
        ((j :: js).map Job.vlanId).Pairwise fun u v =>
          Translates ac rest v → Translates ac rest u := by
      simp only [RefusedLast, List.pairwise_map, answer_isSome]
    by_cases ht : Translates ac rest j.vlanId
    · obtain ⟨value, hv, hB⟩ := translates_value ht
      obtain ⟨x, hx⟩ := Option.isSome_iff_exists.mp (answer_isSome.2 ht)
      have hleft : Alike (toOpenflow (withVlan value j.vlanId)).2
          (inferred (withVlan value j.vlanId)) := Dict.AlikeBut.refl _ _ _
      rw [sent_cons_some hv hx, separately_cons_some hx, List.map_cons, List.cons.injEq,
        eq_self_iff_true, true_and]
      by_cases hdi : DscpOfIcmpv6 value
      · rw [sent_left_refused hB hdi hleft, eq_comm, List.map_eq_nil_iff, separately_eq_nil_iff]
        have hnone : (∀ a ∈ js, answer ac rest a.vlanId = none) ↔
            ∀ v ∈ js.map Job.vlanId, ¬ Translates ac rest v := by
          simp [← answer_isSome]
        rw [hnone]
        constructor
        · intro hn
          refine ⟨?_, fun _ _ _ => hn, fun value' hv' hdi' => ?_⟩
          · rw [← hpair, refusedLast_cons_some (answer_isSome.2 ht)]
            refine List.pairwise_of_forall_mem_list fun a _ b hb hs => ?_
            exact absurd (answer_isSome.1 hs) (hn _ (List.mem_map_of_mem hb))
          · cases hv.symm.trans hv'
            exact absurd hdi hdi'
        · intro hu
          exact hu.checkedOnce value hv hdi
      · rw [sent_left hv hB hdi hleft, List.map_inj_right jobFlow_injective,
          carrying_eq_separately_iff (answer_isSome.2 ht)]
        have halike : CarriesAlike (answer ac rest) vlanidNone (j.vlanId :: js.map Job.vlanId) ↔
            ∀ w, w ≠ vlanidNone → [w, vlanidNone] <:+: (j :: js).map Job.vlanId →
              Translates ac rest w → ruleMatch ac rest w = ruleMatch ac rest vlanidNone := by
          unfold CarriesAlike
          constructor
          · intro h w hw hi hs
            exact (answer_eq_iff hs).mp (h w hw hi (answer_isSome.2 hs))
          · intro h w hw hi hs
            exact (answer_eq_iff (answer_isSome.1 hs)).mpr (h w hw hi (answer_isSome.1 hs))
        rw [← refusedLast_cons_some (answer_isSome.2 ht), hpair, halike]
        constructor
        · rintro ⟨hp, ha⟩
          refine ⟨hp, fun value' hv' hdi' => ?_, fun _ _ _ => ha⟩
          cases hv.symm.trans hv'
          exact absurd hdi' hdi
        · intro hu
          exact ⟨hu.refusedLast, hu.vlanAlike value hv hdi⟩
    · have hx : answer ac rest j.vlanId = none := by
        rwa [← Option.not_isSome_iff_eq_none, answer_isSome]
      rw [sent_cons_none hx, eq_comm, List.map_eq_nil_iff, separately_cons_none hx,
        separately_eq_nil_iff, ← refusedLast_cons_none hx, hpair]
      constructor
      · intro hp
        have hall : ∀ v ∈ (j :: js).map Job.vlanId, ¬ Translates ac rest v := by
          intro v hv hs
          rcases List.mem_cons.mp hv with rfl | hv
          · exact ht hs
          · exact ht (List.rel_of_pairwise_cons hp hv hs)
        refine ⟨hp, fun _ _ _ v hv => hall v (List.mem_of_mem_tail hv), fun _ _ _ w _ hi hs => ?_⟩
        exact absurd hs (hall w (hi.subset List.mem_cons_self))
      · intro hu
        exact hu.refusedLast

/-- The cookies of a request for all are those of requests for one VLAN. -/
theorem nextCookies_fst {ids : List ℕ} (hnd : ids.Nodup) (vl : Dict ℕ ℕ) :
    (nextCookies ids vl).1 = ids.map fun v => ((nextCookie vl v).1, v) := by
  induction ids generalizing vl with
  | nil => rfl
  | cons w ids ih =>
    obtain ⟨hw, hnd⟩ := List.nodup_cons.mp hnd
    simp only [nextCookies, List.map_cons, ih hnd]
    refine congrArg (_ :: ·) (List.map_congr_left fun v hv => ?_)
    have hne : w ≠ v := by
      rintro rfl
      exact hw hv
    have hc : ∀ n, (nextCookie (vl.set w n) v).1 = (nextCookie vl v).1 := by
      intro n
      simp only [nextCookie, Dict.get?_set_of_ne hne]
    rw [Prod.mk.injEq]
    exact ⟨hc _, rfl⟩

theorem switchJobs_eq (x : ℕ × RuleSwitch) : switchJobs x =
    x.2.qos.vlanList.keys.map fun v => ⟨x.1, (nextCookie x.2.qos.vlanList v).1, v⟩ := by
  rw [switchJobs, getCookie, nextCookies_fst x.2.qos.vlanList.nodup_keys', List.map_map]
  rfl

theorem map_vlanId_jobs (switches : List (ℕ × RuleSwitch)) :
    (jobs switches).map Job.vlanId = allVlans switches := by
  simp only [jobs, allVlans, List.map_flatMap, switchJobs_eq, List.map_map]
  refine List.flatMap_congr fun x _ => ?_
  exact (List.map_congr_left fun v _ => rfl).trans (List.map_id _)

theorem separateRules_eq (ac : AddrConv) (rest : RuleBody) (switches : List (ℕ × RuleSwitch)) :
    separateRules ac rest switches =
      (separately Job.vlanId (answer ac rest) (jobs switches)).map jobFlow := by
  simp only [separateRules, separately, jobs, List.filterMap_flatMap, List.map_flatMap,
    switchJobs_eq, List.filterMap_map, List.map_filterMap]
  refine List.flatMap_congr fun x _ => List.filterMap_congr fun v _ => ?_
  have ha := setRule_answer ac rest ⟨x.1, (nextCookie x.2.qos.vlanList v).1, v⟩
  refine ha.trans ?_
  simp [Function.comp_def]

theorem mem_sent {x : Job × Flow} (h : x ∈ sent ac js rest) : x.1 ∈ js := by
  induction js generalizing rest with
  | nil => cases h
  | cons j js ih =>
    simp only [sent] at h
    split at h
    · cases h
    · rcases List.mem_cons.mp h with rfl | h
      · exact List.mem_cons_self
      · exact List.mem_cons_of_mem _ (ih h)

/-- The rules of one switch, and then those of the switches after it. -/
theorem sent_setRules (ac : AddrConv) (rest : RuleBody) (dpId : ℕ) (cookies : List (ℕ × ℕ))
    (ks : List Job) (table : List Flow) :
    sent ac (cookies.map (fun c => ⟨dpId, c.1, c.2⟩) ++ ks) rest =
        sent ac (cookies.map fun c => ⟨dpId, c.1, c.2⟩) rest ++
          (if (setRules ac cookies rest table).1.isOk then
            sent ac ks (setRules ac cookies rest table).2.1 else []) ∧
      (setRules ac cookies rest table).2.2 =
        ((sent ac (cookies.map fun c => ⟨dpId, c.1, c.2⟩) rest).map Prod.snd).foldl addFlow
          table := by
  induction cookies generalizing rest table with
  | nil => exact ⟨rfl, rfl⟩
  | cons c cookies ih =>
    obtain ⟨cookie, vlanId⟩ := c
    cases hr : setRule ac cookie rest vlanId with
    | mk r left =>
      cases r with
      | error e =>
        simp only [List.map_cons, List.cons_append, sent, setRules, hr]
        exact ⟨rfl, rfl⟩
      | ok flow =>
        obtain ⟨hs, ht⟩ := ih left (addFlow table flow)
        simp only [List.map_cons, List.cons_append, sent, setRules, hr, isOk_map, List.foldl_cons]
        exact ⟨congrArg (_ :: ·) hs, ht⟩

/-- The rules that are sent are those that reach the tables. -/
theorem setAll_tables {switches : List (ℕ × RuleSwitch)} (hnd : (switches.map Prod.fst).Nodup) :
    (setAll ac switches rest).2.map (fun x => (x.1, x.2.table)) =
      switches.map fun x => (x.1, (((sent ac (jobs switches) rest).filter fun y =>
        y.1.dpId = x.1).map Prod.snd).foldl addFlow x.2.table) := by
  induction switches generalizing rest with
  | nil => rfl
  | cons x switches ih =>
    obtain ⟨dpId, s⟩ := x
    obtain ⟨hd, hnd⟩ := List.nodup_cons.mp hnd
    obtain ⟨hsent, htable⟩ := sent_setRules ac rest dpId
      (getCookie s.qos.vlanList .all).1 (jobs switches) s.table
    have hown : ∀ y ∈ sent ac (switchJobs (dpId, s)) rest, y.1.dpId = dpId := by
      intro y hy
      obtain ⟨c, -, hc⟩ := List.mem_map.mp (mem_sent hy)
      rw [← hc]
    have hother : ∀ rest', ∀ y ∈ sent ac (jobs switches) rest', y.1.dpId ≠ dpId := by
      intro rest' y hy he
      obtain ⟨x, hx, hj⟩ := List.mem_flatMap.mp (mem_sent hy)
      obtain ⟨c, -, hc⟩ := List.mem_map.mp hj
      refine hd (List.mem_map.mpr ⟨x, hx, ?_⟩)
      rw [← he, ← hc]
    have hmem : ∀ x ∈ switches, x.1 ≠ dpId := fun x hx he => hd (List.mem_map.mpr ⟨x, hx, he⟩)
    have hjobs : jobs ((dpId, s) :: switches) = switchJobs (dpId, s) ++ jobs switches :=
      List.flatMap_cons
    have hself : (sent ac (switchJobs (dpId, s)) rest).filter (fun y => y.1.dpId = dpId) =
        sent ac (switchJobs (dpId, s)) rest :=
      List.filter_eq_self.mpr fun y hy => by simpa using hown y hy
    have hrest : ∀ rest', (sent ac (jobs switches) rest').filter (fun y => y.1.dpId = dpId) = [] :=
      fun rest' => List.filter_eq_nil_iff.mpr fun y hy => by simpa using hother rest' y hy
    have hnone : ∀ x ∈ switches,
        (sent ac (switchJobs (dpId, s)) rest).filter (fun y => y.1.dpId = x.1) = [] :=
      fun x hx => List.filter_eq_nil_iff.mpr fun y hy => by
        simpa [hown y hy] using (hmem x hx).symm
    change sent ac (switchJobs (dpId, s) ++ jobs switches) rest =
      sent ac (switchJobs (dpId, s)) rest ++ _ at hsent
    change _ = ((sent ac (switchJobs (dpId, s)) rest).map Prod.snd).foldl addFlow s.table at htable
    rw [hjobs, hsent]
    cases hr : setRules ac (getCookie s.qos.vlanList .all).1 rest s.table with
    | mk r left =>
      obtain ⟨rest', table'⟩ := left
      rw [hr] at htable
      obtain rfl : table' = _ := htable
      cases r with
      | error e =>
        simp only [setAll, setQos, hr, isOk_error, Bool.false_eq_true, if_false, List.append_nil,
          List.map_cons, hself]
        refine congrArg (_ :: ·) (List.map_congr_left fun x hx => ?_)
        rw [hnone x hx]
        rfl
      | ok msgs =>
        simp only [setAll, setQos, hr, isOk_ok, if_true, List.map_cons, List.filter_append, hself,
          hrest, List.append_nil, ih hnd]
        refine congrArg (_ :: ·) (List.map_congr_left fun x hx => ?_)
        rw [hnone x hx, List.nil_append]

end Shared

/-- A request for all switches and all VLANs sends the rules of separate requests exactly if no
rule leaves anything in the body that matters for a rule after it. -/
theorem sharedRules_separate_iff (ac : AddrConv) (switches : Dict ℕ RuleSwitch)
    (rest : RuleBody) :
    sent ac (jobs switches.entries) rest = separateRules ac rest switches.entries ↔
      Unaltered ac rest (allVlans switches.entries) := by
  rw [separateRules_eq, sent_eq_separately_iff, map_vlanId_jobs]

/-- A switch with a rule for VLAN 5, and one without VLANs. -/
def twoSwitches : Dict ℕ RuleSwitch :=
  (Dict.empty.set 1 ⟨{ QoS.init 1 with vlanList := (QoS.init 1).vlanList.set 5 1 }, []⟩).set 2
    ⟨QoS.init 2, []⟩

/-- The second switch gets a rule for VLAN 5, where it was asked for one without a VLAN. -/
theorem vlan_leaks :
    ¬ sent plainConv (jobs twoSwitches.entries)
        (typedBody "IPv4" (.legacy .dlSrc) (.str "00:00:00:00:00:01".toList)) =
      separateRules plainConv
        (typedBody "IPv4" (.legacy .dlSrc) (.str "00:00:00:00:00:01".toList))
        twoSwitches.entries := by
  rw [separateRules_eq, sent_eq_separately_iff, map_vlanId_jobs]
  intro h
  have hm := h.vlanAlike _ rfl (by decide) 5 (by decide) (by decide)
    ⟨by decide, by decide⟩
  have hf := congrArg (Option.map fun m => m.field .vlanVid) hm
  exact absurd hf (by decide)

end Ryu.Qos
