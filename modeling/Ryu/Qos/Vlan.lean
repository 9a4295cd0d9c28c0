import Ryu.Lib.Run
import Ryu.Qos.Listing

/-! # The rules of a switch over time

The requests that set and delete rules leave flows in the first table and a counter for
each VLAN. A deletion meets an exception as soon as a VLAN has a counter. Until then the
counters are never removed, and the cookies of the flows are pairwise distinct.
-/

namespace Ryu.Qos

/-- A request to set or to delete rules of one switch. -/
inductive RuleEvent
  | setQos (vlanId : VlanId) (rest : RuleBody)
  | deleteQos (vlanId : VlanId) (qosId : Option Value)
  deriving DecidableEq, Repr

variable (ac : AddrConv)

/-- `set_default_flow`, on tables that are empty. -/
def setDefaultFlow : Except PyError (List Flow) :=
  (modFlowEntry ac 0 defaultFlowPriority Dict.empty [.gotoTable (qosTableId + 1)]).map
    (addFlow [])

/-- The switch once it joined. -/
def RuleSwitch.join (dpId : ℕ) : RuleSwitch :=
  ⟨QoS.init dpId, (setDefaultFlow ac).toOption.getD []⟩

/-- `_access_switch` for one switch. -/
def request (s : RuleSwitch) : RuleEvent → Except PyError Unit × RuleSwitch
  | .setQos vlanId rest =>
    match convTointVlanid vlanId with
    | .error e => (.error e, s)
    | .ok vid => ((setQos ac s rest vid).1.map fun _ => (), (setQos ac s rest vid).2.2)
  | .deleteQos vlanId qosId =>
    match convTointVlanid vlanId with
    | .error e => (.error e, s)
    | .ok vid => ((deleteQos ac s qosId vid).1.map fun _ => (), (deleteQos ac s qosId vid).2)

def ruleStep (s : RuleSwitch) (ev : RuleEvent) : RuleSwitch := (request ac s ev).2

/-- A `ValueError` becomes a response, any other exception leaves the handler. -/
def Completes {α : Type} (r : Except PyError α) : Prop :=
  ∀ e, errorOf r = some e → ∃ message, e = .valueError message

/-- The counters that are left are those of no VLAN and of the VLANs with a rule. -/
def Pruned (s s' : RuleSwitch) : Prop :=
  ∀ v, s'.qos.vlanList.get? v =
    if v = vlanidNone ∨ ∃ f ∈ s'.table, f.cookie >>> cookieShiftVlanid = v then
      s.qos.vlanList.get? v
    else none

/-- The request completes, and a deletion that gets to the counters prunes them. -/
structure Served (s : RuleSwitch) (ev : RuleEvent) : Prop where
  completes : Completes (request ac s ev).1
  pruned : ∀ vlanId qosId, ev = .deleteQos vlanId qosId → (convTointVlanid vlanId).isOk →
    (toQosId qosId).isOk → Pruned s (ruleStep ac s ev)

/-- The cookies of the flows are pairwise distinct. -/
def Distinct (s : RuleSwitch) : Prop := (s.table.map Flow.cookie).Nodup

def counter (vlanList : Dict ℕ ℕ) (v : ℕ) : ℕ := (vlanList.get? v).getD 0

/-- The VLANs whose counters a request increments. -/
def counted (vlanList : Dict ℕ ℕ) : VlanId → List ℕ
  | .all => vlanList.keys
  | .id v => [v]

/-- Rules are set with a match and while the counters do not wrap; rules are deleted while no
VLAN has a counter, and those that are selected have a match that converts back. -/
def Orderly (s : RuleSwitch) : RuleEvent → Prop
  | .setQos vlanId rest => ∀ vid, convTointVlanid vlanId = .ok vid →
    rest.ofMatch.isSome ∧ ∀ v ∈ counted s.qos.vlanList vid, counter s.qos.vlanList v + 1 < 2 ^ 32
  | .deleteQos vlanId qosId => ∀ vid qid, convTointVlanid vlanId = .ok vid →
    toQosId qosId = .ok qid →
      (∀ v, (s.qos.vlanList.get? v).isSome → v = vlanidNone) ∧
      ∀ f ∈ s.table, Selects qid vid (f.stat ac) →
        (toMatch ac (toModOpenflow ac (f.stat ac).ofMatch)).isOk

section Runs

variable {ac : AddrConv} {s : RuleSwitch} {rest : RuleBody} {vl : Dict ℕ ℕ} {ids : List ℕ}
  {cookies : List (ℕ × ℕ)} {table : List Flow} {flow : Flow} {v : ℕ}

theorem nextCookie_eq (h : counter vl v + 1 < 2 ^ 32) :
    nextCookie vl v = ((v <<< cookieShiftVlanid) + (counter vl v + 1),
      vl.set v (counter vl v + 1)) := by
  have hm : (counter vl v + 1) &&& uint32Max = counter vl v + 1 := by
    have h2 : uint32Max = 2 ^ 32 - 1 := rfl
    rw [h2, Nat.and_two_pow_sub_one_eq_mod, Nat.mod_eq_of_lt h]
  unfold counter at hm
  simp only [nextCookie, counter, hm]

theorem counter_set (v v' n : ℕ) :
    counter (vl.set v n) v' = if v = v' then n else counter vl v' := by
  unfold counter
  rw [Dict.get?_set]
  split <;> rfl

/-- The cookies of distinct VLANs count on from their counters. -/
theorem nextCookies_eq (hnd : ids.Nodup) (hs : ∀ v ∈ ids, counter vl v + 1 < 2 ^ 32) :
    (nextCookies ids vl).1 =
        ids.map (fun v => ((v <<< cookieShiftVlanid) + (counter vl v + 1), v)) ∧
      ∀ v, (nextCookies ids vl).2.get? v =
        if v ∈ ids then some (counter vl v + 1) else vl.get? v := by
  induction ids generalizing vl with
  | nil => simp [nextCookies]
  | cons w ids ih =>
    obtain ⟨hw, hnd⟩ := List.nodup_cons.mp hnd
    have hne : ∀ v ∈ ids, counter (vl.set w (counter vl w + 1)) v = counter vl v := by
      intro v hv
      rw [counter_set, if_neg]
      rintro rfl
      exact hw hv
    have hrec := @ih (vl.set w (counter vl w + 1)) hnd fun v hv => by
      rw [hne v hv]
      exact hs v (List.mem_cons_of_mem _ hv)
    simp only [nextCookies, nextCookie_eq (hs w List.mem_cons_self)]
    constructor
    · rw [hrec.1, List.map_cons]
      congr 1
      exact List.map_congr_left fun v hv => by rw [hne v hv]
    · intro v
      rw [hrec.2 v]
      by_cases hv : v ∈ ids
      · simp [hv, hne v hv]
      · by_cases hwv : w = v
        · simp [hwv, hwv ▸ hw]
        · simp [hv, Dict.get?_set_of_ne hwv, Ne.symm hwv]

/-- Rules that are set under cookies that are new keep the cookies distinct. -/
theorem setRules_spec (ac : AddrConv) (rest : RuleBody) (hnd : (cookies.map Prod.fst).Nodup) (ht : (table.map Flow.cookie).Nodup)
    (hnew : ∀ f ∈ table, f.cookie ∉ cookies.map Prod.fst) :
    ((setRules ac cookies rest table).2.2.map Flow.cookie).Nodup ∧
      ∀ f ∈ (setRules ac cookies rest table).2.2,
        f ∈ table ∨ f.cookie ∈ cookies.map Prod.fst ∧ f.priority < 256 ^ 2 := by
  induction cookies generalizing rest table with
  | nil => exact ⟨ht, fun f hf => Or.inl hf⟩
  | cons c cookies ih =>
    obtain ⟨cookie, vlanId⟩ := c
    simp only [List.map_cons, List.nodup_cons] at hnd
    simp only [List.map_cons, List.mem_cons, not_or] at hnew
    cases hr : setRule ac cookie rest vlanId with
    | mk r rest' =>
      have hr1 : (setRule ac cookie rest vlanId).1 = r := by rw [hr]
      cases r with
      | error e =>
        simp only [setRules, hr]
        exact ⟨ht, fun f hf => Or.inl hf⟩
      | ok flow =>
        have hc : flow.cookie = cookie := (setRule_eq_ok hr1).cookie
        have hadd : ((addFlow table flow).map Flow.cookie).Nodup := by
          rw [addFlow, List.map_append, List.nodup_append]
          refine ⟨ht.sublist ((List.filter_sublist).map _), by simp, ?_⟩
          intro a ha b hb
          obtain ⟨g, hg, rfl⟩ := List.mem_map.mp ha
          obtain rfl : b = flow.cookie := by simpa using hb
          rw [hc]
          exact (hnew g (List.mem_of_mem_filter hg)).1
        have hrec := @ih (addFlow table flow) rest' hnd.2 hadd (by
          intro g hg
          rcases mem_addFlow.1 hg with ⟨hg, -⟩ | rfl
          · exact (hnew g hg).2
          · rw [hc]
            exact hnd.1)
        simp only [setRules, hr]
        refine ⟨hrec.1, fun g hg => ?_⟩
        rcases hrec.2 g hg with hg | ⟨hg, hp⟩
        · rcases mem_addFlow.1 hg with ⟨hg, -⟩ | rfl
          · exact Or.inl hg
          · exact Or.inr ⟨by simp [hc], (setRule_eq_ok hr1).bound⟩
        · exact Or.inr ⟨List.mem_cons_of_mem _ hg, hp⟩

theorem completes_ok {α : Type} (a : α) : Completes (.ok a) := by
  intro e he
  cases he

theorem completes_map {α β : Type} {r : Except PyError α} (f : α → β) :
    Completes (r.map f) ↔ Completes r := by
  cases r <;> rfl

theorem refuse_completes {l : List (Bool × PyError)}
    (h : ∀ x ∈ l, ∃ message, x.2 = .valueError message) : Completes (refuse l) := by
  induction l with
  | nil => exact completes_ok ()
  | cons x l ih =>
    obtain ⟨c, e⟩ := x
    simp only [List.forall_mem_cons] at h
    cases c with
    | false => exact ih h.2
    | true =>
      intro e' he
      cases he
      exact h.1

theorem completes_valueError {α : Type} (message : String) :
    Completes (.error (.valueError message) : Except PyError α) := by
  intro e he
  cases he
  exact ⟨message, rfl⟩

theorem checkMatch_completes (d : Dict RestKey Value) : Completes (checkMatch d) := by
  unfold checkMatch
  dsimp only
  repeat' split
  all_goals first
    | exact completes_ok _
    | exact completes_valueError _
    | exact (completes_map _).mpr
        (refuse_completes (by simp [inv2and1, inv2and2, inv1and1, inv1and2, invCombi]))

theorem convName_completes (k : RestKey) (v : Value) : Completes (convName k v) := by
  unfold convName
  repeat' split
  all_goals first
    | exact completes_ok _
    | exact completes_valueError _

theorem convNames_completes (d : Dict RestKey Value) : Completes (convNames d) := by
  unfold convNames
  split
  · next e he =>
    obtain ⟨x, -, hx⟩ := List.exists_of_findSome?_eq_some he
    intro e' he'
    cases he'
    exact convName_completes x.1 x.2 e hx
  · exact completes_ok _

theorem toOpenflow_completes (d : Dict RestKey Value) : Completes (toOpenflow d).1 := by
  unfold toOpenflow
  have hc := checkMatch_completes d
  split
  · next e he =>
    rw [he] at hc
    exact hc
  · exact convNames_completes _
  · exact convNames_completes _

theorem pyInt_completes (v : Value) : Completes (pyInt v) := by
  unfold pyInt
  repeat' split
  all_goals first
    | exact completes_ok _
    | exact completes_valueError _

theorem ruleActions_completes (action : Option RestAction) : Completes (ruleActions action) := by
  unfold ruleActions
  split
  · exact completes_ok _
  · dsimp only
    split
    · exact completes_ok _
    · exact (completes_map _).mpr (pyInt_completes _)

/-- An error of a part is the error of the whole. -/
theorem Completes.error {α β : Type} {r : Except PyError α} {e : PyError} (h : Completes r)
    (he : r = .error e) : Completes (.error e : Except PyError β) := by
  rw [he] at h
  exact h

theorem setRule_completes (ac : AddrConv) (cookie v : ℕ) (h : rest.ofMatch.isSome) :
    Completes (setRule ac cookie rest v).1 ∧ (setRule ac cookie rest v).2.ofMatch.isSome := by
  unfold setRule
  split
  · next hn =>
    rw [hn] at h
    cases h
  · dsimp only
    split
    · next he => exact ⟨(pyInt_completes _).error he, rfl⟩
    · split
      · exact ⟨completes_valueError _, rfl⟩
      · split
        · next he => exact ⟨(toOpenflow_completes _).error he, rfl⟩
        · split
          · next he => exact ⟨(ruleActions_completes _).error he, rfl⟩
          · split
            · exact ⟨completes_valueError _, rfl⟩
            · exact ⟨completes_ok _, rfl⟩

theorem setRules_completes (h : rest.ofMatch.isSome) :
    Completes (setRules ac cookies rest table).1 := by
  induction cookies generalizing rest table with
  | nil => exact completes_ok _
  | cons c cookies ih =>
    obtain ⟨cookie, vlanId⟩ := c
    obtain ⟨hc, hs⟩ := setRule_completes ac cookie vlanId h
    cases hr : setRule ac cookie rest vlanId with
    | mk r rest' =>
      rw [hr] at hc hs
      cases r with
      | error e =>
        simp only [setRules, hr]
        exact hc.error rfl
      | ok flow =>
        simp only [setRules, hr]
        exact (completes_map _).mpr (ih hs)

theorem modFlowEntry_nil {cookie p : ℕ} {attrs : Dict RestKey Value} {m : OFPMatch}
    (hm : toMatch ac attrs = .ok m) (hp : p < 256 ^ 2) :
    modFlowEntry ac cookie p attrs [] = .ok ⟨cookie, 0, p, m, []⟩ := by
  have ha : toActions [] = .ok [] := rfl
  rw [modFlowEntry, hm, ha, pack_natCast hp]

theorem deleteRules_spec {flows : List FlowStat} {ids : Dict Value (List ℕ)}
    (h : ∀ flow ∈ flows, flow.priority < 256 ^ 2 ∧
      (toMatch ac (toModOpenflow ac flow.ofMatch)).isOk) :
    (deleteRules ac flows table ids).1.isOk ∧ (deleteRules ac flows table ids).2.Sublist table := by
  induction flows generalizing table ids with
  | nil => exact ⟨rfl, List.Sublist.refl _⟩
  | cons flow flows ih =>
    obtain ⟨⟨hp, hm⟩, hrest⟩ := List.forall_mem_cons.mp h
    obtain ⟨m, hm⟩ := isOk_iff.1 hm
    simp only [deleteRules, modFlowEntry_nil hm hp]
    exact ⟨(ih hrest).1, (ih hrest).2.trans List.filter_sublist⟩

theorem updateVlanList_none (h : ∀ v, (vl.get? v).isSome → v = vlanidNone) (l : List Value) :
    updateVlanList vl l = (.ok (), vl) := by
  have hf : (vl.keys.find? fun v => v ≠ vlanidNone ∧ Value.int v ∉ l) = none := by
    rw [List.find?_eq_none]
    intro v hv
    simp [h v (Dict.mem_keys_iff.mp hv)]
  rw [updateVlanList, hf]

/-- The cookie is one of a counter, or that of the default flow. -/
def Counted (vl : Dict ℕ ℕ) (cookie : ℕ) : Prop :=
  cookie = 0 ∨ ∃ v c, 0 < c ∧ c ≤ counter vl v ∧ cookie = (v <<< cookieShiftVlanid) + c

/-- The cookies of the flows are distinct and were counted. -/
structure Numbered (s : RuleSwitch) : Prop where
  distinct : Distinct s
  small : ∀ v, counter s.qos.vlanList v < 2 ^ 32
  counted : ∀ f ∈ s.table, Counted s.qos.vlanList f.cookie
  bound : ∀ f ∈ s.table, f.priority < 256 ^ 2

theorem cookie_inj {v v' c c' : ℕ} (hc : c < 2 ^ 32) (hc' : c' < 2 ^ 32)
    (h : (v <<< cookieShiftVlanid) + c = (v' <<< cookieShiftVlanid) + c') : v = v' ∧ c = c' := by
  simp only [cookieShiftVlanid, Nat.shiftLeft_eq] at h
  omega

theorem numbered_join (dpId : ℕ) : Numbered (RuleSwitch.join ac dpId) := by
  have hv : ∀ v, counter (QoS.init dpId).vlanList v = 0 := by
    intro v
    rw [QoS.init, counter_set]
    split <;> rfl
  have ht : (RuleSwitch.join ac dpId).table = [] ∨
      ∃ f, (RuleSwitch.join ac dpId).table = [f] ∧ f.cookie = 0 ∧ f.priority < 256 ^ 2 := by
    simp only [RuleSwitch.join, setDefaultFlow]
    cases hf : modFlowEntry ac 0 defaultFlowPriority Dict.empty [.gotoTable (qosTableId + 1)] with
    | error e => exact Or.inl rfl
    | ok f =>
      obtain ⟨hc, -, ⟨-, hb⟩, -⟩ := modFlowEntry_eq_ok hf
      exact Or.inr ⟨f, rfl, hc, hb⟩
  have hsmall : ∀ v, counter (RuleSwitch.join ac dpId).qos.vlanList v < 2 ^ 32 := by
    intro v
    rw [RuleSwitch.join, hv]
    decide
  rcases ht with ht | ⟨f, ht, hc, hb⟩
  · exact ⟨by simp [Distinct, ht], hsmall, by simp [ht], by simp [ht]⟩
  · refine ⟨by simp [Distinct, ht], hsmall, ?_, ?_⟩
    · intro g hg
      obtain rfl : g = f := by simpa [ht] using hg
      exact Or.inl hc
    · intro g hg
      obtain rfl : g = f := by simpa [ht] using hg
      exact hb

theorem getCookie_eq (vl : Dict ℕ ℕ) (vlanId : VlanId) :
    getCookie vl vlanId = nextCookies (counted vl vlanId) vl := by
  cases vlanId <;> rfl

theorem nodup_counted (vl : Dict ℕ ℕ) (vlanId : VlanId) : (counted vl vlanId).Nodup := by
  cases vlanId with
  | all => exact vl.nodup_keys
  | id v => exact List.nodup_singleton v

theorem numbered_setQos {vlanId : VlanId} (hi : Numbered s)
    (hs : ∀ v ∈ counted s.qos.vlanList vlanId, counter s.qos.vlanList v + 1 < 2 ^ 32) :
    Numbered (setQos ac s rest vlanId).2.2 := by
  obtain ⟨hcookies, hget⟩ := nextCookies_eq (nodup_counted _ _) hs
  have hfst : (getCookie s.qos.vlanList vlanId).1.map Prod.fst =
      (counted s.qos.vlanList vlanId).map fun v =>
        (v <<< cookieShiftVlanid) + (counter s.qos.vlanList v + 1) := by
    rw [getCookie_eq, hcookies, List.map_map]
    rfl
  have hcounter : ∀ v, counter (getCookie s.qos.vlanList vlanId).2 v =
      if v ∈ counted s.qos.vlanList vlanId then counter s.qos.vlanList v + 1
      else counter s.qos.vlanList v := by
    intro v
    rw [getCookie_eq, counter, hget]
    split <;> rfl
  have hnd : ((getCookie s.qos.vlanList vlanId).1.map Prod.fst).Nodup := by
    rw [hfst]
    refine List.Nodup.map_on ?_ (nodup_counted _ _)
    intro v hv v' hv' heq
    exact (cookie_inj (hs v hv) (hs v' hv') heq).1
  have hnew : ∀ f ∈ s.table, f.cookie ∉ (getCookie s.qos.vlanList vlanId).1.map Prod.fst := by
    intro f hf hin
    rw [hfst] at hin
    obtain ⟨v, hv, hc⟩ := List.mem_map.mp hin
    rcases hi.counted f hf with h0 | ⟨w, c, -, hle, hw⟩
    · exact Nat.succ_ne_zero _ (hc.trans h0)
    · obtain ⟨rfl, hcc⟩ := cookie_inj (hs v hv) (lt_of_le_of_lt hle (hi.small w)) (hc.trans hw)
      omega
  obtain ⟨hdist, hmem⟩ := setRules_spec ac rest hnd hi.distinct hnew
  refine ⟨hdist, ?_, ?_, ?_⟩
  · intro v
    show counter (getCookie s.qos.vlanList vlanId).2 v < 2 ^ 32
    rw [hcounter]
    split
    · next hv => exact hs v hv
    · exact hi.small v
  · intro f hf
    show Counted (getCookie s.qos.vlanList vlanId).2 f.cookie
    rcases hmem f hf with hf | ⟨hf, -⟩
    · rcases hi.counted f hf with h0 | ⟨w, c, hpos, hle, hw⟩
      · exact Or.inl h0
      · refine Or.inr ⟨w, c, hpos, ?_, hw⟩
        rw [hcounter]
        split <;> omega
    · rw [hfst] at hf
      obtain ⟨v, hv, hc⟩ := List.mem_map.mp hf
      exact Or.inr ⟨v, _, Nat.succ_pos _, by rw [hcounter, if_pos hv], hc.symm⟩
  · intro f hf
    rcases hmem f hf with hf | ⟨-, hp⟩
    · exact hi.bound f hf
    · exact hp

theorem deleteQos_orderly {vlanId : VlanId} {qosId : Option Value} {qid : QosId}
    (hi : Numbered s) (hq : toQosId qosId = .ok qid)
    (hnone : ∀ v, (s.qos.vlanList.get? v).isSome → v = vlanidNone)
    (hback : ∀ f ∈ s.table, Selects qid vlanId (f.stat ac) →
      (toMatch ac (toModOpenflow ac (f.stat ac).ofMatch)).isOk) :
    (deleteQos ac s qosId vlanId).1.isOk ∧ (deleteQos ac s qosId vlanId).2.qos = s.qos ∧
      (deleteQos ac s qosId vlanId).2.table.Sublist s.table := by
  simp only [deleteQos, hq, updateVlanList_none hnone]
  split
  · exact ⟨rfl, rfl, List.Sublist.refl _⟩
  · next selected hsel =>
    have hspec := @deleteRules_spec ac s.table
      ((getFlowStats ac s.table).filter fun flow => Selects qid vlanId flow) Dict.empty (by
        intro flow hflow
        obtain ⟨hmem, hs⟩ := List.mem_filter.mp hflow
        obtain ⟨f, hf, rfl⟩ := List.mem_map.mp hmem
        exact ⟨hi.bound f hf, hback f hf (by simpa using hs)⟩)
    exact ⟨by simpa [isOk_map] using hspec.1, rfl, hspec.2⟩

theorem convTointVlanid_completes (vlanId : VlanId) : Completes (convTointVlanid vlanId) := by
  unfold convTointVlanid
  repeat' split
  all_goals first
    | exact completes_ok _
    | exact completes_valueError _

theorem toQosId_completes (qosId : Option Value) : Completes (toQosId qosId) := by
  unfold toQosId
  repeat' split
  all_goals first
    | exact completes_ok _
    | exact completes_valueError _

theorem completes_of_isOk {α : Type} {r : Except PyError α} (h : r.isOk) : Completes r := by
  obtain ⟨a, rfl⟩ := isOk_iff.1 h
  exact completes_ok a

theorem served_setQos {vlanId : VlanId} (hi : Numbered s) (ho : Orderly ac s (.setQos vlanId rest)) :
    Served ac s (.setQos vlanId rest) ∧ Numbered (ruleStep ac s (.setQos vlanId rest)) := by
  simp only [ruleStep]
  cases hv : convTointVlanid vlanId with
  | error e =>
    have hr : request ac s (.setQos vlanId rest) = (.error e, s) := by simp only [request, hv]
    rw [hr]
    refine ⟨⟨?_, fun _ _ he => by cases he⟩, hi⟩
    rw [hr]
    exact (convTointVlanid_completes vlanId).error hv
  | ok vid =>
    obtain ⟨hm, hc⟩ := ho vid hv
    have hr : request ac s (.setQos vlanId rest) =
        ((setQos ac s rest vid).1.map fun _ => (), (setQos ac s rest vid).2.2) := by
      simp only [request, hv]
    rw [hr]
    refine ⟨⟨?_, fun _ _ he => by cases he⟩, numbered_setQos hi hc⟩
    rw [hr]
    exact (completes_map _).mpr (setRules_completes hm)

theorem served_deleteQos {vlanId : VlanId} {qosId : Option Value} (hi : Numbered s)
    (ho : Orderly ac s (.deleteQos vlanId qosId)) :
    Served ac s (.deleteQos vlanId qosId) ∧ Numbered (ruleStep ac s (.deleteQos vlanId qosId)) := by
  cases hv : convTointVlanid vlanId with
  | error e =>
    have hr : request ac s (.deleteQos vlanId qosId) = (.error e, s) := by simp only [request, hv]
    refine ⟨⟨?_, ?_⟩, ?_⟩
    · rw [hr]
      exact (convTointVlanid_completes vlanId).error hv
    · intro v q he hok
      cases he
      simp [hv] at hok
    · rw [ruleStep, hr]
      exact hi
  | ok vid =>
    have hr : request ac s (.deleteQos vlanId qosId) =
        ((deleteQos ac s qosId vid).1.map fun _ => (), (deleteQos ac s qosId vid).2) := by
      simp only [request, hv]
    cases hq : toQosId qosId with
    | error e =>
      have hd : deleteQos ac s qosId vid = (.error e, s) := by simp only [deleteQos, hq]
      rw [hd] at hr
      refine ⟨⟨?_, ?_⟩, ?_⟩
      · rw [hr]
        exact (toQosId_completes qosId).error hq
      · intro v q he _ hok
        cases he
        simp [hq] at hok
      · rw [ruleStep, hr]
        exact hi
    | ok qid =>
      obtain ⟨hnone, hback⟩ := ho vid qid hv hq
      obtain ⟨hok, hqos, hsub⟩ := deleteQos_orderly hi hq hnone hback
      refine ⟨⟨?_, ?_⟩, ?_⟩
      · rw [hr]
        exact (completes_map _).mpr (completes_of_isOk hok)
      · rintro v q - - - w
        rw [ruleStep, hr, hqos]
        by_cases hw : w = vlanidNone
        · rw [if_pos (Or.inl hw)]
        · have hn : s.qos.vlanList.get? w = none := by
            by_contra hsome
            exact hw (hnone w (Option.isSome_iff_ne_none.mpr hsome))
          rw [hn, ite_self]
      · rw [ruleStep, hr]
        refine ⟨hi.distinct.sublist (hsub.map _), ?_, ?_, ?_⟩
        · rw [hqos]
          exact hi.small
        · rw [hqos]
          exact fun f hf => hi.counted f (hsub.subset hf)
        · exact fun f hf => hi.bound f (hsub.subset hf)

/-- An orderly request is served, and the cookies stay numbered. -/
theorem served_step {ev : RuleEvent} (hi : Numbered s) (ho : Orderly ac s ev) :
    Served ac s ev ∧ Numbered (ruleStep ac s ev) := by
  cases ev with
  | setQos vlanId rest => exact served_setQos hi ho
  | deleteQos vlanId qosId => exact served_deleteQos hi ho

end Runs

end Ryu.Qos
