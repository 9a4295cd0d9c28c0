import Ryu.RestFirewall.Listing
import Ryu.RestFirewall.Log

/-! # The rules of a firewall over time

The cookie of a rule has the VLAN it was set for and an identifier that is counted for that VLAN.
Both are looked for in the statistics, where the VLAN of a match is a number in OpenFlow 1.0 only;
and a deletion ends with an exception once a VLAN with a counter would be without rules.
-/

namespace Ryu.RestFirewall

open Qos

variable {c : Ofctl}

section Model

/-- The VLAN a rule was set for. -/
def vlanOf (f : FlowEntry c.Match) : ℕ := f.cookie >>> cookieShiftVlanid

def ruleIdOf (f : FlowEntry c.Match) : ℕ := cookieToRuleid f.cookie

/-- `get_rules` lists the rule under its VLAN. -/
def Listed (ac : AddrConv) (s : Firewall c) (vlanId : VlanId) (f : FlowEntry c.Match) : Prop :=
  ∃ rules, getRules ac c s vlanId = .ok rules ∧
    ∃ rule, toRestRule ac (f.stat c) = .ok rule ∧ rule.ruleId = ruleIdOf f ∧
      rule ∈ Grouping.under rules (.int (vlanOf f))

/-- The rule is one that a deletion is asked for. -/
def Chosen (ruleId : QosId) (vlanId : VlanId) (f : FlowEntry c.Match) : Prop :=
  AclPriority f.priority ∧ ruleId.Covers (ruleIdOf f) ∧ vlanId.Covers (.int (vlanOf f))

instance (ruleId : QosId) (vlanId : VlanId) (f : FlowEntry c.Match) :
    Decidable (Chosen ruleId vlanId f) :=
  inferInstanceAs (Decidable (_ ∧ _))

/-- The rules have distinct pairs of a VLAN and an identifier. -/
def Distinct (s : Firewall c) : Prop :=
  ((s.table.filter fun f => AclPriority f.priority).map fun f => (vlanOf f, ruleIdOf f)).Nodup

/-- Every rule is listed for its VLAN, and where all are asked for. -/
def AllListed (ac : AddrConv) (s : Firewall c) : Prop :=
  ∀ f ∈ s.table, AclPriority f.priority → Listed ac s (.id (vlanOf f)) f ∧ Listed ac s .all f

/-- The request completes. Every rule that is accepted is there and is listed for the VLAN it was
accepted for, and a deletion removes exactly the rules it is asked for. -/
structure Served (ac : AddrConv) (s : Firewall c) (r : Request) : Prop where
  completes : Completes (request ac c s r).1
  accepted : ∀ vlanId rest vid msgs, r = .setRule vlanId rest → convTointVlanid vlanId = .ok vid →
    (addRule c s rest vid).1 = .ok msgs → ∀ msg ∈ msgs, ∃ f ∈ (step ac c s r).table,
      AclPriority f.priority ∧ vlanOf f = msg.vlanId.getD vlanidNone ∧ ruleIdOf f = msg.ruleId ∧
      Listed ac (step ac c s r) (.id (vlanOf f)) f
  deleted : ∀ vlanId rest vid ruleId, r = .deleteRule vlanId rest →
    convTointVlanid vlanId = .ok vid → toRuleId rest = .ok ruleId →
    ∀ f, f ∈ (step ac c s r).table ↔ f ∈ s.table ∧ ¬ Chosen ruleId vid f

/-- The priority and the action of the request are those of a rule. -/
def Valid (rest : RuleBody) : Prop :=
  (∃ priority : ℕ, pyInt (rest.priority.getD (.int aclFlowPriorityMin)) = .ok (priority : ℤ) ∧
    aclFlowPriorityMin ≤ priority ∧ priority ≤ aclFlowPriorityMax) ∧
  (actionToOpenflow rest.actions).isOk

/-- Each match that is set is read back from the statistics, with the VLAN it is set for. A rule
leaves its match completed for the next one. -/
def Settable (c : Ofctl) (ac : AddrConv) : List ℕ → Dict RestKey Value → Prop
  | [], _ => True
  | v :: vs, fields => ∀ m, bodyMatch c (withVlan fields v) = some m →
    (((c.matchToStr m).get? (.legacy .dlVlan)).getD (.int vlanidNone) = .int v ∧ ReadsBack ac m) ∧
      Settable c ac vs (toOpenflow (withVlan fields v)).2

/-- Rules are set while the counters do not wrap and with matches that are read back; rules are
deleted while every VLAN with a counter keeps a rule. -/
def Orderly (ac : AddrConv) (s : Firewall c) : Request → Prop
  | .setRule vlanId rest => ∀ vid, convTointVlanid vlanId = .ok vid →
    (∀ v ∈ counted s.vlanList vid, counter s.vlanList v + 1 < 2 ^ 32) ∧
      (Valid rest → Settable c ac (counted s.vlanList vid) rest.fields)
  | .deleteRule vlanId rest => ∀ vid ruleId, convTointVlanid vlanId = .ok vid →
    toRuleId rest = .ok ruleId → ∀ v, (s.vlanList.get? v).isSome → v ≠ vlanidNone →
      ∃ f ∈ s.table, AclPriority f.priority ∧ vlanOf f = v ∧ ¬ Chosen ruleId vid f
  | _ => True

end Model

section Rules

variable {ac : AddrConv} {s : Firewall c} {table : List (FlowEntry c.Match)}
  {f g : FlowEntry c.Match} {v : ℕ} {vlanId : VlanId}

/-- The rule is found again by its VLAN and its match, and can be listed. -/
structure Findable (ac : AddrConv) (f : FlowEntry c.Match) : Prop where
  vid : vidOf (f.stat c) = .int (vlanOf f)
  back : ReadsBack ac f.ofMatch
  shown : (toRest ac (c.matchToStr f.ofMatch)).isOk

theorem lists_iff (hf : Findable ac f) :
    Lists vlanId (f.stat c) ↔ AclPriority f.priority ∧ vlanId.Covers (.int (vlanOf f)) := by
  rw [Lists, hf.vid]
  rfl

theorem selects_iff (hf : Findable ac f) {ruleId : QosId} :
    Selects ruleId vlanId (f.stat c) ↔ Chosen ruleId vlanId f := by
  rw [Selects, hf.vid]
  rfl

/-- Where all rules can be found, each is listed. -/
theorem listed_of_findable (h : ∀ g ∈ s.table, AclPriority g.priority → Findable ac g)
    (hf : f ∈ s.table) (ha : AclPriority f.priority) (hv : vlanId.Covers (.int (vlanOf f))) :
    Listed ac s vlanId f := by
  have hrule : ∀ g ∈ s.table, AclPriority g.priority → (toRestRule ac (g.stat c)).isOk := by
    intro g hg hga
    exact isOk_map.trans (h g hg hga).shown
  have hok : (getRules ac c s vlanId).isOk := by
    refine Grouping.collect_isOk_iff.mpr ?_
    intro stat hstat hl
    obtain ⟨g, hg, rfl⟩ := List.mem_map.mp hstat
    exact hrule g hg hl.1
  obtain ⟨rules, hrules⟩ := isOk_iff.1 hok
  obtain ⟨rule, hr⟩ := isOk_iff.1 (hrule f hf ha)
  refine ⟨rules, hrules, rule, hr, ?_, ?_⟩
  · obtain ⟨d, -, rfl⟩ := map_eq_ok.1 hr
    rfl
  · refine (Grouping.mem_collect hrules _).mpr (.inr ⟨f.stat c, List.mem_map_of_mem hf, ?_, ?_, hr⟩)
    · exact (lists_iff (h f hf ha)).mpr ⟨ha, hv⟩
    · exact (h f hf ha).vid

/-- What is known of the rules and the counters of a firewall. -/
structure Numbered (ac : AddrConv) (s : Firewall c) : Prop where
  sound : Sound s.table
  findable : ∀ f ∈ s.table, AclPriority f.priority → Findable ac f
  small : ∀ v, counter s.vlanList v < 2 ^ 32
  counted : ∀ f ∈ s.table, AclPriority f.priority → ∃ n, 0 < n ∧
    n ≤ counter s.vlanList (vlanOf f) ∧ f.cookie = (vlanOf f <<< cookieShiftVlanid) + n
  distinct : ∀ f ∈ s.table, ∀ g ∈ s.table, AclPriority f.priority → AclPriority g.priority →
    f.cookie = g.cookie → f = g

theorem Numbered.allListed (h : Numbered ac s) : AllListed ac s := by
  intro f hf ha
  exact ⟨listed_of_findable h.findable hf ha rfl, listed_of_findable h.findable hf ha trivial⟩

/-- The cookie is made of the VLAN and the identifier. -/
theorem cookie_eq (cookie : ℕ) :
    cookie = (cookie >>> cookieShiftVlanid) * 2 ^ 32 + cookieToRuleid cookie := by
  have hmask : cookieToRuleid cookie = cookie % 2 ^ 32 := Nat.and_two_pow_sub_one_eq_mod cookie 32
  rw [hmask, cookieShiftVlanid, Nat.shiftRight_eq_div_pow]
  exact (Nat.div_add_mod' cookie (2 ^ 32)).symm

theorem vlanOf_eq {n : ℕ} (hn : n < 2 ^ 32) :
    ((v <<< cookieShiftVlanid) + n) >>> cookieShiftVlanid = v := by
  rw [cookieShiftVlanid, Nat.shiftRight_eq_div_pow, Nat.shiftLeft_eq]
  omega

theorem Numbered.distinct_pairs (h : Numbered ac s) : Distinct s := by
  refine List.Nodup.map_on ?_ ((h.sound.keyed.imp ?_).filter _)
  · intro f hf g hg hp
    obtain ⟨hf, hfa⟩ := List.mem_filter.mp hf
    obtain ⟨hg, hga⟩ := List.mem_filter.mp hg
    obtain ⟨hv, hi⟩ := Prod.ext_iff.mp hp
    refine h.distinct f hf g hg (of_decide_eq_true hfa) (of_decide_eq_true hga) ?_
    have hv : f.cookie >>> cookieShiftVlanid = g.cookie >>> cookieShiftVlanid := hv
    have hi : cookieToRuleid f.cookie = cookieToRuleid g.cookie := hi
    rw [cookie_eq f.cookie, cookie_eq g.cookie, hv, hi]
  · rintro f _ hne rfl
    exact hne rfl

end Rules

section SetRule

variable {ac : AddrConv} {s : Firewall c} {table : List (FlowEntry c.Match)}
  {f g : FlowEntry c.Match} {v cookie vlanId : ℕ} {rest rest' : RuleBody} {vs : List ℕ}

theorem isOk_of_logged {actions : Option Value} {status : Bool}
    (h : (actionToOpenflow (logged actions status)).isOk) : (actionToOpenflow actions).isOk := by
  unfold logged at h
  split at h
  · next hd =>
    rw [hd.1]
    rfl
  · exact h

/-- The body that a rule leaves when it is accepted. -/
theorem setRule_body (h : setRule c cookie rest vlanId table = (.ok f, rest')) :
    (actionToOpenflow rest.actions).isOk ∧
      rest'.fields = (toOpenflow (withVlan rest.fields vlanId)).2 := by
  unfold setRule at h
  split at h
  · cases h
  · split at h
    · cases h
    · dsimp only at h
      split at h
      · cases h
      · split at h
        · cases h
        · next hdicts =>
          split at h
          · cases h
          · obtain ⟨-, rfl⟩ := Prod.ext_iff.mp h
            exact ⟨isOk_of_logged (isOk_iff.2 ⟨_, hdicts⟩), rfl⟩

theorem valid_of_setRule (h : setRule c cookie rest vlanId table = (.ok f, rest')) :
    Valid rest := by
  have hacc : Accepted cookie rest vlanId f := setRule_eq_ok (by rw [h])
  exact ⟨⟨f.priority, hacc.priority, hacc.acl⟩, (setRule_body h).1⟩

/-- The rules of a table can be found, have distinct cookies, and none of those that the VLANs get
next. -/
structure Ready (ac : AddrConv) (cookieOf : ℕ → ℕ) (vs : List ℕ)
    (table : List (FlowEntry c.Match)) : Prop where
  findable : ∀ f ∈ table, AclPriority f.priority → Findable ac f
  once : ∀ f ∈ table, ∀ g ∈ table, AclPriority f.priority → AclPriority g.priority →
    f.cookie = g.cookie → f = g
  new : ∀ f ∈ table, AclPriority f.priority → ∀ v ∈ vs, f.cookie ≠ cookieOf v

/-- What the loop of `set_rule` makes of a table, its rules having cookies for the VLANs. -/
structure AfterRules (ac : AddrConv) (cookieOf : ℕ → ℕ) (vs : List ℕ)
    (table : List (FlowEntry c.Match))
    (r : Except PyError (List RuleMsg) × RuleBody × List (FlowEntry c.Match)) : Prop where
  ready : Ready ac cookieOf [] r.2.2
  new : ∀ f ∈ r.2.2, f ∈ table ∨ AclPriority f.priority ∧ ∃ v ∈ vs, f.cookie = cookieOf v
  stays : ∀ f ∈ table, AclPriority f.priority → vlanOf f ∉ vs → f ∈ r.2.2
  accepted : ∀ msgs, r.1 = .ok msgs → ∀ msg ∈ msgs, ∃ v ∈ vs, msg = ruleMsg (cookieOf v) v ∧
    ∃ f ∈ r.2.2, AclPriority f.priority ∧ f.cookie = cookieOf v

variable {cookieOf : ℕ → ℕ}

theorem Ready.done (h : Ready ac cookieOf vs table) : Ready ac cookieOf [] table :=
  ⟨h.findable, h.once, fun _ _ _ _ hv => absurd hv List.not_mem_nil⟩

/-- A rule is added under the next cookie of its VLAN. -/
theorem Ready.add (h : Ready ac cookieOf (v :: vs) table) (hv : v ∉ vs)
    (hcookie : ∀ w ∈ v :: vs, cookieOf w >>> cookieShiftVlanid = w) (hf : Findable ac f)
    (hc : f.cookie = cookieOf v) : Ready ac cookieOf vs (Command.add.apply table f) := by
  have hmem : ∀ g, g ∈ Command.add.apply table f ↔ g = f ∨ g ∈ table ∧ g.key ≠ f.key :=
    fun g => Table.mem_put
  have hother : ∀ g ∈ table, AclPriority g.priority → g.cookie ≠ f.cookie := by
    intro g hg hga
    rw [hc]
    exact h.new g hg hga v List.mem_cons_self
  refine ⟨?_, ?_, ?_⟩
  · intro g hg hga
    rcases (hmem g).mp hg with rfl | ⟨hg, -⟩
    · exact hf
    · exact h.findable g hg hga
  · intro g hg g' hg' hga hga' hgc
    rcases (hmem g).mp hg with rfl | ⟨hgt, -⟩
    · rcases (hmem g').mp hg' with rfl | ⟨hgt', -⟩
      · rfl
      · exact absurd hgc.symm (hother g' hgt' hga')
    · rcases (hmem g').mp hg' with rfl | ⟨hgt', -⟩
      · exact absurd hgc (hother g hgt hga)
      · exact h.once g hgt g' hgt' hga hga' hgc
  · intro g hg hga w hw
    rcases (hmem g).mp hg with rfl | ⟨hg, -⟩
    · rintro hgc
      have hvw : v = w := by
        rw [← hcookie v List.mem_cons_self, ← hcookie w (List.mem_cons_of_mem _ hw), ← hc, hgc]
      exact hv (hvw ▸ hw)
    · exact h.new g hg hga w (List.mem_cons_of_mem _ hw)

/-- A rule for one VLAN does not take the place of a rule for another. -/
theorem key_ne_of_vlan (hf : Findable ac f) (hg : Findable ac g) (hne : vlanOf f ≠ vlanOf g) :
    f.key ≠ g.key := by
  intro hk
  have hm : f.ofMatch = g.ofMatch := congrArg Prod.snd hk
  have hv : vidOf (f.stat c) = vidOf (g.stat c) := by
    unfold vidOf FlowEntry.stat
    rw [hm]
  rw [hf.vid, hg.vid] at hv
  exact hne (Int.ofNat_inj.mp (Value.int.inj hv))

/-- Rules that are set under new cookies, for distinct VLANs. -/
theorem afterRules (hshown : ∀ value m, bodyMatch c value = some m →
      (toRest ac (c.matchToStr m)).isOk) (hvs : vs.Nodup)
    (hcookie : ∀ v ∈ vs, cookieOf v >>> cookieShiftVlanid = v)
    (hset : Valid rest → Settable c ac vs rest.fields) (hready : Ready ac cookieOf vs table) :
    AfterRules ac cookieOf vs table (setRules c (vs.map fun v => (cookieOf v, v)) rest table) := by
  induction vs generalizing rest table with
  | nil =>
    refine ⟨hready.done, fun f hf => .inl hf, fun f hf _ _ => hf, ?_⟩
    intro msgs hmsgs msg hmsg
    obtain rfl := Except.ok.inj hmsgs
    cases hmsg
  | cons v vs ih =>
    obtain ⟨hv, hvs⟩ := List.nodup_cons.mp hvs
    simp only [List.map_cons, setRules]
    split
    · refine ⟨hready.done, fun f hf => .inl hf, fun f hf _ _ => hf, ?_⟩
      intro msgs hmsgs
      cases hmsgs
    · next f rest' hr =>
      have hacc : Accepted (cookieOf v) rest v f := setRule_eq_ok (by rw [hr])
      have hfa := hacc.aclPriority
      obtain ⟨⟨hvid, hback⟩, hset⟩ := hset (valid_of_setRule hr) f.ofMatch hacc.ofMatch
      have hfv : vlanOf f = v := by rw [vlanOf, hacc.cookie, hcookie v List.mem_cons_self]
      have hff : Findable ac f := ⟨hfv.symm ▸ hvid, hback, hshown _ _ hacc.ofMatch⟩
      have hmem : ∀ g, g ∈ Command.add.apply table f ↔ g = f ∨ g ∈ table ∧ g.key ≠ f.key :=
        fun g => Table.mem_put
      have hrec := ih hvs (fun w hw => hcookie w (List.mem_cons_of_mem _ hw))
        (fun _ => (setRule_body hr).2 ▸ hset) (hready.add hv hcookie hff hacc.cookie)
      refine ⟨hrec.ready, ?_, ?_, ?_⟩
      · intro g hg
        rcases hrec.new g hg with hg | ⟨hga, w, hw, hc⟩
        · rcases (hmem g).mp hg with rfl | ⟨hg, -⟩
          · exact .inr ⟨hfa, v, List.mem_cons_self, hacc.cookie⟩
          · exact .inl hg
        · exact .inr ⟨hga, w, List.mem_cons_of_mem _ hw, hc⟩
      · intro g hg hga hgv
        obtain ⟨hne, hgvs⟩ := not_or.mp (mt List.mem_cons.mpr hgv)
        refine hrec.stays g ((hmem g).mpr (.inr ⟨hg, ?_⟩)) hga hgvs
        exact key_ne_of_vlan (hready.findable g hg hga) hff (hfv ▸ hne)
      · intro msgs hmsgs msg hmsg
        obtain ⟨msgs', hmsgs', rfl⟩ := map_eq_ok.1 hmsgs
        rcases List.mem_cons.mp hmsg with rfl | hmsg
        · refine ⟨v, List.mem_cons_self, rfl, f, ?_, hfa, hacc.cookie⟩
          exact hrec.stays f ((hmem f).mpr (.inl rfl)) hfa (hfv.symm ▸ hv)
        · obtain ⟨w, hw, hm, g, hg, hga, hc⟩ := hrec.accepted msgs' hmsgs' msg hmsg
          exact ⟨w, List.mem_cons_of_mem _ hw, hm, g, hg, hga, hc⟩

end SetRule

section Completes

variable {s : Firewall c} {table : List (FlowEntry c.Match)} {rest : RuleBody}
  {cookies : List (ℕ × ℕ)}

theorem checkMatch_completes (d : Dict RestKey Value) : Completes (checkMatch d) := by
  unfold checkMatch
  dsimp only
  repeat' split
  all_goals first
    | exact completes_ok _
    | exact completes_valueError _
    | exact (completes_map _).mpr
        (refuse_completes (by simp [inv2and1, inv2and2, inv1and1, inv1and2, invCombi]))

theorem toOpenflow_completes (d : Dict RestKey Value) : Completes (toOpenflow d).1 := by
  unfold toOpenflow
  split
  · next e he => exact (checkMatch_completes d).error he
  · exact convNames_completes _

theorem actionToOpenflow_completes (actions : Option Value) :
    Completes (actionToOpenflow actions) := by
  unfold actionToOpenflow
  dsimp only
  repeat' split
  all_goals first
    | exact completes_ok _
    | exact completes_valueError _

theorem setRule_completes (cookie : ℕ) (rest : RuleBody) (v : ℕ)
    (table : List (FlowEntry c.Match)) : Completes (setRule c cookie rest v table).1 := by
  unfold setRule
  split
  · next he => exact (pyInt_completes _).error he
  · split
    · exact completes_valueError _
    · dsimp only
      split
      · next he => exact (toOpenflow_completes _).error he
      · split
        · next he => exact (actionToOpenflow_completes _).error he
        · split
          · exact completes_valueError _
          · exact completes_ok _

theorem setRules_completes (cookies : List (ℕ × ℕ)) (rest : RuleBody)
    (table : List (FlowEntry c.Match)) : Completes (setRules c cookies rest table).1 := by
  induction cookies generalizing rest table with
  | nil => exact completes_ok _
  | cons cookie cookies ih =>
    obtain ⟨cookie, vlanId⟩ := cookie
    have hc := setRule_completes cookie rest vlanId table
    simp only [setRules]
    split
    · next hr =>
      rw [hr] at hc
      exact hc
    · exact (completes_map _).mpr (ih _ _)

theorem toRuleId_completes (ruleId : Option Value) : Completes (toRuleId ruleId) := by
  unfold toRuleId
  repeat' split
  all_goals first
    | exact completes_ok _
    | exact completes_valueError _

end Completes

section Steps

variable {ac : AddrConv} {s : Firewall c} {f g : FlowEntry c.Match} {v : ℕ} {vlanId : VlanId}
  {rest : RuleBody}

/-- The next cookie of a VLAN. -/
def nextOf (s : Firewall c) (v : ℕ) : ℕ := (v <<< cookieShiftVlanid) + (counter s.vlanList v + 1)

theorem addRule_eq (rest : RuleBody)
    (hs : ∀ v ∈ counted s.vlanList vlanId, counter s.vlanList v + 1 < 2 ^ 32) :
    addRule c s rest vlanId =
        ((setRules c ((counted s.vlanList vlanId).map fun v => (nextOf s v, v)) rest s.table).1,
          (setRules c ((counted s.vlanList vlanId).map fun v => (nextOf s v, v)) rest s.table).2.1,
          ⟨(nextCookies (counted s.vlanList vlanId) s.vlanList).2,
            (setRules c ((counted s.vlanList vlanId).map fun v => (nextOf s v, v)) rest
              s.table).2.2⟩) ∧
      ∀ w, counter (nextCookies (counted s.vlanList vlanId) s.vlanList).2 w =
        if w ∈ counted s.vlanList vlanId then counter s.vlanList w + 1
        else counter s.vlanList w := by
  obtain ⟨hfst, hget⟩ := nextCookies_eq (nodup_counted s.vlanList vlanId) hs
  constructor
  · have hcookies : (nextCookies (counted s.vlanList vlanId) s.vlanList).1 =
        (counted s.vlanList vlanId).map fun v => (nextOf s v, v) := hfst
    simp only [addRule, getCookie_eq, hcookies]
  · intro w
    have hw := hget w
    unfold counter at hw ⊢
    rw [hw]
    split <;> rfl

theorem nextOf_shift (hs : counter s.vlanList v + 1 < 2 ^ 32) :
    nextOf s v >>> cookieShiftVlanid = v := vlanOf_eq hs

theorem Numbered.ready (hi : Numbered ac s) {vs : List ℕ}
    (hs : ∀ v ∈ vs, counter s.vlanList v + 1 < 2 ^ 32) : Ready ac (nextOf s) vs s.table := by
  refine ⟨hi.findable, hi.distinct, ?_⟩
  intro f hf ha v hv hc
  obtain ⟨n, -, hle, hcookie⟩ := hi.counted f hf ha
  have hn : n < 2 ^ 32 := hle.trans_lt (hi.small _)
  obtain ⟨hvv, hnn⟩ := cookie_inj hn (hs v hv) (hcookie.symm.trans hc)
  rw [hvv] at hle
  omega

/-- Rules that are set while the counters do not wrap, and can be found. -/
theorem numbered_addRule (hshown : ∀ value m, bodyMatch c value = some m →
      (toRest ac (c.matchToStr m)).isOk) (hi : Numbered ac s)
    (hs : ∀ v ∈ counted s.vlanList vlanId, counter s.vlanList v + 1 < 2 ^ 32)
    (hset : Valid rest → Settable c ac (counted s.vlanList vlanId) rest.fields) :
    Numbered ac (addRule c s rest vlanId).2.2 ∧ ∀ msgs, (addRule c s rest vlanId).1 = .ok msgs →
      ∀ msg ∈ msgs, ∃ f ∈ (addRule c s rest vlanId).2.2.table, AclPriority f.priority ∧
        vlanOf f = msg.vlanId.getD vlanidNone ∧ ruleIdOf f = msg.ruleId := by
  have hafter := afterRules hshown (nodup_counted s.vlanList vlanId)
    (fun v hv => nextOf_shift (hs v hv)) hset (hi.ready hs)
  have hsound := hi.sound.addRule rest vlanId
  obtain ⟨heq, hcounter⟩ := addRule_eq rest hs
  rw [heq] at hsound ⊢
  constructor
  · refine ⟨hsound, hafter.ready.findable, ?_, ?_, hafter.ready.once⟩
    · intro w
      rw [hcounter]
      split
      · next hw => exact hs w hw
      · exact hi.small w
    · intro f hf ha
      rcases hafter.new f hf with hf | ⟨-, v, hv, hc⟩
      · obtain ⟨n, hpos, hle, hcookie⟩ := hi.counted f hf ha
        refine ⟨n, hpos, ?_, hcookie⟩
        rw [hcounter]
        split <;> omega
      · have hfv : vlanOf f = v := by rw [vlanOf, hc, nextOf_shift (hs v hv)]
        refine ⟨_, Nat.succ_pos _, ?_, hfv.symm ▸ hc⟩
        rw [hcounter, if_pos (hfv.symm ▸ hv), hfv]
  · intro msgs hmsgs msg hmsg
    obtain ⟨v, hv, rfl, f, hf, ha, hc⟩ := hafter.accepted msgs hmsgs msg hmsg
    refine ⟨f, hf, ha, ?_, ?_⟩
    · rw [vlanOf, hc, nextOf_shift (hs v hv), ruleMsg]
      by_cases hv0 : v = vlanidNone
      · simp [hv0]
      · simp [hv0]
    · rw [ruleIdOf, hc]
      rfl

/-- The flows that are deleted are removed one after the other. -/
theorem deleteRules_eq (l table : List (FlowEntry c.Match)) (ids : Dict Value (List ℕ))
    (h : ∀ f ∈ l, ReadsBack ac f.ofMatch ∧ f.priority < 256 ^ 2) :
    (deleteRules ac c (l.map (FlowEntry.stat c)) table ids).1.isOk ∧
      (deleteRules ac c (l.map (FlowEntry.stat c)) table ids).2 =
        Table.removeAll FlowEntry.key table (l.map FlowEntry.key) := by
  induction l generalizing table ids with
  | nil => exact ⟨rfl, rfl⟩
  | cons f l ih =>
    obtain ⟨⟨hb, hp⟩, h⟩ := List.forall_mem_cons.mp h
    have hflow : toFlow c f.cookie f.priority (toModOpenflow ac (c.matchToStr f.ofMatch)) [] =
        .ok ⟨f.cookie, f.priority, f.ofMatch, []⟩ := toFlow_ok hb rfl hp
    have hmod : modFlowEntry c .deleteStrict (f.stat c).cookie (f.stat c).priority
        (toModOpenflow ac (f.stat c).ofMatch) [] table =
          (.ok (), Table.remove FlowEntry.key table f.key) := by
      simp only [modFlowEntry, FlowEntry.stat, hflow, Command.apply]
      rfl
    simp only [List.map_cons, deleteRules, hmod]
    exact ih _ _ h

/-- While every VLAN with a counter keeps a rule, no counter is removed. -/
theorem updateVlanList_eq (hi : Numbered ac s) {ruleId : QosId}
    (h : ∀ v, (s.vlanList.get? v).isSome → v ≠ vlanidNone →
      ∃ f ∈ s.table, AclPriority f.priority ∧ vlanOf f = v ∧ ¬ Chosen ruleId vlanId f) :
    updateVlanList s.vlanList (stayingVlans ruleId vlanId (getFlowStats c s.table)) =
      (.ok (), s.vlanList) := by
  have hnone : (s.vlanList.keys.find? fun v => v ≠ vlanidNone ∧
      Value.int v ∉ stayingVlans ruleId vlanId (getFlowStats c s.table)) = none := by
    rw [List.find?_eq_none]
    intro v hv hp
    obtain ⟨hne, hnot⟩ := of_decide_eq_true hp
    obtain ⟨f, hf, ha, hfv, hc⟩ := h v (Dict.mem_keys_iff.mp hv) hne
    have hff := hi.findable f hf ha
    refine hnot (List.mem_map.mpr ⟨f.stat c, List.mem_filter.mpr ⟨List.mem_map_of_mem hf, ?_⟩, ?_⟩)
    · exact decide_eq_true ⟨ha, mt (selects_iff hff).mp hc⟩
    · rw [hff.vid, hfv]
  rw [updateVlanList, hnone]

theorem chosen_of_selects (hi : Numbered ac s) {ruleId : QosId} (hf : f ∈ s.table) :
    Selects ruleId vlanId (f.stat c) ↔ Chosen ruleId vlanId f := by
  constructor
  · intro hsel
    exact (selects_iff (hi.findable f hf hsel.1)).mp hsel
  · intro hc
    exact (selects_iff (hi.findable f hf hc.1)).mpr hc

/-- An orderly deletion removes exactly the rules it is asked for. -/
theorem deleteRule_spec (hi : Numbered ac s) {ruleId : QosId} {rest : Option Value}
    (hr : toRuleId rest = .ok ruleId)
    (h : ∀ v, (s.vlanList.get? v).isSome → v ≠ vlanidNone →
      ∃ f ∈ s.table, AclPriority f.priority ∧ vlanOf f = v ∧ ¬ Chosen ruleId vlanId f) :
    (deleteRule ac c s rest vlanId).1.isOk ∧
      (deleteRule ac c s rest vlanId).2.vlanList = s.vlanList ∧
      ∀ f, f ∈ (deleteRule ac c s rest vlanId).2.table ↔
        f ∈ s.table ∧ ¬ Chosen ruleId vlanId f := by
  have hfilter : (getFlowStats c s.table).filter (fun flow => Selects ruleId vlanId flow) =
      (s.table.filter fun f => Selects ruleId vlanId (f.stat c)).map (FlowEntry.stat c) :=
    List.filter_map
  have hmem : ∀ f, f ∈ (s.table.filter fun f => Selects ruleId vlanId (f.stat c)) ↔
      f ∈ s.table ∧ Chosen ruleId vlanId f := by
    intro f
    rw [List.mem_filter, decide_eq_true_iff]
    exact and_congr_right fun hf => chosen_of_selects hi hf
  simp only [deleteRule, hr, updateVlanList_eq hi h, hfilter]
  split
  · next hnil =>
    refine ⟨rfl, rfl, ?_⟩
    intro f
    refine (and_iff_left_of_imp ?_).symm
    intro hf hc
    have hempty := List.map_eq_nil_iff.mp hnil
    have hin := (hmem f).mpr ⟨hf, hc⟩
    rw [hempty] at hin
    cases hin
  · obtain ⟨hok, htable⟩ := @deleteRules_eq c ac
      (s.table.filter fun f => Selects ruleId vlanId (f.stat c)) s.table Dict.empty (by
        intro f hf
        obtain ⟨hf, hc⟩ := (hmem f).mp hf
        exact ⟨(hi.findable f hf hc.1).back, hi.sound.bound f hf⟩)
    refine ⟨by simpa using hok, rfl, ?_⟩
    intro f
    simp only [htable, Table.mem_removeAll]
    refine and_congr_right ?_
    intro hf
    refine not_congr ?_
    rw [List.mem_map]
    constructor
    · rintro ⟨g, hg, hk⟩
      obtain ⟨hg, hc⟩ := (hmem g).mp hg
      rwa [← hi.sound.keyed.eq hg hf hk]
    · intro hc
      exact ⟨f, (hmem f).mpr ⟨hf, hc⟩, rfl⟩

/-- A table with fewer rules. -/
theorem Numbered.of_subset (hi : Numbered ac s) {s' : Firewall c} (hsound : Sound s'.table)
    (hv : s'.vlanList = s.vlanList)
    (hsub : ∀ f ∈ s'.table, AclPriority f.priority → f ∈ s.table) : Numbered ac s' := by
  refine ⟨hsound, ?_, ?_, ?_, ?_⟩
  · intro f hf ha
    exact hi.findable f (hsub f hf ha) ha
  · rw [hv]
    exact hi.small
  · rw [hv]
    intro f hf ha
    exact hi.counted f (hsub f hf ha) ha
  · intro f hf g hg hfa hga
    exact hi.distinct f (hsub f hf hfa) g (hsub g hg hga) hfa hga

/-- A flow of the firewall itself is added or deleted. -/
theorem own_modFlowEntry {cmd : Command} {priority : ℕ} (hp : priority < 256 ^ 2)
    (ha : ¬ AclPriority priority) (table : List (FlowEntry c.Match)) :
    (modFlowEntry c cmd 0 priority Dict.empty [] table).1.isOk ∧
      ∀ f ∈ (modFlowEntry c cmd 0 priority Dict.empty [] table).2, AclPriority f.priority →
        f ∈ table := by
  have hflow : toFlow c 0 priority Dict.empty [] = .ok ⟨0, priority, c.any, []⟩ :=
    toFlow_ok c.toMatch_empty rfl hp
  simp only [modFlowEntry, hflow]
  refine ⟨rfl, ?_⟩
  intro f hf hfa
  cases cmd with
  | add =>
    rcases Table.mem_put.mp hf with rfl | ⟨hf, -⟩
    · exact absurd hfa ha
    · exact hf
  | deleteStrict => exact (Table.mem_remove.mp hf).1

theorem Findable.of_eq (h : Findable ac f) (hc : g.cookie = f.cookie) (hm : g.ofMatch = f.ofMatch) :
    Findable ac g := by
  have hv : vlanOf g = vlanOf f := congrArg (· >>> cookieShiftVlanid) hc
  refine ⟨?_, hm.symm ▸ h.back, hm.symm ▸ h.shown⟩
  rw [hv, ← h.vid, vidOf, FlowEntry.stat, hm]
  rfl

theorem numbered_setLogStatus (hi : Numbered ac s) (isEnable : Bool) :
    (setLogStatus ac c isEnable s.table).1.isOk ∧
      Numbered ac { s with table := (setLogStatus ac c isEnable s.table).2 } := by
  have hb := fun f hf ha => (hi.findable f hf ha).back
  obtain ⟨hok, -, hmem⟩ := setLogStatus_spec hi.sound hb isEnable
  refine ⟨by rw [hok]; rfl, sound_setLogStatus hi.sound hb isEnable, ?_, hi.small, ?_, ?_⟩
  · intro g hg ha
    obtain ⟨f, hf, rfl⟩ := (hmem g).mp hg
    obtain ⟨hc, hp, hm⟩ := relogged_eq isEnable f
    exact (hi.findable f hf (hp ▸ ha)).of_eq hc hm
  · intro g hg ha
    obtain ⟨f, hf, rfl⟩ := (hmem g).mp hg
    obtain ⟨hc, hp, -⟩ := relogged_eq isEnable f
    have hn := hi.counted f hf (hp ▸ ha)
    unfold vlanOf at hn ⊢
    rwa [hc]
  · intro g hg g' hg' ha ha' hgc
    obtain ⟨f, hf, rfl⟩ := (hmem g).mp hg
    obtain ⟨f', hf', rfl⟩ := (hmem g').mp hg'
    obtain ⟨hc, hp, -⟩ := relogged_eq isEnable f
    obtain ⟨hc', hp', -⟩ := relogged_eq isEnable f'
    rw [hi.distinct f hf f' hf' (hp ▸ ha) (hp' ▸ ha') (hc.symm.trans (hgc.trans hc'))]

theorem served_setRule (hshown : ∀ value m, bodyMatch c value = some m →
      (toRest ac (c.matchToStr m)).isOk) (hi : Numbered ac s)
    (ho : Orderly ac s (.setRule vlanId rest)) :
    Served ac s (.setRule vlanId rest) ∧ Numbered ac (step ac c s (.setRule vlanId rest)) := by
  cases hv : convTointVlanid vlanId with
  | error e =>
    have hreq : request ac c s (.setRule vlanId rest) = (.error e, s) := by
      simp only [request, hv]
    rw [step, hreq]
    refine ⟨⟨?_, ?_, fun _ _ _ _ heq => (by cases heq)⟩, hi⟩
    · rw [hreq]
      exact (convTointVlanid_completes vlanId).error hv
    · intro vlanId' rest' vid msgs heq hv'
      cases heq
      cases hv.symm.trans hv'
  | ok vid =>
    obtain ⟨hs, hset⟩ := ho vid hv
    obtain ⟨hn, hacc⟩ := numbered_addRule hshown hi hs hset
    have hreq : request ac c s (.setRule vlanId rest) =
        ((addRule c s rest vid).1.map fun _ => (), (addRule c s rest vid).2.2) := by
      simp only [request, hv]
    have hstep : step ac c s (.setRule vlanId rest) = (addRule c s rest vid).2.2 := by
      rw [step, hreq]
    refine ⟨⟨?_, ?_, fun _ _ _ _ heq => (by cases heq)⟩, hstep ▸ hn⟩
    · rw [hreq]
      exact (completes_map _).mpr (setRules_completes _ _ _)
    · intro vlanId' rest' vid' msgs heq hv' hmsgs msg hmsg
      cases heq
      obtain rfl : vid' = vid := Except.ok.inj (hv'.symm.trans hv)
      obtain ⟨f, hf, ha, hvlan, hid⟩ := hacc msgs hmsgs msg hmsg
      rw [hstep]
      exact ⟨f, hf, ha, hvlan, hid, (hn.allListed f hf ha).1⟩

theorem served_deleteRule {ruleId : Option Value} (hi : Numbered ac s)
    (ho : Orderly ac s (.deleteRule vlanId ruleId)) :
    Served ac s (.deleteRule vlanId ruleId) ∧
      Numbered ac (step ac c s (.deleteRule vlanId ruleId)) := by
  cases hv : convTointVlanid vlanId with
  | error e =>
    have hreq : request ac c s (.deleteRule vlanId ruleId) = (.error e, s) := by
      simp only [request, hv]
    rw [step, hreq]
    refine ⟨⟨?_, fun _ _ _ _ heq => (by cases heq), ?_⟩, hi⟩
    · rw [hreq]
      exact (convTointVlanid_completes vlanId).error hv
    · intro vlanId' ruleId' vid id heq hv'
      cases heq
      cases hv.symm.trans hv'
  | ok vid =>
    have hreq : request ac c s (.deleteRule vlanId ruleId) =
        ((deleteRule ac c s ruleId vid).1.map fun _ => (), (deleteRule ac c s ruleId vid).2) := by
      simp only [request, hv]
    have hstep : step ac c s (.deleteRule vlanId ruleId) = (deleteRule ac c s ruleId vid).2 := by
      rw [step, hreq]
    cases hr : toRuleId ruleId with
    | error e =>
      have hdel : deleteRule ac c s ruleId vid = (.error e, s) := by simp only [deleteRule, hr]
      refine ⟨⟨?_, fun _ _ _ _ heq => (by cases heq), ?_⟩, ?_⟩
      · rw [hreq, hdel]
        exact (toRuleId_completes ruleId).error hr
      · intro vlanId' ruleId' vid' id heq _ hr'
        cases heq
        cases hr.symm.trans hr'
      · rw [hstep, hdel]
        exact hi
    | ok id =>
      obtain ⟨hok, hvl, hmem⟩ := deleteRule_spec hi hr (ho vid id hv hr)
      refine ⟨⟨?_, fun _ _ _ _ heq => (by cases heq), ?_⟩, ?_⟩
      · rw [hreq]
        exact (completes_map _).mpr (completes_of_isOk hok)
      · intro vlanId' ruleId' vid' id' heq hv' hr' f
        cases heq
        obtain rfl : vid' = vid := Except.ok.inj (hv'.symm.trans hv)
        obtain rfl : id' = id := Except.ok.inj (hr'.symm.trans hr)
        rw [hstep]
        exact hmem f
      · rw [hstep]
        exact hi.of_subset (hi.sound.deleteRule ruleId vid) hvl fun f hf _ => ((hmem f).mp hf).1

/-- An orderly request is served, and the rules stay numbered. -/
theorem served_step (hshown : ∀ value m, bodyMatch c value = some m →
      (toRest ac (c.matchToStr m)).isOk) (hi : Numbered ac s) {r : Request} (ho : Orderly ac s r) :
    Served ac s r ∧ Numbered ac (step ac c s r) := by
  cases r with
  | setEnable =>
    obtain ⟨hok, hsub⟩ := @own_modFlowEntry c .deleteStrict statusFlowPriority (by decide)
      (by decide) s.table
    exact ⟨⟨completes_of_isOk hok, nofun, nofun⟩, hi.of_subset (hi.sound.step nofun) rfl hsub⟩
  | setDisable =>
    obtain ⟨hok, hsub⟩ := @own_modFlowEntry c .add statusFlowPriority (by decide) (by decide)
      s.table
    exact ⟨⟨completes_of_isOk hok, nofun, nofun⟩, hi.of_subset (hi.sound.step nofun) rfl hsub⟩
  | setLog isEnable =>
    obtain ⟨hok, hn⟩ := numbered_setLogStatus hi isEnable
    exact ⟨⟨completes_of_isOk hok, nofun, nofun⟩, hn⟩
  | setRule vlanId rest => exact served_setRule hshown hi ho
  | deleteRule vlanId ruleId => exact served_deleteRule hi ho

end Steps

section Runs

theorem numbered_join (ac : AddrConv) (h : (c.toMatch arpMatch).isOk) :
    Numbered ac (Firewall.join c) := by
  obtain ⟨m, hm⟩ := isOk_iff.1 h
  have hnone : ∀ f ∈ (Firewall.join c).table, ¬ AclPriority f.priority := by
    rw [Firewall.join, registOfs_eq hm]
    intro f hf
    simp only [List.mem_cons, List.not_mem_nil, or_false] at hf
    rcases hf with rfl | rfl | rfl
    · exact fun ha => ha.1 rfl
    · exact fun ha => ha.2.1 rfl
    · exact fun ha => ha.2.2 rfl
  refine ⟨sound_join h, ?_, ?_, ?_, ?_⟩
  · intro f hf ha
    exact absurd ha (hnone f hf)
  · intro v
    have hz : counter (Firewall.join c).vlanList v = 0 := by
      rw [Firewall.join, counter_set]
      split <;> rfl
    rw [hz]
    decide
  · intro f hf ha
    exact absurd ha (hnone f hf)
  · intro f hf _ _ ha
    exact absurd ha (hnone f hf)

/-- In a run of orderly requests to a switch that joined every request is served, and throughout it
the rules have distinct pairs of a VLAN and an identifier and are listed. -/
theorem rulesServed_of_orderly (ac : AddrConv) (aton : Text → Option ℕ) (version : OfVersion)
    (rs : List Request)
    (h : EveryStep (step ac (version.ofctl ac aton)) (Orderly ac) (Firewall.join _) rs) :
    EveryStep (step ac (version.ofctl ac aton)) (Served ac) (Firewall.join _) rs ∧
      Throughout (step ac (version.ofctl ac aton)) (fun s => Distinct s ∧ AllListed ac s)
        (Firewall.join _) rs := by
  have hj : Numbered ac (Firewall.join (version.ofctl ac aton)) :=
    numbered_join ac (arpMatch_isOk ac aton version)
  have hstep : ∀ (s : Firewall (version.ofctl ac aton)) (r : Request), Numbered ac s →
      Orderly ac s r → Served ac s r ∧ Numbered ac (step ac _ s r) := fun s r hs hr =>
    served_step (fun _ _ hm => toRest_isOk_of_bodyMatch ac aton version hm) hs hr
  constructor
  · exact everyStep_of_everyStep hj hstep h
  · exact (throughout_of_everyStep hj (fun s r hs hr => (hstep s r hs hr).2) h).mono
      fun s hs => ⟨hs.distinct_pairs, hs.allListed⟩

/-- A request for one VLAN. -/
theorem orderly_setRule {ac : AddrConv} {s : Firewall c} {v : ℕ} {rest : RuleBody}
    (hv : convTointVlanid (.id v) = .ok (.id v)) (h : counter s.vlanList v + 1 < 2 ^ 32)
    (hm : ∀ m ∈ bodyMatch c (withVlan rest.fields v),
      ((c.matchToStr m).get? (.legacy .dlVlan)).getD (.int vlanidNone) = .int v ∧ ReadsBack ac m) :
    Orderly ac s (.setRule (.id v) rest) := by
  rintro vid hvid
  obtain rfl : .id v = vid := Except.ok.inj (hv.symm.trans hvid)
  refine ⟨?_, fun _ m hbody => ⟨hm m hbody, trivial⟩⟩
  simpa [counted] using h

theorem rulesServed_v10 :
    EveryStep (step plainConv (OfVersion.v10.ofctl plainConv (plainBin .ipv4))) (Served plainConv)
        (Firewall.join _) [.setRule (.id 5) (sourceBody "ALLOW"),
          .setRule (.id 0) (sourceBody "DENY"), .deleteRule (.id 0) (some (.int 1))] ∧
      Throughout (step plainConv (OfVersion.v10.ofctl plainConv (plainBin .ipv4)))
        (fun s => Distinct s ∧ AllListed plainConv s) (Firewall.join _)
        [.setRule (.id 5) (sourceBody "ALLOW"), .setRule (.id 0) (sourceBody "DENY"),
          .deleteRule (.id 0) (some (.int 1))] := by
  refine rulesServed_of_orderly plainConv (plainBin .ipv4) .v10 _ ⟨?_, ?_, ?_, trivial⟩
  · exact orderly_setRule rfl (by decide) (by decide +kernel)
  · exact orderly_setRule rfl (by decide +kernel) (by decide +kernel)
  · rintro vid ruleId hv hr
    obtain rfl : .id 0 = vid := Except.ok.inj hv
    obtain rfl : .id 1 = ruleId := Except.ok.inj hr
    have hall : ∀ v ∈ (step plainConv (OfVersion.v10.ofctl plainConv (plainBin .ipv4))
        (step plainConv (OfVersion.v10.ofctl plainConv (plainBin .ipv4)) (Firewall.join _)
          (.setRule (.id 5) (sourceBody "ALLOW")))
        (.setRule (.id 0) (sourceBody "DENY"))).vlanList.keys, v ≠ vlanidNone →
        ∃ f ∈ (step plainConv (OfVersion.v10.ofctl plainConv (plainBin .ipv4))
          (step plainConv (OfVersion.v10.ofctl plainConv (plainBin .ipv4)) (Firewall.join _)
            (.setRule (.id 5) (sourceBody "ALLOW")))
          (.setRule (.id 0) (sourceBody "DENY"))).table,
          AclPriority f.priority ∧ vlanOf f = v ∧ ¬ Chosen (.id 1) (.id 0) f := by
      decide +kernel
    intro v hsome
    exact hall v (Dict.mem_keys_iff.mpr hsome)

/-- A rule for VLAN 5 makes the next deletion fail. -/
theorem firewallRule_deletion_raises :
    ¬ (EveryStep (step plainConv (OfVersion.v13.ofctl plainConv (plainBin .ipv4)))
        (Served plainConv) (Firewall.join _)
        [.setRule (.id 5) (sourceBody "ALLOW"), .deleteRule (.id 5) (some (.int 1))] ∧
      Throughout (step plainConv (OfVersion.v13.ofctl plainConv (plainBin .ipv4)))
        (fun s => Distinct s ∧ AllListed plainConv s) (Firewall.join _)
        [.setRule (.id 5) (sourceBody "ALLOW"), .deleteRule (.id 5) (some (.int 1))]) := by
  rintro ⟨⟨-, h, -⟩, -⟩
  obtain ⟨message, hm⟩ := h.completes
    (.runtimeError "dictionary changed size during iteration") (by decide +kernel)
  cases hm

end Runs

end Ryu.RestFirewall
