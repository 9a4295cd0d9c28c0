import Ryu.Lib.Run
import Ryu.RestFirewall.Rule

/-! # The table of a firewall

Whatever is requested, the table of a firewall holds rules whose actions are those that a rule can
have, and the flow that tells the log status. Each request adds flows, deletes rules, or rewrites
the actions of flows.
-/

namespace Ryu.RestFirewall

open Numeral Qos

section Actions

variable {c : Ofctl}

def normalOutput (c : Ofctl) : Output := ⟨c.ofppNormal, 0xffe5⟩

def controllerOutput (c : Ofctl) : Output := ⟨c.ofppController, 128⟩

/-- The actions of the log status. -/
def logOutputs (c : Ofctl) (isEnable : Bool) : List Output :=
  if isEnable then [controllerOutput c] else []

theorem fromUser_normal (c : Ofctl) :
    reservedNumFromUser "OFPP_".toList c.ofpp (.str "NORMAL".toList) = .int c.ofppNormal := by
  have hi : int0? "NORMAL".toList = none := by decide
  have hp : ¬ "OFPP_".toList <+: "NORMAL".toList := by decide
  have hu : "NORMAL".toList.map Char.toUpper = "NORMAL".toList := by decide
  simp only [reservedNumFromUser, hi, if_neg hp, hu, c.normal]

theorem fromUser_controller (c : Ofctl) :
    reservedNumFromUser "OFPP_".toList c.ofpp (.str "CONTROLLER".toList) =
      .int c.ofppController := by
  have hi : int0? "CONTROLLER".toList = none := by decide
  have hp : ¬ "OFPP_".toList <+: "CONTROLLER".toList := by decide
  have hu : "CONTROLLER".toList.map Char.toUpper = "CONTROLLER".toList := by decide
  simp only [reservedNumFromUser, hi, if_neg hp, hu, c.controller]

theorem toActions_normal (c : Ofctl) :
    toActions c [⟨"NORMAL".toList, none⟩] = .ok [normalOutput c] := by
  simp only [toActions, fromUser_normal, pack_natCast c.normal_lt]
  rfl

theorem toActions_logActions (c : Ofctl) (isEnable : Bool) :
    toActions c (logActions isEnable) = .ok (logOutputs c isEnable) := by
  cases isEnable with
  | false => rfl
  | true =>
    simp only [logActions, if_true, toActions, fromUser_controller, pack_natCast c.controller_lt]
    rfl

theorem outputToStr_normal (c : Ofctl) :
    outputToStr c (normalOutput c) = "OUTPUT:".toList ++ "NORMAL".toList := by
  have hn : reservedText c.ofpp c.ofppNormal = "NORMAL".toList := by
    rw [reservedText, c.normalToUser]
    rfl
  exact congrArg ("OUTPUT:".toList ++ ·) hn

theorem outputToStr_controller (c : Ofctl) :
    outputToStr c (controllerOutput c) = "OUTPUT:".toList ++ "CONTROLLER".toList := by
  have hn : reservedText c.ofpp c.ofppController = "CONTROLLER".toList := by
    rw [reservedText, c.controllerToUser]
    rfl
  exact congrArg ("OUTPUT:".toList ++ ·) hn

/-- The port is never written as the number that `_set_log_status` looks for. -/
theorem outputNormal_ne (c : Ofctl) {t : Text} {x : Char} (hx : x.isDigit = false) :
    "OUTPUT:".toList ++ x :: t ≠ outputNormal c := by
  intro h
  have hd : x :: t = dec c.ofppNormal := List.append_cancel_left h
  exact not_mem_dec hx (hd ▸ List.mem_cons_self)

end Actions

section Reports

variable {c : Ofctl} {f : FlowEntry c.Match} {isEnable : Bool}

/-- The flow outputs packets as a switch without a firewall would. -/
def Forwards (f : FlowEntry c.Match) : Prop := ∃ a ∈ f.actions, a.port = c.ofppNormal

/-- The flow outputs packets to the controller. -/
def Copies (f : FlowEntry c.Match) : Prop := ∃ a ∈ f.actions, a.port = c.ofppController

/-- How `get_rules` reports the flow. -/
def reported (f : FlowEntry c.Match) : RestAction := actionToRest (f.stat c).actions

/-- The actions of the flow are those of a rule. -/
def Plain (f : FlowEntry c.Match) : Prop :=
  f.actions = [normalOutput c] ∨ ∃ isEnable, f.actions = logOutputs c isEnable

theorem ofpp_ne (c : Ofctl) : c.ofppNormal ≠ c.ofppController := by
  intro h
  have hn := c.normalToUser
  rw [h, c.controllerToUser] at hn
  exact absurd hn (by decide)

theorem forwards_of_normal (h : f.actions = [normalOutput c]) : Forwards f :=
  ⟨normalOutput c, by simp [h], rfl⟩

theorem not_forwards_of_log (h : f.actions = logOutputs c isEnable) : ¬ Forwards f := by
  rintro ⟨a, ha, hp⟩
  rw [h] at ha
  cases isEnable with
  | false => cases ha
  | true =>
    obtain rfl : a = controllerOutput c := by simpa [logOutputs] using ha
    exact ofpp_ne c hp.symm

theorem copies_of_log (h : f.actions = logOutputs c isEnable) : Copies f ↔ isEnable = true := by
  cases isEnable with
  | false => simp [Copies, h, logOutputs]
  | true => simp [Copies, h, logOutputs, controllerOutput]

theorem reported_of_normal (h : f.actions = [normalOutput c]) : reported f = .allow := by
  have ht : (f.stat c).actions = ["OUTPUT:NORMAL".toList] := by
    simp only [FlowEntry.stat, h, List.map_cons, List.map_nil, outputToStr_normal]
    decide
  rw [reported, actionToRest, if_pos ht]

theorem reported_of_log (h : f.actions = logOutputs c isEnable) : reported f = .deny := by
  have ht : (f.stat c).actions ≠ ["OUTPUT:NORMAL".toList] := by
    simp only [FlowEntry.stat, h]
    cases isEnable with
    | false => simp [logOutputs]
    | true =>
      simp only [logOutputs, if_true, List.map_cons, List.map_nil, outputToStr_controller]
      decide
  rw [reported, actionToRest, if_neg ht]

/-- What is reported is what is done. -/
theorem Plain.reported (h : Plain f) : reported f = .allow ↔ Forwards f := by
  rcases h with hn | ⟨isEnable, hl⟩
  · exact iff_of_true (reported_of_normal hn) (forwards_of_normal hn)
  · refine iff_of_false ?_ (not_forwards_of_log hl)
    rw [reported_of_log hl]
    decide

/-- No flow is passed over for its actions. -/
theorem Plain.skipped (h : Plain f) : Skipped c (f.stat c) ↔
    f.priority = statusFlowPriority ∨ f.priority = arpFlowPriority := by
  have ht : (f.stat c).actions ≠ [outputNormal c] := by
    simp only [FlowEntry.stat]
    rcases h with hn | ⟨isEnable, hl⟩
    · simp only [hn, List.map_cons, List.map_nil, outputToStr_normal]
      intro heq
      exact outputNormal_ne c (by decide) (List.singleton_inj.mp heq)
    · cases isEnable with
      | false => simp [hl, logOutputs]
      | true =>
        simp only [hl, logOutputs, if_true, List.map_cons, List.map_nil, outputToStr_controller]
        intro heq
        exact outputNormal_ne c (by decide) (List.singleton_inj.mp heq)
  simp only [Skipped, ht, or_false]
  rfl

end Reports

section Sound

variable {c : Ofctl} {table : List (FlowEntry c.Match)} {f : FlowEntry c.Match} {cookie : ℕ}
  {rest : RuleBody} {vlanId : ℕ}

/-- What holds of the table of a firewall, whatever is requested. -/
structure Sound (table : List (FlowEntry c.Match)) : Prop where
  keyed : Table.Keyed FlowEntry.key table
  plain : ∀ f ∈ table, Plain f
  bound : ∀ f ∈ table, f.priority < 256 ^ 2
  hasLog : ∃ f ∈ table, f.priority = logFlowPriority
  log : ∀ f ∈ table, f.priority = logFlowPriority →
    f.ofMatch = c.any ∧ ∃ isEnable, f.actions = logOutputs c isEnable

theorem Sound.put (h : Sound table) (hp : Plain f) (hb : f.priority < 256 ^ 2)
    (hl : f.priority ≠ logFlowPriority) : Sound (Table.put FlowEntry.key table f) where
  keyed := h.keyed.put f
  plain := by
    intro g hg
    rcases Table.mem_put.mp hg with rfl | ⟨hg, -⟩
    · exact hp
    · exact h.plain g hg
  bound := by
    intro g hg
    rcases Table.mem_put.mp hg with rfl | ⟨hg, -⟩
    · exact hb
    · exact h.bound g hg
  hasLog := by
    obtain ⟨g, hg, hgl⟩ := h.hasLog
    refine ⟨g, Table.mem_put.mpr (.inr ⟨hg, ?_⟩), hgl⟩
    intro hk
    exact hl ((congrArg Prod.fst hk).symm.trans hgl)
  log := by
    intro g hg hgl
    rcases Table.mem_put.mp hg with rfl | ⟨hg, -⟩
    · exact absurd hgl hl
    · exact h.log g hg hgl

theorem Sound.remove (h : Sound table) {k : ℕ × c.Match} (hl : k.1 ≠ logFlowPriority) :
    Sound (Table.remove FlowEntry.key table k) where
  keyed := h.keyed.remove k
  plain := fun g hg => h.plain g (Table.mem_remove.mp hg).1
  bound := fun g hg => h.bound g (Table.mem_remove.mp hg).1
  hasLog := by
    obtain ⟨g, hg, hgl⟩ := h.hasLog
    refine ⟨g, Table.mem_remove.mpr ⟨hg, ?_⟩, hgl⟩
    rintro rfl
    exact hl hgl
  log := fun g hg => h.log g (Table.mem_remove.mp hg).1

theorem toFlow_eq_ok {priority : ℤ} {attrs : Dict RestKey Value} {actions : List OutputDict}
    (h : toFlow c cookie priority attrs actions = .ok f) :
    f.cookie = cookie ∧ (priority = f.priority ∧ f.priority < 256 ^ 2) ∧
      c.toMatch attrs = .ok f.ofMatch ∧ toActions c actions = .ok f.actions := by
  unfold toFlow at h
  split at h
  · cases h
  · next hm =>
    split at h
    · cases h
    · next ha =>
      obtain ⟨p, hp, rfl⟩ := map_eq_ok.1 h
      exact ⟨rfl, pack_eq_ok hp, hm, ha⟩

theorem toFlow_ok {priority : ℕ} {attrs : Dict RestKey Value} {actions : List OutputDict}
    {m : c.Match} {outputs : List Output} (hm : c.toMatch attrs = .ok m)
    (ha : toActions c actions = .ok outputs) (hp : priority < 256 ^ 2) :
    toFlow c cookie priority attrs actions = .ok ⟨cookie, priority, m, outputs⟩ := by
  simp only [toFlow, hm, ha, pack_natCast hp]
  rfl

/-- An entry that is added or deleted, under another priority than that of the log. -/
theorem Sound.modFlowEntry {cmd : Command} {priority : ℕ} {attrs : Dict RestKey Value}
    {actions : List OutputDict} {outputs : List Output} (h : Sound table)
    (ha : toActions c actions = .ok outputs)
    (hp : cmd = .add → outputs = [normalOutput c] ∨ ∃ isEnable, outputs = logOutputs c isEnable)
    (hl : priority ≠ logFlowPriority) :
    Sound (modFlowEntry c cmd cookie priority attrs actions table).2 := by
  unfold RestFirewall.modFlowEntry
  split
  · exact h
  · next f hf =>
    obtain ⟨-, ⟨hpr, hb⟩, -, hacts⟩ := toFlow_eq_ok hf
    obtain rfl : priority = f.priority := Int.ofNat_inj.mp hpr
    obtain rfl : outputs = f.actions := Except.ok.inj (ha.symm.trans hacts)
    cases cmd with
    | add => exact h.put (hp rfl) hb hl
    | deleteStrict => exact h.remove hl

theorem plain_of_openflow {actions : Option Value} {dicts : List OutputDict}
    {outputs : List Output} (h : actionToOpenflow actions = .ok dicts)
    (ha : toActions c dicts = .ok outputs) :
    outputs = [normalOutput c] ∨ ∃ isEnable, outputs = logOutputs c isEnable := by
  unfold actionToOpenflow at h
  dsimp only at h
  split at h
  · obtain rfl := Except.ok.inj h
    exact .inl (Except.ok.inj (ha.symm.trans (toActions_normal c)))
  · split at h
    · obtain rfl := Except.ok.inj h
      exact .inr ⟨false, Except.ok.inj (ha.symm.trans (toActions_logActions c false))⟩
    · split at h
      · obtain rfl := Except.ok.inj h
        exact .inr ⟨true, Except.ok.inj (ha.symm.trans (toActions_logActions c true))⟩
      · cases h

/-- What `to_match` makes of the match `Match.to_openflow` makes of a match dictionary. -/
def bodyMatch (c : Ofctl) (value : Dict RestKey Value) : Option c.Match :=
  (toOpenflow value).1.toOption.bind fun attrs => (c.toMatch attrs).toOption

/-- What is known of a rule that is accepted. -/
structure Accepted (cookie : ℕ) (rest : RuleBody) (vlanId : ℕ) (f : FlowEntry c.Match) : Prop where
  cookie : f.cookie = cookie
  priority : pyInt (rest.priority.getD (.int aclFlowPriorityMin)) = .ok (f.priority : ℤ)
  acl : aclFlowPriorityMin ≤ f.priority ∧ f.priority ≤ aclFlowPriorityMax
  ofMatch : bodyMatch c (withVlan rest.fields vlanId) = some f.ofMatch
  plain : Plain f

theorem setRule_eq_ok (h : (setRule c cookie rest vlanId table).1 = .ok f) :
    Accepted cookie rest vlanId f := by
  unfold setRule at h
  split at h
  · cases h
  · next priority hp =>
    split at h
    · cases h
    · next hrange =>
      dsimp only at h
      split at h
      · cases h
      · next attrs hattrs =>
        split at h
        · cases h
        · next dicts hdicts =>
          split at h
          · cases h
          · next hflow =>
            obtain rfl := Except.ok.inj h
            obtain ⟨hc, ⟨rfl, -⟩, hm, ha⟩ := toFlow_eq_ok hflow
            refine ⟨hc, hp, by omega, ?_, plain_of_openflow hdicts ha⟩
            simp [bodyMatch, hattrs, hm, Except.toOption]

theorem Accepted.aclPriority (h : Accepted cookie rest vlanId f) : AclPriority f.priority := by
  have hacl := h.acl
  unfold AclPriority
  unfold aclFlowPriorityMax aclFlowPriorityMin arpFlowPriority statusFlowPriority
    logFlowPriority at *
  omega

theorem Accepted.bound (h : Accepted cookie rest vlanId f) : f.priority < 256 ^ 2 := by
  have hacl := h.acl
  unfold aclFlowPriorityMax arpFlowPriority statusFlowPriority at hacl
  omega

theorem Sound.setRules (h : Sound table) (cookies : List (ℕ × ℕ)) (rest : RuleBody) :
    Sound (setRules c cookies rest table).2.2 := by
  induction cookies generalizing table rest with
  | nil => exact h
  | cons cookie cookies ih =>
    obtain ⟨cookie, vlanId⟩ := cookie
    unfold RestFirewall.setRules
    split
    · exact h
    · next f rest' hr =>
      have hacc : Accepted cookie rest vlanId f := setRule_eq_ok (by rw [hr])
      exact ih (h.put hacc.plain hacc.bound hacc.aclPriority.2.2) rest'

theorem Sound.deleteRules {ac : AddrConv} {flows : List FlowStat} {ids : Dict Value (List ℕ)}
    (h : Sound table) (hl : ∀ flow ∈ flows, flow.priority ≠ logFlowPriority) :
    Sound (deleteRules ac c flows table ids).2 := by
  induction flows generalizing table ids with
  | nil => exact h
  | cons flow flows ih =>
    obtain ⟨hflow, hl⟩ := List.forall_mem_cons.mp hl
    have hs : Sound (RestFirewall.modFlowEntry c .deleteStrict flow.cookie flow.priority
        (toModOpenflow ac flow.ofMatch) [] table).2 := h.modFlowEntry rfl nofun hflow
    unfold RestFirewall.deleteRules
    dsimp only
    split
    · next hr => rwa [hr] at hs
    · next hr =>
      rw [hr] at hs
      exact ih hs hl

/-- The table of a switch that joined: the flows of a firewall that is stopped, of ARP packets, and
of the log. -/
theorem registOfs_eq {m : c.Match} (h : c.toMatch arpMatch = .ok m) : registOfs c =
    (.ok (), [⟨0, statusFlowPriority, c.any, []⟩, ⟨0, arpFlowPriority, m, [normalOutput c]⟩,
      ⟨0, logFlowPriority, c.any, logOutputs c true⟩]) := by
  have hd : toFlow c 0 (statusFlowPriority : ℕ) Dict.empty [] =
      .ok ⟨0, statusFlowPriority, c.any, []⟩ := toFlow_ok c.toMatch_empty rfl (by decide)
  have ha : toFlow c 0 (arpFlowPriority : ℕ) arpMatch [⟨"NORMAL".toList, none⟩] =
      .ok ⟨0, arpFlowPriority, m, [normalOutput c]⟩ :=
    toFlow_ok h (toActions_normal c) (by decide)
  have hl : toFlow c 0 (logFlowPriority : ℕ) Dict.empty (logActions true) =
      .ok ⟨0, logFlowPriority, c.any, logOutputs c true⟩ :=
    toFlow_ok c.toMatch_empty (toActions_logActions c true) (by decide)
  simp only [registOfs, setDisableFlow, setArpFlow, initLogFlow, andThen, RestFirewall.modFlowEntry,
    hd, ha, hl, Command.apply]
  simp [Table.put, Table.remove, FlowEntry.key, statusFlowPriority, arpFlowPriority,
    logFlowPriority]

theorem sound_join (h : (c.toMatch arpMatch).isOk) : Sound (Firewall.join c).table := by
  obtain ⟨m, hm⟩ := isOk_iff.1 h
  rw [Firewall.join, registOfs_eq hm]
  refine ⟨?_, ?_, ?_, ⟨_, .tail _ (.tail _ (.head _)), rfl⟩, ?_⟩
  · simp [Table.Keyed, FlowEntry.key, statusFlowPriority, arpFlowPriority, logFlowPriority]
  · rintro f hf
    simp only [List.mem_cons, List.not_mem_nil, or_false] at hf
    rcases hf with rfl | rfl | rfl
    · exact .inr ⟨false, rfl⟩
    · exact .inl rfl
    · exact .inr ⟨true, rfl⟩
  · simp [statusFlowPriority, arpFlowPriority, logFlowPriority]
  · rintro f hf hl
    simp only [List.mem_cons, List.not_mem_nil, or_false] at hf
    rcases hf with rfl | rfl | rfl
    · cases hl
    · cases hl
    · exact ⟨rfl, true, rfl⟩

/-- The match of ARP packets is one in every version. -/
theorem arpMatch_isOk (ac : AddrConv) (aton : Text → Option ℕ) (version : OfVersion) :
    ((version.ofctl ac aton).toMatch arpMatch).isOk := by
  cases version <;> rfl

theorem Sound.addRule {s : Firewall c} (h : Sound s.table) (rest : RuleBody) (vlanId : VlanId) :
    Sound (addRule c s rest vlanId).2.2.table :=
  h.setRules _ rest

theorem Sound.deleteRule {ac : AddrConv} {s : Firewall c} (h : Sound s.table)
    (ruleId : Option Value) (vlanId : VlanId) :
    Sound (deleteRule ac c s ruleId vlanId).2.table := by
  unfold RestFirewall.deleteRule
  split
  · exact h
  · next qid _ =>
    dsimp only
    split
    · exact h
    · split
      · exact h
      · refine h.deleteRules ?_
        intro flow hflow
        have hsel := (List.mem_filter.mp hflow).2
        exact (of_decide_eq_true hsel).1.2.2

/-- The requests that add and delete flows. -/
theorem Sound.step {ac : AddrConv} {s : Firewall c} (h : Sound s.table) {r : Request}
    (hr : ∀ isEnable, r ≠ .setLog isEnable) : Sound (step ac c s r).table := by
  cases r with
  | setEnable => exact h.modFlowEntry rfl nofun (by decide)
  | setDisable => exact h.modFlowEntry rfl (fun _ => .inr ⟨false, rfl⟩) (by decide)
  | setLog isEnable => exact absurd rfl (hr isEnable)
  | setRule vlanId rest =>
    simp only [RestFirewall.step, request]
    split
    · exact h
    · exact h.addRule rest _
  | deleteRule vlanId ruleId =>
    simp only [RestFirewall.step, request]
    split
    · exact h
    · exact h.deleteRule ruleId _

end Sound

end Ryu.RestFirewall
