import Ryu.RestFirewall.Table

/-! # Changing the log status

A change of the log status rewrites the flows of a switch but those it recognises as forwarding.
It recognises none, since the port is written by its name: the rules that forward drop afterwards.
Without such rules, and as long as the matches of the others are read back, only the copies to the
controller change.
-/

namespace Ryu.RestFirewall

open Qos

variable {c : Ofctl} {ac : AddrConv} {π : Type}

section Decisions

/-- The flow is one of the highest priority among those that the packet hits. -/
structure Serves (hits : c.Match → π → Prop) (table : List (FlowEntry c.Match)) (p : π)
    (f : FlowEntry c.Match) : Prop where
  mem : f ∈ table
  hit : hits f.ofMatch p
  highest : ∀ g ∈ table, hits g.ofMatch p → g.priority ≤ f.priority

/-- A flow that serves the packet forwards it, or does not. -/
def Decides (hits : c.Match → π → Prop) (table : List (FlowEntry c.Match)) (p : π)
    (forwards : Prop) : Prop :=
  ∃ f, Serves hits table p f ∧ (Forwards f ↔ forwards)

/-- What a change of the log status keeps: what is decided of any packet, how each rule is reported
and that it does so; and afterwards the rules that deny agree with the log status. -/
structure Kept (hits : c.Match → π → Prop) (isEnable : Bool)
    (r : Except PyError Unit × List (FlowEntry c.Match)) (table : List (FlowEntry c.Match)) :
    Prop where
  completes : r.1 = .ok ()
  decisions : ∀ p forwards, Decides hits table p forwards ↔ Decides hits r.2 p forwards
  rules : ∀ f ∈ table, AclPriority f.priority → ∃ g ∈ r.2, g.key = f.key ∧ g.cookie = f.cookie ∧
    reported g = reported f ∧ (Forwards g ↔ reported f = .allow)
  status : getLogStatus c r.2 = isEnable
  agree : ∀ g ∈ r.2, AclPriority g.priority → reported g = .deny →
    (Copies g ↔ getLogStatus c r.2 = true)

/-- If the request changes the log status, it keeps that. -/
def LogKept (ac : AddrConv) (hits : c.Match → π → Prop) (s : Firewall c) (r : Request) : Prop :=
  ∀ isEnable, r = .setLog isEnable → Kept hits isEnable (setLogStatus ac c isEnable s.table) s.table

/-- The match is read back from what the statistics say. -/
def ReadsBack (ac : AddrConv) (m : c.Match) : Prop :=
  c.toMatch (toModOpenflow ac (c.matchToStr m)) = .ok m

/-- The log status is changed while no rule forwards and the matches of all rules are read back. -/
def LogSafe (ac : AddrConv) (s : Firewall c) (r : Request) : Prop :=
  ∀ isEnable, r = .setLog isEnable → ∀ f ∈ s.table, AclPriority f.priority →
    reported f = .deny ∧ ReadsBack ac f.ofMatch

end Decisions

section Rewriting

variable {table : List (FlowEntry c.Match)} {f g : FlowEntry c.Match} {isEnable : Bool}

/-- The flow with the actions of the log status. -/
def FlowEntry.relog (isEnable : Bool) (f : FlowEntry c.Match) : FlowEntry c.Match :=
  { f with actions := logOutputs c isEnable }

/-- The flows that are rewritten are put back one after the other. -/
theorem rewriteFlows_eq (isEnable : Bool) (l table : List (FlowEntry c.Match))
    (h : ∀ f ∈ l, ¬ Skipped c (f.stat c) → ReadsBack ac f.ofMatch ∧ f.priority < 256 ^ 2) :
    rewriteFlows ac c (logActions isEnable) (l.map (FlowEntry.stat c)) table =
      (.ok (), Table.putAll FlowEntry.key table
        ((l.filter fun f => ¬ Skipped c (f.stat c)).map (FlowEntry.relog isEnable))) := by
  induction l generalizing table with
  | nil => rfl
  | cons f l ih =>
    obtain ⟨hf, h⟩ := List.forall_mem_cons.mp h
    simp only [List.map_cons, rewriteFlows]
    by_cases hs : Skipped c (f.stat c)
    · rw [if_pos hs, ih _ h]
      simp [hs]
    · obtain ⟨hb, hp⟩ := hf hs
      have hflow : toFlow c f.cookie f.priority (toModOpenflow ac (c.matchToStr f.ofMatch))
          (logActions isEnable) = .ok (f.relog isEnable) :=
        toFlow_ok hb (toActions_logActions c isEnable) hp
      have hmod : modFlowEntry c .add (f.stat c).cookie (f.stat c).priority
          (toModOpenflow ac (f.stat c).ofMatch) (logActions isEnable) table =
            (.ok (), Table.put FlowEntry.key table (f.relog isEnable)) := by
        simp only [modFlowEntry, FlowEntry.stat, hflow, Command.apply]
      rw [if_neg hs, hmod]
      dsimp only
      rw [ih _ h]
      simp [hs, Table.putAll]

theorem readsBack_any (ac : AddrConv) (c : Ofctl) : ReadsBack ac c.any := by
  rw [ReadsBack, c.matchToStr_any]
  exact c.toMatch_empty

/-- A flow that is rewritten is a rule or that of the log. -/
theorem acl_or_log (hp : f.priority ≠ statusFlowPriority) (ha : f.priority ≠ arpFlowPriority) :
    AclPriority f.priority ∨ f.priority = logFlowPriority := by
  by_cases hl : f.priority = logFlowPriority
  · exact .inr hl
  · exact .inl ⟨hp, ha, hl⟩

/-- What a change of the log status makes of a flow. -/
def relogged (isEnable : Bool) (f : FlowEntry c.Match) : FlowEntry c.Match :=
  if ¬ Skipped c (f.stat c) then f.relog isEnable else f

theorem relogged_eq (isEnable : Bool) (f : FlowEntry c.Match) :
    (relogged isEnable f).cookie = f.cookie ∧ (relogged isEnable f).priority = f.priority ∧
      (relogged isEnable f).ofMatch = f.ofMatch := by
  unfold relogged
  split
  · exact ⟨rfl, rfl, rfl⟩
  · exact ⟨rfl, rfl, rfl⟩

/-- In a table where it is safe, every flow is rewritten at its place, or is passed over. -/
theorem setLogStatus_spec (hs : Sound table)
    (hb : ∀ f ∈ table, AclPriority f.priority → ReadsBack ac f.ofMatch) (isEnable : Bool) :
    (setLogStatus ac c isEnable table).1 = .ok () ∧
      Table.Keyed FlowEntry.key (setLogStatus ac c isEnable table).2 ∧
      ∀ g, g ∈ (setLogStatus ac c isEnable table).2 ↔ ∃ f ∈ table, g = relogged isEnable f := by
  have heq := rewriteFlows_eq isEnable table table fun f hf hsk => by
    rw [(hs.plain f hf).skipped, not_or] at hsk
    refine ⟨?_, hs.bound f hf⟩
    rcases acl_or_log hsk.1 hsk.2 with ha | hl
    · exact hb f hf ha
    · rw [(hs.log f hf hl).1]
      exact readsBack_any ac c
  rw [setLogStatus, getFlowStats, heq]
  exact ⟨rfl, hs.keyed.putAll _, fun g => Table.mem_putAll_map hs.keyed fun _ => rfl⟩

/-- Where no rule forwards, a flow is rewritten with the actions of the log and forwards neither
before nor after that, or it is passed over. -/
theorem relogged_cases (hs : Sound table) (hf : f ∈ table)
    (hd : AclPriority f.priority → reported f = .deny) (isEnable : Bool) :
    (f.priority = statusFlowPriority ∨ f.priority = arpFlowPriority) ∧ relogged isEnable f = f ∨
      (relogged isEnable f).actions = logOutputs c isEnable ∧ ¬ Forwards f ∧
        (AclPriority f.priority ∨ f.priority = logFlowPriority) := by
  have hsk := (hs.plain f hf).skipped
  by_cases hp : f.priority = statusFlowPriority ∨ f.priority = arpFlowPriority
  · refine .inl ⟨hp, ?_⟩
    rw [relogged, if_neg (not_not.mpr (hsk.mpr hp))]
  · have hal := acl_or_log (not_or.mp hp).1 (not_or.mp hp).2
    refine .inr ⟨?_, ?_, hal⟩
    · rw [relogged, if_pos (mt hsk.mp hp)]
      rfl
    · rcases hal with ha | hl
      · intro hfw
        have hallow := (hs.plain f hf).reported.mpr hfw
        rw [hd ha] at hallow
        cases hallow
      · obtain ⟨-, e, he⟩ := hs.log f hf hl
        exact not_forwards_of_log he

theorem forwards_relogged (hs : Sound table) (hf : f ∈ table)
    (hd : AclPriority f.priority → reported f = .deny) (isEnable : Bool) :
    Forwards (relogged isEnable f) ↔ Forwards f := by
  rcases relogged_cases hs hf hd isEnable with ⟨-, heq⟩ | ⟨hl, hn, -⟩
  · rw [heq]
  · exact iff_of_false (not_forwards_of_log hl) hn

/-- The decisions on packets are those of the flows by priority and match. -/
theorem decides_iff (hits : c.Match → π → Prop) {φ : FlowEntry c.Match → FlowEntry c.Match}
    {table' : List (FlowEntry c.Match)} (hmem : ∀ g, g ∈ table' ↔ ∃ f ∈ table, g = φ f)
    (hφ : ∀ f ∈ table, (φ f).priority = f.priority ∧ (φ f).ofMatch = f.ofMatch ∧
      (Forwards (φ f) ↔ Forwards f)) (p : π) (forwards : Prop) :
    Decides hits table p forwards ↔ Decides hits table' p forwards := by
  constructor
  · rintro ⟨f, ⟨hf, hit, hmax⟩, hfw⟩
    obtain ⟨hp, hm, hff⟩ := hφ f hf
    refine ⟨φ f, ⟨(hmem _).mpr ⟨f, hf, rfl⟩, hm ▸ hit, ?_⟩, hff.trans hfw⟩
    intro g hg hgit
    obtain ⟨f', hf', rfl⟩ := (hmem g).mp hg
    obtain ⟨hp', hm', -⟩ := hφ f' hf'
    rw [hp, hp']
    exact hmax f' hf' (hm' ▸ hgit)
  · rintro ⟨g, ⟨hg, hit, hmax⟩, hfw⟩
    obtain ⟨f, hf, rfl⟩ := (hmem g).mp hg
    obtain ⟨hp, hm, hff⟩ := hφ f hf
    refine ⟨f, ⟨hf, hm ▸ hit, ?_⟩, hff.symm.trans hfw⟩
    intro f' hf' hit'
    obtain ⟨hp', hm', -⟩ := hφ f' hf'
    rw [← hp, ← hp']
    exact hmax (φ f') ((hmem _).mpr ⟨f', hf', rfl⟩) (hm'.symm ▸ hit')

/-- A flow has its own actions afterwards, or those of the log. -/
theorem relogged_actions (isEnable : Bool) (f : FlowEntry c.Match) :
    (relogged isEnable f).actions = f.actions ∨
      (relogged isEnable f).actions = logOutputs c isEnable := by
  unfold relogged
  split
  · exact .inr rfl
  · exact .inl rfl

theorem sound_setLogStatus (hs : Sound table)
    (hb : ∀ f ∈ table, AclPriority f.priority → ReadsBack ac f.ofMatch) (isEnable : Bool) :
    Sound (setLogStatus ac c isEnable table).2 := by
  obtain ⟨-, hkeyed, hmem⟩ := setLogStatus_spec hs hb isEnable
  refine ⟨hkeyed, ?_, ?_, ?_, ?_⟩
  · intro g hg
    obtain ⟨f, hf, rfl⟩ := (hmem g).mp hg
    rcases relogged_actions isEnable f with ha | ha
    · rw [Plain, ha]
      exact hs.plain f hf
    · exact .inr ⟨isEnable, ha⟩
  · intro g hg
    obtain ⟨f, hf, rfl⟩ := (hmem g).mp hg
    rw [(relogged_eq isEnable f).2.1]
    exact hs.bound f hf
  · obtain ⟨f, hf, hl⟩ := hs.hasLog
    exact ⟨_, (hmem _).mpr ⟨f, hf, rfl⟩, (relogged_eq isEnable f).2.1.trans hl⟩
  · intro g hg hl
    obtain ⟨f, hf, rfl⟩ := (hmem g).mp hg
    rw [(relogged_eq isEnable f).2.1] at hl
    rw [(relogged_eq isEnable f).2.2]
    obtain ⟨hm, e, he⟩ := hs.log f hf hl
    refine ⟨hm, ?_⟩
    rcases relogged_actions isEnable f with ha | ha
    · exact ⟨e, ha.trans he⟩
    · exact ⟨isEnable, ha⟩

/-- The log status is whether the flow of the log has actions. -/
theorem getLogStatus_iff : getLogStatus c table = true ↔
    ∃ f ∈ table, f.priority = logFlowPriority ∧ f.actions ≠ [] := by
  rw [getLogStatus, getFlowStats, List.any_map, List.any_eq_true]
  constructor
  · rintro ⟨f, hf, hl⟩
    obtain ⟨hp, ha⟩ := of_decide_eq_true hl
    exact ⟨f, hf, hp, fun h => ha (by simp [FlowEntry.stat, h])⟩
  · rintro ⟨f, hf, hp, ha⟩
    exact ⟨f, hf, decide_eq_true ⟨hp, mt List.map_eq_nil_iff.mp ha⟩⟩

/-- Every rule is rewritten, whatever it does. -/
theorem relogged_of_acl (hs : Sound table) (hf : f ∈ table) (ha : AclPriority f.priority)
    (isEnable : Bool) : (relogged isEnable f).actions = logOutputs c isEnable := by
  have hsk : ¬ Skipped c (f.stat c) := by
    rw [(hs.plain f hf).skipped, not_or]
    exact ⟨ha.1, ha.2.1⟩
  rw [relogged, if_pos hsk]
  rfl

section Step

variable (hs : Sound table)
  (h : ∀ f ∈ table, AclPriority f.priority → reported f = .deny ∧ ReadsBack ac f.ofMatch)

include hs h

theorem getLogStatus_setLogStatus (isEnable : Bool) :
    getLogStatus c (setLogStatus ac c isEnable table).2 = isEnable := by
  obtain ⟨-, -, hmem⟩ := setLogStatus_spec hs (fun f hf ha => (h f hf ha).2) isEnable
  have hlog : ∀ f ∈ table, f.priority = logFlowPriority →
      (relogged isEnable f).actions = logOutputs c isEnable := by
    intro f hf hl
    rcases relogged_cases hs hf (fun ha => (h f hf ha).1) isEnable with ⟨hp, -⟩ | ⟨hacts, -, -⟩
    · rw [hl] at hp
      exact absurd hp (by decide)
    · exact hacts
  rw [Bool.eq_iff_iff, getLogStatus_iff]
  constructor
  · rintro ⟨g, hg, hl, hne⟩
    obtain ⟨f, hf, rfl⟩ := (hmem g).mp hg
    rw [(relogged_eq isEnable f).2.1] at hl
    rw [hlog f hf hl] at hne
    cases isEnable with
    | false => exact absurd rfl hne
    | true => rfl
  · rintro rfl
    obtain ⟨f, hf, hl⟩ := hs.hasLog
    refine ⟨_, (hmem _).mpr ⟨f, hf, rfl⟩, (relogged_eq true f).2.1.trans hl, ?_⟩
    rw [hlog f hf hl]
    exact List.cons_ne_nil _ _

theorem kept_setLogStatus (hits : c.Match → π → Prop) (isEnable : Bool) :
    Kept hits isEnable (setLogStatus ac c isEnable table) table := by
  obtain ⟨hok, -, hmem⟩ := setLogStatus_spec hs (fun f hf ha => (h f hf ha).2) isEnable
  have hd := fun f hf ha => (h f hf ha).1
  have hstatus := getLogStatus_setLogStatus hs h isEnable
  have hrule := fun f hf ha => relogged_of_acl (f := f) hs hf ha isEnable
  refine ⟨hok, ?_, ?_, hstatus, ?_⟩
  · refine decides_iff hits hmem ?_
    intro f hf
    obtain ⟨-, hp, hm⟩ := relogged_eq isEnable f
    exact ⟨hp, hm, forwards_relogged hs hf (hd f hf) isEnable⟩
  · intro f hf ha
    obtain ⟨hc, hp, hm⟩ := relogged_eq isEnable f
    have hl := hrule f hf ha
    refine ⟨_, (hmem _).mpr ⟨f, hf, rfl⟩, Prod.ext hp hm, hc, ?_, ?_⟩
    · rw [reported_of_log hl, hd f hf ha]
    · rw [hd f hf ha]
      exact iff_of_false (not_forwards_of_log hl) (by decide)
  · intro g hg ha _
    obtain ⟨f, hf, rfl⟩ := (hmem g).mp hg
    rw [(relogged_eq isEnable f).2.1] at ha
    rw [hstatus]
    exact copies_of_log (hrule f hf ha)

end Step

/-- As long as the matches are read back, a change keeps what it should exactly when no rule
forwards. -/
theorem kept_iff (hs : Sound table)
    (hb : ∀ f ∈ table, AclPriority f.priority → ReadsBack ac f.ofMatch)
    (hits : c.Match → π → Prop) (isEnable : Bool) :
    Kept hits isEnable (setLogStatus ac c isEnable table) table ↔
      ∀ f ∈ table, AclPriority f.priority → reported f = .deny := by
  constructor
  · intro hk f hf ha
    obtain ⟨g, hg, hkey, -, hr, -⟩ := hk.rules f hf ha
    obtain ⟨-, -, hmem⟩ := setLogStatus_spec hs hb isEnable
    obtain ⟨f', hf', rfl⟩ := (hmem g).mp hg
    obtain ⟨-, hp, hm⟩ := relogged_eq isEnable f'
    obtain rfl : f' = f := hs.keyed.eq hf' hf ((Prod.ext hp hm).symm.trans hkey)
    rw [← hr]
    exact reported_of_log (relogged_of_acl hs hf ha isEnable)
  · intro hd
    exact kept_setLogStatus hs (fun f hf ha => ⟨hd f hf ha, hb f hf ha⟩) hits isEnable

end Rewriting

section Runs

instance (ac : AddrConv) (m : c.Match) : Decidable (ReadsBack ac m) :=
  match h : c.toMatch (toModOpenflow ac (c.matchToStr m)) with
  | .error e => .isFalse (by simp [ReadsBack, h])
  | .ok m' => decidable_of_iff (m' = m) (by simp [ReadsBack, h])

theorem logKept_step {s : Firewall c} (hits : c.Match → π → Prop) (hs : Sound s.table)
    (r : Request) (h : LogSafe ac s r) :
    LogKept ac hits s r ∧ Sound (step ac c s r).table := by
  constructor
  · rintro isEnable rfl
    exact kept_setLogStatus hs (h isEnable rfl) hits isEnable
  · by_cases hr : ∃ isEnable, r = .setLog isEnable
    · obtain ⟨isEnable, rfl⟩ := hr
      exact sound_setLogStatus hs (fun f hf ha => (h isEnable rfl f hf ha).2) isEnable
    · exact hs.step fun isEnable hne => hr ⟨isEnable, hne⟩

/-- A request for packets from one address. -/
def sourceBody (action : String) : RuleBody where
  fields := Dict.empty.set (.legacy .nwSrc) (.str "10.0.0.1".toList)
  priority := none
  actions := some (.str action.toList)

end Runs

end Ryu.RestFirewall
