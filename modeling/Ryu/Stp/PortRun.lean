import Mathlib.Data.List.Perm.Basic
import Ryu.Lib.Run
import Ryu.Stp.Bridge

/-! # The states of a port

A port changes its status at several hands: the bridge takes it down and up, for its link and in
calculations, and its own state machine goes on when a timer expires. Each of them decides on a
status first and writes it later, behind calls that may let the others run. As long as what was
decided on still stands when it is written, a port forwards only by way of LISTEN and LEARN, in no
role that is not to forward, and not while its link is lost.
-/

namespace Ryu.Stp

namespace Port

/-- `up`, until the status is written. -/
def beginUp (p : Port) (role : Role) (rootPriority : Priority) (rootTimes : Times) : Port :=
  { p with portPriority := rootPriority, portTimes := rootTimes, role }

/-- The status that `up` decides on. -/
def upState (p : Port) : PortState := if p.configEnable then .listen else .disable

/-- `down`, until the status is written. -/
def beginDown (p : Port) (msgInit : Bool) : Port :=
  { p with received := if msgInit then none else p.received, role := .designatedPort }

/-- `_change_status`, as it writes the status. -/
def write (p : Port) (state : PortState) : Port :=
  { p with
    state, sendTcnFlg := if state = .disable ∨ state = .block then false else p.sendTcnFlg }

/-- `_get_timer` gives a time, which is not zero. -/
def hasTimer (p : Port) : Bool :=
  (p.state = .listen ∨ p.state = .learn) ∧ p.portTimes.forwardDelay ≠ 0

/-- `_get_next_state`. -/
def nextState (p : Port) : Option PortState :=
  match p.state with
  | .listen => some .learn
  | .learn => some (if p.role = .rootPort ∨ p.role = .designatedPort then .forward else .block)
  | .disable | .block | .forward => none

variable {p : Port} {state : PortState}

/-- A call of `up` that nothing comes between. -/
theorem up_eq (p : Port) (role : Role) (rootPriority : Priority) (rootTimes : Times) :
    p.up role rootPriority rootTimes = (p.beginUp role rootPriority rootTimes).write p.upState := by
  unfold up beginUp write upState
  cases p.configEnable <;> rfl

/-- A call of `down` that nothing comes between. -/
theorem down_eq (p : Port) (h : state = .disable ∨ state = .block) (msgInit : Bool) :
    p.down state msgInit =
      if p.configEnable then (p.beginDown msgInit).write state else p := by
  unfold down beginDown write
  rw [if_pos h]

end Port

/-- Where the state machine is. It waits, with its timer running or not, or is about to write a
status, or an exception has ended it. -/
inductive Machine
  | waiting (timer : Bool)
  | changing (state : PortState)
  | dead
  deriving DecidableEq, Repr

/-- The status that is about to be written. -/
def Machine.change : Machine → Option PortState
  | changing state => some state
  | waiting _ => none
  | dead => none

/-- A call of `up` or `down` in progress, from `link_up` and `link_down` or from a calculation, and
the status it is about to write. -/
structure Change where
  byLink : Bool
  isUp : Bool
  state : PortState
  deriving DecidableEq, Repr

/-- A status that is about to be written, by who writes it. -/
def Change.Sound (configEnable : Bool) (c : Change) : Prop :=
  (configEnable = false → c.isUp = true) ∧
    c.state = if c.isUp then (if configEnable then .listen else .disable)
      else if c.byLink then .disable else .block

theorem Change.Sound.state_ne {configEnable : Bool} {c : Change}
    (h : Change.Sound configEnable c) :
    c.state ≠ .learn ∧ c.state ≠ .forward := by
  rw [h.2]
  split_ifs <;> exact ⟨PortState.noConfusion, PortState.noConfusion⟩

/-- A port and what goes on at it. Beside it is noted whether `link_down` has taken it down and no
`link_up` has come since, and what statuses it has had since it was last started. -/
structure PortRun where
  port : Port
  pending : List Change
  machine : Machine
  lost : Bool
  trail : List PortState
  deriving DecidableEq, Repr

namespace PortRun

inductive Event
  | linkUp (rootPriority : Priority) (rootTimes : Times)
  | linkDown
  /-- `recalculate_spanning_tree` comes to the port, to take it down. -/
  | recalcDown (init : Bool)
  /-- It comes to the port again, to take it up in a role. -/
  | recalcUp (role : Role) (rootPriority : Priority) (rootTimes : Times)
  /-- One of the calls in progress writes its status. -/
  | write (i : ℕ)
  /-- The loop of the state machine begins, at the start or after a change of status. -/
  | arm
  /-- The timer of the state machine expires. -/
  | expire
  | machineWrite
  deriving DecidableEq, Repr

/-- A call from `link_up` or `link_down` is in progress. The next waits for it. -/
def busy (s : PortRun) : Bool := s.pending.any (·.byLink)

/-- A call writes its status. -/
def put (s : PortRun) (i : ℕ) (c : Change) : PortRun where
  port := s.port.write c.state
  pending := s.pending.eraseIdx i
  machine := s.machine
  lost := s.lost || c.byLink && !c.isUp
  trail := if c.isUp then [c.state] else s.trail ++ [c.state]

def step (s : PortRun) : Event → PortRun
  | .linkUp rootPriority rootTimes =>
    if s.busy then s
    else { s with
      port := s.port.beginUp .designatedPort rootPriority rootTimes
      pending := s.pending ++ [⟨true, true, s.port.upState⟩]
      lost := false }
  | .linkDown =>
    if s.busy ∨ s.port.configEnable = false then s
    else { s with
      port := s.port.beginDown true, pending := s.pending ++ [⟨true, false, .disable⟩] }
  | .recalcDown init =>
    if s.port.state = .disable ∨ s.port.configEnable = false then s
    else { s with
      port := s.port.beginDown init, pending := s.pending ++ [⟨false, false, .block⟩] }
  | .recalcUp role rootPriority rootTimes =>
    if s.port.state = .disable then s
    else { s with
      port := s.port.beginUp role rootPriority rootTimes
      pending := s.pending ++ [⟨false, true, s.port.upState⟩] }
  | .write i =>
    match s.pending[i]? with
    | none => s
    | some c => s.put i c
  | .arm =>
    match s.machine with
    | .waiting _ => { s with machine := .waiting s.port.hasTimer }
    | .changing _ => s
    | .dead => s
  | .expire =>
    match s.machine with
    | .waiting true =>
      -- of a status that has no next one no configuration is found for the port
      { s with machine := s.port.nextState.elim .dead .changing }
    | .waiting false => s
    | .changing _ => s
    | .dead => s
  | .machineWrite =>
    match s.machine.change with
    | none => s
    | some state =>
      { s with
        port := s.port.write state, machine := .waiting false, trail := s.trail ++ [state] }

/-- A port as it is constructed, with its state machine started. -/
def start (configEnable : Bool) (portId : PortId) (pathCost : ℕ) (bridgeId : BridgeId)
    (times : Times) : PortRun :=
  let port : Port := ⟨configEnable, ⟨bridgeId, 0, none⟩, times, portId, pathCost, .disable,
    .designatedPort, none, false⟩
  ⟨port.up .designatedPort ⟨bridgeId, 0, none⟩ times, [], .waiting false, false, [port.upState]⟩

/-- What is asked of every state. -/
structure Safe (s : PortRun) : Prop where
  forward : s.port.state = .forward → s.trail = [.listen, .learn, .forward]
  nonDesignated : s.port.role = .nonDesignatedPort → s.port.state = .forward → s.pending ≠ []
  disabled : s.port.configEnable = false → s.port.state = .disable
  lost : s.lost = true → s.port.state ≠ .forward

/-- What was decided on still stands when it is written: a calculation finds the port not disabled,
as it did when it came to it, and the state machine finds the status and the role that the next
status follows. -/
def Meets (s : PortRun) : Event → Prop
  | .write i => ∀ c ∈ s.pending[i]?, c.byLink = false → s.port.state ≠ .disable
  | .machineWrite => ∀ state ∈ s.machine.change, s.port.nextState = some state
  | _ => True

instance : ∀ (s : PortRun) (e : Event), Decidable (Meets s e)
  | s, .write i =>
    inferInstanceAs (Decidable (∀ c ∈ s.pending[i]?, c.byLink = false → s.port.state ≠ .disable))
  | s, .machineWrite =>
    inferInstanceAs (Decidable (∀ state ∈ s.machine.change, s.port.nextState = some state))
  | _, .linkUp _ _ => inferInstanceAs (Decidable True)
  | _, .linkDown => inferInstanceAs (Decidable True)
  | _, .recalcDown _ => inferInstanceAs (Decidable True)
  | _, .recalcUp _ _ _ => inferInstanceAs (Decidable True)
  | _, .arm => inferInstanceAs (Decidable True)
  | _, .expire => inferInstanceAs (Decidable True)

/-- The statuses since the port was started, by the status they led to. -/
def trailOf : PortState → Option (List PortState)
  | .listen => some [.listen]
  | .learn => some [.listen, .learn]
  | .forward => some [.listen, .learn, .forward]
  | .disable => none
  | .block => none

structure Inv (s : PortRun) : Prop where
  trail : ∀ l ∈ trailOf s.port.state, s.trail = l
  nonDesignated : s.port.role = .nonDesignatedPort → s.port.state = .forward → s.pending ≠ []
  disabled : s.port.configEnable = false → s.port.state = .disable
  sound : ∀ c ∈ s.pending, Change.Sound s.port.configEnable c
  oneLink : (s.pending.filter (·.byLink)).length ≤ 1
  lost : s.lost = true → s.port.state = .disable ∧ ∀ c ∈ s.pending, c.byLink = true → c.isUp = false

variable {s : PortRun} {c : Change} {i : ℕ} {state : PortState}

theorem Inv.safe (h : Inv s) : Safe s where
  forward hf := h.trail _ (by rw [hf]; rfl)
  nonDesignated := h.nonDesignated
  disabled := h.disabled
  lost hl hf := by
    rw [(h.lost hl).1] at hf
    cases hf

theorem inv_start (configEnable : Bool) (portId : PortId) (pathCost : ℕ) (bridgeId : BridgeId)
    (times : Times) : Inv (start configEnable portId pathCost bridgeId times) := by
  refine ⟨?_, ?_, ?_, List.forall_mem_nil _, Nat.zero_le _, fun h => by cases h⟩
  · cases configEnable
    · intro l hl
      cases hl
    · intro l hl
      exact Option.some.inj hl
  · intro h
    cases h
  · intro h
    have hfalse : configEnable = false := h
    rw [hfalse]
    rfl

/-- A call begins, which changes neither the status nor the configuration. -/
theorem Inv.begin (hI : Inv s) {p : Port} {lost : Bool} (hstate : p.state = s.port.state)
    (henable : p.configEnable = s.port.configEnable) (hsound : Change.Sound s.port.configEnable c)
    (hlink : c.byLink = true → s.busy = false)
    (hlost : lost = true → s.lost = true ∧ (c.byLink = true → c.isUp = false)) :
    Inv { s with port := p, pending := s.pending ++ [c], lost := lost } where
  trail l hl := by
    rw [hstate] at hl
    exact hI.trail l hl
  nonDesignated _ _ := List.append_ne_nil_of_right_ne_nil _ (List.cons_ne_nil c [])
  disabled h := by
    rw [henable] at h
    exact hstate.trans (hI.disabled h)
  sound d hd := by
    rw [henable]
    obtain hd | hd := List.mem_append.mp hd
    · exact hI.sound d hd
    · exact List.mem_singleton.mp hd ▸ hsound
  oneLink := by
    rw [List.filter_append, List.length_append]
    by_cases hc : c.byLink = true
    · have hnone : s.pending.filter (·.byLink) = [] := by
        rw [List.filter_eq_nil_iff]
        exact List.any_eq_false.mp (hlink hc)
      rw [hnone]
      simp [hc]
    · have hone := hI.oneLink
      simpa [hc] using hone
  lost h := by
    obtain ⟨hs, hc⟩ := hlost h
    obtain ⟨hdisable, hpending⟩ := hI.lost hs
    refine ⟨hstate.trans hdisable, fun d hd => ?_⟩
    obtain hd | hd := List.mem_append.mp hd
    · exact hpending d hd
    · exact List.mem_singleton.mp hd ▸ hc

/-- Of calls of which one at most is from a link, no other one is. -/
theorem byLink_eraseIdx {l : List Change} (hone : (l.filter (·.byLink)).length ≤ 1)
    (hc : l[i]? = some c) (hlink : c.byLink = true) : ∀ d ∈ l.eraseIdx i, d.byLink = false := by
  obtain ⟨hi, rfl⟩ := List.getElem?_eq_some_iff.mp hc
  have hperm := ((List.getElem_cons_eraseIdx_perm hi).filter (·.byLink)).length_eq
  rw [List.filter_cons_of_pos hlink, List.length_cons] at hperm
  have hnil : (l.eraseIdx i).filter (·.byLink) = [] := by
    apply List.eq_nil_of_length_eq_zero
    rw [← hperm] at hone
    exact Nat.le_zero.mp (Nat.le_of_succ_le_succ hone)
  intro d hd
  simpa using List.filter_eq_nil_iff.mp hnil d hd

/-- A call writes its status, from a calculation only if the port is not disabled. -/
theorem Inv.put (hI : Inv s) (hc : s.pending[i]? = some c)
    (hm : c.byLink = false → s.port.state ≠ .disable) : Inv (s.put i c) := by
  have hsound := hI.sound c (List.mem_of_getElem? hc)
  obtain ⟨hlearn, hforward⟩ := hsound.state_ne
  have hstate : (s.put i c).port.state = c.state := rfl
  have hpending : ∀ d ∈ (s.put i c).pending, d ∈ s.pending :=
    fun d hd => List.mem_of_mem_eraseIdx hd
  refine ⟨?_, fun _ hf => absurd (hstate ▸ hf) hforward, ?_, ?_, ?_, ?_⟩
  · rw [hstate]
    intro l hl
    have htrail : (s.put i c).trail = if c.isUp then [c.state] else s.trail ++ [c.state] := rfl
    -- only a call that takes the port up leads to a status with a trail, to LISTEN
    cases hcstate : c.state with
    | listen =>
      have hup : c.isUp = true := by
        by_contra hdown
        have heq := hsound.2
        rw [hcstate, if_neg hdown] at heq
        split at heq <;> cases heq
      rw [htrail, if_pos hup, hcstate]
      rw [hcstate] at hl
      exact Option.some.inj hl
    | learn => exact absurd hcstate hlearn
    | forward => exact absurd hcstate hforward
    | disable =>
      rw [hcstate] at hl
      cases hl
    | block =>
      rw [hcstate] at hl
      cases hl
  · intro hdisabled
    have hfalse : s.port.configEnable = false := hdisabled
    rw [hstate, hsound.2, hsound.1 hfalse, hfalse]
    rfl
  · exact fun d hd => hI.sound d (hpending d hd)
  · exact ((List.eraseIdx_sublist s.pending i).filter _).length_le.trans hI.oneLink
  · intro hlost
    have hor : s.lost = true ∨ c.byLink = true ∧ c.isUp = false := by
      have heq : (s.lost || c.byLink && !c.isUp) = true := hlost
      simpa using heq
    obtain hs | ⟨hlink, hdown⟩ := hor
    · -- a port that is lost is disabled, so that no other call than one that takes it down is left
      obtain ⟨hdisable, hlinks⟩ := hI.lost hs
      have hlink : c.byLink = true := by
        by_contra hno
        exact hm (by simpa using hno) hdisable
      have hdown := hlinks c (List.mem_of_getElem? hc) hlink
      refine ⟨?_, fun d hd => hlinks d (hpending d hd)⟩
      rw [hstate, hsound.2, hdown, hlink]
      rfl
    · refine ⟨?_, fun d hd hd' => ?_⟩
      · rw [hstate, hsound.2, hdown, hlink]
        rfl
      · rw [byLink_eraseIdx hI.oneLink hc hlink d hd] at hd'
        cases hd'

theorem nextState_eq_some {p : Port} (h : p.nextState = some state) :
    p.state = .listen ∧ state = .learn ∨
      p.state = .learn ∧ (state = .forward ∧ p.role ≠ .nonDesignatedPort ∨ state = .block) := by
  unfold Port.nextState at h
  split at h
  · next hs =>
    exact Or.inl ⟨hs, (Option.some.inj h).symm⟩
  · next hs =>
    refine Or.inr ⟨hs, ?_⟩
    split at h
    · next hrole =>
      refine Or.inl ⟨(Option.some.inj h).symm, fun hnon => ?_⟩
      rw [hnon] at hrole
      obtain hrole | hrole := hrole
      · cases hrole
      · cases hrole
    · exact Or.inr (Option.some.inj h).symm
  · cases h
  · cases h
  · cases h

/-- The state machine writes the status that still follows. -/
theorem Inv.machineWrite (hI : Inv s) (hnext : s.port.nextState = some state) :
    Inv { s with
      port := s.port.write state, machine := .waiting false, trail := s.trail ++ [state] } := by
  have hne : s.port.state ≠ .disable := by
    intro hdisable
    rw [Port.nextState, hdisable] at hnext
    cases hnext
  refine ⟨?_, ?_, ?_, hI.sound, hI.oneLink, fun hl => absurd (hI.lost hl).1 hne⟩
  · obtain ⟨hs, rfl⟩ | ⟨hs, ⟨rfl, -⟩ | rfl⟩ := nextState_eq_some hnext
    · have htrail := hI.trail [.listen] (by rw [hs]; rfl)
      intro l hl
      rw [← Option.some.inj hl, htrail]
      rfl
    · have htrail := hI.trail [.listen, .learn] (by rw [hs]; rfl)
      intro l hl
      rw [← Option.some.inj hl, htrail]
      rfl
    · intro l hl
      cases hl
  · intro hrole hf
    obtain ⟨-, rfl⟩ | ⟨-, ⟨-, hnon⟩ | rfl⟩ := nextState_eq_some hnext
    · cases hf
    · exact absurd hrole hnon
    · cases hf
  · exact fun h => absurd (hI.disabled h) hne

/-- The state machine goes on without writing. -/
theorem Inv.withMachine (hI : Inv s) (machine : Machine) : Inv { s with machine := machine } :=
  ⟨hI.trail, hI.nonDesignated, hI.disabled, hI.sound, hI.oneLink, hI.lost⟩

theorem Inv.step (hI : Inv s) (e : Event) (hm : Meets s e) : Inv (s.step e) := by
  have hup (byLink : Bool) : Change.Sound s.port.configEnable ⟨byLink, true, s.port.upState⟩ :=
    ⟨fun _ => rfl, rfl⟩
  cases e with
  | linkUp rootPriority rootTimes =>
    rw [PortRun.step]
    split_ifs with hbusy
    · exact hI
    · exact hI.begin rfl rfl (hup true) (fun _ => by simpa using hbusy) fun h => by cases h
  | linkDown =>
    rw [PortRun.step]
    split_ifs with hskip
    · exact hI
    · rw [not_or] at hskip
      exact hI.begin rfl rfl ⟨fun h => absurd h hskip.2, rfl⟩ (fun _ => by simpa using hskip.1)
        fun h => ⟨h, fun _ => rfl⟩
  | recalcDown init =>
    rw [PortRun.step]
    split_ifs with hskip
    · exact hI
    · rw [not_or] at hskip
      exact hI.begin rfl rfl ⟨fun h => absurd h hskip.2, rfl⟩ (fun h => by cases h)
        fun h => ⟨h, fun h => by cases h⟩
  | recalcUp role rootPriority rootTimes =>
    rw [PortRun.step]
    split_ifs with hskip
    · exact hI
    · exact hI.begin rfl rfl (hup false) (fun h => by cases h) fun h => ⟨h, fun h => by cases h⟩
  | write i =>
    rw [PortRun.step]
    split
    · exact hI
    · next c hc => exact hI.put hc (hm c hc)
  | arm =>
    rw [PortRun.step]
    split
    · exact hI.withMachine _
    · exact hI
    · exact hI
  | expire =>
    rw [PortRun.step]
    split
    · exact hI.withMachine _
    · exact hI
    · exact hI
    · exact hI
  | machineWrite =>
    rw [PortRun.step]
    split
    · exact hI
    · next state hstate => exact hI.machineWrite (hm state hstate)

/-- In a run where whatever is written still stands, the port is safe in every state. -/
theorem safe_run (configEnable : Bool) (portId : PortId) (pathCost : ℕ) (bridgeId : BridgeId)
    (times : Times) (es : List Event)
    (h : EveryStep step Meets (start configEnable portId pathCost bridgeId times) es) :
    Throughout step Safe (start configEnable portId pathCost bridgeId times) es :=
  (throughout_of_everyStep (inv_start configEnable portId pathCost bridgeId times)
    (fun _ e hI hm => hI.step e hm) h).mono fun _ hI => hI.safe

/-- The port forwards after its timer has expired twice, and then loses its link. -/
def forwarding : List Event := [.arm, .expire, .machineWrite, .arm, .expire, .machineWrite]

/-- The times of a bridge with the forward delay of 15 seconds. -/
def defaultTimes : Times := ⟨0, 20 * 256, 2 * 256, 15 * 256⟩

theorem safe_run_lost :
    Throughout step Safe (start true ⟨128, 1⟩ 20000 ⟨0x8000, 0, 1⟩ defaultTimes)
      (forwarding ++ [.linkDown, .write 0]) :=
  safe_run true ⟨128, 1⟩ 20000 ⟨0x8000, 0, 1⟩ defaultTimes (forwarding ++ [.linkDown, .write 0])
    (by decide)

/-- A calculation takes the port down. Before it writes that, the link is lost and the port
disabled. After it, the port is not disabled any more, and taken up again. -/
theorem not_safe_recalculation :
    ¬ ∀ (configEnable : Bool) (portId : PortId) (pathCost : ℕ) (bridgeId : BridgeId)
      (times : Times) (es : List Event),
      Throughout step Safe (start configEnable portId pathCost bridgeId times) es := by
  intro h
  have hlast := (h true ⟨128, 1⟩ 20000 ⟨0x8000, 0, 1⟩ defaultTimes (forwarding ++
    [.recalcDown true, .linkDown, .write 1, .write 0,
      .recalcUp .designatedPort ⟨⟨0x8000, 0, 1⟩, 0, none⟩ defaultTimes, .write 0] ++
    forwarding)).last
  exact hlast.lost rfl rfl

end PortRun

end Ryu.Stp
