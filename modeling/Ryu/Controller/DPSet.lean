import Ryu.Controller.Ports
import Ryu.Lib.History

/-! # Connected datapaths

`DPSet` keeps the latest connection of each datapath id and the ports of the id, and tells
its observers. Connections of one switch may overlap: a new one takes the place of the old
one, whose end is then passed over. Each handler runs on its own; where it raises, the event
loop goes on with the next event.
-/

namespace Ryu.Controller

/-- The events `DPSet` sends. -/
inductive DPEvent (δ : Type)
  | dp (dp : δ) (enter : Bool) (ports : List OFPPort)
  | reconnected (dp : δ) (ports : List OFPPort)
  | portAdd (dp : δ) (port : OFPPort)
  | portDelete (dp : δ) (port : OFPPort)
  | portModify (dp : δ) (port : OFPPort)

/-- The attributes of a `DPSet`, the datapaths it closed and the events it sent. -/
structure DPSet (δ : Type) where
  dps : Dict ℕ δ
  portState : Dict ℕ (Dict ℕ OFPPort)
  closed : List δ
  sent : List (DPEvent δ)

namespace DPSet

variable {δ : Type} (dpid : δ → ℕ)

def init : DPSet δ := ⟨Dict.empty, Dict.empty, [], []⟩

def send (s : DPSet δ) (e : DPEvent δ) : DPSet δ := { s with sent := s.sent ++ [e] }

/-- `self.port_state[id]` with its ports replaced. -/
def withPorts (s : DPSet δ) (k : ℕ) (ps : Dict ℕ OFPPort) : DPSet δ :=
  { s with portState := s.portState.set k ps }

/-- `DPSet._port_added`. -/
def portAdded (s : DPSet δ) (dp : δ) (port : OFPPort) : Except PyError (DPSet δ) :=
  match s.portState.get? (dpid dp) with
  | none => .error (.keyError "datapath.id")
  | some ps => .ok (s.withPorts (dpid dp) (ps.set port.portNo port))

/-- `DPSet._port_deleted`. -/
def portDeleted (s : DPSet δ) (dp : δ) (port : OFPPort) : Except PyError (DPSet δ) :=
  match s.portState.get? (dpid dp) with
  | none => .error (.keyError "datapath.id")
  | some ps =>
    if (ps.get? port.portNo).isSome then .ok (s.withPorts (dpid dp) (ps.erase port.portNo))
    else .error (.keyError "port_no")

/-- A loop over ports; an exception leaves what was done before. -/
def forPorts (f : DPSet δ → OFPPort → Except PyError (DPSet δ)) (s : DPSet δ) :
    List OFPPort → DPSet δ × Option PyError
  | [] => (s, none)
  | port :: ports =>
    match f s port with
    | .error e => (s, some e)
    | .ok s => forPorts f s ports

/-- The branch of `_register` for an id without ports. -/
def enter (s : DPSet δ) (dp : δ) (ports : List OFPPort) : DPSet δ × Option PyError :=
  match forPorts (portAdded dpid · dp) (s.withPorts (dpid dp) Dict.empty) ports with
  | (s, some e) => (s, some e)
  | (s, none) => (s.send (.dp dp true ports), none)

/-- `DPSet._register`. The ports are `dp.ports.values()` at this time. -/
def register (s : DPSet δ) (dp : δ) (ports : List OFPPort) : DPSet δ × Option PyError :=
  let old := s.dps.get? (dpid dp)
  let s := { s with dps := s.dps.set (dpid dp) dp, closed := s.closed ++ old.toList }
  match if (s.portState.get? (dpid dp)).isSome then (s, none) else enter dpid s dp ports with
  | (s, some e) => (s, some e)
  | (s, none) =>
    if old.isSome then
      (s.send (.reconnected dp ((s.portState.get? (dpid dp)).getD Dict.empty).values), none)
    else (s, none)

/-- `DPSet._unregister`. -/
def unregister [DecidableEq δ] (s : DPSet δ) (dp : δ) : DPSet δ × Option PyError :=
  if dp ∉ s.dps.values then (s, none)
  else if s.dps.get? (dpid dp) ≠ some dp then (s, some .assertionError)
  else
    let ports := ((s.portState.get? (dpid dp)).getD Dict.empty).values
    match forPorts (portDeleted dpid · dp) s ports with
    | (s, some e) => (s, some e)
    | (s, none) =>
      let s := s.send (.dp dp false ports)
      ({ s with dps := s.dps.erase (dpid dp), portState := s.portState.erase (dpid dp) }, none)

/-- `DPSet.port_status_handler`. -/
def portStatusHandler (s : DPSet δ) (dp : δ) (reason : ℕ) (port : OFPPort) :
    Except PyError (DPSet δ) :=
  if reason = ofpprAdd then do
    let s ← portAdded dpid s dp port
    pure (s.send (.portAdd dp port))
  else if reason = ofpprDelete then do
    let s ← portDeleted dpid s dp port
    pure (s.send (.portDelete dp port))
  else if reason ≠ ofpprModify then .error .assertionError
  else do
    -- `PortState.modify` does as `add` does.
    let s ← portAdded dpid s dp port
    pure (s.send (.portModify dp port))

/-- The events a `DPSet` takes: `EventOFPStateChange`, with the ports the datapath has when it is
handled, and `EventOFPPortStatus`. -/
inductive Event (δ : Type)
  | stateChange (dp : δ) (state : Dispatcher) (ports : List OFPPort)
  | portStatus (dp : δ) (reason : ℕ) (port : OFPPort)

/-- One event. `dispatcher_change` is for MAIN and DEAD. -/
def step [DecidableEq δ] (s : DPSet δ) : Event δ → DPSet δ × Option PyError
  | .stateChange dp .main ports => register dpid s dp ports
  | .stateChange dp .dead _ => unregister dpid s dp
  | .stateChange _ _ _ => (s, none)
  | .portStatus dp reason port =>
    match portStatusHandler dpid s dp reason port with
    | .error e => (s, some e)
    | .ok s => (s, none)

def run [DecidableEq δ] (evs : List (Event δ)) : DPSet δ := evs.foldl (fun s e => (step dpid s e).1) init

/-! ## What the observers can tell -/

/-- What an event makes of the latest datapath of an id. -/
def advance [DecidableEq δ] (k : ℕ) (c : Option δ) : Event δ → Option δ
  | .stateChange dp .main _ => if dpid dp = k then some dp else c
  | .stateChange dp .dead _ => if c = some dp then none else c
  | _ => c

/-- The latest datapath of an id that connected and has not disconnected since. -/
def current [DecidableEq δ] (k : ℕ) (evs : List (Event δ)) : Option δ :=
  evs.foldl (advance dpid k) none

/-- Has the id entered? `none` when enter and leave do not alternate, or a reconnection comes
outside of them. -/
def phase (k : ℕ) (sent : List (DPEvent δ)) : Option Bool :=
  sent.foldl (fun inside e =>
    match e with
    | .dp dp enter _ =>
      if dpid dp = k then inside.bind fun b => if b = enter then none else some enter else inside
    | .reconnected dp _ =>
      if dpid dp = k then inside.bind fun b => if b then some b else none else inside
    | _ => inside) (some false)

/-- What an event tells of a port of an id. An enter event tells of all ports. -/
def tells (k : ℕ) : DPEvent δ → ℕ → Option (Option OFPPort)
  | .dp dp true ports, p => if dpid dp = k then some (ports.reverse.find? (·.portNo = p)) else none
  | .dp dp false _, _ => if dpid dp = k then some none else none
  | .reconnected _ _, _ => none
  | .portAdd dp port, p | .portModify dp port, p =>
    if dpid dp = k ∧ port.portNo = p then some (some port) else none
  | .portDelete dp port, p => if dpid dp = k ∧ port.portNo = p then some none else none

/-- The ports of the enter event, with the port events since applied. -/
def portsSince (k : ℕ) (sent : List (DPEvent δ)) : ℕ → Option OFPPort :=
  replay (tells dpid k) (fun _ => none) sent

/-! ## Loops over ports -/

variable {dpid} {s : DPSet δ} {dp : δ} {ps : Dict ℕ OFPPort} {ports : List OFPPort} {k : ℕ}

/-- Every port is kept under its number. -/
def Keyed (ps : Dict ℕ OFPPort) : Prop := ∀ p port, ps.get? p = some port → port.portNo = p

theorem Keyed.set (h : Keyed ps) (port : OFPPort) : Keyed (ps.set port.portNo port) := by
  intro p port' hp
  rw [Dict.get?_set] at hp
  split at hp
  · next hn =>
    obtain rfl := Option.some.inj hp
    exact hn
  · exact h p port' hp

theorem Keyed.erase (h : Keyed ps) (n : ℕ) : Keyed (ps.erase n) := by
  intro p port hp
  rw [Dict.get?_erase] at hp
  split at hp
  · cases hp
  · exact h p port hp

theorem Keyed.setPorts (h : Keyed ps) (ports : List OFPPort) : Keyed (setPorts ps ports) := by
  induction ports generalizing ps with
  | nil => exact h
  | cons port ports ih => exact ih (h.set port)

theorem mem_values_iff (h : Keyed ps) {port : OFPPort} :
    port ∈ ps.values ↔ ps.get? port.portNo = some port := by
  simp only [Dict.values, List.mem_map, Prod.exists, Dict.mem_entries_iff, exists_eq_right]
  constructor
  · rintro ⟨p, hp⟩
    rwa [h p port hp]
  · intro hp
    exact ⟨_, hp⟩

theorem nodup_values (h : Keyed ps) : (ps.values.map OFPPort.portNo).Nodup := by
  have hk : ps.values.map OFPPort.portNo = ps.keys := by
    rw [Dict.values, Dict.keys, List.map_map]
    apply List.map_congr_left
    rintro ⟨p, port⟩ he
    exact h p port (Dict.mem_entries_iff.mp he)
  rw [hk]
  exact ps.nodup_keys

theorem forPorts_portAdded (s : DPSet δ) (dp : δ) (ps : Dict ℕ OFPPort) (ports : List OFPPort) :
    forPorts (portAdded dpid · dp) (s.withPorts (dpid dp) ps) ports =
      (s.withPorts (dpid dp) (setPorts ps ports), none) := by
  induction ports generalizing ps with
  | nil => rfl
  | cons port ports ih =>
    have ha : portAdded dpid (s.withPorts (dpid dp) ps) dp port =
        .ok (s.withPorts (dpid dp) (ps.set port.portNo port)) := by
      simp [portAdded, withPorts, Dict.set_set]
    rw [forPorts, ha]
    exact ih _

theorem forPorts_portDeleted (dpid : δ → ℕ) (s : DPSet δ) (dp : δ) (ps : Dict ℕ OFPPort)
    (hn : (ports.map OFPPort.portNo).Nodup) (hp : ∀ port ∈ ports, (ps.get? port.portNo).isSome) :
    ∃ ps', forPorts (portDeleted dpid · dp) (s.withPorts (dpid dp) ps) ports =
      (s.withPorts (dpid dp) ps', none) := by
  induction ports generalizing ps with
  | nil => exact ⟨ps, rfl⟩
  | cons port ports ih =>
    obtain ⟨hport, hn⟩ := List.nodup_cons.mp hn
    have hd : portDeleted dpid (s.withPorts (dpid dp) ps) dp port =
        .ok (s.withPorts (dpid dp) (ps.erase port.portNo)) := by
      have hs := hp port List.mem_cons_self
      simp [portDeleted, withPorts, Dict.set_set, hs]
    rw [forPorts, hd]
    refine ih _ hn fun port' h' => ?_
    have hne : port.portNo ≠ port'.portNo := fun he => hport (List.mem_map.mpr ⟨port', h', he.symm⟩)
    rw [Dict.get?_erase, if_neg hne]
    exact hp port' (List.mem_cons_of_mem port h')

/-! ## One event -/

variable (dpid)

/-- What holds between events. -/
structure Good (s : DPSet δ) : Prop where
  id : ∀ k dp, s.dps.get? k = some dp → dpid dp = k
  sync : ∀ k, (s.portState.get? k).isSome = (s.dps.get? k).isSome
  keyed : ∀ k ps, s.portState.get? k = some ps → Keyed ps
  ports : ∀ k ps, s.portState.get? k = some ps → ps.get? = portsSince dpid k s.sent
  phase : ∀ k, phase dpid k s.sent = some (s.dps.get? k).isSome
  leaves : ∀ pre dp ports post, s.sent = pre ++ .dp dp false ports :: post →
    (ports.map OFPPort.portNo).Nodup ∧
      ∀ port, port ∈ ports ↔ portsSince dpid (dpid dp) pre port.portNo = some port

/-- The five things an event comes to. -/
inductive Moves (s : DPSet δ) : Event δ → DPSet δ → Prop
  | skip {e : Event δ} (hm : ∀ dp ports, e ≠ .stateChange dp .main ports)
      (hd : ∀ dp ports, e = .stateChange dp .dead ports → s.dps.get? (dpid dp) ≠ some dp) :
      Moves s e s
  | enter {dp : δ} {ports : List OFPPort} (h : s.dps.get? (dpid dp) = none) :
      Moves s (.stateChange dp .main ports)
        ⟨s.dps.set (dpid dp) dp, s.portState.set (dpid dp) (setPorts Dict.empty ports), s.closed,
          s.sent ++ [.dp dp true ports]⟩
  | reconnect {dp old : δ} {ports : List OFPPort} {ps : Dict ℕ OFPPort}
      (h : s.dps.get? (dpid dp) = some old) (hp : s.portState.get? (dpid dp) = some ps) :
      Moves s (.stateChange dp .main ports)
        ⟨s.dps.set (dpid dp) dp, s.portState, s.closed ++ [old],
          s.sent ++ [.reconnected dp ps.values]⟩
  | leave {dp : δ} {ports : List OFPPort} {ps ps' : Dict ℕ OFPPort}
      (h : s.dps.get? (dpid dp) = some dp) (hp : s.portState.get? (dpid dp) = some ps) :
      Moves s (.stateChange dp .dead ports)
        ⟨s.dps.erase (dpid dp), (s.portState.set (dpid dp) ps').erase (dpid dp), s.closed,
          s.sent ++ [.dp dp false ps.values]⟩
  | port {dp : δ} {reason : ℕ} {port : OFPPort} {ps ps' : Dict ℕ OFPPort} {ev : DPEvent δ}
      (hp : s.portState.get? (dpid dp) = some ps) (hk : Keyed ps → Keyed ps')
      (ht : ∀ p, ps'.get? p = (tells dpid (dpid dp) ev p).getD (ps.get? p))
      (hev : ev = .portAdd dp port ∨ ev = .portDelete dp port ∨ ev = .portModify dp port) :
      Moves s (.portStatus dp reason port) ((s.withPorts (dpid dp) ps').send ev)

variable {dpid}

theorem moves_register (h : Good dpid s) (dp : δ) (ports : List OFPPort) :
    Moves dpid s (.stateChange dp .main ports) (register dpid s dp ports).1 := by
  have hsync := h.sync (dpid dp)
  unfold register
  rcases hd : s.dps.get? (dpid dp) with _ | old
  · rw [hd] at hsync
    have he : enter dpid { s with dps := s.dps.set (dpid dp) dp, closed := s.closed ++ [] } dp ports =
        (⟨s.dps.set (dpid dp) dp, s.portState.set (dpid dp) (setPorts Dict.empty ports),
          s.closed ++ [], s.sent ++ [.dp dp true ports]⟩, none) := by
      rw [enter, forPorts_portAdded]
      rfl
    simp only [hsync, Option.toList_none, Option.isSome_none, Bool.false_eq_true, if_false, he]
    rw [List.append_nil]
    exact .enter hd
  · rw [hd] at hsync
    obtain ⟨ps, hp⟩ := Option.isSome_iff_exists.mp hsync
    simp only [hp, Option.isSome_some, if_true, Option.toList_some, Option.getD_some]
    exact .reconnect hd hp

theorem moves_unregister [DecidableEq δ] (h : Good dpid s) (dp : δ) (ports : List OFPPort) :
    Moves dpid s (.stateChange dp .dead ports) (unregister dpid s dp).1 := by
  have hmem : dp ∈ s.dps.values ↔ s.dps.get? (dpid dp) = some dp := by
    simp only [Dict.values, List.mem_map, Prod.exists, Dict.mem_entries_iff, exists_eq_right]
    constructor
    · rintro ⟨k, hk⟩
      rwa [h.id k dp hk]
    · intro hk
      exact ⟨_, hk⟩
  unfold unregister
  by_cases hd : s.dps.get? (dpid dp) = some dp
  · have hsync := h.sync (dpid dp)
    rw [hd] at hsync
    obtain ⟨ps, hp⟩ := Option.isSome_iff_exists.mp hsync
    have hk := h.keyed _ _ hp
    obtain ⟨ps', hloop⟩ := forPorts_portDeleted dpid s dp ps (nodup_values hk)
      fun port hport => by rw [(mem_values_iff hk).mp hport]; rfl
    have hs : s.withPorts (dpid dp) ps = s := by
      have hset : s.portState.set (dpid dp) ps = s.portState := Dict.set_of_get? hp
      rw [withPorts, hset]
    rw [hs] at hloop
    rw [if_neg (not_not.mpr (hmem.mpr hd)), if_neg (not_not.mpr hd), hp, Option.getD_some]
    dsimp only
    rw [hloop]
    exact .leave hd hp
  · rw [if_pos (fun hm => hd (hmem.mp hm))]
    refine .skip (fun dp' ports' he => ?_) fun dp' ports' he => ?_
    · cases he
    · cases he
      exact hd

theorem moves_portStatus (dp : δ) (reason : ℕ) (port : OFPPort) {s' : DPSet δ}
    (hs : portStatusHandler dpid s dp reason port = .ok s') :
    Moves dpid s (.portStatus dp reason port) s' := by
  have hadd (ev : DPEvent δ) (hev : ev = .portAdd dp port ∨ ev = .portModify dp port)
      {s' : DPSet δ} (hs : (do let s ← portAdded dpid s dp port; pure (s.send ev)) = .ok s') :
      Moves dpid s (.portStatus dp reason port) s' := by
    obtain ⟨s₁, h1, h2⟩ := bind_eq_ok.1 hs
    obtain rfl := Except.ok.inj h2
    unfold portAdded at h1
    split at h1
    · cases h1
    · next ps hp =>
      obtain rfl := Except.ok.inj h1
      refine .port hp (·.set port) (fun p => ?_) (hev.imp_right .inr)
      rw [Dict.get?_set]
      rcases hev with rfl | rfl <;> by_cases hp' : port.portNo = p <;> simp [tells, hp']
  unfold portStatusHandler at hs
  split at hs
  · exact hadd _ (.inl rfl) hs
  · split at hs
    · obtain ⟨s₁, h1, h2⟩ := bind_eq_ok.1 hs
      obtain rfl := Except.ok.inj h2
      unfold portDeleted at h1
      split at h1
      · cases h1
      · next ps hp =>
        split at h1
        · obtain rfl := Except.ok.inj h1
          refine .port hp (·.erase _) (fun p => ?_) (.inr (.inl rfl))
          rw [Dict.get?_erase]
          by_cases hp' : port.portNo = p <;> simp [tells, hp']
        · cases h1
    · split at hs
      · cases hs
      · exact hadd _ (.inr rfl) hs

theorem moves_step [DecidableEq δ] (h : Good dpid s) (e : Event δ) : Moves dpid s e (step dpid s e).1 := by
  cases e with
  | stateChange dp state ports =>
    cases state with
    | main => exact moves_register h dp ports
    | dead => exact moves_unregister h dp ports
    | handshake | config =>
      refine .skip (fun _ _ he => ?_) fun _ _ he => ?_
      · cases he
      · cases he
  | portStatus dp reason port =>
    rcases hs : portStatusHandler dpid s dp reason port with err | s'
    · have he : step dpid s (.portStatus dp reason port) = (s, some err) := by simp only [step, hs]
      rw [he]
      refine .skip (fun _ _ he => ?_) fun _ _ he => ?_
      · cases he
      · cases he
    · have he : step dpid s (.portStatus dp reason port) = (s', none) := by simp only [step, hs]
      rw [he]
      exact moves_portStatus dp reason port hs

theorem phase_concat (k : ℕ) (l : List (DPEvent δ)) (e : DPEvent δ) :
    phase dpid k (l ++ [e]) =
      match e with
      | .dp dp enter _ => if dpid dp = k then
          (phase dpid k l).bind fun b => if b = enter then none else some enter
        else phase dpid k l
      | .reconnected dp _ => if dpid dp = k then
          (phase dpid k l).bind fun b => if b then some b else none
        else phase dpid k l
      | _ => phase dpid k l := by
  rw [phase, List.foldl_append]
  cases e <;> rfl

theorem portsSince_concat (k : ℕ) (l : List (DPEvent δ)) (e : DPEvent δ) (p : ℕ) :
    portsSince dpid k (l ++ [e]) p = (tells dpid k e p).getD (portsSince dpid k l p) :=
  replay_concat

/-- A new event that is no leave event leaves the leave events as they were. -/
theorem Good.leaves_concat (h : Good dpid s) {e : DPEvent δ}
    (he : ∀ dp ports, e = .dp dp false ports → (ports.map OFPPort.portNo).Nodup ∧
      ∀ port, port ∈ ports ↔ portsSince dpid (dpid dp) s.sent port.portNo = some port)
    (pre : List (DPEvent δ)) (dp : δ) (ports : List OFPPort) (post : List (DPEvent δ))
    (hs : s.sent ++ [e] = pre ++ .dp dp false ports :: post) :
    (ports.map OFPPort.portNo).Nodup ∧
      ∀ port, port ∈ ports ↔ portsSince dpid (dpid dp) pre port.portNo = some port := by
  rcases History.split_concat hs with ⟨rfl, hlast, -⟩ | ⟨post, -, hsent⟩
  · exact he dp ports hlast
  · exact h.leaves pre dp ports post hsent

theorem Good.id_set (h : Good dpid s) (dp : δ) {k : ℕ} {dp' : δ}
    (hk : (s.dps.set (dpid dp) dp).get? k = some dp') : dpid dp' = k := by
  rw [Dict.get?_set] at hk
  split at hk
  · next he =>
    obtain rfl := Option.some.inj hk
    exact he
  · exact h.id k dp' hk

theorem Good.enter (h : Good dpid s) (hd : s.dps.get? (dpid dp) = none) :
    Good dpid ⟨s.dps.set (dpid dp) dp, s.portState.set (dpid dp) (setPorts Dict.empty ports),
      s.closed, s.sent ++ [.dp dp true ports]⟩ := by
  have hp : s.portState.get? (dpid dp) = none := by
    have hs := h.sync (dpid dp)
    rw [hd] at hs
    exact Option.not_isSome_iff_eq_none.mp (by simp [hs])
  constructor
  · exact fun k dp' hk => h.id_set dp hk
  · intro k
    by_cases hk : dpid dp = k
    · simp [hk]
    · simp [Dict.get?_set, hk, h.sync k]
  · intro k ps hk
    dsimp only at hk
    rw [Dict.get?_set] at hk
    split at hk
    · obtain rfl := Option.some.inj hk
      exact Keyed.setPorts (fun p port hp => by cases hp) ports
    · exact h.keyed k ps hk
  · intro k ps hk
    ext1 p
    dsimp only at hk ⊢
    rw [portsSince_concat]
    rw [Dict.get?_set] at hk
    split at hk
    · next he =>
      obtain rfl := Option.some.inj hk
      rw [get?_setPorts]
      simp only [tells, he, if_true, Dict.get?_empty, Option.getD_some]
      cases ports.reverse.find? (·.portNo = p) <;> rfl
    · next he =>
      simp only [tells, he, if_false, Option.getD_none]
      exact congrFun (h.ports k ps hk) p
  · intro k
    dsimp only
    rw [phase_concat, h.phase]
    by_cases hk : dpid dp = k
    · subst hk
      simp [hd]
    · simp [hk, Dict.get?_set]
  · exact h.leaves_concat fun dp' ports' he => by cases he

theorem Good.reconnect {old : δ} (h : Good dpid s) (hd : s.dps.get? (dpid dp) = some old)
    (hp : s.portState.get? (dpid dp) = some ps) :
    Good dpid ⟨s.dps.set (dpid dp) dp, s.portState, s.closed ++ [old],
      s.sent ++ [.reconnected dp ps.values]⟩ := by
  constructor
  · exact fun k dp' hk => h.id_set dp hk
  · intro k
    by_cases hk : dpid dp = k
    · subst hk
      simp [hp]
    · simp [Dict.get?_set, hk, h.sync k]
  · exact h.keyed
  · intro k ps' hk
    ext1 p
    dsimp only at hk ⊢
    rw [portsSince_concat]
    exact congrFun (h.ports k ps' hk) p
  · intro k
    dsimp only
    rw [phase_concat, h.phase]
    by_cases hk : dpid dp = k
    · subst hk
      simp [hd]
    · simp [hk, Dict.get?_set]
  · exact h.leaves_concat fun dp' ports' he => by cases he

theorem Good.leave {ps' : Dict ℕ OFPPort} (h : Good dpid s) (hd : s.dps.get? (dpid dp) = some dp)
    (hp : s.portState.get? (dpid dp) = some ps) :
    Good dpid ⟨s.dps.erase (dpid dp), (s.portState.set (dpid dp) ps').erase (dpid dp), s.closed,
      s.sent ++ [.dp dp false ps.values]⟩ := by
  constructor
  · intro k dp' hk
    rw [Dict.get?_erase] at hk
    split at hk
    · cases hk
    · exact h.id k dp' hk
  · intro k
    by_cases hk : dpid dp = k
    · simp [Dict.get?_erase, hk]
    · simp [Dict.get?_erase, Dict.get?_set, hk, h.sync k]
  · intro k ps'' hk
    dsimp only at hk
    rw [Dict.get?_erase] at hk
    split at hk
    · cases hk
    · next he =>
      rw [Dict.get?_set_of_ne he] at hk
      exact h.keyed k ps'' hk
  · intro k ps'' hk
    ext1 p
    dsimp only at hk ⊢
    rw [portsSince_concat]
    rw [Dict.get?_erase] at hk
    split at hk
    · cases hk
    · next he =>
      rw [Dict.get?_set_of_ne he] at hk
      simp only [tells, he, if_false, Option.getD_none]
      exact congrFun (h.ports k ps'' hk) p
  · intro k
    dsimp only
    rw [phase_concat, h.phase]
    by_cases hk : dpid dp = k
    · subst hk
      simp [hd, Dict.get?_erase]
    · simp [hk, Dict.get?_erase]
  · refine h.leaves_concat fun dp' ports' he => ?_
    cases he
    have hk := h.keyed _ _ hp
    refine ⟨nodup_values hk, fun port => ?_⟩
    rw [mem_values_iff hk, h.ports _ _ hp]

theorem Good.port {port : OFPPort} {ps' : Dict ℕ OFPPort} {ev : DPEvent δ} (h : Good dpid s)
    (hp : s.portState.get? (dpid dp) = some ps) (hk : Keyed ps → Keyed ps')
    (ht : ∀ p, ps'.get? p = (tells dpid (dpid dp) ev p).getD (ps.get? p))
    (hev : ev = .portAdd dp port ∨ ev = .portDelete dp port ∨ ev = .portModify dp port) :
    Good dpid ((s.withPorts (dpid dp) ps').send ev) := by
  have htells : ∀ k, dpid dp ≠ k → ∀ p, tells dpid k ev p = none := by
    intro k hne p
    rcases hev with rfl | rfl | rfl <;> simp [tells, hne]
  constructor
  · exact h.id
  · intro k
    by_cases hk' : dpid dp = k
    · subst hk'
      simp [withPorts, send, ← h.sync, hp]
    · simp [withPorts, send, Dict.get?_set, hk', h.sync k]
  · intro k ps'' hk'
    simp only [withPorts, send] at hk'
    rw [Dict.get?_set] at hk'
    split at hk'
    · next he =>
      obtain rfl := Option.some.inj hk'
      exact hk (h.keyed _ _ hp)
    · exact h.keyed k ps'' hk'
  · intro k ps'' hk'
    ext1 p
    simp only [withPorts, send] at hk' ⊢
    rw [portsSince_concat]
    rw [Dict.get?_set] at hk'
    split at hk'
    · next he =>
      obtain rfl := Option.some.inj hk'
      subst he
      rw [ht, congrFun (h.ports _ _ hp) p]
    · next he =>
      rw [htells k he, Option.getD_none]
      exact congrFun (h.ports k ps'' hk') p
  · intro k
    simp only [withPorts, send]
    rw [phase_concat]
    rcases hev with rfl | rfl | rfl <;> exact h.phase k
  · refine h.leaves_concat fun dp' ports' he => ?_
    rcases hev with rfl | rfl | rfl <;> cases he

theorem Moves.good (h : Good dpid s) {e : Event δ} {s' : DPSet δ} (hm : Moves dpid s e s') :
    Good dpid s' := by
  cases hm with
  | skip => exact h
  | enter hd => exact h.enter hd
  | reconnect hd hp => exact h.reconnect hd hp
  | leave hd hp => exact h.leave hd hp
  | port hp hk ht hev => exact h.port hp hk ht hev

theorem good_init : Good dpid (init : DPSet δ) where
  id k dp hk := by cases hk
  sync k := rfl
  keyed k ps hk := by cases hk
  ports k ps hk := by cases hk
  phase k := rfl
  leaves pre dp ports post hs := by simp [init] at hs

/-! ## A run -/

section Run

variable [DecidableEq δ]

theorem run_concat (evs : List (Event δ)) (e : Event δ) :
    run dpid (evs ++ [e]) = (step dpid (run dpid evs) e).1 :=
  List.foldl_append

theorem good_run (evs : List (Event δ)) : Good dpid (run dpid evs) := by
  induction evs using List.reverseRecOn with
  | nil => exact good_init
  | append_singleton evs e ih =>
    rw [run_concat]
    exact (moves_step ih e).good ih

/-- The latest datapath moves as the specification says. -/
theorem Moves.get? (h : Good dpid s) {e : Event δ} {s' : DPSet δ} (hm : Moves dpid s e s') (k : ℕ) :
    s'.dps.get? k = advance dpid k (s.dps.get? k) e := by
  cases hm with
  | @skip e hm hd =>
    cases e with
    | portStatus => rfl
    | stateChange dp state ports =>
      cases state with
      | main => exact absurd rfl (hm dp ports)
      | dead =>
        refine (if_neg fun hk => hd dp ports rfl ?_).symm
        rwa [h.id k dp hk]
      | handshake | config => rfl
  | enter => exact Dict.get?_set _ _ _ _
  | reconnect => exact Dict.get?_set _ _ _ _
  | @leave dp ports ps ps' hd hp =>
    dsimp only [advance]
    rw [Dict.get?_erase]
    by_cases hk : dpid dp = k
    · subst hk
      rw [if_pos rfl, if_pos hd]
    · rw [if_neg hk, if_neg fun he => hk (h.id k dp he)]
  | port => rfl

theorem get?_run (evs : List (Event δ)) (k : ℕ) :
    (run dpid evs).dps.get? k = current dpid k evs := by
  induction evs using List.reverseRecOn with
  | nil => rfl
  | append_singleton evs e ih =>
    rw [run_concat, (moves_step (good_run evs) e).get? (good_run evs), ih]
    exact (List.foldl_concat _ _ _ _).symm

/-- The end of a connection that is not the latest of its id is passed over. -/
theorem unregister_of_superseded {dp : δ} (h : Good dpid s) (hd : s.dps.get? (dpid dp) ≠ some dp) :
    unregister dpid s dp = (s, none) := by
  refine if_pos fun hm => hd ?_
  simp only [Dict.values, List.mem_map, Prod.exists, Dict.mem_entries_iff, exists_eq_right] at hm
  obtain ⟨k, hk⟩ := hm
  rwa [h.id k dp hk]

/-- `get` is the latest connection, enter and leave alternate, a superseded connection ends
without effect, and a leave event has the ports of the enter event with the events on ports since
then applied. -/
theorem dpset_run (dpid : δ → ℕ) (evs : List (Event δ)) :
    (∀ k, (run dpid evs).dps.get? k = current dpid k evs) ∧
    (∀ k, (phase dpid k (run dpid evs).sent).isSome) ∧
    (∀ dp ports, current dpid (dpid dp) evs ≠ some dp →
      run dpid (evs ++ [.stateChange dp .dead ports]) = run dpid evs) ∧
    ∀ pre dp ports post, (run dpid evs).sent = pre ++ .dp dp false ports :: post →
      (ports.map OFPPort.portNo).Nodup ∧
        ∀ port, port ∈ ports ↔ portsSince dpid (dpid dp) pre port.portNo = some port := by
  have h : Good dpid (run dpid evs) := good_run evs
  refine ⟨get?_run evs, fun k => ?_, fun dp ports hd => ?_, h.leaves⟩
  · rw [h.phase]
    rfl
  · rw [← get?_run] at hd
    rw [run_concat]
    exact congrArg Prod.fst (unregister_of_superseded h hd)

end Run

/-- Port 1 is modified without having been known. -/
def modifyUnknown : List (Event ℕ) :=
  [.stateChange 1 .main [], .portStatus 1 ofpprModify ⟨1, 0, [], 0, 0⟩, .stateChange 1 .dead []]

/-- It leaves with the datapath, although it was neither there on entering nor added. -/
theorem modifiedPort_leaves :
    ∃ pre, (run id modifyUnknown).sent = pre ++ [.dp 1 false [⟨1, 0, [], 0, 0⟩]] ∧
      replay (tells id 1) (fun _ => none) (pre.filter fun e =>
        match e with
        | .portModify _ _ => false
        | _ => true) 1 = none := by
  refine ⟨[.dp 1 true [], .portModify 1 ⟨1, 0, [], 0, 0⟩], rfl, ?_⟩
  decide

end DPSet

end Ryu.Controller
