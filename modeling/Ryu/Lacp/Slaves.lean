import Mathlib.Logic.Function.Basic
import Ryu.Lib.Changes
import Ryu.Lib.Dict
import Ryu.Lib.Python
import Ryu.Lib.Run

/-! # Slaves of bonding interfaces

The library of LACP keeps for each configured port whether its partner sends packets, and with which
timeout. It enters a flow entry for the packets of a partner when the timeout changes, and sends an
event when a port is enabled, and whenever an entry for packets of slow protocols has expired. The
ports of packets and of entries need not be configured, and a port that is not is found disabled
and without a timeout.
-/

namespace Ryu.Lacp

structure Slave where
  enabled : Bool
  timeout : ℕ
  deriving DecidableEq, Repr

/-- `{dpid: ifs}`. -/
structure Bond where
  dpid : ℕ
  ifs : List (ℕ × Slave)
  deriving DecidableEq, Repr

namespace Bond

def slave (bond : Bond) (dpid port : ℕ) : Option Slave :=
  if bond.dpid = dpid then Assoc.lookup port bond.ifs else none

end Bond

/-- What is sent: events to the observers, and flow entries to the datapaths. -/
inductive Sent
  | slaveStateChanged (dpid port : ℕ) (enabled : Bool)
  | flow (dpid src port timeout : ℕ)
  deriving DecidableEq, Repr

/-- What is used of a datapath. -/
structure Datapath where
  id : ℕ
  ofpVersion : ℕ
  deriving DecidableEq, Repr

/-- What is used of the messages, of packets those of LACP. A match need not have every field. -/
inductive Message
  | lacp (datapath : Datapath) (port src actorStateTimeout : ℕ)
  | flowRemoved (datapath : Datapath) (inPort ethSrc ethType : Option ℕ)
  deriving DecidableEq, Repr

def ethTypeSlow : ℕ := 0x8809

def lacpStateShortTimeout : ℕ := 1

def shortTimeoutTime : ℕ := 3 * 1

def longTimeoutTime : ℕ := 3 * 30

/-- The bonds, what was sent, and what was raised. -/
abbrev Result := List Bond × List Sent × Option PyError

namespace LacpLib

/-- `add`. -/
def add (dpid : ℕ) (ports : List ℕ) (bonds : List Bond) : Except PyError (List Bond) :=
  if 2 ≤ ports.length then
    .ok (bonds ++ [⟨dpid, ports.foldl (fun ifs port => Assoc.insert port ⟨false, 0⟩ ifs) []⟩])
  else .error .assertionError

/-- `_get_slave`. -/
def getSlave (dpid port : ℕ) (bonds : List Bond) : Option Slave :=
  bonds.findSome? (·.slave dpid port)

/-- An assignment to the slave that `_get_slave` finds. -/
def setSlave (dpid port : ℕ) (f : Slave → Slave) : List Bond → List Bond
  | [] => []
  | bond :: bonds =>
    match bond.slave dpid port with
    | some slave => { bond with ifs := Assoc.insert port (f slave) bond.ifs } :: bonds
    | none => bond :: setSlave dpid port f bonds

def getSlaveEnabled (dpid port : ℕ) (bonds : List Bond) : Bool :=
  match getSlave dpid port bonds with
  | some slave => slave.enabled
  | none => false

def setSlaveEnabled (dpid port : ℕ) (enabled : Bool) : List Bond → List Bond :=
  setSlave dpid port fun slave => { slave with enabled }

def getSlaveTimeout (dpid port : ℕ) (bonds : List Bond) : ℕ :=
  match getSlave dpid port bonds with
  | some slave => slave.timeout
  | none => 0

def setSlaveTimeout (dpid port timeout : ℕ) : List Bond → List Bond :=
  setSlave dpid port fun slave => { slave with timeout }

/-- The versions of `self._add_flow`. -/
def addFlowVersions : List ℕ := [0x01, 0x03, 0x04]

/-- The timeout of a flow entry, by the state of the actor. -/
def idleTimeout (actorStateTimeout : ℕ) : ℕ :=
  if lacpStateShortTimeout = actorStateTimeout then shortTimeoutTime else longTimeoutTime

/-- `_do_lacp`, up to the response. -/
def doLacp (datapath : Datapath) (port src actorStateTimeout : ℕ) (bonds : List Bond) : Result :=
  let dpid := datapath.id
  let (bonds, events) :=
    if getSlaveEnabled dpid port bonds then (bonds, [])
    else (setSlaveEnabled dpid port true bonds, [Sent.slaveStateChanged dpid port true])
  let timeout := idleTimeout actorStateTimeout
  if timeout ≠ getSlaveTimeout dpid port bonds then
    let bonds := setSlaveTimeout dpid port timeout bonds
    if datapath.ofpVersion ∈ addFlowVersions then
      (bonds, events ++ [.flow dpid src port timeout], none)
    else (bonds, events, some .assertionError)
  else (bonds, events, none)

/-- The port and the type of a match. In version 1.0 a field that is not there is zero. -/
def matchFields (datapath : Datapath) (inPort ethType : Option ℕ) : Except PyError (ℕ × ℕ) :=
  if datapath.ofpVersion = 0x01 then .ok (inPort.getD 0, ethType.getD 0)
  else
    match inPort, ethType with
    | some port, some type => .ok (port, type)
    | none, _ => .error (.keyError "in_port")
    | _, none => .error (.keyError "eth_type")

/-- `flow_removed_handler`. -/
def flowRemovedHandler (datapath : Datapath) (inPort ethType : Option ℕ) (bonds : List Bond) :
    Result :=
  match matchFields datapath inPort ethType with
  | .error e => (bonds, [], some e)
  | .ok (port, dlType) =>
    if ethTypeSlow ≠ dlType then (bonds, [], none)
    else
      let bonds := setSlaveEnabled datapath.id port false bonds
      let bonds := setSlaveTimeout datapath.id port 0 bonds
      (bonds, [.slaveStateChanged datapath.id port false], none)

/-- The handlers. -/
def handle : Message → List Bond → Result
  | .lacp datapath port src actorStateTimeout => doLacp datapath port src actorStateTimeout
  | .flowRemoved datapath inPort _ ethType => flowRemovedHandler datapath inPort ethType

end LacpLib

open LacpLib

/-- The library with the events it has sent, the timeouts of the flow entries that are in the
datapaths, by port and source, and the source and the timeout of the last packet of each port. -/
structure Net where
  bonds : List Bond
  events : List (ℕ × ℕ × Bool)
  flows : ℕ × ℕ × ℕ → Option ℕ
  partner : ℕ × ℕ → Option (ℕ × ℕ)

namespace Net

/-- An event reaches the observers. A flow entry replaces one with the same match. -/
def deliver (net : Net) : Sent → Net
  | .slaveStateChanged dpid port enabled =>
    { net with events := net.events ++ [(dpid, port, enabled)] }
  | .flow dpid src port timeout =>
    { net with flows := Function.update net.flows (dpid, port, src) (some timeout) }

/-- The bonds that are added one after the other. -/
def addAll (confs : List (ℕ × List ℕ)) : Except PyError (List Bond) :=
  confs.foldlM (fun bonds conf => add conf.1 conf.2 bonds) []

/-- No message has come. -/
def start (bonds : List Bond) : Net := ⟨bonds, [], fun _ => none, fun _ => none⟩

/-- What has happened when a message comes. An entry that was removed is not there. -/
def arrive (net : Net) : Message → Net
  | .lacp datapath port src actorStateTimeout =>
    { net with
      partner := Function.update net.partner (datapath.id, port)
        (some (src, idleTimeout actorStateTimeout)) }
  | .flowRemoved datapath (some port) (some src) (some type) =>
    if type = ethTypeSlow then
      { net with flows := Function.update net.flows (datapath.id, port, src) none }
    else net
  | .flowRemoved .. => net

def step (net : Net) (msg : Message) : Net :=
  let (bonds, sent, _) := handle msg net.bonds
  sent.foldl deliver { net.arrive msg with bonds }

/-- The states that were sent of a port. -/
def changes (net : Net) (dpid port : ℕ) : List Bool :=
  (net.events.filter fun e => e.1 = dpid ∧ e.2.1 = port).map (·.2.2)

/-- Events are sent of slaves only, and of a slave whenever it is enabled or disabled, at first
disabled. A slave that is enabled has a flow entry for the last source with the last timeout. -/
structure Sound (net : Net) : Prop where
  configured : ∀ e ∈ net.events, (getSlave e.1 e.2.1 net.bonds).isSome
  reports : ∀ dpid port slave, getSlave dpid port net.bonds = some slave →
    Reports false slave.enabled (net.changes dpid port)
  flow : ∀ dpid port slave, getSlave dpid port net.bonds = some slave → slave.enabled →
    ∃ src timeout, net.partner (dpid, port) = some (src, timeout) ∧
      net.flows (dpid, port, src) = some timeout

/-- A packet is of a slave, and there is a flow entry for its source with its timeout, or one is
entered. An entry for slow protocols that has expired is of a slave that is enabled. -/
def Meets (net : Net) : Message → Prop
  | .lacp datapath port src actorStateTimeout =>
    ∃ slave, getSlave datapath.id port net.bonds = some slave ∧
      (idleTimeout actorStateTimeout ≠ slave.timeout ∧ datapath.ofpVersion ∈ addFlowVersions ∨
        net.flows (datapath.id, port, src) = some (idleTimeout actorStateTimeout))
  | .flowRemoved datapath inPort _ ethType =>
    ∀ port, matchFields datapath inPort ethType = .ok (port, ethTypeSlow) →
      getSlaveEnabled datapath.id port net.bonds

variable {bonds : List Bond} {net : Net} {datapath : Datapath} {dpid port src a d p : ℕ}
  {f : Slave → Slave} {slave : Slave} {inPort ethSrc ethType : Option ℕ}

theorem slave_insert (bond : Bond) (dpid port d p : ℕ) (slave : Slave) (h : bond.dpid = dpid) :
    Bond.slave { bond with ifs := Assoc.insert port slave bond.ifs } d p =
      if dpid = d ∧ port = p then some slave else bond.slave d p := by
  subst h
  simp only [Bond.slave, Assoc.lookup_insert]
  by_cases hd : bond.dpid = d
  · by_cases hp : port = p <;> simp [hd, hp]
  · simp [hd]

theorem getSlave_setSlave : getSlave d p (setSlave dpid port f bonds) =
    if dpid = d ∧ port = p then (getSlave d p bonds).map f else getSlave d p bonds := by
  induction bonds with
  | nil => simp [setSlave, getSlave]
  | cons bond bonds ih =>
    rw [setSlave]
    split
    · next slave hslave =>
      have hdpid : bond.dpid = dpid := by
        by_contra hne
        rw [Bond.slave, if_neg hne] at hslave
        cases hslave
      rw [getSlave, List.findSome?_cons, slave_insert bond dpid port d p _ hdpid]
      by_cases hk : dpid = d ∧ port = p
      · obtain ⟨rfl, rfl⟩ := hk
        rw [if_pos ⟨rfl, rfl⟩, if_pos ⟨rfl, rfl⟩, getSlave, List.findSome?_cons, hslave]
        rfl
      · rw [if_neg hk, if_neg hk, getSlave, List.findSome?_cons]
    · next hnone =>
      have hskip : ∀ l : List Bond,
          getSlave d p (bond :: l) = (bond.slave d p).or (getSlave d p l) := by
        intro l
        rw [getSlave, List.findSome?_cons]
        cases bond.slave d p <;> rfl
      rw [hskip, hskip, ih]
      by_cases hk : dpid = d ∧ port = p
      · obtain ⟨rfl, rfl⟩ := hk
        rw [if_pos ⟨rfl, rfl⟩, if_pos ⟨rfl, rfl⟩, hnone, Option.none_or, Option.none_or]
      · rw [if_neg hk, if_neg hk]

theorem getSlaveEnabled_of_some (h : getSlave dpid port bonds = some slave) :
    getSlaveEnabled dpid port bonds = slave.enabled := by
  rw [getSlaveEnabled, h]

theorem getSlaveTimeout_of_some (h : getSlave dpid port bonds = some slave) :
    getSlaveTimeout dpid port bonds = slave.timeout := by
  rw [getSlaveTimeout, h]

theorem getSlaveEnabled_of_none (h : getSlave dpid port bonds = none) :
    getSlaveEnabled dpid port bonds = false := by
  rw [getSlaveEnabled, h]

/-- What a port that is set to a slave is, whatever it was. -/
theorem getSlave_setSlave_const (hf : ∀ s, getSlave dpid port bonds = some s → f s = slave) :
    getSlave d p (setSlave dpid port f bonds) =
      if dpid = d ∧ port = p then (getSlave d p bonds).map fun _ => slave
      else getSlave d p bonds := by
  rw [getSlave_setSlave]
  split
  · next hk =>
    obtain ⟨rfl, rfl⟩ := hk
    cases hs : getSlave dpid port bonds with
    | none => rfl
    | some s => rw [Option.map_some, Option.map_some, hf s hs]
  · rfl

theorem changes_concat {e : ℕ × ℕ × Bool} {net' : Net} (h : net'.events = net.events ++ [e]) :
    net'.changes d p = net.changes d p ++ if e.1 = d ∧ e.2.1 = p then [e.2.2] else [] := by
  rw [changes, changes, h, List.filter_append, List.map_append]
  by_cases hk : e.1 = d ∧ e.2.1 = p
  · simp [hk]
  · rw [if_neg hk, List.filter_cons_of_neg (by simpa using hk)]
    rfl

theorem getSlaveTimeout_setSlaveEnabled (enabled : Bool) :
    getSlaveTimeout d p (setSlaveEnabled dpid port enabled bonds) = getSlaveTimeout d p bonds := by
  rw [getSlaveTimeout, getSlaveTimeout, setSlaveEnabled, getSlave_setSlave]
  by_cases hk : dpid = d ∧ port = p
  · rw [if_pos hk]
    cases getSlave d p bonds <;> rfl
  · rw [if_neg hk]

/-- Whether a flow entry is entered for a packet. -/
def Enters (bonds : List Bond) (datapath : Datapath) (port timeout : ℕ) : Prop :=
  timeout ≠ getSlaveTimeout datapath.id port bonds ∧ datapath.ofpVersion ∈ addFlowVersions

instance : Decidable (Enters bonds datapath port a) :=
  inferInstanceAs (Decidable (_ ∧ _))

theorem doLacp_sent : (doLacp datapath port src a bonds).2.1 =
    (if getSlaveEnabled datapath.id port bonds then []
      else [Sent.slaveStateChanged datapath.id port true]) ++
      if Enters bonds datapath port (idleTimeout a) then
        [.flow datapath.id src port (idleTimeout a)] else [] := by
  simp only [doLacp, Enters]
  cases getSlaveEnabled datapath.id port bonds <;>
    simp only [Bool.false_eq_true, if_false, if_true, getSlaveTimeout_setSlaveEnabled]
  all_goals
    by_cases hne : idleTimeout a = getSlaveTimeout datapath.id port bonds
    · simp [hne]
    · by_cases hv : datapath.ofpVersion ∈ addFlowVersions <;> simp [hne, hv]

/-- A packet enables its port, with its timeout. -/
theorem getSlave_doLacp : getSlave d p (doLacp datapath port src a bonds).1 =
    if datapath.id = d ∧ port = p then
      (getSlave d p bonds).map fun _ => ⟨true, idleTimeout a⟩ else getSlave d p bonds := by
  set enabled := if getSlaveEnabled datapath.id port bonds then bonds
    else setSlaveEnabled datapath.id port true bonds with henabled
  have hfst : (doLacp datapath port src a bonds).1 =
      if idleTimeout a ≠ getSlaveTimeout datapath.id port enabled then
        setSlaveTimeout datapath.id port (idleTimeout a) enabled else enabled := by
    rw [doLacp, henabled]
    by_cases hv : datapath.ofpVersion ∈ addFlowVersions <;>
      cases getSlaveEnabled datapath.id port bonds <;>
        simp only [hv, Bool.false_eq_true, if_false, if_true] <;> split <;> rfl
  have hget : ∀ d p, getSlave d p enabled = if datapath.id = d ∧ port = p then
      (getSlave d p bonds).map fun s => { s with enabled := true } else getSlave d p bonds := by
    intro d p
    rw [henabled]
    split
    · next h =>
      split
      · next hk =>
        obtain ⟨rfl, rfl⟩ := hk
        cases hs : getSlave datapath.id port bonds with
        | none => rfl
        | some s =>
          rw [getSlaveEnabled_of_some hs] at h
          rw [Option.map_some, ← h]
      · rfl
    · exact getSlave_setSlave
  rw [hfst]
  split
  · rw [setSlaveTimeout, getSlave_setSlave, hget]
    split
    · cases getSlave d p bonds <;> rfl
    · rfl
  · next htimeout =>
    rw [hget]
    split
    · next hk =>
      obtain ⟨rfl, rfl⟩ := hk
      rw [not_not, getSlaveTimeout, hget, if_pos ⟨rfl, rfl⟩] at htimeout
      cases hs : getSlave datapath.id port bonds with
      | none => rfl
      | some s =>
        rw [hs] at htimeout
        rw [Option.map_some, Option.map_some, htimeout]
        rfl
    · rfl

theorem flowRemovedHandler_slow (bonds : List Bond)
    (h : matchFields datapath inPort ethType = .ok (port, ethTypeSlow)) :
    (flowRemovedHandler datapath inPort ethType bonds).2.1 =
        [.slaveStateChanged datapath.id port false] ∧
      ∀ d p, getSlave d p (flowRemovedHandler datapath inPort ethType bonds).1 =
        if datapath.id = d ∧ port = p then (getSlave d p bonds).map fun _ => ⟨false, 0⟩
        else getSlave d p bonds := by
  simp only [flowRemovedHandler, h, ne_eq, not_true_eq_false, if_false, true_and]
  intro d p
  rw [setSlaveTimeout, getSlave_setSlave, setSlaveEnabled, getSlave_setSlave]
  split
  · cases getSlave d p bonds <;> rfl
  · rfl

theorem flowRemovedHandler_other (bonds : List Bond)
    (h : ∀ port, matchFields datapath inPort ethType ≠ .ok (port, ethTypeSlow)) :
    (flowRemovedHandler datapath inPort ethType bonds).2.1 = [] ∧
      (flowRemovedHandler datapath inPort ethType bonds).1 = bonds := by
  rw [flowRemovedHandler]
  split
  · exact ⟨rfl, rfl⟩
  · next port dlType hfields =>
    have hne : ethTypeSlow ≠ dlType := fun he => h port (he ▸ hfields)
    rw [if_pos hne]
    exact ⟨rfl, rfl⟩

theorem isSome_ite_map {k : Prop} [Decidable k] {x : Option Slave} (slave : Slave) :
    (if k then x.map fun _ => slave else x).isSome = x.isSome := by
  split
  · exact Option.isSome_map
  · rfl

/-- What a packet does. -/
theorem step_lacp (net : Net) (datapath : Datapath) (port src a : ℕ) :
    ∃ net' : Net, net.step (.lacp datapath port src a) = net' ∧
      (∀ d p, getSlave d p net'.bonds = if datapath.id = d ∧ port = p then
        (getSlave d p net.bonds).map fun _ => ⟨true, idleTimeout a⟩ else getSlave d p net.bonds) ∧
      net'.events = net.events ++ (if getSlaveEnabled datapath.id port net.bonds then []
        else [(datapath.id, port, true)]) ∧
      net'.flows = (if Enters net.bonds datapath port (idleTimeout a) then
        Function.update net.flows (datapath.id, port, src) (some (idleTimeout a)) else net.flows) ∧
      net'.partner =
        Function.update net.partner (datapath.id, port) (some (src, idleTimeout a)) := by
  refine ⟨_, rfl, ?_⟩
  have hsent : (doLacp datapath port src a net.bonds).2.1 = _ := doLacp_sent
  have hget : ∀ d p, getSlave d p (doLacp datapath port src a net.bonds).1 = _ := fun _ _ =>
    getSlave_doLacp
  simp only [step, handle]
  generalize doLacp datapath port src a net.bonds = res at hsent hget ⊢
  obtain ⟨bonds', sent, err⟩ := res
  dsimp only at hsent hget ⊢
  subst hsent
  by_cases henabled : getSlaveEnabled datapath.id port net.bonds <;>
    by_cases henters : Enters net.bonds datapath port (idleTimeout a) <;>
    simp [henabled, henters, deliver, arrive, hget]

/-- The port and type of a match that has both. -/
theorem matchFields_some (datapath : Datapath) (port type : ℕ) :
    matchFields datapath (some port) (some type) = .ok (port, type) := by
  rw [matchFields]
  split <;> rfl

/-- What the removal of a flow entry for slow protocols does. -/
theorem step_slow (net : Net) (ethSrc : Option ℕ)
    (h : matchFields datapath inPort ethType = .ok (port, ethTypeSlow)) :
    ∃ net' : Net, net.step (.flowRemoved datapath inPort ethSrc ethType) = net' ∧
      (∀ d p, getSlave d p net'.bonds = if datapath.id = d ∧ port = p then
        (getSlave d p net.bonds).map fun _ => ⟨false, 0⟩ else getSlave d p net.bonds) ∧
      net'.events = net.events ++ [(datapath.id, port, false)] ∧
      (∀ d p src, ¬(datapath.id = d ∧ port = p) → net'.flows (d, p, src) = net.flows (d, p, src)) ∧
      net'.partner = net.partner := by
  refine ⟨_, rfl, ?_⟩
  obtain ⟨hsent, hget⟩ := flowRemovedHandler_slow net.bonds h
  simp only [step, handle]
  generalize flowRemovedHandler datapath inPort ethType net.bonds = res at hsent hget ⊢
  obtain ⟨bonds', sent, err⟩ := res
  dsimp only at hsent hget ⊢
  subst hsent
  have harrive : (net.arrive (.flowRemoved datapath inPort ethSrc ethType)).events = net.events ∧
      (net.arrive (.flowRemoved datapath inPort ethSrc ethType)).partner = net.partner ∧
      ∀ d p src, ¬(datapath.id = d ∧ port = p) →
        (net.arrive (.flowRemoved datapath inPort ethSrc ethType)).flows (d, p, src) =
          net.flows (d, p, src) := by
    rw [arrive.eq_def]
    split
    · next heq => cases heq
    · next port' src' type heq =>
      cases heq
      rw [matchFields_some] at h
      obtain ⟨rfl, -⟩ := Prod.mk.inj (Except.ok.inj h)
      split
      · refine ⟨rfl, rfl, fun d p src hne => Function.update_of_ne ?_ _ _⟩
        rintro ⟨⟩
        exact hne ⟨rfl, rfl⟩
      · exact ⟨rfl, rfl, fun _ _ _ _ => rfl⟩
    · exact ⟨rfl, rfl, fun _ _ _ _ => rfl⟩
  obtain ⟨hevents, hpartner, hflows⟩ := harrive
  simp only [List.foldl_cons, List.foldl_nil, deliver, hevents, hpartner]
  exact ⟨hget, trivial, hflows, trivial⟩

/-- Nothing happens when another flow entry is removed. -/
theorem step_other (net : Net) (ethSrc : Option ℕ)
    (h : ∀ port, matchFields datapath inPort ethType ≠ .ok (port, ethTypeSlow)) :
    net.step (.flowRemoved datapath inPort ethSrc ethType) = net := by
  obtain ⟨hsent, hbonds⟩ := flowRemovedHandler_other net.bonds h
  simp only [step, handle]
  generalize flowRemovedHandler datapath inPort ethType net.bonds = res at hsent hbonds ⊢
  obtain ⟨bonds', sent, err⟩ := res
  dsimp only at hsent hbonds ⊢
  subst hsent hbonds
  have harrive : net.arrive (.flowRemoved datapath inPort ethSrc ethType) = net := by
    rw [arrive.eq_def]
    split
    · next heq => cases heq
    · next port' src' type heq =>
      cases heq
      have hne : type ≠ ethTypeSlow := fun he => h port' (he ▸ matchFields_some datapath port' type)
      rw [if_neg hne]
    · rfl
  rw [List.foldl_nil, harrive]

/-- One packet keeps the net sound if and only if it meets the condition. -/
theorem sound_step_lacp_iff (h : net.Sound) :
    (net.step (.lacp datapath port src a)).Sound ↔ net.Meets (.lacp datapath port src a) := by
  obtain ⟨net', hstep, hget, hevents, hflows, hpartner⟩ :=
    step_lacp net datapath port src a
  rw [hstep]
  have hsome : ∀ d p, (getSlave d p net'.bonds).isSome = (getSlave d p net.bonds).isSome := by
    intro d p
    rw [hget]
    exact isSome_ite_map _
  constructor
  · intro h'
    cases hslave : getSlave datapath.id port net.bonds with
    | none =>
      rw [getSlaveEnabled_of_none hslave] at hevents
      have hconf := h'.configured (datapath.id, port, true) (by simp [hevents])
      rw [hsome, hslave] at hconf
      cases hconf
    | some slave =>
      obtain ⟨src', timeout, hp, hf⟩ := h'.flow datapath.id port ⟨true, idleTimeout a⟩
        (by rw [hget, if_pos ⟨rfl, rfl⟩, hslave, Option.map_some]) rfl
      rw [hpartner, Function.update_self] at hp
      obtain ⟨rfl, rfl⟩ := Prod.mk.inj (Option.some.inj hp)
      refine ⟨slave, hslave, ?_⟩
      rw [hflows] at hf
      split at hf
      · next henters =>
        rw [Enters, getSlaveTimeout_of_some hslave] at henters
        exact Or.inl henters
      · exact Or.inr hf
  · rintro ⟨slave, hslave, hflow⟩
    have hflow' : net'.flows (datapath.id, port, src) = some (idleTimeout a) := by
      rw [hflows]
      split
      · exact Function.update_self ..
      · next henters =>
        rw [Enters, getSlaveTimeout_of_some hslave] at henters
        exact hflow.resolve_left henters
    refine ⟨fun e he => ?_, fun d p s hs => ?_, fun d p s hs henabled => ?_⟩
    · rw [hsome]
      rw [hevents, List.mem_append] at he
      obtain he | he := he
      · exact h.configured e he
      · split at he
        · cases he
        · obtain rfl := List.mem_singleton.mp he
          rw [hslave]
          rfl
    · by_cases hk : datapath.id = d ∧ port = p
      · obtain ⟨rfl, rfl⟩ := hk
        rw [hget, if_pos ⟨rfl, rfl⟩, hslave, Option.map_some] at hs
        obtain rfl := Option.some.inj hs
        have hreports := h.reports _ _ _ hslave
        rw [getSlaveEnabled_of_some hslave] at hevents
        cases henabled : slave.enabled with
        | true =>
          rw [henabled] at hreports hevents
          rwa [changes, hevents, if_pos rfl, List.append_nil, ← changes]
        | false =>
          rw [henabled] at hreports hevents
          rw [changes_concat hevents, if_pos ⟨rfl, rfl⟩]
          exact hreports.concat_iff.mpr Bool.false_ne_true
      · rw [hget, if_neg hk] at hs
        have hchanges : net'.changes d p = net.changes d p := by
          split at hevents
          · rw [changes, hevents, List.append_nil, ← changes]
          · rw [changes_concat hevents, if_neg hk, List.append_nil]
        rw [hchanges]
        exact h.reports d p s hs
    · by_cases hk : datapath.id = d ∧ port = p
      · obtain ⟨rfl, rfl⟩ := hk
        exact ⟨src, idleTimeout a, by rw [hpartner, Function.update_self], hflow'⟩
      · rw [hget, if_neg hk] at hs
        obtain ⟨src', timeout, hp, hf⟩ := h.flow d p s hs henabled
        have hkey : (d, p) ≠ (datapath.id, port) := by
          rintro ⟨⟩
          exact hk ⟨rfl, rfl⟩
        have hkey' : (d, p, src') ≠ (datapath.id, port, src) := by
          rintro ⟨⟩
          exact hk ⟨rfl, rfl⟩
        refine ⟨src', timeout, by rw [hpartner, Function.update_of_ne hkey, hp], ?_⟩
        rw [hflows]
        split
        · rw [Function.update_of_ne hkey', hf]
        · exact hf

/-- The removal of one flow entry keeps the net sound if and only if it meets the condition. -/
theorem sound_step_flowRemoved_iff (h : net.Sound) :
    (net.step (.flowRemoved datapath inPort ethSrc ethType)).Sound ↔
      net.Meets (.flowRemoved datapath inPort ethSrc ethType) := by
  by_cases hslow : ∃ port, matchFields datapath inPort ethType = .ok (port, ethTypeSlow)
  · obtain ⟨port, hport⟩ := hslow
    have hmeets : net.Meets (.flowRemoved datapath inPort ethSrc ethType) ↔
        getSlaveEnabled datapath.id port net.bonds := by
      refine ⟨fun hm => hm port hport, fun hm port' hport' => ?_⟩
      rw [hport] at hport'
      obtain ⟨rfl, -⟩ := Prod.mk.inj (Except.ok.inj hport')
      exact hm
    obtain ⟨net', hstep, hget, hevents, hflows, hpartner⟩ := step_slow net ethSrc hport
    rw [hstep, hmeets]
    have hsome : ∀ d p, (getSlave d p net'.bonds).isSome = (getSlave d p net.bonds).isSome := by
      intro d p
      rw [hget]
      exact isSome_ite_map _
    constructor
    · intro h'
      have hconf := h'.configured (datapath.id, port, false) (by simp [hevents])
      rw [hsome] at hconf
      obtain ⟨slave, hslave⟩ := Option.isSome_iff_exists.mp hconf
      have hreports' := h'.reports datapath.id port ⟨false, 0⟩
        (by rw [hget, if_pos ⟨rfl, rfl⟩, hslave, Option.map_some])
      rw [changes_concat hevents, if_pos ⟨rfl, rfl⟩,
        (h.reports _ _ _ hslave).concat_iff, ne_eq, Bool.not_eq_false] at hreports'
      rwa [getSlaveEnabled_of_some hslave]
    · intro hm
      obtain ⟨slave, hslave⟩ : ∃ slave, getSlave datapath.id port net.bonds = some slave := by
        rw [← Option.ne_none_iff_exists']
        intro hnone
        rw [getSlaveEnabled_of_none hnone] at hm
        cases hm
      rw [getSlaveEnabled_of_some hslave] at hm
      refine ⟨fun e he => ?_, fun d p s hs => ?_, fun d p s hs henabled => ?_⟩
      · rw [hsome]
        rw [hevents, List.mem_append, List.mem_singleton] at he
        obtain he | rfl := he
        · exact h.configured e he
        · rw [hslave]
          rfl
      · rw [changes_concat hevents]
        by_cases hk : datapath.id = d ∧ port = p
        · obtain ⟨rfl, rfl⟩ := hk
          rw [hget, if_pos ⟨rfl, rfl⟩, hslave, Option.map_some] at hs
          obtain rfl := Option.some.inj hs
          rw [if_pos ⟨rfl, rfl⟩, (h.reports _ _ _ hslave).concat_iff, hm]
          exact Bool.false_ne_true.symm
        · rw [hget, if_neg hk] at hs
          rw [if_neg hk, List.append_nil]
          exact h.reports d p s hs
      · by_cases hk : datapath.id = d ∧ port = p
        · obtain ⟨rfl, rfl⟩ := hk
          rw [hget, if_pos ⟨rfl, rfl⟩, hslave, Option.map_some] at hs
          obtain rfl := Option.some.inj hs
          cases henabled
        · rw [hget, if_neg hk] at hs
          obtain ⟨src, timeout, hp, hf⟩ := h.flow d p s hs henabled
          exact ⟨src, timeout, by rw [hpartner, hp], by rw [hflows d p src hk, hf]⟩
  · rw [not_exists] at hslow
    rw [step_other net ethSrc hslow]
    exact iff_of_true h fun port hport => absurd hport (hslow port)

theorem sound_step_iff {msg : Message} (h : net.Sound) : (net.step msg).Sound ↔ net.Meets msg := by
  cases msg with
  | lacp => exact sound_step_lacp_iff h
  | flowRemoved => exact sound_step_flowRemoved_iff h

/-- No slave of the bonds is enabled. -/
def Disabled (bonds : List Bond) : Prop :=
  ∀ bond ∈ bonds, ∀ dpid port slave, bond.slave dpid port = some slave → slave.enabled = false

theorem lookup_foldl_insert (ports : List ℕ) (ifs : List (ℕ × Slave))
    (h : ∀ p s, Assoc.lookup p ifs = some s → s.enabled = false) (s : Slave)
    (hs : Assoc.lookup p (ports.foldl (fun ifs port => Assoc.insert port ⟨false, 0⟩ ifs) ifs) =
      some s) : s.enabled = false := by
  induction ports generalizing ifs with
  | nil => exact h p s hs
  | cons port ports ih =>
    refine ih (Assoc.insert port ⟨false, 0⟩ ifs) (fun q t hq => ?_) hs
    rw [Assoc.lookup_insert] at hq
    split at hq
    · obtain rfl := Option.some.inj hq
      rfl
    · exact h q t hq

theorem disabled_add {bonds' : List Bond} {ports : List ℕ} (h : Disabled bonds)
    (hadd : add dpid ports bonds = .ok bonds') : Disabled bonds' := by
  rw [add] at hadd
  split at hadd
  · obtain rfl := Except.ok.inj hadd
    intro bond hbond d p slave hslave
    rw [List.mem_append, List.mem_singleton] at hbond
    obtain hbond | rfl := hbond
    · exact h bond hbond d p slave hslave
    · rw [Bond.slave] at hslave
      split at hslave
      · exact lookup_foldl_insert ports [] (fun _ s h => absurd h (Option.some_ne_none s).symm) slave hslave
      · cases hslave
  · cases hadd

theorem disabled_foldlM {bonds' : List Bond} (confs : List (ℕ × List ℕ)) (h : Disabled bonds)
    (hadd : confs.foldlM (fun bonds conf => add conf.1 conf.2 bonds) bonds = .ok bonds') :
    Disabled bonds' := by
  induction confs generalizing bonds with
  | nil =>
    obtain rfl := Except.ok.inj hadd
    exact h
  | cons conf confs ih =>
    rw [List.foldlM_cons] at hadd
    obtain ⟨bonds₁, hadd₁, hadd⟩ := bind_eq_ok.1 hadd
    exact ih (disabled_add h hadd₁) hadd

theorem sound_start {confs : List (ℕ × List ℕ)} (h : addAll confs = .ok bonds) :
    (start bonds).Sound := by
  have hdisabled : Disabled bonds :=
    disabled_foldlM confs (fun _ hmem => absurd hmem List.not_mem_nil) h
  have hslave : ∀ d p s, getSlave d p bonds = some s → s.enabled = false := by
    intro d p s hs
    obtain ⟨bond, hmem, hbond⟩ := List.exists_of_findSome?_eq_some hs
    exact hdisabled bond hmem d p s hbond
  refine ⟨fun e he => absurd he List.not_mem_nil, fun d p s hs => ?_, fun d p s hs he => ?_⟩
  · exact (hslave d p s hs).symm
  · rw [hslave d p s hs] at he
    cases he

/-- In a run all states are sound if and only if every message meets the condition. -/
theorem sound_run_iff {confs : List (ℕ × List ℕ)} (h : addAll confs = .ok bonds)
    (msgs : List Message) :
    Throughout step Sound (start bonds) msgs ↔ EveryStep step Meets (start bonds) msgs :=
  throughout_iff_everyStep (I := fun _ => True) (fun _ _ _ => trivial)
    (fun _ _ _ hsound => sound_step_iff hsound) trivial (sound_start h) msgs

theorem addAll_one : addAll [(1, [1, 2])] = .ok [⟨1, [(1, ⟨false, 0⟩), (2, ⟨false, 0⟩)]⟩] := rfl

/-- Two packets of one partner and the end of its entry. -/
theorem sound_run_partner : Throughout step Sound
    (start [⟨1, [(1, ⟨false, 0⟩), (2, ⟨false, 0⟩)]⟩])
    [.lacp ⟨1, 4⟩ 1 7 1, .lacp ⟨1, 4⟩ 1 7 1,
      .flowRemoved ⟨1, 4⟩ (some 1) (some 7) (some 0x8809)] := by
  refine (sound_run_iff addAll_one _).mpr ⟨⟨⟨false, 0⟩, rfl, Or.inl (by decide)⟩,
    ⟨⟨true, 3⟩, rfl, Or.inr rfl⟩, fun port hport => ?_, trivial⟩
  obtain ⟨rfl, -⟩ := Prod.mk.inj (Except.ok.inj hport)
  rfl

/-- A packet on a port that is not of a slave. -/
theorem not_sound_unknown : ¬ Throughout step Sound
    (start [⟨1, [(1, ⟨false, 0⟩), (2, ⟨false, 0⟩)]⟩]) [.lacp ⟨1, 4⟩ 3 7 1] := by
  intro h
  obtain ⟨slave, hslave, -⟩ := (sound_step_iff (sound_start addAll_one)).mp h.2
  cases hslave

end Net

end Ryu.Lacp
