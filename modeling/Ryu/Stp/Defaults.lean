import Mathlib.Algebra.Order.Ring.Int
import Ryu.Lib.Overlay

/-! # The values that bridges and ports start with

A bridge writes its configuration into the table of defaults of its class, and a port the cost of
its link into that of its own, so that both find what was written before them. A port does not read
the priority and the path cost it is configured with.
-/

namespace Ryu.Stp

inductive BridgeField
  | priority
  | sysExtId
  | maxAge
  | helloTime
  | fwdDelay
  deriving DecidableEq, Repr

/-- The documented default of a bridge. -/
def BridgeField.default : BridgeField → ℤ
  | .priority => 32768
  | .sysExtId => 0
  | .maxAge => 20
  | .helloTime => 2
  | .fwdDelay => 15

/-- The configuration of a port. Each field may be omitted. -/
structure PortConf where
  priority : Option ℤ
  pathCost : Option ℤ
  enable : Option Bool
  deriving DecidableEq, Repr

/-- The configuration of a bridge and its ports. -/
structure BridgeConf where
  bridge : Dict BridgeField ℤ
  ports : Dict ℕ PortConf

/-- The values of a port, and those of `Port._DEFAULT_VALUE`. -/
structure PortValues where
  priority : ℤ
  pathCost : ℤ
  enable : Bool
  deriving DecidableEq, Repr

def defaultPortPriority : ℤ := 128

/-- `PORT_PATH_COST_10MB`. -/
def defaultPathCost : ℤ := 2000000

structure OfPort where
  portNo : ℕ
  curr : ℕ
  deriving DecidableEq, Repr

/-- `path_costs`, the highest rate first. -/
def pathCosts : List (ℕ × ℤ) :=
  [(1 <<< 6, 2000), (1 <<< 5, 20000), (1 <<< 4, 20000), (1 <<< 3, 200000), (1 <<< 2, 200000),
    (1 <<< 1, 2000000), (1 <<< 0, 2000000)]

/-- The path cost of the current rate of a port, if the rate is one of those. -/
def rateCost (curr : ℕ) : Option ℤ :=
  (pathCosts.find? fun x => curr &&& x.1 ≠ 0).map Prod.snd

structure StpBridge where
  values : BridgeField → ℤ
  portsConf : Dict ℕ PortConf
  ports : Dict ℕ PortValues

/-- A call of the constructor of `Bridge` or of `Port`. -/
inductive Request
  | bridge (conf : Dict BridgeField ℤ) (ports : List OfPort)
  | port (conf : PortConf) (ofport : OfPort)

/-- What a constructor makes. That of `Bridge` takes the address of the first port. -/
inductive Made
  | bridge (values : BridgeField → ℤ)
  | port (values : PortValues)
  | indexError

/-- The state of `Stp` and the class attributes of `Bridge` and `Port`, beside what has been made. -/
structure StpState where
  config : Dict ℕ BridgeConf
  bridgeList : Dict ℕ StpBridge
  bridgeDefault : BridgeField → ℤ
  portDefault : PortValues
  made : List (Request × Made)

inductive StpEvent
  | setConfig (config : Dict ℕ BridgeConf)
  | mainDispatcher (dpid : ℕ) (ports : List OfPort)
  | deadDispatcher (dpid : ℕ)
  | portAdded (dpid : ℕ) (ofport : OfPort)

namespace StpState

def init : StpState where
  config := Dict.empty
  bridgeList := Dict.empty
  bridgeDefault := BridgeField.default
  portDefault := ⟨defaultPortPriority, defaultPathCost, true⟩
  made := []

/-- `Port.__init__`. The loop at its end writes each value over itself. -/
def initPort (s : StpState) (conf : PortConf) (ofport : OfPort) : StpState × PortValues :=
  let values := match rateCost ofport.curr with
    | some cost => { s.portDefault with pathCost := cost }
    | none => s.portDefault
  let port := { values with enable := conf.enable.getD s.portDefault.enable }
  ({ s with portDefault := values, made := s.made ++ [(.port conf ofport, .port port)] }, port)

/-- `port_add`. -/
def portAdd (s : StpState) (b : StpBridge) (ofport : OfPort) : StpState × StpBridge :=
  if ofport.portNo ≤ 0xfff then
    let conf := (b.portsConf.get? ofport.portNo).getD ⟨none, none, none⟩
    let r := s.initPort conf ofport
    (r.1, { b with ports := b.ports.set ofport.portNo r.2 })
  else (s, b)

/-- `Bridge.__init__`. -/
def initBridge (s : StpState) (conf : BridgeConf) (ports : List OfPort) :
    StpState × Option StpBridge :=
  let values := overlay s.bridgeDefault conf.bridge
  let s := { s with bridgeDefault := values }
  if ports = [] then
    ({ s with made := s.made ++ [(.bridge conf.bridge ports, .indexError)] }, none)
  else
    let s := { s with made := s.made ++ [(.bridge conf.bridge ports, .bridge values)] }
    let r := ports.foldl (fun r ofport => r.1.portAdd r.2 ofport)
      (s, ⟨values, conf.ports, Dict.empty⟩)
    (r.1, some r.2)

/-- `_register_bridge`, behind its `_unregister_bridge`. -/
def registerBridge (s : StpState) (dpid : ℕ) (ports : List OfPort) : StpState :=
  let conf := (s.config.get? dpid).getD ⟨Dict.empty, Dict.empty⟩
  let r := s.initBridge conf ports
  match r.2 with
  | none => r.1
  | some b => { r.1 with bridgeList := r.1.bridgeList.set dpid b }

def step (s : StpState) : StpEvent → StpState
  | .setConfig config => { s with config := config }
  | .mainDispatcher dpid ports =>
    registerBridge { s with bridgeList := s.bridgeList.erase dpid } dpid ports
  | .deadDispatcher dpid => { s with bridgeList := s.bridgeList.erase dpid }
  | .portAdded dpid ofport =>
    match s.bridgeList.get? dpid with
    | none => s
    | some b =>
      let r := s.portAdd b ofport
      { r.1 with bridgeList := r.1.bridgeList.set dpid r.2 }

end StpState

/-- The values are those of the own configuration over the documented defaults. -/
def Own : Request × Made → Prop
  | (.bridge conf _, .bridge values) => ∀ k, values k = (conf.get? k).getD k.default
  | (.port conf ofport, .port values) =>
    values.priority = conf.priority.getD defaultPortPriority ∧
      values.pathCost = conf.pathCost.getD ((rateCost ofport.curr).getD defaultPathCost)
  | _ => True

/-- The value that is configured for a bridge, and so written into the table. -/
def Request.given (k : BridgeField) : Request → Option ℤ
  | .bridge conf _ => conf.get? k
  | .port _ _ => none

/-- The path cost of the rate of a port, which is written into the table. -/
def Request.rate : Request → Option ℤ
  | .bridge _ _ => none
  | .port _ ofport => rateCost ofport.curr

/-- What is not configured was last written with the default, and what is configured for a port is
what it gets anyway. -/
def Request.Meets (before : List Request) : Request → Prop
  | .bridge conf ports => ports ≠ [] → ∀ k, conf.get? k = none →
    (lastGiven (Request.given k) before).getD k.default = k.default
  | .port conf ofport => conf.priority.getD defaultPortPriority = defaultPortPriority ∧
    conf.pathCost.getD ((rateCost ofport.curr).getD defaultPathCost) =
      (rateCost ofport.curr).getD ((lastGiven Request.rate before).getD defaultPathCost)

namespace StpState

variable {s : StpState}

def requests (s : StpState) : List Request := s.made.map Prod.fst

/-- The tables hold what was last written, and what was made is right as far as the requests meet
their condition. -/
structure Tracks (s : StpState) : Prop where
  bridge : ∀ k, s.bridgeDefault k = (lastGiven (Request.given k) s.requests).getD k.default
  port : s.portDefault =
    ⟨defaultPortPriority, (lastGiven Request.rate s.requests).getD defaultPathCost, true⟩
  own_iff : (∀ x ∈ s.made, Own x) ↔ EachAfter Request.Meets s.requests

theorem tracks_init : init.Tracks where
  bridge _ := rfl
  port := rfl
  own_iff := iff_of_true (by simp [init]) (eachAfter_nil _)

theorem getD_or {α : Type*} (a b : Option α) (c : α) : (a.or b).getD c = a.getD (b.getD c) := by
  cases a <;> rfl

/-- One more request, what is written for it and what is made. -/
theorem Tracks.concat {s' : StpState} {r : Request} {m : Made} (h : s.Tracks)
    (hmade : s'.made = s.made ++ [(r, m)])
    (hbridge : ∀ k, s'.bridgeDefault k = (r.given k).getD (s.bridgeDefault k))
    (hport : s'.portDefault =
      { s.portDefault with pathCost := r.rate.getD s.portDefault.pathCost })
    (hown : Own (r, m) ↔ r.Meets s.requests) : s'.Tracks := by
  have hrequests : s'.requests = s.requests ++ [r] := by
    rw [requests, hmade, List.map_append]
    rfl
  refine ⟨fun k => ?_, ?_, ?_⟩
  · rw [hbridge, h.bridge, hrequests, lastGiven_concat, getD_or]
  · rw [hport, h.port, hrequests, lastGiven_concat, getD_or]
  · rw [hrequests, eachAfter_concat, hmade, List.forall_mem_append, List.forall_mem_singleton,
      h.own_iff, hown]

theorem Tracks.initPort (h : s.Tracks) (conf : PortConf) (ofport : OfPort) :
    (s.initPort conf ofport).1.Tracks := by
  refine h.concat (r := .port conf ofport) rfl (fun k => rfl) ?_ ?_
  · simp only [StpState.initPort, Request.rate]
    cases rateCost ofport.curr <;> rfl
  · simp only [Own, Request.Meets, h.port]
    cases rateCost ofport.curr with
    | none => exact and_congr eq_comm eq_comm
    | some cost => exact and_congr eq_comm eq_comm

theorem Tracks.portAdd (h : s.Tracks) (b : StpBridge) (ofport : OfPort) :
    (s.portAdd b ofport).1.Tracks := by
  rw [StpState.portAdd]
  split
  · exact h.initPort _ _
  · exact h

theorem Tracks.foldl_portAdd (h : s.Tracks) (b : StpBridge) (ports : List OfPort) :
    (ports.foldl (fun r ofport => r.1.portAdd r.2 ofport) (s, b)).1.Tracks := by
  induction ports generalizing s b with
  | nil => exact h
  | cons ofport ports ih => exact ih (h.portAdd b ofport) _

theorem Tracks.initBridge (h : s.Tracks) (conf : BridgeConf) (ports : List OfPort) :
    (s.initBridge conf ports).1.Tracks := by
  have hoverlay (k : BridgeField) : overlay s.bridgeDefault conf.bridge k =
      ((Request.bridge conf.bridge ports).given k).getD (s.bridgeDefault k) :=
    overlay_apply s.bridgeDefault conf.bridge k
  rw [StpState.initBridge]
  split
  · next hports =>
    refine h.concat (r := .bridge conf.bridge ports) rfl hoverlay rfl ?_
    exact iff_of_true trivial fun hne => absurd hports hne
  · next hports =>
    refine Tracks.foldl_portAdd ?_ _ _
    refine h.concat (r := .bridge conf.bridge ports) rfl hoverlay rfl ?_
    simp only [Own, Request.Meets, overlay_apply, ← h.bridge]
    constructor
    · intro hown _ k hk
      have hk' := hown k
      rwa [hk] at hk'
    · intro hmeets k
      cases hk : conf.bridge.get? k with
      | none => exact hmeets hports k hk
      | some v => rfl

/-- Neither the configuration nor the bridges count. -/
theorem Tracks.of_eq {s' : StpState} (h : s.Tracks) (hmade : s'.made = s.made)
    (hbridge : s'.bridgeDefault = s.bridgeDefault) (hport : s'.portDefault = s.portDefault) :
    s'.Tracks := by
  have hrequests : s'.requests = s.requests := congrArg (List.map Prod.fst) hmade
  refine ⟨?_, ?_, ?_⟩
  · rw [hbridge, hrequests]
    exact h.bridge
  · rw [hport, hrequests]
    exact h.port
  · rw [hmade, hrequests]
    exact h.own_iff

theorem Tracks.step (h : s.Tracks) (e : StpEvent) : (s.step e).Tracks := by
  cases e with
  | setConfig config => exact h.of_eq rfl rfl rfl
  | deadDispatcher dpid => exact h.of_eq rfl rfl rfl
  | mainDispatcher dpid ports =>
    have hleft : Tracks { s with bridgeList := s.bridgeList.erase dpid } := h.of_eq rfl rfl rfl
    simp only [StpState.step, registerBridge]
    split
    · exact hleft.initBridge _ _
    · exact (hleft.initBridge _ _).of_eq rfl rfl rfl
  | portAdded dpid ofport =>
    simp only [StpState.step]
    split
    · exact h
    · exact (h.portAdd _ _).of_eq rfl rfl rfl

theorem Tracks.run (h : s.Tracks) (es : List StpEvent) : (es.foldl StpState.step s).Tracks := by
  induction es generalizing s with
  | nil => exact h
  | cons e es ih => exact ih (h.step e)

/-- All that is made in a run has its own values exactly if each request meets its condition on
those before it. -/
theorem own_run_iff (es : List StpEvent) : (∀ x ∈ (es.foldl step init).made, Own x) ↔
    EachAfter Request.Meets (es.foldl step init).requests :=
  (tracks_init.run es).own_iff

/-- The second bridge is not configured and gets the priority of the first. -/
theorem not_own_second :
    ¬∀ x ∈ ([.setConfig (Dict.empty.set 1 ⟨Dict.empty.set .priority 4096, Dict.empty⟩),
      .mainDispatcher 1 [⟨1, 0⟩], .mainDispatcher 2 [⟨1, 0⟩]].foldl step init).made, Own x := by
  intro h
  have hsecond := h (.bridge Dict.empty [⟨1, 0⟩], .bridge (overlay (overlay BridgeField.default
    (Dict.empty.set .priority 4096)) Dict.empty)) (.tail _ (.tail _ (.head _)))
  exact absurd (hsecond .priority) (by decide)

end StpState

end Ryu.Stp
