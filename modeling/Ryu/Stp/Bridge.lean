import Mathlib.Data.List.MinMax
import Mathlib.Data.Prod.Lex
import Ryu.Lib.Dict
import Ryu.Stp.Bpdu

/-! # Bridges and their ports

A bridge keeps at each port the last message that was superior to the one before. From these it
selects the port nearest to the root bridge, if it is not the root bridge itself, and the ports at
which it is nearer to the root than the other end of the link.
-/

namespace Ryu.Stp

/-- `SUPERIOR`, `REPEATED` and `INFERIOR`. -/
inductive Result
  | superior
  | repeated
  | inferior
  deriving DecidableEq, Repr

inductive Role
  | designatedPort
  | rootPort
  | nonDesignatedPort
  deriving DecidableEq, Repr

inductive PortState
  | disable
  | block
  | listen
  | learn
  | forward
  deriving DecidableEq, Repr

structure BridgeId where
  priority : ℕ
  systemIdExtension : ℕ
  macAddr : Mac
  deriving DecidableEq, Repr

def BridgeId.value (i : BridgeId) : ℕ := encodeBridgeId i.priority i.systemIdExtension i.macAddr

structure PortId where
  priority : ℕ
  portNo : ℕ
  deriving DecidableEq, Repr

def PortId.value (i : PortId) : ℕ := encodePortId i.priority i.portNo

/-- In units of 1/256 second. -/
structure Times where
  messageAge : ℕ
  maxAge : ℕ
  helloTime : ℕ
  forwardDelay : ℕ
  deriving DecidableEq, Repr

/-- A priority vector. A bridge's own one has neither designated bridge nor designated port. -/
structure Priority where
  rootId : BridgeId
  rootPathCost : ℕ
  designated : Option (BridgeId × PortId)
  deriving DecidableEq, Repr

/-- What a port keeps of a message, `designated_priority` and `designated_times`. -/
structure Received where
  rootId : BridgeId
  rootPathCost : ℕ
  designatedBridgeId : BridgeId
  designatedPortId : PortId
  times : Times
  deriving DecidableEq, Repr

namespace Received

def priority (m : Received) : Priority :=
  ⟨m.rootId, m.rootPathCost, some (m.designatedBridgeId, m.designatedPortId)⟩

def ofBpdu (pkt : ConfigurationBPDUs) : Received where
  rootId := ⟨pkt.rootPriority, pkt.rootSystemIdExtension, pkt.rootMacAddress⟩
  rootPathCost := pkt.rootPathCost
  designatedBridgeId := ⟨pkt.bridgePriority, pkt.bridgeSystemIdExtension, pkt.bridgeMacAddress⟩
  designatedPortId := ⟨pkt.portPriority, pkt.portNumber⟩
  times := ⟨pkt.messageAge, pkt.maxAge, pkt.helloTime, pkt.forwardDelay⟩

end Received

/-! ## The comparisons of `Stp` -/

def cmpValue (value1 value2 : ℤ) : Result :=
  if value1 < value2 then .superior else if value1 = value2 then .repeated else .inferior

def cmpObj (obj1 obj2 : Times) : Result := if obj1 = obj2 then .repeated else .superior

def compareRootPath (pathCost1 pathCost2 : ℤ) (bridgeId1 bridgeId2 portId1 portId2 : ℕ) :
    Result :=
  match cmpValue pathCost1 pathCost2 with
  | .repeated =>
    match cmpValue bridgeId1 bridgeId2 with
    | .repeated => cmpValue portId1 portId2
    | result => result
  | result => result

def compareBpduInfo (my : Option Received) (rcv : Received) : Result :=
  match my with
  | none => .superior
  | some my =>
    match cmpValue rcv.rootId.value my.rootId.value with
    | .repeated =>
      match compareRootPath rcv.rootPathCost my.rootPathCost rcv.designatedBridgeId.value
          my.designatedBridgeId.value rcv.designatedPortId.value my.designatedPortId.value with
      | .repeated =>
        if cmpValue rcv.designatedBridgeId.value my.designatedBridgeId.macAddr.toNat = .repeated ∧
            cmpValue rcv.designatedPortId.value my.designatedPortId.portNo = .repeated then
          .superior
        else cmpObj rcv.times my.times
      | result => result
    | result => result

/-! ## Ports -/

def maxPortNo : ℕ := 0xfff

structure Port where
  configEnable : Bool
  portPriority : Priority
  portTimes : Times
  portId : PortId
  pathCost : ℕ
  state : PortState
  role : Role
  received : Option Received
  sendTcnFlg : Bool
  deriving DecidableEq, Repr

namespace Port

/-- The number of `ofport`, which is that of the port identifier. -/
def portNo (p : Port) : ℕ := p.portId.portNo

/-- `down`, for the states `DISABLE` and `BLOCK`. -/
def down (p : Port) (state : PortState) (msgInit : Bool) : Port :=
  if p.configEnable then
    { p with
      received := if msgInit then none else p.received, role := .designatedPort, state,
      sendTcnFlg := false }
  else p

def up (p : Port) (role : Role) (rootPriority : Priority) (rootTimes : Times) : Port :=
  { p with
    portPriority := rootPriority, portTimes := rootTimes, role,
    state := if p.configEnable then .listen else .disable,
    sendTcnFlg := if p.configEnable then p.sendTcnFlg else false }

/-- The message of a port that is not disabled. -/
def heard (p : Port) : Option Received := if p.state = .disable then none else p.received

/-- The port after a message, how the message compares with the one held, and whether it tells
of a topology change. -/
def rcvConfigBpdu (p : Port) (pkt : ConfigurationBPDUs) : Port × Result × Bool :=
  let msg := Received.ofBpdu pkt
  let rcvInfo := compareBpduInfo p.received msg
  let p := if rcvInfo = .superior then { p with received := some msg } else p
  let chkFlg := (rcvInfo = .superior ∨ rcvInfo = .repeated) ∧
      (p.role = .rootPort ∨ p.role = .nonDesignatedPort) ∨
    rcvInfo = .inferior ∧ p.role = .designatedPort
  let rcvTc := decide (chkFlg ∧ pkt.flags &&& 0b00000001 ≠ 0)
  let acked := chkFlg ∧ pkt.flags &&& 0b10000000 ≠ 0
  ({ p with sendTcnFlg := if acked then false else p.sendTcnFlg }, rcvInfo, rcvTc)

/-- `_generate_config_bpdu`, without the headers in front of the message. -/
def generateConfigBpdu (p : Port) (bridgeId : BridgeId) (flags : ℕ) :
    Except PyError (List UInt8) :=
  match ConfigurationBPDUs.create
      { flags
        rootPriority := p.portPriority.rootId.priority
        rootSystemIdExtension := 0
        rootMacAddress := p.portPriority.rootId.macAddr
        rootPathCost := p.portPriority.rootPathCost + p.pathCost
        bridgePriority := bridgeId.priority
        bridgeSystemIdExtension := 0
        bridgeMacAddress := bridgeId.macAddr
        portPriority := p.portId.priority
        portNumber := p.portNo
        messageAge := p.portTimes.messageAge + 256
        maxAge := p.portTimes.maxAge
        helloTime := p.portTimes.helloTime
        forwardDelay := p.portTimes.forwardDelay } with
  | .error e => .error e
  | .ok b => b.serialize

end Port

/-! ## Bridges -/

/-- The ports are those of `port_add`, by their numbers. -/
structure Bridge where
  bridgeId : BridgeId
  bridgeTimes : Times
  rootPriority : Priority
  rootTimes : Times
  ports : List Port
  nodup : (ports.map Port.portNo).Nodup
  portNo_le : ∀ p ∈ ports, p.portNo ≤ maxPortNo

namespace Bridge

def isRootBridge (b : Bridge) : Prop := b.bridgeId.value = b.rootPriority.rootId.value

/-- The bridge with other values in its ports, which keep their numbers. -/
def mapPorts (b : Bridge) (f : Port → Port) (hf : ∀ p, (f p).portNo = p.portNo) : Bridge :=
  { b with
    ports := b.ports.map f
    nodup := by
      rw [List.map_map, show Port.portNo ∘ f = Port.portNo from funext hf]
      exact b.nodup
    portNo_le := by
      intro p hp
      obtain ⟨q, hq, rfl⟩ := List.mem_map.mp hp
      rw [hf]
      exact b.portNo_le q hq }

/-- How the message of a port compares with that of the root port so far, in
`_select_root_port`. -/
def compareRootMsg (rootMsg : Priority) (portMsg : Received) : Result :=
  if portMsg.rootId.value < rootMsg.rootId.value then .superior
  else if rootMsg.rootId.value = portMsg.rootId.value then
    match rootMsg.designated with
    | none => .inferior
    | some (bridgeId, portId) =>
      compareRootPath portMsg.rootPathCost rootMsg.rootPathCost portMsg.designatedBridgeId.value
        bridgeId.value portMsg.designatedPortId.value portId.value
  else .inferior

/-- The root port after one more port, with its message. -/
def considerRoot (b : Bridge) (rootPort : Option (Port × Received)) (port : Port) :
    Option (Port × Received) :=
  let rootMsg := match rootPort with
    | none => b.rootPriority
    | some (_, msg) => msg.priority
  match port.heard with
  | none => rootPort
  | some portMsg => if compareRootMsg rootMsg portMsg = .superior then some (port, portMsg)
    else rootPort

def selectRootPort (b : Bridge) : Option (Port × Received) := b.ports.foldl b.considerRoot none

/-- Whether a port is nearer to the root than the other end of its link, in
`_select_designated_port`: the cost of the message is taken without the cost of the port. -/
def isNearer (b : Bridge) (rootMsg : Received) (port : Port) : Prop :=
  match port.received with
  | none => True
  | some portMsg =>
    portMsg.rootId.value ≠ rootMsg.rootId.value ∨
      compareRootPath rootMsg.rootPathCost (portMsg.rootPathCost - port.pathCost) b.bridgeId.value
        portMsg.designatedBridgeId.value port.portId.value portMsg.designatedPortId.value
        = .superior

instance (b : Bridge) (rootMsg : Received) : DecidablePred (b.isNearer rootMsg) := fun port => by
  unfold isNearer
  cases port.received <;> infer_instance

def selectDesignatedPort (b : Bridge) (rootPort : Port) (rootMsg : Received) : List ℕ :=
  (b.ports.filter fun port => port.state ≠ .disable ∧ port.portNo ≠ rootPort.portNo ∧
    b.isNearer rootMsg port).map Port.portNo

/-- The numbers of the ports that are not disabled. -/
def enabled (b : Bridge) : List ℕ :=
  (b.ports.filter fun port => port.state ≠ .disable).map Port.portNo

/-- The roles of the ports, and the priority and the times the ports are started with. -/
def spanningTreeAlgorithm (b : Bridge) : Dict ℕ Role × Priority × Times :=
  match b.selectRootPort with
  | none =>
    (b.enabled.foldl (fun roles portNo => roles.set portNo .designatedPort) Dict.empty,
      b.rootPriority, b.rootTimes)
  | some (rootPort, rootMsg) =>
    let roles := Dict.empty.set rootPort.portNo .rootPort
    let roles := (b.selectDesignatedPort rootPort rootMsg).foldl
      (fun roles portNo => roles.set portNo .designatedPort) roles
    let roles := b.enabled.foldl
      (fun roles portNo => roles.setdefault portNo .nonDesignatedPort) roles
    (roles, rootMsg.priority, rootMsg.times)

/-- The bridge as its own root, which a calculation starts from. -/
def asRoot (b : Bridge) : Bridge :=
  { b with rootPriority := ⟨b.bridgeId, 0, none⟩, rootTimes := b.bridgeTimes }

/-- The step of `recalculate_spanning_tree` that takes a port down. -/
def downPort (init : Bool) (p : Port) : Port :=
  if p.state ≠ .disable then p.down .block init else p

/-- The step that takes it up again in its new role. -/
def upPort (roles : Dict ℕ Role) (rootPriority : Priority) (rootTimes : Times) (p : Port) : Port :=
  match roles.get? p.portNo with
  | none => p
  | some role => if p.state ≠ .disable then p.up role rootPriority rootTimes else p

theorem portNo_downPort (init : Bool) (p : Port) : (downPort init p).portNo = p.portNo := by
  unfold downPort Port.down
  split_ifs <;> rfl

theorem portNo_upPort (roles : Dict ℕ Role) (rootPriority : Priority) (rootTimes : Times)
    (p : Port) : (upPort roles rootPriority rootTimes p).portNo = p.portNo := by
  unfold upPort
  split
  · rfl
  · split_ifs <;> rfl

def recalculateSpanningTree (b : Bridge) (init : Bool) : Bridge :=
  let b := (b.mapPorts (downPort init) (portNo_downPort init)).asRoot
  let (roles, rootPriority, rootTimes) :=
    if init then
      ((b.ports.map Port.portNo).foldl (fun roles portNo => roles.set portNo .designatedPort)
        Dict.empty, b.rootPriority, b.rootTimes)
    else b.spanningTreeAlgorithm
  let b := { b with rootPriority, rootTimes }
  b.mapPorts (upPort roles rootPriority rootTimes) (portNo_upPort roles rootPriority rootTimes)

end Bridge

end Ryu.Stp
