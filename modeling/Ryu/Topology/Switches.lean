import Ryu.Topology.Registry

/-! # The topology application

The handlers of `topology.switches` and the two loops beside them, with link discovery on. What
a handler did before it raised stays done, and the application goes on with the next event.
-/

namespace Ryu.Topology

/-- A `Host`. -/
structure Host where
  mac : String
  port : PortId
  ipv4 : List String
  ipv6 : List String
  deriving DecidableEq, Repr

/-- The events sent to observers. -/
inductive Notice where
  | switchEnter (dpid : ℕ)
  | switchReconnected (dpid : ℕ)
  | switchLeave (dpid : ℕ)
  | portAdd (port : PortId)
  | portDelete (port : PortId)
  | portModify (port : PortId)
  | linkAdd (link : Link)
  | linkDelete (link : Link)
  | hostAdd (host : Host)
  | hostMove (src dst : Host)
  deriving DecidableEq, Repr

/-- `Switches`, with the connections it closed and the events it sent. -/
structure Switches where
  registry : Registry
  ports : PortDataState
  links : LinkState
  hosts : Dict String Host
  closed : List Datapath
  sent : List Notice

inductive PortReason where
  | add
  | delete
  | modify
  deriving DecidableEq, Repr

/-- What host discovery takes from a frame behind the addresses. -/
inductive Payload where
  | arp (srcIp : String)
  | ipv4 (src : String)
  | ipv6 (src : String)
  /-- An ARP, IPv4 or IPv6 packet that its parser raises on. -/
  | malformed (e : PyError)
  | other
  deriving DecidableEq

/-- The data of a packet-in. -/
inductive PacketData where
  /-- An LLDP packet as `lldp_packet` makes them. -/
  | lldp (dpid portNo : ℕ)
  /-- LLDP of another format, and CFM. -/
  | ignored
  | frame (src : String) (payload : Payload)
  deriving DecidableEq

inductive Event where
  /-- A connection enters the main state, with its `ports`. -/
  | main (dp : Datapath) (ports : List OFPPort)
  /-- A connection ends; without an id, if it had none yet. -/
  | dead (dp : Option Datapath)
  | portStatus (dp : Datapath) (reason : PortReason) (desc : OFPPort)
  | packetIn (dpid inPort : ℕ) (data : PacketData) (now : ℚ)
  /-- `send_lldp_packet`, as `lldp_loop` calls it. -/
  | lldpLoop (port : PortId) (now : ℚ)
  /-- One pass of `link_loop`. -/
  | linkLoop (now : ℚ)

namespace Switches

open Outcome

def init : Switches where
  registry := Registry.empty
  ports := PortDataState.empty
  links := LinkState.empty
  hosts := Dict.empty
  closed := []
  sent := []

/-- `send_event_to_observers`. -/
def send (s : Switches) (n : Notice) : Switches := { s with sent := s.sent ++ [n] }

def withPorts (s : Switches) (ports : PortDataState) : Switches := { s with ports := ports }

/-- The loop of `_link_down` over reverse links. -/
def revLinkDown (port : PortId) (s : Switches) (revLinkDst : PortId) : Outcome Switches :=
  let s := s.send (.linkDelete ⟨revLinkDst, port⟩)
  (s.ports.moveFront revLinkDst).lift s.withPorts

/-- `_link_down`. -/
def linkDown (s : Switches) (port : PortId) : Outcome Switches :=
  match s.links.portDeleted port with
  | (links, .error _) => ({ s with links := links }, none)
  | (links, .ok (dsts, revLinkDsts)) =>
    let s := { s with links := links, sent := s.sent ++ dsts.map fun dst => .linkDelete ⟨port, dst⟩ }
    forEach (revLinkDown port) s revLinkDsts

/-- `_is_edge_port`. -/
def isEdgePort (s : Switches) (port : PortId) : Bool :=
  s.links.times.keys.all fun link => !(port = link.src || port = link.dst)

/-- `_port_added`. -/
def portAdded (s : Switches) (port : Port) : Outcome Switches :=
  (s.ports.addPort port.id port.desc.isDown).lift s.withPorts

/-- A port is deleted, and its links go down. -/
def portGone (s : Switches) (port : Port) : Outcome Switches :=
  ((s.ports.delPort port.id).lift s.withPorts).andThen (·.linkDown port.id)

/-- A loop over the ports of a switch that passes over reserved ones. -/
def forPorts (f : Switches → Port → Outcome Switches) (s : Switches) (ports : List Port) :
    Outcome Switches :=
  forEach (fun s port => if port.isReserved then (s, none) else f s port) s ports

/-- `state_change_handler` in the main state. -/
def mainDispatcher (s : Switches) (dp : Datapath) (ports : List OFPPort) : Outcome Switches :=
  match s.registry.dps.get? dp.id with
  | some old =>
    let s := { s with closed := s.closed ++ [old], registry := s.registry.register dp ports }
    -- no ports are added while there are several connections
    (s.send (.switchReconnected dp.id), none)
  | none =>
    let s := { s with registry := s.registry.register dp ports }
    let switch := s.registry.getSwitch dp.id
    forPorts portAdded (s.send (.switchEnter dp.id)) (switch.elim [] Prod.snd)

/-- `state_change_handler` in the dead state. -/
def deadDispatcher (s : Switches) (dp : Datapath) : Outcome Switches :=
  match s.registry.getSwitch dp.id with
  | none => (s, none)
  | some switch =>
    if switch.1 = dp then
      let s := { s with registry := s.registry.unregister dp }
      forPorts portGone (s.send (.switchLeave dp.id)) switch.2
    else (s, none)

/-- `self.port_state[dpid].remove(port_no)`. -/
def removePort (s : Switches) (dpid portNo : ℕ) : Outcome Switches :=
  match s.registry.removePort dpid portNo with
  | .error e => (s, some e)
  | .ok registry => ({ s with registry := registry }, none)

/-- `port_status_handler`. -/
def portStatusHandler (s : Switches) (dp : Datapath) (reason : PortReason) (desc : OFPPort) :
    Outcome Switches :=
  let id : PortId := ⟨dp.id, desc.portNo⟩
  match reason with
  | .add =>
    match s.registry.addPort dp.id desc with
    | .error e => (s, some e)
    | .ok registry =>
      let s := send { s with registry := registry } (.portAdd id)
      match s.registry.getPort dp.id desc.portNo with
      | none => (s, none)
      | some port => if port.isReserved then (s, none) else s.portAdded port
  | .delete =>
    let s := s.send (.portDelete id)
    let r : Outcome Switches :=
      match s.registry.getPort dp.id desc.portNo with
      | none => (s, none)
      | some port => if port.isReserved then (s, none) else s.portGone port
    r.andThen (·.removePort dp.id desc.portNo)
  | .modify =>
    match s.registry.addPort dp.id desc with
    | .error e => (s, some e)
    | .ok registry =>
      let s := send { s with registry := registry } (.portModify id)
      match s.registry.getPort dp.id desc.portNo with
      | none => (s, none)
      | some port =>
        if port.isReserved then (s, none)
        else
          ((s.ports.setDown port.id port.desc.isDown).lift s.withPorts).andThen fun s =>
            if port.desc.isDown then s.linkDown port.id else (s, none)

/-- The hosts that are not on an edge port are removed. -/
def removeInnerHosts (s : Switches) : Switches :=
  let hostToDel := (s.hosts.values.filter (!s.isEdgePort ·.port)).map Host.mac
  { s with hosts := hostToDel.foldl Dict.erase s.hosts }

/-- `lldp_packet_in_handler`. -/
def lldpPacketInHandler (s : Switches) (dstDpid dstPortNo srcDpid srcPortNo : ℕ) (now : ℚ) :
    Outcome Switches :=
  match s.registry.getPort srcDpid srcPortNo with
  | none => (s, none)
  | some src =>
    if src.dpid = dstDpid then (s, none)
    else
      -- a `KeyError` here is caught
      let s := s.withPorts (s.ports.lldpReceived src.id).1
      match s.registry.getPort dstDpid dstPortNo with
      | none => (s, none)
      | some dst =>
        let link : Link := ⟨src.id, dst.id⟩
        let s := if s.links.has link then s else (s.send (.linkAdd link)).removeInnerHosts
        let (links, revUp) := s.links.updateLink src.id dst.id now
        let s := { s with links := links }
        if revUp then (s, none) else (s.ports.moveFront dst.id).lift s.withPorts

/-- `HostState.update_ip`, with what it does to the host. -/
def updateIp (s : Switches) (mac : String) (f : Host → Host) : Switches :=
  match s.hosts.get? mac with
  | none => s
  | some host => { s with hosts := s.hosts.set mac (f host) }

/-- An address goes to the end of a list. -/
def refresh (ips : List String) (ip : String) : List String := ips.erase ip ++ [ip]

/-- The part of `host_discovery_packet_in_handler` that adds a host or moves it. -/
def learnHost (s : Switches) (host : Host) : Switches :=
  match s.hosts.get? host.mac with
  | none => send { s with hosts := s.hosts.setdefault host.mac host } (.hostAdd host)
  | some old =>
    if old.port = host.port then s
    else send { s with hosts := s.hosts.set host.mac host } (.hostMove old host)

/-- The part of `host_discovery_packet_in_handler` that updates addresses. -/
def learnIp (s : Switches) (mac : String) : Payload → Outcome Switches
  | .arp ip => (s.updateIp mac fun h => { h with ipv4 := refresh h.ipv4 ip }, none)
  | .ipv4 ip => (s.updateIp mac fun h => { h with ipv4 := refresh h.ipv4 ip }, none)
  | .ipv6 ip => (s.updateIp mac fun h => { h with ipv6 := refresh h.ipv6 ip }, none)
  | .malformed e => (s, some e)
  | .other => (s, none)

/-- `host_discovery_packet_in_handler`. -/
def hostDiscoveryPacketInHandler (s : Switches) (dpid inPort : ℕ) (mac : String)
    (payload : Payload) : Outcome Switches :=
  match s.registry.getPort dpid inPort with
  | none => (s, none)
  | some port =>
    if s.isEdgePort port.id then (s.learnHost ⟨mac, port.id, [], []⟩).learnIp mac payload
    else (s, none)

/-- `LINK_TIMEOUT`. -/
def linkTimeout : ℚ := 10

/-- The body of the loop of `link_loop`. -/
def expire (now : ℚ) (deleted : List Link) (s : Switches) (link : Link) : Outcome Switches :=
  ((s.links.linkDown link).lift fun links => { s with links := links }).andThen fun s =>
    let s := s.send (.linkDelete link)
    if link.rev ∈ deleted then (s, none)
    else
      let s := { s with links := s.links.revLinkSetTimestamp link.rev (now - linkTimeout) }
      if (s.ports.data.get? link.dst).isSome then
        (s.ports.moveFront link.dst).lift s.withPorts
      else (s, none)

/-- One pass of `link_loop`. -/
def linkLoop (s : Switches) (now : ℚ) : Outcome Switches :=
  let deleted := (s.links.times.entries.filter fun e => e.2 + linkTimeout < now).map Prod.fst
  forEach (expire now deleted) s deleted

/-- `send_lldp_packet`: a `KeyError` is caught. -/
def sendLldpPacket (s : Switches) (port : PortId) (now : ℚ) : Outcome Switches :=
  (s.withPorts (s.ports.lldpSent port now).1, none)

/-- What an event does, and the exception its handler raises, if it does. -/
def handle (s : Switches) : Event → Outcome Switches
  | .main dp ports => s.mainDispatcher dp ports
  | .dead none => (s, none)
  | .dead (some dp) => s.deadDispatcher dp
  | .portStatus dp reason desc => s.portStatusHandler dp reason desc
  | .packetIn dpid inPort (.lldp srcDpid srcPortNo) now =>
    s.lldpPacketInHandler dpid inPort srcDpid srcPortNo now
  | .packetIn _ _ .ignored _ => (s, none)
  | .packetIn dpid inPort (.frame mac payload) _ =>
    s.hostDiscoveryPacketInHandler dpid inPort mac payload
  | .lldpLoop port now => s.sendLldpPacket port now
  | .linkLoop now => s.linkLoop now

/-- The state the application goes on with. -/
def step (s : Switches) (e : Event) : Switches := (s.handle e).1

def run (evs : List Event) : Switches := evs.foldl step init

end Switches

end Ryu.Topology
