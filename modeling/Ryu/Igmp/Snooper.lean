import Ryu.Lib.Dict
import Ryu.Lib.Outcome

/-! # The IGMP snooper of a switch

`IgmpSnooper` of `lib/igmplib.py`, for one switch of a version that `_set_flow_func` knows. It
learns the port of the querier and the member ports of each group, and keeps for each group a flow
entry from the querier's port to the members. A query and a leave start a timeout each; what is
left when it expires is removed. No step gives way to another.
-/

namespace Ryu.Igmp

/-- The contents of a packet. -/
abbrev Data := List (Fin 256)

/-- The ports of an output action. -/
inductive OutPort
  | flood
  | controller
  | inPort
  | port (number : ℕ)
  deriving DecidableEq, Repr

/-- `OFPActionOutput`, with the size where one is given. -/
structure ActionOutput where
  port : OutPort
  maxLen : Option ℕ
  deriving DecidableEq, Repr

def outputTo (number : ℕ) : ActionOutput := ⟨.port number, none⟩

/-- The reasons of `EventMulticastGroupStateChanged`. -/
inductive Reason
  | groupAdded
  | memberChanged
  | groupRemoved
  deriving DecidableEq, Repr

/-- The data of a packet that is sent: one that was received, or the query a leave gives rise to. -/
inductive Frame
  | received (data : Data)
  | specificQuery (address ip mac : String)
  deriving DecidableEq, Repr

/-- What the snooper sends: messages to the switch, and events. -/
inductive Sent
  | setFlowEntry (actions : List ActionOutput) (inPort : ℕ) (dst : String)
  | delFlowEntry (inPort : ℕ) (dst : String)
  | packetOut (frame : Frame) (inPort : ℕ) (actions : List ActionOutput)
  | groupStateChanged (reason : Reason) (address : String) (src : Option ℕ) (dsts : List ℕ)
  deriving DecidableEq, Repr

/-- The flow entry from a port to a group that the messages leave, if any. -/
def entry (port : ℕ) (dst : String) (sent : List Sent) : Option (List ActionOutput) :=
  sent.foldl (fun e m =>
    match m with
    | .setFlowEntry actions p d => if p = port ∧ d = dst then some actions else e
    | .delFlowEntry p d => if p = port ∧ d = dst then none else e
    | _ => e) none

/-- The flags of a member port: `out` and `in`. -/
structure PortFlags where
  out : Bool
  isIn : Bool
  deriving DecidableEq, Repr

/-- A LEAVE message that is kept. -/
structure LeaveMsg where
  inPort : ℕ
  data : Data
  deriving DecidableEq, Repr

structure Group where
  replied : Bool
  leave : Option LeaveMsg
  ports : Dict ℕ PortFlags
  deriving DecidableEq, Repr

namespace Group

/-- `{'replied': False, 'leave': None, 'ports': {}}`. -/
def new : Group := ⟨false, none, Dict.empty⟩

/-- A query resets the reply status. -/
def reset (g : Group) : Group := { g with replied := false, leave := none }

/-- A flow entry for every member port. -/
def outputs (g : Group) : List ActionOutput := g.ports.keys.map outputTo

def setPort (g : Group) (port : ℕ) (flags : PortFlags) : Group :=
  { g with ports := g.ports.set port flags }

end Group

structure Querier where
  port : ℕ
  ip : String
  mac : String
  deriving DecidableEq, Repr

/-- What is kept of a switch: `_to_querier[dpid]` and `_to_hosts[dpid]`, the timeouts that are
pending, and all that was sent. `size` is 65535 for OpenFlow 1.0 and `OFPCML_MAX` otherwise. -/
structure Snooper where
  size : ℕ
  toQuerier : Option Querier
  toHosts : Dict String Group
  queryTimeouts : ℕ
  leaveTimeouts : List (String × ℕ)
  sent : List Sent
  deriving DecidableEq, Repr

namespace Snooper

def init (size : ℕ) : Snooper := ⟨size, none, Dict.empty, 0, [], []⟩

def send (s : Snooper) (messages : List Sent) : Snooper := { s with sent := s.sent ++ messages }

/-- `_do_query`. -/
def doQuery (s : Snooper) (inPort : ℕ) (address ip mac : String) (data : Data) : Snooper :=
  let hosts :=
    if address = "0.0.0.0" then s.toHosts.mapValues fun _ g => g.reset
    else match s.toHosts.get? address with
      | some g => s.toHosts.set address g.reset
      | none => s.toHosts
  { s with
    toQuerier := some ⟨inPort, ip, mac⟩
    toHosts := hosts
    queryTimeouts := s.queryTimeouts + 1
    sent := s.sent ++ [.packetOut (.received data) inPort [⟨.flood, none⟩]] }

/-- The part of `_do_report` that no querier is needed for: a new group, a new port. -/
def join (s : Snooper) (outport : Option ℕ) (inPort : ℕ) (address : String) : Snooper :=
  let s := match s.toHosts.get? address with
    | some _ => s
    | none => ({ s with toHosts := s.toHosts.set address .new }).send
        [.groupStateChanged .groupAdded address outport []]
  let g := (s.toHosts.get? address).getD .new
  match g.ports.get? inPort with
  | some flags =>
    { s with toHosts := s.toHosts.set address (g.setPort inPort { flags with out := true }) }
  | none => ({ s with toHosts := s.toHosts.set address (g.setPort inPort ⟨true, false⟩) }).send
      [.setFlowEntry [⟨.controller, some s.size⟩] inPort address]

/-- A flow entry from the querier to the members, unless the port has had one. -/
def memberChanged (s : Snooper) (outport inPort : ℕ) (address : String) (g : Group)
    (flags : PortFlags) : Snooper :=
  if flags.isIn then s
  else
    let g' := g.setPort inPort { flags with isIn := true }
    ({ s with toHosts := s.toHosts.set address g' }).send
      [.groupStateChanged .memberChanged address (some outport) g.ports.keys,
        .setFlowEntry g.outputs outport address]

/-- The first report after a query goes to the querier. -/
def forward (s : Snooper) (outport inPort : ℕ) (address : String) (data : Data) : Snooper :=
  match s.toHosts.get? address with
  | none => s
  | some g =>
    if g.replied then s
    else ({ s with toHosts := s.toHosts.set address { g with replied := true } }).send
      [.packetOut (.received data) inPort [⟨.port outport, some s.size⟩]]

/-- `_do_report`. A port 0 is taken for no querier. -/
def doReport (s : Snooper) (inPort : ℕ) (address : String) (data : Data) : Snooper :=
  let outport := s.toQuerier.map Querier.port
  let s := s.join outport inPort address
  match outport, s.toHosts.get? address with
  | some (outport + 1), some g =>
    match g.ports.get? inPort with
    | some flags =>
      (s.memberChanged (outport + 1) inPort address g flags).forward (outport + 1) inPort address
        data
    | none => s
  | _, _ => s

/-- `_do_leave`. -/
def doLeave (s : Snooper) (inPort : ℕ) (address : String) (data : Data) : Snooper :=
  match s.toQuerier with
  | none => s
  | some querier =>
    let g := (s.toHosts.get? address).getD .new
    { s with
      toHosts := s.toHosts.set address
        { g.setPort inPort ⟨false, false⟩ with leave := some ⟨inPort, data⟩ }
      leaveTimeouts := s.leaveTimeouts ++ [(address, inPort)]
      sent := s.sent ++
        [.packetOut (.specificQuery address querier.ip querier.mac) inPort [⟨.inPort, none⟩]] }

/-- `_remove_multicast_group`. -/
def removeMulticastGroup (outport : ℕ) (dst : String) (g : Group) : List Sent :=
  [.groupStateChanged .groupRemoved dst (some outport) [], .delFlowEntry outport dst] ++
    g.ports.keys.map (.delFlowEntry · dst) ++
    (g.leave.map fun leave =>
      .packetOut (.received leave.data) leave.inPort [outputTo outport]).toList

/-- `_do_timeout_for_query`, when it has slept. -/
def doTimeoutForQuery (s : Snooper) : Outcome Snooper :=
  match s.toQuerier with
  | none => (s, some (.keyError "dpid"))
  | some querier =>
    let removed := s.toHosts.filter fun _ g => !g.replied
    (({ s with toHosts := s.toHosts.filter fun _ g => g.replied }).send
      (removed.entries.flatMap fun (dst, g) => removeMulticastGroup querier.port dst g), none)

/-- `_do_timeout_for_leave`, when it has slept. -/
def doTimeoutForLeave (s : Snooper) (dst : String) (inPort : ℕ) : Outcome Snooper :=
  match s.toQuerier, s.toHosts.get? dst with
  | none, _ => (s, some (.keyError "dpid"))
  | some _, none => (s, some (.keyError dst))
  | some querier, some g =>
    match g.ports.get? inPort with
    | none => (s, some (.keyError "in_port"))
    | some flags =>
      if flags.out then (s, none)
      else
        let g := { g with ports := g.ports.erase inPort }
        let s := s.send [.delFlowEntry inPort dst]
        if g.ports.keys = [] then
          (({ s with toHosts := s.toHosts.erase dst }).send
            (removeMulticastGroup querier.port dst g), none)
        else
          (({ s with toHosts := s.toHosts.set dst { g with leave := none } }).send
            [.groupStateChanged .memberChanged dst (some querier.port) g.ports.keys,
              .setFlowEntry g.outputs querier.port dst], none)

inductive Input
  | query (inPort : ℕ) (address ip mac : String) (data : Data)
  | report (inPort : ℕ) (address : String) (data : Data)
  | leave (inPort : ℕ) (address : String) (data : Data)
  | queryTimeout
  | leaveTimeout (dst : String) (inPort : ℕ)
  deriving DecidableEq, Repr

/-- A message is handled, or a timeout expires that is pending. -/
def handle (s : Snooper) : Input → Outcome Snooper
  | .query inPort address ip mac data => (s.doQuery inPort address ip mac data, none)
  | .report inPort address data => (s.doReport inPort address data, none)
  | .leave inPort address data => (s.doLeave inPort address data, none)
  | .queryTimeout =>
    if s.queryTimeouts = 0 then (s, none)
    else ({ s with queryTimeouts := s.queryTimeouts - 1 }).doTimeoutForQuery
  | .leaveTimeout dst inPort =>
    if (dst, inPort) ∈ s.leaveTimeouts then
      ({ s with leaveTimeouts := s.leaveTimeouts.erase (dst, inPort) }).doTimeoutForLeave dst inPort
    else (s, none)

def step (s : Snooper) (i : Input) : Snooper := (s.handle i).1

end Snooper

end Ryu.Igmp
