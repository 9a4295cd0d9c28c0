import Ryu.Controller.Datapath
import Ryu.Lib.Replay

/-! # The ports of a datapath

From OpenFlow 1.3 on the ports come in the parts of a port description, which
`multipart_reply_handler` takes in CONFIG; the last part moves the datapath to MAIN, where
`port_status_handler` takes what changes. `_recv_loop` calls the handlers that declare the
state the datapath is in, so a port status that comes between the parts is not handled.
-/

namespace Ryu.Controller

/-- The messages behind a features reply whose handlers in `ofp_handler` set `datapath.ports`. -/
inductive PortMsg
  | portDescStatsReply (body : List OFPPort) (flags : ℕ)
  | portStatus (reason : ℕ) (desc : OFPPort)

def ofpprAdd : ℕ := 0

def ofpprDelete : ℕ := 1

def ofpprModify : ℕ := 2

/-- `EventOFPPortStateChange`. -/
structure PortStateChange where
  reason : ℕ
  portNo : ℕ
  state : Dispatcher
  deriving DecidableEq, Repr

/-- A datapath, and the port changes its observers were told. -/
structure Connection where
  dp : Datapath
  changes : List PortStateChange

/-- `OFPHandler.switch_features_handler`. Before OpenFlow 1.3 the message has the ports. -/
def switchFeaturesHandler (c : Connection) (datapathId : ℕ) (ports : Dict ℕ OFPPort) :
    Except PyError Connection :=
  if c.dp.ofproto < 4 then
    .ok { c with dp := { c.dp with id := some datapathId, ports := some ports, state := .main } }
  else do
    let dp ← { c.dp with id := some datapathId, ports := some Dict.empty }.sendMsg
      (.portDescStatsRequest 0) false
    pure { c with dp := dp }

/-- `for port in msg.body: datapath.ports[port.port_no] = port`. -/
def setPorts (ports : Dict ℕ OFPPort) (body : List OFPPort) : Dict ℕ OFPPort :=
  body.foldl (fun d port => d.set port.portNo port) ports

/-- The loop over the body. Before the first features reply a datapath has no `ports`. -/
def addBody (dp : Datapath) (body : List OFPPort) : Except PyError Datapath :=
  match dp.ports, body with
  | some ports, body => .ok { dp with ports := some (setPorts ports body) }
  | none, [] => .ok dp
  | none, _ :: _ => .error (.attributeError "ports")

/-- `OFPHandler.multipart_reply_handler`; `OFPMPF_REPLY_MORE` is the lowest flag. -/
def multipartReplyHandler (c : Connection) (body : List OFPPort) (flags : ℕ) :
    Except PyError Connection := do
  let dp ← addBody c.dp body
  if flags.testBit 0 then pure { c with dp := dp }
  else pure { c with dp := { dp with state := .main } }

/-- `OFPHandler.port_status_handler`. -/
def portStatusHandler (c : Connection) (reason : ℕ) (desc : OFPPort) : Except PyError Connection :=
  match c.dp.ports with
  | none =>
    if reason = ofpprAdd ∨ reason = ofpprModify ∨ reason = ofpprDelete then
      .error (.attributeError "ports")
    else .ok c
  | some ports =>
    let change : PortStateChange := ⟨reason, desc.portNo, c.dp.state⟩
    if reason = ofpprAdd ∨ reason = ofpprModify then
      .ok ⟨{ c.dp with ports := some (ports.set desc.portNo desc) }, c.changes ++ [change]⟩
    else if reason = ofpprDelete then
      .ok ⟨{ c.dp with ports := some (ports.erase desc.portNo) }, c.changes ++ [change]⟩
    else .ok c

/-- The states a handler is declared for. -/
def PortMsg.dispatchers : PortMsg → List Dispatcher
  | .portDescStatsReply _ _ => [.config]
  | .portStatus _ _ => [.main]

def PortMsg.handler (c : Connection) : PortMsg → Except PyError Connection
  | .portDescStatsReply body flags => multipartReplyHandler c body flags
  | .portStatus reason desc => portStatusHandler c reason desc

/-- The turn of `_recv_loop` for a message: the handler runs if it declares the state. -/
def receive (c : Connection) (msg : PortMsg) : Except PyError Connection :=
  if c.dp.state ∈ msg.dispatchers then msg.handler c else .ok c

def receiveAll (c : Connection) : List PortMsg → Except PyError Connection
  | [] => .ok c
  | msg :: msgs => do
    let c ← receive c msg
    receiveAll c msgs

/-- A connection that has agreed on OpenFlow 1.3, its features reply and what comes behind. -/
def portRun (c : Connection) (datapathId : ℕ) (ports : Dict ℕ OFPPort) (msgs : List PortMsg) :
    Except PyError Connection := do
  let c ← switchFeaturesHandler { c with dp := { c.dp with ofproto := 4, state := .config } }
    datapathId ports
  receiveAll c msgs

/-! ## What the messages say of a port -/

namespace PortMsg

def isPart : PortMsg → Bool
  | .portDescStatsReply _ _ => true
  | .portStatus _ _ => false

/-- The part after which no more follow. -/
def isLastPart : PortMsg → Bool
  | .portDescStatsReply _ flags => !flags.testBit 0
  | .portStatus _ _ => false

/-- A part gives a port its last description in it, a port status gives or takes it. -/
def tells : PortMsg → ℕ → Option (Option OFPPort)
  | .portDescStatsReply body _, p => (body.reverse.find? (·.portNo = p)).map some
  | .portStatus reason desc, p =>
    if desc.portNo = p then
      if reason = ofpprAdd ∨ reason = ofpprModify then some (some desc)
      else if reason = ofpprDelete then some none
      else none
    else none

end PortMsg

/-- The ports that result from applying all messages in order, from none. -/
def portsOf (msgs : List PortMsg) : ℕ → Option OFPPort :=
  replay PortMsg.tells (fun _ => none) msgs

/-- The parts up to the last one, and the port statuses behind it. -/
def handled : List PortMsg → List PortMsg
  | [] => []
  | m :: l =>
    if m.isLastPart then m :: l.filter (!·.isPart)
    else if m.isPart then m :: handled l
    else handled l

/-! ## One message -/

variable {c c' : Connection} {ps : Dict ℕ OFPPort} {m : PortMsg} {p : ℕ}

theorem get?_setPorts (body : List OFPPort) (p : ℕ) :
    (setPorts ps body).get? p = ((body.reverse.find? (·.portNo = p)).map some).getD (ps.get? p) := by
  induction body using List.reverseRecOn with
  | nil => rfl
  | append_singleton body port ih =>
    rw [setPorts, List.foldl_append]
    change ((setPorts ps body).set port.portNo port).get? p = _
    rw [Dict.get?_set, List.reverse_append, List.reverse_singleton, List.singleton_append,
      List.find?_cons]
    by_cases h : port.portNo = p
    · simp [h]
    · simp [h, ih]

/-- A part in CONFIG adds its ports, and the last one moves the datapath to MAIN. -/
theorem receive_config (hs : c.dp.state = .config) (hp : c.dp.ports = some ps) (m : PortMsg) :
    ∃ c' ps', receive c m = .ok c' ∧ c'.dp.ports = some ps' ∧
      (m.isPart = true → ∀ p, ps'.get? p = (m.tells p).getD (ps.get? p)) ∧
      (m.isPart = false → ps' = ps) ∧
      c'.dp.state = if m.isLastPart then .main else .config := by
  cases m with
  | portDescStatsReply body flags =>
    have hr : receive c (.portDescStatsReply body flags) = multipartReplyHandler c body flags := by
      simp [receive, PortMsg.dispatchers, PortMsg.handler, hs]
    rw [hr]
    unfold multipartReplyHandler addBody
    rw [hp]
    dsimp only [bind, Except.bind]
    cases hf : flags.testBit 0 with
    | true =>
      refine ⟨_, setPorts ps body, if_pos rfl, rfl, fun _ => get?_setPorts body, (fun h => by cases h), ?_⟩
      simp [PortMsg.isLastPart, hf, hs]
    | false =>
      refine ⟨_, setPorts ps body, if_neg (by simp), rfl, fun _ => get?_setPorts body, (fun h => by cases h), ?_⟩
      simp [PortMsg.isLastPart, hf]
  | portStatus reason desc =>
    refine ⟨c, ps, ?_, hp, (fun h => by cases h), fun _ => rfl, ?_⟩
    · simp [receive, PortMsg.dispatchers, hs]
    · simp [PortMsg.isLastPart, hs]

/-- A port status in MAIN changes its port, a part nothing. -/
theorem receive_main (hs : c.dp.state = .main) (hp : c.dp.ports = some ps) (m : PortMsg) :
    ∃ c' ps', receive c m = .ok c' ∧ c'.dp.ports = some ps' ∧ c'.dp.state = .main ∧
      (m.isPart = true → ps' = ps) ∧
      (m.isPart = false → ∀ p, ps'.get? p = (m.tells p).getD (ps.get? p)) := by
  cases m with
  | portDescStatsReply body flags =>
    refine ⟨c, ps, ?_, hp, hs, fun _ => rfl, (fun h => by cases h)⟩
    simp [receive, PortMsg.dispatchers, hs]
  | portStatus reason desc =>
    have hr : receive c (.portStatus reason desc) = portStatusHandler c reason desc := by
      simp [receive, PortMsg.dispatchers, PortMsg.handler, hs]
    rw [hr]
    unfold portStatusHandler
    rw [hp]
    dsimp only
    by_cases ha : reason = ofpprAdd ∨ reason = ofpprModify
    · refine ⟨_, ps.set desc.portNo desc, if_pos ha, rfl, hs, (fun h => by cases h), fun _ p => ?_⟩
      by_cases h : desc.portNo = p <;> simp [PortMsg.tells, Dict.get?_set, ha, h]
    · by_cases hd : reason = ofpprDelete
      · refine ⟨_, ps.erase desc.portNo, (if_neg ha).trans (if_pos hd), rfl, hs, (fun h => by cases h),
          fun _ p => ?_⟩
        by_cases h : desc.portNo = p <;>
          simp [PortMsg.tells, Dict.get?_erase, hd, h, ofpprAdd, ofpprModify, ofpprDelete]
      · refine ⟨c, ps, (if_neg ha).trans (if_neg hd), hp, hs, (fun h => by cases h), fun _ p => ?_⟩
        simp [PortMsg.tells, ha, hd]

/-! ## A run -/

/-- In MAIN the statuses are applied. -/
theorem receiveAll_main (msgs : List PortMsg) (hs : c.dp.state = .main)
    (hp : c.dp.ports = some ps) :
    ∃ c' ps', receiveAll c msgs = .ok c' ∧ c'.dp.state = .main ∧ c'.dp.ports = some ps' ∧
      ps'.get? = replay PortMsg.tells ps.get? (msgs.filter (!·.isPart)) := by
  induction msgs generalizing c ps with
  | nil => exact ⟨c, ps, rfl, hs, hp, rfl⟩
  | cons m msgs ih =>
    obtain ⟨c₁, ps₁, hr, hp₁, hs₁, hpart, hstatus⟩ := receive_main hs hp m
    obtain ⟨c', ps', hr', hs', hp', hg⟩ := ih hs₁ hp₁
    refine ⟨c', ps', ?_, hs', hp', ?_⟩
    · rw [receiveAll, hr]
      exact hr'
    · cases hm : m.isPart with
      | true => rw [hg, hpart hm, List.filter_cons_of_neg (by simp [hm])]
      | false =>
        rw [hg, List.filter_cons_of_pos (by simp [hm]), replay_cons]
        exact congrArg (replay _ · _) (funext (hstatus hm))

/-- From CONFIG the handled messages are applied, and the last part leads to MAIN. -/
theorem receiveAll_config (msgs : List PortMsg) (hs : c.dp.state = .config)
    (hp : c.dp.ports = some ps) :
    ∃ c' ps', receiveAll c msgs = .ok c' ∧ c'.dp.ports = some ps' ∧
      c'.dp.state = (if msgs.any (·.isLastPart) then .main else .config) ∧
      ps'.get? = replay PortMsg.tells ps.get? (handled msgs) := by
  induction msgs generalizing c ps with
  | nil => exact ⟨c, ps, rfl, hp, hs, rfl⟩
  | cons m msgs ih =>
    obtain ⟨c₁, ps₁, hr, hp₁, hpart, hstatus, hs₁⟩ := receive_config hs hp m
    cases hl : m.isLastPart with
    | true =>
      have hm : m.isPart = true := by
        cases m with
        | portDescStatsReply => rfl
        | portStatus => cases hl
      rw [hl, if_pos rfl] at hs₁
      obtain ⟨c', ps', hr', hs', hp', hg⟩ := receiveAll_main msgs hs₁ hp₁
      refine ⟨c', ps', ?_, hp', ?_, ?_⟩
      · rw [receiveAll, hr]
        exact hr'
      · simp [hs', hl]
      · rw [hg, handled, if_pos hl, replay_cons]
        exact congrArg (replay _ · _) (funext (hpart hm))
    | false =>
      rw [hl, if_neg Bool.false_ne_true] at hs₁
      obtain ⟨c', ps', hr', hp', hs', hg⟩ := ih hs₁ hp₁
      refine ⟨c', ps', ?_, hp', ?_, ?_⟩
      · rw [receiveAll, hr]
        exact hr'
      · simp [hs', hl]
      · cases hm : m.isPart with
        | true =>
          rw [hg, handled, hl, if_neg Bool.false_ne_true, if_pos hm, replay_cons]
          exact congrArg (replay _ · _) (funext (hpart hm))
        | false =>
          rw [hg, handled, hl, if_neg Bool.false_ne_true, hm, if_neg Bool.false_ne_true,
            hstatus hm]

/-- What the features reply leaves: no ports, and the request for their description. -/
def askPorts (c : Connection) (datapathId : ℕ) : Connection where
  dp := {
    ofproto := 4
    state := .config
    id := some datapathId
    ports := some Dict.empty
    sendQ := c.dp.sendQ.map (· ++ [⟨4, .portDescStatsRequest 0, false⟩]) }
  changes := c.changes

/-- No message fails, and in MAIN the ports are those of the handled messages. -/
theorem portRun_ports (c : Connection) (datapathId : ℕ) (ports : Dict ℕ OFPPort)
    (msgs : List PortMsg) :
    ∃ c' ps, portRun c datapathId ports msgs = .ok c' ∧ c'.dp.ports = some ps ∧
      (c'.dp.state = .main ↔ ∃ m ∈ msgs, m.isLastPart) ∧ ps.get? = portsOf (handled msgs) := by
  have hr : switchFeaturesHandler { c with dp := { c.dp with ofproto := 4, state := .config } }
      datapathId ports = .ok (askPorts c datapathId) := by
    unfold switchFeaturesHandler
    dsimp only
    rw [if_neg (by decide), sendMsg_of_lt (by decide)]
    rfl
  have hports : (askPorts c datapathId).dp.ports = some Dict.empty := rfl
  obtain ⟨c', ps, hr', hp, hs, hg⟩ := receiveAll_config msgs rfl hports
  refine ⟨c', ps, ?_, hp, ?_, hg⟩
  · rw [portRun, hr]
    exact hr'
  · rw [hs]
    cases h : msgs.any (·.isLastPart) <;> simpa using h

/-- Port 1 is described in the first part and deleted before the second, which is empty. -/
def deleteBetweenParts : List PortMsg :=
  [.portDescStatsReply [⟨1, 0, [], 0, 0⟩] 1, .portStatus ofpprDelete ⟨1, 0, [], 0, 0⟩,
    .portDescStatsReply [] 0]

/-- The deleted port is there in MAIN. -/
theorem deletedPort_stays :
    ∃ c ps, portRun ⟨⟨4, .config, none, none, some []⟩, []⟩ 1 Dict.empty deleteBetweenParts = .ok c ∧
      c.dp.state = .main ∧ c.dp.ports = some ps ∧ (ps.get? 1).isSome = true ∧
      portsOf deleteBetweenParts 1 = none := by
  refine ⟨_, _, rfl, rfl, rfl, ?_, ?_⟩ <;> decide

theorem handled_concat {pre : List PortMsg} {last : PortMsg}
    (hpre : ∀ m ∈ pre, m.isLastPart = false) (hlast : last.isLastPart = true) :
    handled (pre ++ [last]) = (pre ++ [last]).filter (·.isPart) := by
  induction pre with
  | nil =>
    have hp : last.isPart = true := by
      cases last with
      | portDescStatsReply => rfl
      | portStatus => cases hlast
    simp [handled, hlast, hp]
  | cons m pre ih =>
    have ih := ih fun m' hm' => hpre m' (List.mem_cons_of_mem m hm')
    have hm := hpre m List.mem_cons_self
    rw [List.cons_append, handled, hm, if_neg Bool.false_ne_true, ih]
    cases hp : m.isPart with
    | true => rw [if_pos rfl, List.filter_cons_of_pos hp]
    | false => rw [if_neg Bool.false_ne_true, List.filter_cons_of_neg (by simp [hp])]

/-- On entering MAIN a port is as all messages leave it exactly if the last of them about it,
when it is a port status, is what the parts before had. -/
theorem portsOf_handled_iff {pre : List PortMsg} {last : PortMsg}
    (hpre : ∀ m ∈ pre, m.isLastPart = false) (hlast : last.isLastPart = true) (p : ℕ) :
    portsOf (handled (pre ++ [last])) p = portsOf (pre ++ [last]) p ↔
      ∀ a m b v, pre ++ [last] = a ++ m :: b → m.isPart = false → m.tells p = some v →
        Silent PortMsg.tells b p → portsOf (a.filter (·.isPart)) p = v := by
  rw [handled_concat hpre hlast]
  exact replay_filter_iff _

end Ryu.Controller
