import Mathlib.Logic.Function.Basic
import Ryu.Bgp.AsPath

/-! # Sessions of a neighbour

A neighbour's peer object, and the two protocol objects of the connections to it: one connection is
initiated here and the other one by the neighbour. A protocol object sends an open message when
its connection is made. The open message it receives binds it to the peer, unless the peer is bound
to the other connection. One state of the peer stands for both connections.

Updates and route refreshes, and the hold timer, are left out: the object of a connection is
followed to the exchange of keepalives.
-/

namespace Ryu.Bgp

/-- `BGP_FSM_VALID_STATES` -/
inductive BgpFsm
  | idle
  | connect
  | active
  | openSent
  | openConfirm
  | established
  deriving DecidableEq, Repr

/-- The connection that was initiated here, and the one that the neighbour initiated. -/
inductive Conn
  | active
  | passive
  deriving DecidableEq, Repr

namespace Conn

/-- The connection as the neighbour sees it. -/
def flip : Conn → Conn
  | .active => .passive
  | .passive => .active

/-- `is_reactive` -/
def isReactive : Conn → Bool
  | .active => false
  | .passive => true

@[simp] theorem flip_active : Conn.active.flip = .passive := rfl

@[simp] theorem flip_passive : Conn.passive.flip = .active := rfl

@[simp] theorem flip_flip (c : Conn) : c.flip.flip = c := by cases c <;> rfl

@[simp] theorem flip_ne (c : Conn) : c.flip ≠ c := by cases c <;> decide

theorem flip_injective : Function.Injective flip :=
  Function.LeftInverse.injective flip_flip

end Conn

/-- The fields of an open message that are read; `fourOctetAs` is the AS number of the capability
`BGP_CAP_FOUR_OCTET_AS_NUMBER`. -/
structure BGPOpen where
  version : ℕ
  myAs : ℕ
  holdTime : ℕ
  bgpIdentifier : ℕ
  fourOctetAs : Option ℕ
  deriving DecidableEq, Repr

inductive BGPMessage
  | opening (msg : BGPOpen)
  | notification (code subcode : ℕ)
  | keepalive
  deriving DecidableEq, Repr

inductive BgpExc
  | badPeerAs
  | unsupportedVersion
  | finiteStateMachineError
  | collisionResolution
  deriving DecidableEq, Repr

/-- `CODE` -/
def BgpExc.code : BgpExc → ℕ
  | .badPeerAs => 2
  | .unsupportedVersion => 2
  | .finiteStateMachineError => 5
  | .collisionResolution => 6

/-- `SUB_CODE` -/
def BgpExc.subCode : BgpExc → ℕ
  | .badPeerAs => 2
  | .unsupportedVersion => 1
  | .finiteStateMachineError => 1
  | .collisionResolution => 7

/-- What is configured here and for the neighbour. -/
structure NeighborConf where
  routerId : ℕ
  localAs : ℕ
  remoteAs : ℕ
  holdTime : ℕ
  capFourOctetAsNumber : Bool
  deriving DecidableEq, Repr

/-- `BGP_VERSION_NUM` -/
def bgpVersionNum : ℕ := 4

/-- `create_open_msg` -/
def NeighborConf.createOpenMsg (conf : NeighborConf) : BGPOpen :=
  { version := bgpVersionNum
    myAs := if isValidOldAsn conf.localAs then conf.localAs else asTrans
    holdTime := conf.holdTime
    bgpIdentifier := conf.routerId
    fourOctetAs := if conf.capFourOctetAsNumber then some conf.localAs else none }

/-- `_validate_open_msg` -/
def NeighborConf.validateOpenMsg (conf : NeighborConf) (msg : BGPOpen) : Except BgpExc Unit :=
  if msg.fourOctetAs = none ∧ msg.myAs = asTrans then .error .badPeerAs
  else if msg.fourOctetAs.getD msg.myAs ≠ conf.remoteAs then .error .badPeerAs
  else if msg.version ≠ bgpVersionNum then .error .unsupportedVersion
  else .ok ()

/-- The protocol object of a connection. `hasPeer` is whether `_peer` is set, `closed` whether the
socket is closed, and `keepalive` whether the keepalive timer runs. -/
structure BgpProtocol where
  state : BgpFsm := .connect
  isBound : Bool := false
  hasPeer : Bool := true
  closed : Bool := false
  holdtime : Option ℕ := none
  keepalive : Bool := false
  sentOpenMsg : Option BGPOpen := none
  recvOpenMsg : Option BGPOpen := none
  deriving DecidableEq, Repr

/-- `is_local_router_id_greater`; both messages are there when it is called. -/
def BgpProtocol.isLocalRouterIdGreater (b : BgpProtocol) : Bool :=
  b.sentOpenMsg.any fun l => b.recvOpenMsg.any fun r => r.bgpIdentifier < l.bgpIdentifier

/-- The peer and its two protocol objects. `wire` holds what was sent on a connection and is not
received yet, with `none` for the end of the stream. `rejected` are the connections that collision
resolution closed. -/
structure Peer where
  bgpState : BgpFsm := .connect
  protocol : Option Conn := none
  proto : Conn → BgpProtocol := fun _ => {}
  wire : Conn → List (Option BGPMessage) := fun _ => []
  rejected : List Conn := []

namespace Peer

def modify (p : Peer) (c : Conn) (f : BgpProtocol → BgpProtocol) : Peer :=
  { p with proto := Function.update p.proto c (f (p.proto c)) }

def put (p : Peer) (c : Conn) (m : Option BGPMessage) : Peer :=
  { p with wire := Function.update p.wire c (p.wire c ++ [m]) }

/-- `_socket.close` -/
def closeSocket (p : Peer) (c : Conn) : Peer :=
  if (p.proto c).closed then p
  else (p.modify c fun b => { b with closed := true }).put c none

/-- `BgpProtocol.stop` -/
def stop (p : Peer) (c : Conn) : Peer :=
  (p.closeSocket c).modify c fun b => { b with keepalive := false }

/-- `Peer.connection_lost` -/
def connectionLost (p : Peer) : Peer :=
  match p.protocol with
  | none => { p with bgpState := .idle }
  | some c => { (({ p with bgpState := .idle } : Peer).stop c) with protocol := none }

/-- `BgpProtocol.connection_lost` -/
def protocolLost (p : Peer) (c : Conn) : Peer :=
  if (p.proto c).hasPeer then
    (if (p.proto c).isBound ∨ p.bgpState = .openSent then p.connectionLost else p).modify c
      fun b => { b with hasPeer := false }
  else p

/-- `_send_with_lock` -/
def sendWithLock (p : Peer) (c : Conn) (m : BGPMessage) : Peer :=
  if (p.proto c).closed then p.protocolLost c else p.put c (some m)

/-- `send_notification` -/
def sendNotification (p : Peer) (c : Conn) (e : BgpExc) : Peer :=
  (p.sendWithLock c (.notification e.code e.subCode)).closeSocket c

/-- `_send_collision_err_and_stop` -/
def sendCollisionErrAndStop (p : Peer) (c : Conn) : Peer :=
  { (p.sendNotification c .collisionResolution).stop c with rejected := p.rejected ++ [c] }

/-- `bind_protocol`: the peer, and whether the protocol is bound. -/
def bindProtocol (p : Peer) (c : Conn) : Peer × Bool :=
  match p.protocol with
  | none => ({ p with protocol := some c }, true)
  | some first =>
    if p.bgpState ≠ .idle then (p.sendCollisionErrAndStop c, false)
    else
      -- the two connections link the same two addresses, and one of them is reactive
      let proactive := if c.isReactive then first else c
      let reactive := if c.isReactive then c else first
      let kept := if (p.proto c).isLocalRouterIdGreater then proactive else reactive
      let q : Peer := { p with protocol := some kept }
      if kept ≠ c then (q, false) else (q.sendCollisionErrAndStop first, true)

/-- An exception of a handler: the neighbour is told, and `_recv_loop` ends. -/
def raise (p : Peer) (c : Conn) (e : BgpExc) : Peer :=
  ((p.sendNotification c e).protocolLost c).stop c

/-- `_start_timers` -/
def startTimers (p : Peer) (c : Conn) (peerHoldtime : ℕ) : Peer :=
  p.modify c fun b =>
    { b with holdtime := b.holdtime.map (min · peerHoldtime), keepalive := true }

/-- `_send_keepalive` -/
def sendKeepalive (p : Peer) (c : Conn) : Peer := p.sendWithLock c .keepalive

/-- `connection_made` -/
def connectionMade (conf : NeighborConf) (p : Peer) (c : Conn) : Peer :=
  if (p.proto c).state = .connect then
    let msg := conf.createOpenMsg
    let q := p.modify c fun b =>
      { b with holdtime := some msg.holdTime, state := .openSent, sentOpenMsg := some msg }
    (if c.isReactive then q else { q with bgpState := .openSent }).sendWithLock c (.opening msg)
  else p

/-- `_handle_msg` for an open message -/
def handleOpen (conf : NeighborConf) (p : Peer) (c : Conn) (msg : BGPOpen) : Peer :=
  if (p.proto c).state = .openSent then
    match conf.validateOpenMsg msg with
    | .error e => p.raise c e
    | .ok () =>
      let q := p.modify c fun b => { b with recvOpenMsg := some msg, state := .openConfirm }
      -- the state of the peer is overwritten whichever connection it is bound to
      let r := ({ q with bgpState := .openConfirm } : Peer).bindProtocol c
      let q := r.1.modify c fun b => { b with isBound := r.2 }
      if r.2 then
        if msg.holdTime = 0 then q else (q.startTimers c msg.holdTime).sendKeepalive c
      else q.raise c .collisionResolution
  else p.raise c .finiteStateMachineError

/-- `Peer.handle_msg` for a keepalive -/
def handleKeepalive (p : Peer) : Peer :=
  if p.bgpState = .openConfirm then { p with bgpState := .established } else p

/-- `_handle_msg`; after a notification nothing more can be received. -/
def handleMsg (conf : NeighborConf) (p : Peer) (c : Conn) : BGPMessage → Peer
  | .opening msg => p.handleOpen conf c msg
  | .notification _ _ => ((p.closeSocket c).protocolLost c).stop c
  | .keepalive => p.handleKeepalive

/-- A turn of `_recv_loop` -/
def recvLoop (conf : NeighborConf) (p : Peer) (c : Conn) : Option BGPMessage → Peer
  | none => (p.protocolLost c).stop c
  | some m => p.handleMsg conf c m

/-- The keepalive timer fires. -/
def keepaliveTimer (p : Peer) (c : Conn) : Peer :=
  if (p.proto c).keepalive then p.sendKeepalive c else p

end Peer

/-- How far a protocol object has come: its connection is not made yet, it waits for the open
message, it exchanges keepalives, or it has lost its peer. -/
inductive Phase
  | fresh
  | waiting
  | running
  | ended
  deriving DecidableEq, Repr

def BgpProtocol.phase (b : BgpProtocol) : Phase :=
  if b.hasPeer then
    match b.state with
    | .connect => .fresh
    | .openSent => .waiting
    | _ => .running
  else .ended

/-- A protocol object loses its peer together with its socket, and is bound once it exchanges
keepalives. -/
structure BgpProtocol.Ok (b : BgpProtocol) : Prop where
  closed : b.closed = !b.hasPeer
  fresh : b.state = .connect → b = {}
  bound : b.phase = .running → b.isBound = true

section Phase

variable {b : BgpProtocol}

theorem BgpProtocol.phase_eq_fresh : b.phase = .fresh ↔ b.hasPeer = true ∧ b.state = .connect := by
  unfold BgpProtocol.phase
  cases b.hasPeer <;> cases b.state <;> simp

theorem BgpProtocol.phase_eq_waiting :
    b.phase = .waiting ↔ b.hasPeer = true ∧ b.state = .openSent := by
  unfold BgpProtocol.phase
  cases b.hasPeer <;> cases b.state <;> simp

theorem BgpProtocol.phase_eq_ended : b.phase = .ended ↔ b.hasPeer = false := by
  unfold BgpProtocol.phase
  cases b.hasPeer <;> cases b.state <;> simp

theorem BgpProtocol.hasPeer_of_running (h : b.phase = .running) : b.hasPeer = true := by
  cases hp : b.hasPeer with
  | true => rfl
  | false =>
    rw [phase_eq_ended.2 hp] at h
    cases h

theorem BgpProtocol.state_of_running (h : b.phase = .running) : b.state ≠ .connect := by
  intro ho
  rw [phase_eq_fresh.2 ⟨hasPeer_of_running h, ho⟩] at h
  cases h

theorem BgpProtocol.Ok.closed_eq_true (h : b.Ok) : b.closed = true ↔ b.phase = .ended := by
  rw [h.closed, phase_eq_ended]
  simp

theorem BgpProtocol.Ok.of_ended (hc : b.closed = true) (hp : b.hasPeer = false)
    (ho : b.state ≠ .connect) : b.Ok where
  closed := by rw [hc, hp]; rfl
  fresh hf := absurd hf ho
  bound hf := absurd (phase_eq_ended.2 hp) (by rw [hf]; decide)

theorem BgpProtocol.phase_of_openConfirm (hp : b.hasPeer = true) (ho : b.state = .openConfirm) :
    b.phase = .running := by
  simp [phase, hp, ho]

theorem BgpProtocol.Ok.of_running (hp : b.hasPeer = true) (hc : b.closed = false)
    (ho : b.state = .openConfirm) (hb : b.isBound = true) : b.Ok where
  closed := by rw [hc, hp]; rfl
  fresh hf := by rw [ho] at hf; cases hf
  bound _ := hb

end Phase

namespace Peer

/-- The peer is bound to the protocol object that exchanges keepalives, so to one at most. -/
structure Sound (p : Peer) : Prop where
  ok : ∀ c, (p.proto c).Ok
  protocol_iff : ∀ c, p.protocol = some c ↔ (p.proto c).phase = .running
  rejected : ∀ c ∈ p.rejected, (p.proto c).phase = .ended

/-- One turn for the connection `c`: its protocol object comes to the phase `ph`, `out` is sent,
and the other protocol object is left alone. -/
structure Turn (p : Peer) (c : Conn) (ph : Phase) (out : List (Option BGPMessage)) (q : Peer) :
    Prop where
  sound : q.Sound
  phase : (q.proto c).phase = ph
  phase_of_ne : ∀ d, d ≠ c → (q.proto d).phase = (p.proto d).phase
  wire : q.wire c = p.wire c ++ out
  wire_of_ne : ∀ d, d ≠ c → q.wire d = p.wire d

variable {conf : NeighborConf} {p q : Peer} {c d : Conn} {msg : BGPOpen}
  {out : List (Option BGPMessage)}

theorem Sound.closed (hs : p.Sound) (hp : (p.proto c).hasPeer = true) :
    (p.proto c).closed = false := by
  rw [(hs.ok c).closed, hp]
  rfl

theorem Sound.not_mem_rejected (hs : p.Sound) (h : (p.proto c).phase ≠ .ended) :
    c ∉ p.rejected := fun hc => h (hs.rejected c hc)

theorem Sound.turn_refl (hs : p.Sound) (c : Conn) : p.Turn c (p.proto c).phase [] p where
  sound := hs
  phase := rfl
  phase_of_ne _ _ := rfl
  wire := (List.append_nil _).symm
  wire_of_ne _ _ := rfl

theorem Sound.turn_update (hs : p.Sound) {b : BgpProtocol} {ph : Phase}
    (hproto : q.proto = Function.update p.proto c b)
    (hwire : q.wire = Function.update p.wire c (p.wire c ++ out)) (hok : b.Ok) (hph : b.phase = ph)
    (hpr : q.protocol = some c ↔ ph = .running)
    (hpo : ∀ d, d ≠ c → (q.protocol = some d ↔ p.protocol = some d))
    (hrj : ∀ d ∈ q.rejected, d ∈ p.rejected ∧ d ≠ c ∨ d = c ∧ ph = .ended) : p.Turn c ph out q := by
  have hself : q.proto c = b := by rw [hproto, Function.update_self]
  have hne : ∀ d, d ≠ c → q.proto d = p.proto d := by
    intro d hd
    rw [hproto, Function.update_of_ne hd]
  refine ⟨⟨?_, ?_, ?_⟩, ?_, ?_, ?_, ?_⟩
  · intro d
    rcases eq_or_ne d c with rfl | hd
    · rwa [hself]
    · rw [hne d hd]
      exact hs.ok d
  · intro d
    rcases eq_or_ne d c with rfl | hd
    · rwa [hself, hph]
    · rw [hne d hd]
      exact (hpo d hd).trans (hs.protocol_iff d)
  · intro d hd
    rcases hrj d hd with ⟨h, hne'⟩ | ⟨rfl, h⟩
    · rw [hne d hne']
      exact hs.rejected d h
    · rwa [hself, hph]
  · rwa [hself]
  · intro d hd
    rw [hne d hd]
  · rw [hwire, Function.update_self]
  · intro d hd
    rw [hwire, Function.update_of_ne hd]

theorem Sound.rejected_of_live (hs : p.Sound) (h : (p.proto c).phase ≠ .ended) (ph : Phase) :
    ∀ d ∈ p.rejected, d ∈ p.rejected ∧ d ≠ c ∨ d = c ∧ ph = .ended := by
  rintro d hd
  refine Or.inl ⟨hd, ?_⟩
  rintro rfl
  exact h (hs.rejected d hd)

theorem handleOpen_of_unbound (hs : p.Sound) (hw : (p.proto c).phase = .waiting)
    (hv : conf.validateOpenMsg msg = .ok ()) (hn : p.protocol = none) :
    p.handleOpen conf c msg =
      if msg.holdTime = 0 then
        { p with
          bgpState := .openConfirm
          protocol := some c
          proto := Function.update p.proto c
            { p.proto c with
              recvOpenMsg := some msg
              state := .openConfirm
              isBound := true } }
      else
        { p with
          bgpState := .openConfirm
          protocol := some c
          proto := Function.update p.proto c
            { p.proto c with
              recvOpenMsg := some msg
              state := .openConfirm
              isBound := true
              holdtime := (p.proto c).holdtime.map (min · msg.holdTime)
              keepalive := true }
          wire := Function.update p.wire c (p.wire c ++ [some .keepalive]) } := by
  obtain ⟨hp, ho⟩ := BgpProtocol.phase_eq_waiting.1 hw
  have hc := hs.closed hp
  split <;> rename_i h0 <;>
    simp [handleOpen, ho, hv, bindProtocol, hn, h0, modify, startTimers, sendKeepalive,
      sendWithLock, hc, put]

theorem handleOpen_of_bound (hs : p.Sound) (hw : (p.proto c).phase = .waiting)
    (hv : conf.validateOpenMsg msg = .ok ()) (hd : p.protocol = some d) :
    p.handleOpen conf c msg =
      { p with
        bgpState := .openConfirm
        proto := Function.update p.proto c
          { p.proto c with
            recvOpenMsg := some msg
            state := .openConfirm
            isBound := false
            hasPeer := false
            closed := true
            keepalive := false }
        wire := Function.update p.wire c (p.wire c ++
          [some (.notification BgpExc.collisionResolution.code
            BgpExc.collisionResolution.subCode), none])
        rejected := p.rejected ++ [c] } := by
  obtain ⟨hp, ho⟩ := BgpProtocol.phase_eq_waiting.1 hw
  have hc := hs.closed hp
  simp [handleOpen, ho, hv, bindProtocol, hd, sendCollisionErrAndStop, sendNotification,
    sendWithLock, closeSocket, stop, modify, put, raise, protocolLost, hp, hc]

theorem protocolLost_of_running (hs : p.Sound) (hr : (p.proto c).phase = .running) :
    (p.protocolLost c).stop c =
      { p with
        bgpState := .idle
        protocol := none
        proto := Function.update p.proto c
          { p.proto c with closed := true, keepalive := false, hasPeer := false }
        wire := Function.update p.wire c (p.wire c ++ [none]) } := by
  have hp := BgpProtocol.hasPeer_of_running hr
  have hc := hs.closed hp
  have hb := (hs.ok c).bound hr
  have hd := (hs.protocol_iff c).mpr hr
  simp [protocolLost, hp, hb, connectionLost, hd, stop, closeSocket, hc, modify, put]

theorem closeSocket_protocolLost_of_running (hs : p.Sound) (hr : (p.proto c).phase = .running) :
    ((p.closeSocket c).protocolLost c).stop c = (p.protocolLost c).stop c := by
  have hp := BgpProtocol.hasPeer_of_running hr
  have hc := hs.closed hp
  have hb := (hs.ok c).bound hr
  have hd := (hs.protocol_iff c).mpr hr
  simp [protocolLost, hp, hb, connectionLost, hd, stop, closeSocket, hc, modify, put]

theorem connectionMade_of_fresh (conf : NeighborConf) (hs : p.Sound) (hf : (p.proto c).phase = .fresh) :
    p.connectionMade conf c =
      { p with
        bgpState := if c.isReactive then p.bgpState else .openSent
        proto := Function.update p.proto c
          { state := .openSent
            holdtime := some conf.createOpenMsg.holdTime
            sentOpenMsg := some conf.createOpenMsg }
        wire := Function.update p.wire c (p.wire c ++ [some (.opening conf.createOpenMsg)]) } := by
  have hb := (hs.ok c).fresh (BgpProtocol.phase_eq_fresh.1 hf).2
  cases c <;> simp [connectionMade, hb, modify, sendWithLock, put, Conn.isReactive]

theorem turn_of_unbound (hs : p.Sound) (hw : (p.proto c).phase = .waiting)
    (hv : conf.validateOpenMsg msg = .ok ()) (hn : p.protocol = none) :
    ∃ out, p.Turn c .running out (p.handleOpen conf c msg) ∧ ∀ x ∈ out, x = some .keepalive := by
  obtain ⟨hp, -⟩ := BgpProtocol.phase_eq_waiting.1 hw
  have hc := hs.closed hp
  have hr := hs.rejected_of_live (by rw [hw]; decide) .running
  have hpo : ∀ d, d ≠ c → (some c = some d ↔ p.protocol = some d) := by
    intro d hd
    simp [hn, hd.symm]
  rw [handleOpen_of_unbound hs hw hv hn]
  split
  · exact ⟨[], hs.turn_update rfl (by simp) (.of_running hp hc rfl rfl)
      (BgpProtocol.phase_of_openConfirm hp rfl) (by simp) hpo hr, by simp⟩
  · exact ⟨[some .keepalive], hs.turn_update rfl rfl (.of_running hp hc rfl rfl)
      (BgpProtocol.phase_of_openConfirm hp rfl) (by simp) hpo hr, by simp⟩

theorem turn_of_bound (hs : p.Sound) (hw : (p.proto c).phase = .waiting)
    (hv : conf.validateOpenMsg msg = .ok ()) (hd : p.protocol = some d) :
    p.Turn c .ended [some (.notification 6 7), none] (p.handleOpen conf c msg) := by
  have hn : p.protocol ≠ some c := by
    rw [Ne, hs.protocol_iff c, hw]
    decide
  have hr := hs.rejected_of_live (by rw [hw]; decide) .ended
  rw [handleOpen_of_bound hs hw hv hd]
  refine hs.turn_update rfl rfl (.of_ended rfl rfl (by simp)) (BgpProtocol.phase_eq_ended.2 rfl) ?_ ?_ ?_
  · simpa using hn
  · exact fun _ _ => Iff.rfl
  · intro e he
    rcases List.mem_append.mp he with he | he
    · exact hr e he
    · exact Or.inr ⟨List.mem_singleton.mp he, rfl⟩

theorem turn_of_lost (hs : p.Sound) (hr : (p.proto c).phase = .running) :
    p.Turn c .ended [none] ((p.protocolLost c).stop c) := by
  have hd := (hs.protocol_iff c).mpr hr
  have hrj := hs.rejected_of_live (by rw [hr]; decide) .ended
  rw [protocolLost_of_running hs hr]
  have ho := BgpProtocol.state_of_running hr
  refine hs.turn_update rfl rfl (.of_ended rfl rfl ho) (BgpProtocol.phase_eq_ended.2 rfl) ?_ ?_ hrj
  · simp
  · intro e he
    simp [hd, he.symm]

theorem turn_of_fresh (conf : NeighborConf) (hs : p.Sound) (hf : (p.proto c).phase = .fresh) :
    p.Turn c .waiting [some (.opening conf.createOpenMsg)] (p.connectionMade conf c) := by
  have hn : p.protocol ≠ some c := by
    rw [Ne, hs.protocol_iff c, hf]
    decide
  have hr := hs.rejected_of_live (by rw [hf]; decide) .waiting
  rw [connectionMade_of_fresh conf hs hf]
  refine hs.turn_update rfl rfl ⟨rfl, ?_, ?_⟩ rfl ?_ (fun _ _ => Iff.rfl) hr
  · simp
  · simp [BgpProtocol.phase]
  · simpa using hn

theorem turn_of_keepalive (hs : p.Sound) (c : Conn) :
    p.Turn c (p.proto c).phase [] p.handleKeepalive := by
  have h := hs.turn_refl c
  unfold handleKeepalive
  split
  · exact ⟨⟨hs.ok, hs.protocol_iff, hs.rejected⟩, rfl, h.phase_of_ne, h.wire, h.wire_of_ne⟩
  · exact h

/-- A timer that runs was started when an open message came, and on a closed socket it does
nothing. -/
theorem Sound.keepaliveTimer_cases (hs : p.Sound) (c : Conn) :
    p.keepaliveTimer c = p ∨
      (p.proto c).phase ≠ .fresh ∧ p.keepaliveTimer c = p.put c (some .keepalive) := by
  unfold keepaliveTimer
  cases hk : (p.proto c).keepalive with
  | false => exact Or.inl rfl
  | true =>
    cases hc : (p.proto c).closed with
    | true =>
      have hp : (p.proto c).hasPeer = false := by simpa [(hs.ok c).closed] using hc
      left
      simp [sendKeepalive, sendWithLock, hc, protocolLost, hp]
    | false =>
      right
      refine ⟨?_, by simp [sendKeepalive, sendWithLock, hc]⟩
      intro hf
      rw [(hs.ok c).fresh (BgpProtocol.phase_eq_fresh.1 hf).2] at hk
      cases hk

theorem turn_of_put (hs : p.Sound) (c : Conn) (m : Option BGPMessage) :
    p.Turn c (p.proto c).phase [m] (p.put c m) where
  sound := ⟨hs.ok, hs.protocol_iff, hs.rejected⟩
  phase := rfl
  phase_of_ne _ _ := rfl
  wire := by simp [put]
  wire_of_ne d hd := by simp [put, hd]

end Peer

end Ryu.Bgp
