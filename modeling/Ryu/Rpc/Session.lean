import Mathlib.Algebra.Order.Group.Multiset
import Mathlib.Tactic.Abel
import Ryu.Lib.Duplex
import Ryu.Lib.Run
import Ryu.Rpc.EndPoint

/-! # Two endpoints

Two endpoints are joined by a stream of octets in each direction, which is cut into packets
anywhere. Whatever the two do and in whatever order, each takes the messages of the other in the
order in which they were sent. A response goes to the request it answers as long as no message id
is given to a new request while an old one is pending or its response not taken.
-/

namespace Ryu.Rpc

variable {V : Type}

/-- An endpoint, the octets it has put on its stream that have not arrived, and what it has done so
far: the messages it has sent and dispatched, what its getters have returned, and the exceptions
it has raised. -/
structure Party (V : Type) where
  ep : EndPoint V
  wire : List UInt8
  sent : List (Message V)
  dispatched : List (Message V)
  served : List (UInt32 × V × V)
  notified : List (V × V)
  returned : List (UInt32 × Option V × Option V)
  raised : List PyError

def Party.init : Party V := ⟨.init, [], [], [], [], [], [], []⟩

inductive Action (V : Type)
  | sendRequest (method params : V) (sentBytes : ℕ)
  | sendResponse (msgid : UInt32) (error result : Option V) (sentBytes : ℕ)
  | sendNotification (method params : V) (sentBytes : ℕ)
  | processOutgoing (sentBytes : ℕ)
  | receivePacket (bytes : ℕ)
  | getRequest
  | getNotification
  | getResponse (msgid : UInt32)

def Action.isRequest : Action V → Bool
  | .sendRequest .. => true
  | _ => false

structure Event (V : Type) where
  side : Side
  action : Action V

namespace Party

variable (C : Msgpack V) (p q : Party V)

/-- A message is sent, and some of the send buffer put on the stream. -/
def sends (msg : Message V) (x : List UInt8 × EndPoint V) : Party V :=
  { p with ep := x.2, wire := p.wire ++ x.1, sent := p.sent ++ [msg] }

def sendRequest (method params : V) (sentBytes : ℕ) : Party V :=
  let x := p.ep.sendRequest C method params sentBytes
  p.sends (.request x.1 method params) x.2

def sendResponse (msgid : UInt32) (error result : Option V) (sentBytes : ℕ) : Party V :=
  match p.ep.sendResponse C msgid error result sentBytes with
  | .error e => { p with raised := p.raised ++ [e] }
  | .ok x => p.sends (.response msgid error result) x

def sendNotification (method params : V) (sentBytes : ℕ) : Party V :=
  p.sends (.notify method params) (p.ep.sendNotification C method params sentBytes)

def processOutgoing (sentBytes : ℕ) : Party V :=
  let x := p.ep.processOutgoing sentBytes
  { p with ep := x.2, wire := p.wire ++ x.1 }

/-- A packet of the octets that have arrived is received, if there are any. -/
def receivePacket (packet : List UInt8) : Party V :=
  if packet = [] then p
  else
    let x := p.ep.receivePacket C (some packet)
    { p with
      ep := x.1
      dispatched := p.dispatched ++ x.2.1
      raised := p.raised ++ x.2.2.toList }

def getRequest : Party V :=
  match p.ep.getRequest with
  | (ep, .error e) => { p with ep, raised := p.raised ++ [e] }
  | (ep, .ok m) => { p with ep, served := p.served ++ m.toList }

def getNotification : Party V :=
  match p.ep.getNotification with
  | (ep, .error e) => { p with ep, raised := p.raised ++ [e] }
  | (ep, .ok m) => { p with ep, notified := p.notified ++ m.toList }

def getResponse (msgid : UInt32) : Party V :=
  match p.ep.getResponse msgid with
  | (ep, .error e) => { p with ep, raised := p.raised ++ [e] }
  | (ep, .ok m) => { p with ep, returned := p.returned ++ (m.map (msgid, ·)).toList }

end Party

/-- The size of a read. -/
def recvSize : ℕ := 4096

/-- One of the parties acts, and the other loses the octets that were received. -/
def step (C : Msgpack V) (n : Duplex (Party V)) (e : Event V) : Duplex (Party V) :=
  let p := n e.side
  let q := n e.side.other
  match e.action with
  | .sendRequest method params sentBytes => .pair e.side (p.sendRequest C method params sentBytes) q
  | .sendResponse msgid error result sentBytes =>
    .pair e.side (p.sendResponse C msgid error result sentBytes) q
  | .sendNotification method params sentBytes =>
    .pair e.side (p.sendNotification C method params sentBytes) q
  | .processOutgoing sentBytes => .pair e.side (p.processOutgoing sentBytes) q
  | .receivePacket bytes =>
    let size := min bytes recvSize
    .pair e.side (p.receivePacket C (q.wire.take size)) { q with wire := q.wire.drop size }
  | .getRequest => .pair e.side p.getRequest q
  | .getNotification => .pair e.side p.getNotification q
  | .getResponse msgid => .pair e.side (p.getResponse msgid) q

def start : Duplex (Party V) := fun _ => .init

def request? : Message V → Option (UInt32 × V × V)
  | .request msgid method params => some (msgid, method, params)
  | _ => none

def notification? : Message V → Option (V × V)
  | .notify method params => some (method, params)
  | _ => none

namespace EndPoint

/-- The counter is the number of messages in the queues. -/
def Counted (ep : EndPoint V) : Prop :=
  ep.incoming = ep.requests.length + ep.notifications.length + ep.responses.keys.length

end EndPoint

/-- The getters return what was dispatched, in its order. -/
structure Party.Queued (p : Party V) : Prop where
  counted : p.ep.Counted
  requests : p.served ++ p.ep.requests = p.dispatched.filterMap request?
  notifications : p.notified ++ p.ep.notifications = p.dispatched.filterMap notification?
  responses : ∀ msgid error result, p.ep.responses.get? msgid = some (error, result) →
    .response msgid error result ∈ p.dispatched
  returned : ∀ msgid result error, (msgid, result, error) ∈ p.returned →
    .response msgid error result ∈ p.dispatched

/-- What the other party has sent is dispatched, or underway. -/
def Streamed (C : Msgpack V) (p q : Party V) : Prop :=
  C.Carries q.sent p.dispatched (p.ep.unpacker ++ (q.wire ++ q.ep.sendBuffer))

variable {C : Msgpack V} {p p' q : Party V} {n : Duplex (Party V)} {ep : EndPoint V}
  {msgid : UInt32} {packet : List UInt8}

/-! ## What the getters return -/

namespace EndPoint

theorem countTaken_of_pos (ep : EndPoint V) (h : 0 < ep.incoming) :
    ep.countTaken = ({ ep with incoming := ep.incoming - 1 }, none) := if_pos h

theorem getRequest_nil (h : ep.requests = []) : ep.getRequest = (ep, .ok none) := by
  rw [getRequest, h]

theorem getRequest_cons {x : UInt32 × V × V} {l : List (UInt32 × V × V)} (h : ep.requests = x :: l)
    (hpos : 0 < ep.incoming) : ep.getRequest =
      ({ ep with requests := l, incoming := ep.incoming - 1 }, .ok (some x)) := by
  simp only [getRequest, h, countTaken_of_pos { ep with requests := l } hpos]

theorem getNotification_nil (h : ep.notifications = []) : ep.getNotification = (ep, .ok none) := by
  rw [getNotification, h]

theorem getNotification_cons {x : V × V} {l : List (V × V)} (h : ep.notifications = x :: l)
    (hpos : 0 < ep.incoming) : ep.getNotification =
      ({ ep with notifications := l, incoming := ep.incoming - 1 }, .ok (some x)) := by
  simp only [getNotification, h, countTaken_of_pos { ep with notifications := l } hpos]

theorem getResponse_none (h : ep.responses.get? msgid = none) :
    ep.getResponse msgid = (ep, .ok none) := by
  rw [getResponse, h]

theorem getResponse_some {error result : Option V}
    (h : ep.responses.get? msgid = some (error, result)) (hpos : 0 < ep.incoming) :
    ep.getResponse msgid =
      ({ ep with responses := ep.responses.erase msgid, incoming := ep.incoming - 1 },
        .ok (some (result, error))) := by
  simp only [getResponse, h,
    countTaken_of_pos { ep with responses := ep.responses.erase msgid } hpos]

theorem mem_keys_of_get? {x : Option V × Option V} (h : ep.responses.get? msgid = some x) :
    msgid ∈ ep.responses.keys := Dict.mem_keys_iff.2 (by simp [h])

end EndPoint

open EndPoint

theorem filterMap_append_of_none {α β : Type*} {f : α → Option β} {a : α} (l : List α)
    (h : f a = none) : (l ++ [a]).filterMap f = l.filterMap f := by
  rw [List.filterMap_append, List.filterMap_cons_none h, List.filterMap_nil, List.append_nil]

theorem queued_init : (Party.init : Party V).Queued :=
  ⟨rfl, rfl, rfl, by simp [Party.init, EndPoint.init], by simp [Party.init]⟩

namespace Party.Queued

theorem getRequest_eq (h : p.Queued) :
    p.getRequest = match p.ep.requests with
      | [] => p
      | m :: l => { p with
          ep := { p.ep with requests := l, incoming := p.ep.incoming - 1 }
          served := p.served ++ [m] } := by
  cases hq : p.ep.requests with
  | nil => simp only [Party.getRequest, getRequest_nil hq, Option.toList_none, List.append_nil]
  | cons m l =>
    have hcount := h.counted
    rw [Counted, hq, List.length_cons] at hcount
    simp only [Party.getRequest, getRequest_cons hq (by omega), Option.toList_some]

theorem getRequest (h : p.Queued) : p.getRequest.Queued := by
  rw [h.getRequest_eq]
  cases hq : p.ep.requests with
  | nil => exact h
  | cons m l =>
    have hcount := h.counted
    have hserved := h.requests
    rw [Counted, hq, List.length_cons] at hcount
    rw [hq] at hserved
    refine ⟨?_, ?_, h.notifications, h.responses, h.returned⟩
    · change p.ep.incoming - 1 = l.length + p.ep.notifications.length + p.ep.responses.keys.length
      omega
    · rw [← hserved]
      exact List.append_assoc _ _ _

theorem getNotification_eq (h : p.Queued) :
    p.getNotification = match p.ep.notifications with
      | [] => p
      | m :: l => { p with
          ep := { p.ep with notifications := l, incoming := p.ep.incoming - 1 }
          notified := p.notified ++ [m] } := by
  cases hq : p.ep.notifications with
  | nil =>
    simp only [Party.getNotification, getNotification_nil hq, Option.toList_none, List.append_nil]
  | cons m l =>
    have hcount := h.counted
    rw [Counted, hq, List.length_cons] at hcount
    simp only [Party.getNotification, getNotification_cons hq (by omega), Option.toList_some]

theorem getNotification (h : p.Queued) : p.getNotification.Queued := by
  rw [h.getNotification_eq]
  cases hq : p.ep.notifications with
  | nil => exact h
  | cons m l =>
    have hcount := h.counted
    have hnotified := h.notifications
    rw [Counted, hq, List.length_cons] at hcount
    rw [hq] at hnotified
    refine ⟨?_, h.requests, ?_, h.responses, h.returned⟩
    · change p.ep.incoming - 1 = p.ep.requests.length + l.length + p.ep.responses.keys.length
      omega
    · rw [← hnotified]
      exact List.append_assoc _ _ _

theorem getResponse_eq (h : p.Queued) (msgid : UInt32) :
    p.getResponse msgid = match p.ep.responses.get? msgid with
      | none => p
      | some (error, result) => { p with
          ep := { p.ep with
            responses := p.ep.responses.erase msgid
            incoming := p.ep.incoming - 1 }
          returned := p.returned ++ [(msgid, result, error)] } := by
  cases hx : p.ep.responses.get? msgid with
  | none =>
    simp only [Party.getResponse, getResponse_none hx, Option.map_none, Option.toList_none,
      List.append_nil]
  | some x =>
    have hcount := h.counted
    have hpos := List.length_pos_of_mem (mem_keys_of_get? hx)
    rw [Counted] at hcount
    simp only [Party.getResponse, getResponse_some hx (by omega), Option.map_some,
      Option.toList_some]

theorem getResponse (h : p.Queued) (msgid : UInt32) : (p.getResponse msgid).Queued := by
  rw [h.getResponse_eq]
  cases hx : p.ep.responses.get? msgid with
  | none => exact h
  | some x =>
    obtain ⟨error, result⟩ := x
    have hmem := mem_keys_of_get? hx
    have hlen : (p.ep.responses.erase msgid).keys.length = p.ep.responses.keys.length - 1 := by
      rw [Dict.keys_erase, List.length_erase_of_mem hmem]
    have hpos := List.length_pos_of_mem hmem
    have hcount := h.counted
    rw [Counted] at hcount
    refine ⟨?_, h.requests, h.notifications, ?_, ?_⟩
    · change p.ep.incoming - 1 = p.ep.requests.length + p.ep.notifications.length +
        (p.ep.responses.erase msgid).keys.length
      omega
    · intro msgid' error' result' hget
      change (p.ep.responses.erase msgid).get? msgid' = _ at hget
      rw [Dict.get?_erase] at hget
      split_ifs at hget
      exact h.responses _ _ _ hget
    · intro msgid' result' error' hret
      obtain hret | hret := List.mem_append.mp hret
      · exact h.returned _ _ _ hret
      · obtain ⟨rfl, rfl, rfl⟩ := by simpa using hret
        exact h.responses _ _ _ hx

/-- A message that is dispatched is queued, or changes no queue. -/
theorem dispatchMessage (h : p.Queued) (m : Message V) :
    ({ p with ep := (p.ep.dispatchMessage m).1, dispatched := p.dispatched ++ [m] } :
      Party V).Queued := by
  have hcount := h.counted
  rw [Counted] at hcount
  cases m with
  | request msgid method params =>
    refine ⟨?_, ?_, ?_, ?_, ?_⟩
    · change p.ep.incoming + 1 = (p.ep.requests ++ [(msgid, method, params)]).length +
        p.ep.notifications.length + p.ep.responses.keys.length
      rw [List.length_append, List.length_singleton]
      omega
    · change p.served ++ (p.ep.requests ++ [(msgid, method, params)]) = _
      rw [← List.append_assoc, h.requests, List.filterMap_append]
      rfl
    · change p.notified ++ p.ep.notifications = _
      rw [h.notifications, filterMap_append_of_none _ rfl]
    · exact fun _ _ _ hget => List.mem_append_left _ (h.responses _ _ _ hget)
    · exact fun _ _ _ hret => List.mem_append_left _ (h.returned _ _ _ hret)
  | notify method params =>
    refine ⟨?_, ?_, ?_, ?_, ?_⟩
    · change p.ep.incoming + 1 = p.ep.requests.length +
        (p.ep.notifications ++ [(method, params)]).length + p.ep.responses.keys.length
      rw [List.length_append, List.length_singleton]
      omega
    · change p.served ++ p.ep.requests = _
      rw [h.requests, filterMap_append_of_none _ rfl]
    · change p.notified ++ (p.ep.notifications ++ [(method, params)]) = _
      rw [← List.append_assoc, h.notifications, List.filterMap_append]
      rfl
    · exact fun _ _ _ hget => List.mem_append_left _ (h.responses _ _ _ hget)
    · exact fun _ _ _ hret => List.mem_append_left _ (h.returned _ _ _ hret)
  | unknown type =>
    refine ⟨hcount, ?_, ?_, ?_, ?_⟩
    · change p.served ++ p.ep.requests = _
      rw [h.requests, filterMap_append_of_none _ rfl]
    · change p.notified ++ p.ep.notifications = _
      rw [h.notifications, filterMap_append_of_none _ rfl]
    · exact fun _ _ _ hget => List.mem_append_left _ (h.responses _ _ _ hget)
    · exact fun _ _ _ hret => List.mem_append_left _ (h.returned _ _ _ hret)
  | response msgid error result =>
    have hrequests : p.served ++ p.ep.requests =
        (p.dispatched ++ [Message.response msgid error result]).filterMap request? := by
      rw [h.requests, filterMap_append_of_none _ rfl]
    have hnotifications : p.notified ++ p.ep.notifications =
        (p.dispatched ++ [Message.response msgid error result]).filterMap notification? := by
      rw [h.notifications, filterMap_append_of_none _ rfl]
    have hreturned (id : UInt32) (res err : Option V) (hret : (id, res, err) ∈ p.returned) :
        Message.response id err res ∈ p.dispatched ++ [.response msgid error result] :=
      List.mem_append_left _ (h.returned _ _ _ hret)
    have hresponses (id : UInt32) (err res : Option V)
        (hget : p.ep.responses.get? id = some (err, res)) :
        Message.response id err res ∈ p.dispatched ++ [.response msgid error result] :=
      List.mem_append_left _ (h.responses _ _ _ hget)
    simp only [EndPoint.dispatchMessage, enqueueIncomingResponse]
    split_ifs with hpending hkept
    · exact ⟨hcount, hrequests, hnotifications, hresponses, hreturned⟩
    · refine ⟨?_, hrequests, hnotifications, ?_, hreturned⟩
      · rw [Option.not_isSome_iff_eq_none] at hkept
        change p.ep.incoming + 1 = p.ep.requests.length + p.ep.notifications.length +
          (p.ep.responses.set msgid (error, result)).keys.length
        rw [Dict.keys_set_of_none hkept, List.length_append, List.length_singleton]
        omega
      · intro id err res hget
        change (p.ep.responses.set msgid (error, result)).get? id = _ at hget
        rw [Dict.get?_set] at hget
        split_ifs at hget with hid
        · obtain ⟨rfl, rfl⟩ := Prod.mk.inj (Option.some.inj hget)
          exact List.mem_append_right _ (by simp [hid])
        · exact hresponses _ _ _ hget
    · exact ⟨hcount, hrequests, hnotifications, hresponses, hreturned⟩

theorem receivePacket (h : p.Queued) (packet : List UInt8) : (p.receivePacket C packet).Queued := by
  rw [Party.receivePacket]
  split_ifs with hpacket
  · exact h
  · obtain ⟨x, l, rfl⟩ := List.exists_cons_of_ne_nil hpacket
    let Keeps (ep : EndPoint V) (done : List (Message V)) (_ : Option PyError) : Prop :=
      ({ p with ep, dispatched := done } : Party V).Queued
    have hstart : Keeps { p.ep with unpacker := p.ep.unpacker ++ x :: l } p.dispatched none :=
      ⟨h.counted, h.requests, h.notifications, h.responses, h.returned⟩
    have hloop := dispatchMessages_rule (C := C) Keeps (fun ep done m r hep _ =>
      dispatchMessage (p := { p with ep := { ep with unpacker := r }, dispatched := done })
        ⟨hep.counted, hep.requests, hep.notifications, hep.responses, hep.returned⟩ m) _ hstart
    exact ⟨hloop.counted, hloop.requests, hloop.notifications, hloop.responses, hloop.returned⟩

theorem sends (h : p.Queued) (m : Message V) (x : List UInt8 × EndPoint V)
    (hx : ∃ nextMsgid sendBuffer pendingRequests,
      x.2 = { p.ep with nextMsgid, sendBuffer, pendingRequests }) : (p.sends m x).Queued := by
  obtain ⟨bytes, ep⟩ := x
  obtain ⟨nextMsgid, sendBuffer, pendingRequests, rfl⟩ := hx
  exact ⟨h.counted, h.requests, h.notifications, h.responses, h.returned⟩

theorem sendResponse (h : p.Queued) (error result : Option V) (n : ℕ) :
    (p.sendResponse C msgid error result n).Queued := by
  rw [Party.sendResponse, EndPoint.sendResponse]
  split_ifs
  · exact h.sends _ _ ⟨_, _, _, rfl⟩
  · exact ⟨h.counted, h.requests, h.notifications, h.responses, h.returned⟩

end Party.Queued

/-! ## What is underway -/

/-- A party sends messages, and dispatches none. -/
structure Party.Says (C : Msgpack V) (p p' : Party V) (msgs : List (Message V)) : Prop where
  sent : p'.sent = p.sent ++ msgs
  bytes : p'.wire ++ p'.ep.sendBuffer = p.wire ++ p.ep.sendBuffer ++ msgs.flatMap C.pack
  unpacker : p'.ep.unpacker = p.ep.unpacker
  dispatched : p'.dispatched = p.dispatched

namespace Party

theorem says_nil (hsent : p'.sent = p.sent)
    (hbytes : p'.wire ++ p'.ep.sendBuffer = p.wire ++ p.ep.sendBuffer)
    (hunpacker : p'.ep.unpacker = p.ep.unpacker) (hdispatched : p'.dispatched = p.dispatched) :
    p.Says C p' [] :=
  ⟨hsent.trans (List.append_nil _).symm, hbytes.trans (List.append_nil _).symm, hunpacker,
    hdispatched⟩

theorem says_sendMessage (p : Party V) (m : Message V) (n : ℕ) :
    p.Says C (p.sends m (p.ep.sendMessage C m n)) [m] := by
  refine ⟨rfl, ?_, rfl, rfl⟩
  change p.wire ++ List.take n (p.ep.sendBuffer ++ C.pack m) ++
    List.drop n (p.ep.sendBuffer ++ C.pack m) = _
  rw [List.append_assoc, List.take_append_drop, List.flatMap_singleton, List.append_assoc]

theorem says_sendRequest (p : Party V) (method params : V) (n : ℕ) :
    p.Says C (p.sendRequest C method params n)
      [.request p.ep.nextMsgid method params] := by
  have h := says_sendMessage (C := C) p (.request p.ep.nextMsgid method params) n
  exact ⟨h.sent, h.bytes, h.unpacker, h.dispatched⟩

theorem says_sendResponse (p : Party V) (msgid : UInt32) (error result : Option V) (n : ℕ) :
    ∃ msgs, p.Says C (p.sendResponse C msgid error result n) msgs := by
  rw [Party.sendResponse, EndPoint.sendResponse]
  split_ifs
  · exact ⟨_, says_sendMessage p _ n⟩
  · exact ⟨[], says_nil rfl rfl rfl rfl⟩

theorem says_processOutgoing (p : Party V) (n : ℕ) : p.Says C (p.processOutgoing n) [] := by
  refine says_nil rfl ?_ rfl rfl
  change p.wire ++ List.take n p.ep.sendBuffer ++ List.drop n p.ep.sendBuffer = _
  rw [List.append_assoc, List.take_append_drop]

theorem Queued.says_getRequest (h : p.Queued) : p.Says C p.getRequest [] := by
  rw [h.getRequest_eq]
  cases p.ep.requests with
  | nil => exact says_nil rfl rfl rfl rfl
  | cons m l => exact says_nil rfl rfl rfl rfl

theorem Queued.says_getNotification (h : p.Queued) : p.Says C p.getNotification [] := by
  rw [h.getNotification_eq]
  cases p.ep.notifications with
  | nil => exact says_nil rfl rfl rfl rfl
  | cons m l => exact says_nil rfl rfl rfl rfl

theorem Queued.says_getResponse (h : p.Queued) (msgid : UInt32) :
    p.Says C (p.getResponse msgid) [] := by
  rw [h.getResponse_eq]
  cases p.ep.responses.get? msgid with
  | none => exact says_nil rfl rfl rfl rfl
  | some x => exact says_nil rfl rfl rfl rfl

end Party

/-- The two directions of the stream. -/
def BothStreamed (C : Msgpack V) (p q : Party V) : Prop := Streamed C p q ∧ Streamed C q p

theorem BothStreamed.carried {msgs : List (Message V)} (h : BothStreamed C p q)
    (hmsgs : p.Says C p' msgs) : BothStreamed C p' q := by
  obtain ⟨hpq, hqp⟩ := h
  refine ⟨?_, ?_⟩
  · rw [Streamed, hmsgs.unpacker, hmsgs.dispatched]
    exact hpq
  · rw [Streamed, hmsgs.sent, hmsgs.bytes, ← List.append_assoc]
    exact hqp.sendAll msgs

/-- The octets of a packet are those that were underway. -/
theorem Streamed.receivePacket {rest : List UInt8} (h : Streamed C p q)
    (hwire : q.wire = packet ++ rest) :
    Streamed C (p.receivePacket C packet) { q with wire := rest } := by
  rw [Party.receivePacket]
  split_ifs with hpacket
  · rw [hpacket, List.nil_append] at hwire
    rw [Streamed, ← hwire]
    exact h
  · obtain ⟨x, l, rfl⟩ := List.exists_cons_of_ne_nil hpacket
    let Taken (ep : EndPoint V) (done : List (Message V)) (_ : Option PyError) : Prop :=
      C.Carries q.sent done (ep.unpacker ++ (rest ++ q.ep.sendBuffer))
    have hstart : Taken { p.ep with unpacker := p.ep.unpacker ++ x :: l } p.dispatched none := by
      rw [Streamed, hwire] at h
      simpa [Taken] using h
    refine dispatchMessages_rule Taken (fun ep done m r hep hnext => ?_) _ hstart
    change C.Carries _ _ _
    rw [unpacker_dispatchNext]
    exact hep.take hnext

/-- Receiving a packet changes nothing of what the party sends. -/
theorem Party.receivePacket_keeps (p : Party V) (packet : List UInt8) :
    (p.receivePacket C packet).sent = p.sent ∧ (p.receivePacket C packet).wire = p.wire ∧
      (p.receivePacket C packet).ep.sendBuffer = p.ep.sendBuffer ∧
      (p.receivePacket C packet).ep.nextMsgid = p.ep.nextMsgid := by
  rw [Party.receivePacket]
  split_ifs with hpacket
  · exact ⟨rfl, rfl, rfl, rfl⟩
  · obtain ⟨x, l, rfl⟩ := List.exists_cons_of_ne_nil hpacket
    let Kept (ep : EndPoint V) (_ : List (Message V)) (_ : Option PyError) : Prop :=
      ep.sendBuffer = p.ep.sendBuffer ∧ ep.nextMsgid = p.ep.nextMsgid
    have hstep (ep : EndPoint V) (done : List (Message V)) (m : Message V) (r : List UInt8)
        (hep : Kept ep done none) (_ : C.framer.next ep.unpacker = some (m, r)) :
        Kept (ep.dispatchNext m r).1 (done ++ [m]) (ep.dispatchNext m r).2 := by
      obtain ⟨-, hbuffer, hmsgid⟩ := dispatchMessage_keeps { ep with unpacker := r } m
      exact ⟨hbuffer.trans hep.1, hmsgid.trans hep.2⟩
    have hstart : Kept { p.ep with unpacker := p.ep.unpacker ++ x :: l } p.dispatched none :=
      ⟨rfl, rfl⟩
    obtain ⟨hbuffer, hmsgid⟩ := dispatchMessages_rule (C := C) Kept hstep p.dispatched hstart
    exact ⟨rfl, rfl, hbuffer, hmsgid⟩

/-! ## Runs -/

/-- What holds in every state of every run. -/
structure Invariant (C : Msgpack V) (n : Duplex (Party V)) : Prop where
  queued : ∀ s, (n s).Queued
  streamed : Duplex.EachWay (fun _ => Streamed C) n

theorem invariant_start : Invariant C start :=
  ⟨fun _ => queued_init, fun _ => PipeCodec.carries_nil⟩

theorem Invariant.pair {s : Side} (hp : p.Queued) (hq : q.Queued)
    (h : BothStreamed C p q) : Invariant C (.pair s p q) :=
  ⟨(Duplex.forall_iff s).2 (by simpa using ⟨hp, hq⟩), Duplex.eachWay_pair.2 h⟩

theorem Invariant.step (h : Invariant C n) (e : Event V) :
    Invariant C (step C n e) := by
  obtain ⟨s, action⟩ := e
  have hp := h.queued s
  have hq := h.queued s.other
  have hboth : BothStreamed C (n s) (n s.other) := by
    have hother := h.streamed s.other
    rw [Side.other_other] at hother
    exact ⟨h.streamed s, hother⟩
  cases action with
  | sendRequest method params sentBytes =>
    exact .pair (hp.sends _ _ ⟨_, _, _, rfl⟩) hq (hboth.carried ((n s).says_sendRequest ..))
  | sendResponse msgid error result sentBytes =>
    obtain ⟨msgs, hmsgs⟩ := Party.says_sendResponse (C := C) (n s) msgid error result sentBytes
    exact .pair (hp.sendResponse ..) hq (hboth.carried hmsgs)
  | sendNotification method params sentBytes =>
    exact .pair (hp.sends _ _ ⟨_, _, _, rfl⟩) hq (hboth.carried ((n s).says_sendMessage ..))
  | processOutgoing sentBytes =>
    exact .pair ⟨hp.counted, hp.requests, hp.notifications, hp.responses, hp.returned⟩ hq
      (hboth.carried ((n s).says_processOutgoing ..))
  | receivePacket bytes =>
    obtain ⟨hsent, hwire, hbuffer, -⟩ := (n s).receivePacket_keeps (C := C)
      ((n s.other).wire.take (min bytes recvSize))
    refine .pair (hp.receivePacket _)
      ⟨hq.counted, hq.requests, hq.notifications, hq.responses, hq.returned⟩
      ⟨hboth.1.receivePacket (List.take_append_drop _ _).symm, ?_⟩
    rw [Streamed, hsent, hwire, hbuffer]
    exact hboth.2
  | getRequest => exact .pair hp.getRequest hq (hboth.carried hp.says_getRequest)
  | getNotification => exact .pair hp.getNotification hq (hboth.carried hp.says_getNotification)
  | getResponse msgid =>
    exact .pair (hp.getResponse msgid) hq (hboth.carried (hp.says_getResponse msgid))

/-- What a party has taken of what the other one has sent. -/
structure Delivered (p q : Party V) : Prop where
  inOrder : p.dispatched <+: q.sent
  complete : p.ep.unpacker = [] → q.wire = [] → q.ep.sendBuffer = [] → p.dispatched = q.sent
  requests : p.served ++ p.ep.requests = p.dispatched.filterMap request?
  notifications : p.notified ++ p.ep.notifications = p.dispatched.filterMap notification?
  returned : ∀ msgid result error, (msgid, result, error) ∈ p.returned →
    .response msgid error result ∈ q.sent
  counted : p.ep.Counted

theorem Invariant.delivered (h : Invariant C n) (s : Side) : Delivered (n s) (n s.other) := by
  have hqueued := h.queued s
  have hstreamed : Streamed C (n s) (n s.other) := h.streamed s
  refine ⟨hstreamed.isPrefix, ?_, hqueued.requests, hqueued.notifications, ?_, hqueued.counted⟩
  · intro hunpacker hwire hbuffer
    rw [Streamed, hunpacker, hwire, hbuffer] at hstreamed
    exact hstreamed.eq_of_nil
  · intro msgid result error hmem
    exact hstreamed.isPrefix.subset (hqueued.returned _ _ _ hmem)

/-- Whatever the parties do, each getter returns the messages of the other party once and in the
order in which they were sent, and only what the other party has sent is returned. -/
theorem throughout_delivered (C : Msgpack V) (es : List (Event V)) :
    Throughout (step C) (fun n => ∀ s : Side, Delivered (n s) (n s.other)) start es :=
  (throughout_of_step invariant_start (fun _ e h => h.step e) es).mono fun _ h => h.delivered

/-! ## Message ids -/

def requestId? (m : Message V) : Option UInt32 := (request? m).map Prod.fst

/-- Each id that was given to a request is pending, or its response is kept or was returned. -/
structure Party.Tracked (p : Party V) : Prop where
  raised : p.raised = []
  apart : ∀ msgid ∈ p.ep.pendingRequests, p.ep.responses.get? msgid = none
  accounted : (p.sent.filterMap requestId? : Multiset UInt32) =
    p.ep.pendingRequests.val + (p.ep.responses.keys : Multiset UInt32) +
      (p.returned.map Prod.fst : Multiset UInt32)

/-- A new request is given no id that is pending or whose response is kept, and a response is
that of a result or of an error. -/
def Fresh (n : Duplex (Party V)) (e : Event V) : Prop :=
  let ep := (n e.side).ep
  match e.action with
  | .sendRequest .. => ep.nextMsgid ∉ ep.pendingRequests ∧ ep.responses.get? ep.nextMsgid = none
  | .sendResponse _ error result _ => error = none ∨ result = none
  | _ => True

theorem tracked_init : (Party.init : Party V).Tracked :=
  ⟨rfl, by simp [Party.init, EndPoint.init], rfl⟩

namespace Party.Tracked

theorem congr (h : p.Tracked) (hraised : p'.raised = p.raised)
    (hpending : p'.ep.pendingRequests = p.ep.pendingRequests)
    (hresponses : p'.ep.responses = p.ep.responses) (hreturned : p'.returned = p.returned)
    (hsent : p'.sent.filterMap requestId? = p.sent.filterMap requestId?) : p'.Tracked := by
  refine ⟨hraised.trans h.raised, ?_, ?_⟩
  · rw [hpending, hresponses]
    exact h.apart
  · rw [hsent, hpending, hresponses, hreturned]
    exact h.accounted

theorem sendRequest (h : p.Tracked) (hpending : p.ep.nextMsgid ∉ p.ep.pendingRequests)
    (hkept : p.ep.responses.get? p.ep.nextMsgid = none) (method params : V) (sentBytes : ℕ) :
    (p.sendRequest C method params sentBytes).Tracked := by
  refine ⟨h.raised, ?_, ?_⟩
  · change ∀ msgid ∈ insert p.ep.nextMsgid p.ep.pendingRequests, p.ep.responses.get? msgid = none
    intro msgid hmem
    obtain rfl | hmem := Finset.mem_insert.mp hmem
    · exact hkept
    · exact h.apart msgid hmem
  · change ((p.sent ++ [Message.request p.ep.nextMsgid method params]).filterMap requestId? :
      Multiset UInt32) = (insert p.ep.nextMsgid p.ep.pendingRequests).val + _ + _
    rw [List.filterMap_append, Finset.insert_val_of_notMem hpending, ← Multiset.coe_add,
      h.accounted]
    change _ + ({p.ep.nextMsgid} : Multiset UInt32) = _
    rw [add_comm, Multiset.singleton_add, Multiset.cons_add, Multiset.cons_add]
    rfl

theorem sendResponse (h : p.Tracked) {error result : Option V} (hone : error = none ∨ result = none)
    (sentBytes : ℕ) : (p.sendResponse C msgid error result sentBytes).Tracked := by
  rw [Party.sendResponse, EndPoint.sendResponse, if_pos hone]
  exact h.congr rfl rfl rfl rfl (filterMap_append_of_none _ rfl)

theorem getResponse (h : p.Tracked) (hqueued : p.Queued) (msgid : UInt32) :
    (p.getResponse msgid).Tracked := by
  rw [hqueued.getResponse_eq]
  cases hx : p.ep.responses.get? msgid with
  | none => exact h
  | some x =>
    obtain ⟨error, result⟩ := x
    refine ⟨h.raised, ?_, ?_⟩
    · intro id hmem
      change (p.ep.responses.erase msgid).get? id = none
      rw [Dict.get?_erase]
      split_ifs
      · rfl
      · exact h.apart id hmem
    · change (p.sent.filterMap requestId? : Multiset UInt32) = p.ep.pendingRequests.val +
        ((p.ep.responses.erase msgid).keys : Multiset UInt32) +
        ((p.returned ++ [(msgid, result, error)]).map Prod.fst : Multiset UInt32)
      rw [h.accounted, Dict.keys_erase, ← Multiset.coe_erase, List.map_append, ← Multiset.coe_add]
      change _ = _ + (_ + ({msgid} : Multiset UInt32))
      have hmem : msgid ∈ (p.ep.responses.keys : Multiset UInt32) := mem_keys_of_get? hx
      conv_lhs => rw [← Multiset.cons_erase hmem, ← Multiset.singleton_add]
      abel

/-- A response is kept for the request that was pending, and no assertion fails. -/
theorem dispatchMessage (h : p.Tracked) (m : Message V) :
    ({ p with ep := (p.ep.dispatchMessage m).1 } : Party V).Tracked ∧
      (p.ep.dispatchMessage m).2 = none := by
  cases m with
  | request msgid method params => exact ⟨h.congr rfl rfl rfl rfl rfl, rfl⟩
  | notify method params => exact ⟨h.congr rfl rfl rfl rfl rfl, rfl⟩
  | unknown type => exact ⟨h, rfl⟩
  | response msgid error result =>
    simp only [EndPoint.dispatchMessage, enqueueIncomingResponse]
    by_cases hpending : msgid ∈ p.ep.pendingRequests
    · have hkept := h.apart msgid hpending
      rw [if_pos hpending, if_neg (by simp [hkept])]
      refine ⟨⟨h.raised, ?_, ?_⟩, rfl⟩
      · change ∀ id ∈ p.ep.pendingRequests.erase msgid,
          (p.ep.responses.set msgid (error, result)).get? id = none
        intro id hmem
        obtain ⟨hne, hmem⟩ := Finset.mem_erase.mp hmem
        rw [Dict.get?_set_of_ne hne.symm]
        exact h.apart id hmem
      · change (p.sent.filterMap requestId? : Multiset UInt32) =
          (p.ep.pendingRequests.erase msgid).val +
          ((p.ep.responses.set msgid (error, result)).keys : Multiset UInt32) + _
        rw [h.accounted, Dict.keys_set_of_none hkept, ← Multiset.coe_add, Finset.erase_val]
        change _ = _ + (_ + ({msgid} : Multiset UInt32)) + _
        conv_lhs => rw [← Multiset.cons_erase hpending, ← Multiset.singleton_add]
        abel
    · rw [if_neg hpending]
      exact ⟨h, rfl⟩

theorem receivePacket (h : p.Tracked) (packet : List UInt8) :
    (p.receivePacket C packet).Tracked := by
  rw [Party.receivePacket]
  split_ifs with hpacket
  · exact h
  · obtain ⟨x, l, rfl⟩ := List.exists_cons_of_ne_nil hpacket
    let Keeps (ep : EndPoint V) (_ : List (Message V)) (e : Option PyError) : Prop :=
      ({ p with ep } : Party V).Tracked ∧ e = none
    have hstart : Keeps { p.ep with unpacker := p.ep.unpacker ++ x :: l } p.dispatched none :=
      ⟨h.congr rfl rfl rfl rfl rfl, rfl⟩
    obtain ⟨hloop, hraised⟩ := dispatchMessages_rule (C := C) Keeps (fun ep _ m r hep _ =>
      dispatchMessage (p := { p with ep := { ep with unpacker := r } })
        (hep.1.congr rfl rfl rfl rfl rfl) m) p.dispatched hstart
    refine hloop.congr ?_ rfl rfl rfl rfl
    change p.raised ++ Option.toList _ = p.raised
    rw [EndPoint.receivePacket, hraised, Option.toList_none, List.append_nil]

end Party.Tracked

theorem tracked_step (h : Invariant C n) (ht : ∀ s, (n s).Tracked) (e : Event V)
    (hfresh : Fresh n e) (s : Side) : (step C n e s).Tracked := by
  obtain ⟨t, action⟩ := e
  have hp := ht t
  have hpair (p q : Party V) (hp : p.Tracked) (hq : q.Tracked) :
      (Duplex.pair t p q s).Tracked := by
    obtain rfl | rfl := t.eq_or_eq_other s
    · rwa [Duplex.pair_self]
    · rwa [Duplex.pair_other]
  cases action with
  | sendRequest method params sentBytes =>
    exact hpair _ _ (hp.sendRequest hfresh.1 hfresh.2 ..) (ht _)
  | sendResponse msgid error result sentBytes =>
    exact hpair _ _ (hp.sendResponse hfresh sentBytes) (ht _)
  | sendNotification method params sentBytes =>
    exact hpair _ _ (hp.congr rfl rfl rfl rfl (filterMap_append_of_none _ rfl)) (ht _)
  | processOutgoing sentBytes => exact hpair _ _ (hp.congr rfl rfl rfl rfl rfl) (ht _)
  | receivePacket bytes =>
    exact hpair _ _ (hp.receivePacket _) ((ht t.other).congr rfl rfl rfl rfl rfl)
  | getRequest =>
    refine hpair _ _ ?_ (ht _)
    rw [(h.queued t).getRequest_eq]
    cases (n t).ep.requests with
    | nil => exact hp
    | cons m l => exact hp.congr rfl rfl rfl rfl rfl
  | getNotification =>
    refine hpair _ _ ?_ (ht _)
    rw [(h.queued t).getNotification_eq]
    cases (n t).ep.notifications with
    | nil => exact hp
    | cons m l => exact hp.congr rfl rfl rfl rfl rfl
  | getResponse msgid => exact hpair _ _ (hp.getResponse (h.queued t) msgid) (ht _)

/-- A call of the left party, which the right one answers. -/
def call : List (Event Value) :=
  [⟨.left, .sendRequest .str .list 4⟩, ⟨.right, .receivePacket 3⟩, ⟨.left, .processOutgoing 1⟩,
    ⟨.right, .receivePacket 2⟩, ⟨.right, .getRequest⟩,
    ⟨.right, .sendResponse 0 none (some .str) 5⟩, ⟨.left, .receivePacket 5⟩,
    ⟨.left, .getResponse 0⟩]

/-- The ids of the requests that a party has sent. -/
def Party.ids (p : Party V) : List UInt32 := p.sent.filterMap requestId?

/-- How many requests the party `s` sends. -/
def requestsOf (s : Side) (es : List (Event V)) : ℕ :=
  es.countP fun e => e.side = s ∧ e.action.isRequest

/-- Ids count up from zero as long as they do not wrap around. -/
structure Party.Numbered (p : Party V) : Prop where
  ids : p.ids.map UInt32.toNat = List.range p.ids.length
  next : p.ep.nextMsgid.toNat = p.ids.length % 0xffffffff

theorem Party.Numbered.congr (h : p.Numbered) (hids : p'.ids = p.ids)
    (hnext : p'.ep.nextMsgid = p.ep.nextMsgid) : p'.Numbered := by
  refine ⟨?_, ?_⟩
  · rw [hids]
    exact h.ids
  · rw [hids, hnext]
    exact h.next

theorem Party.ids_of_says {msgs : List (Message V)} (h : p.Says C p' msgs) :
    p'.ids = p.ids ++ msgs.filterMap requestId? := by
  rw [Party.ids, h.sent, List.filterMap_append]
  rfl

theorem Party.Numbered.sendRequest (h : p.Numbered) (hfew : p.ids.length < 0xffffffff)
    (method params : V) (sentBytes : ℕ) : (p.sendRequest C method params sentBytes).Numbered := by
  have hids : (p.sendRequest C method params sentBytes).ids = p.ids ++ [p.ep.nextMsgid] :=
    ids_of_says (p.says_sendRequest ..)
  have hnext := h.next
  rw [Nat.mod_eq_of_lt hfew] at hnext
  refine ⟨?_, ?_⟩
  · rw [hids, List.map_append, h.ids, List.length_append, List.length_singleton, List.range_succ,
      List.map_singleton, hnext]
  · rw [hids, List.length_append, List.length_singleton]
    change ((p.ep.nextMsgid + 1) % 0xffffffff).toNat = _
    rw [UInt32.toNat_mod, UInt32.toNat_add, hnext]
    change (p.ids.length + 1) % 4294967296 % 4294967295 = _
    omega

/-- An id that has been given to no request is not in use. -/
theorem Party.Tracked.fresh (h : p.Tracked) (hnumbered : p.Numbered)
    (hfew : p.ids.length < 0xffffffff) :
    p.ep.nextMsgid ∉ p.ep.pendingRequests ∧ p.ep.responses.get? p.ep.nextMsgid = none := by
  have hnext := hnumbered.next
  rw [Nat.mod_eq_of_lt hfew] at hnext
  have hnew : p.ep.nextMsgid ∉ p.ids := by
    intro hmem
    have hlt := List.mem_map_of_mem (f := UInt32.toNat) hmem
    rw [hnumbered.ids, List.mem_range, hnext] at hlt
    exact lt_irrefl _ hlt
  have haccounted : (p.ids : Multiset UInt32) = _ := h.accounted
  rw [← Multiset.mem_coe, haccounted, Multiset.mem_add, Multiset.mem_add, not_or, not_or] at hnew
  refine ⟨hnew.1.1, ?_⟩
  by_contra hsome
  exact hnew.1.2 (Dict.mem_keys_iff.2 (Option.isSome_iff_ne_none.mpr hsome))

theorem numbered_step (h : Invariant C n) (hnumbered : ∀ s, (n s).Numbered) (e : Event V)
    (hfew : e.action.isRequest → (n e.side).ids.length < 0xffffffff) (s : Side) :
    (step C n e s).Numbered ∧
      (step C n e s).ids.length = (n s).ids.length + requestsOf s [e] := by
  obtain ⟨t, action⟩ := e
  have hp := hnumbered t
  have hqueued := h.queued t
  -- Only a request changes the ids of a party.
  have hpair (p q : Party V) (hpids : p.Numbered ∧
      p.ids.length = (n t).ids.length + if action.isRequest then 1 else 0)
      (hqids : q.ids = (n t.other).ids) (hqnext : q.ep.nextMsgid = (n t.other).ep.nextMsgid) :
      (Duplex.pair t p q s).Numbered ∧ (Duplex.pair t p q s).ids.length =
        (n s).ids.length + requestsOf s [⟨t, action⟩] := by
    obtain rfl | rfl := t.eq_or_eq_other s
    · simpa [requestsOf, List.countP_cons] using hpids
    · have hne : t ≠ t.other := t.other_ne.symm
      simpa [requestsOf, List.countP_cons, hne, hqids] using (hnumbered t.other).congr hqids hqnext
  have hsame (p : Party V) (hids : p.ids = (n t).ids)
      (hnext : p.ep.nextMsgid = (n t).ep.nextMsgid) :
      p.Numbered ∧ p.ids.length = (n t).ids.length + 0 :=
    ⟨hp.congr hids hnext, by rw [hids, Nat.add_zero]⟩
  cases action with
  | sendRequest method params sentBytes =>
    refine hpair _ _ ⟨hp.sendRequest (hfew rfl) .., ?_⟩ rfl rfl
    rw [Party.ids_of_says ((n t).says_sendRequest ..), List.length_append]
    rfl
  | sendResponse msgid error result sentBytes =>
    refine hpair _ _ (hsame _ ?_ ?_) rfl rfl
    · rw [Party.sendResponse, EndPoint.sendResponse]
      split_ifs
      · exact filterMap_append_of_none _ rfl
      · rfl
    · rw [Party.sendResponse, EndPoint.sendResponse]
      split_ifs <;> rfl
  | sendNotification method params sentBytes =>
    exact hpair _ _ (hsame _ (filterMap_append_of_none _ rfl) rfl) rfl rfl
  | processOutgoing sentBytes => exact hpair _ _ (hsame _ rfl rfl) rfl rfl
  | receivePacket bytes =>
    obtain ⟨hsent, -, -, hnext⟩ := (n t).receivePacket_keeps (C := C)
      ((n t.other).wire.take (min bytes recvSize))
    exact hpair _ _ (hsame _ (by rw [Party.ids, hsent, Party.ids]) hnext) rfl rfl
  | getRequest =>
    refine hpair _ _ (hsame _ ?_ ?_) rfl rfl <;> rw [hqueued.getRequest_eq] <;>
      cases (n t).ep.requests <;> rfl
  | getNotification =>
    refine hpair _ _ (hsame _ ?_ ?_) rfl rfl <;> rw [hqueued.getNotification_eq] <;>
      cases (n t).ep.notifications <;> rfl
  | getResponse msgid =>
    refine hpair _ _ (hsame _ ?_ ?_) rfl rfl <;> rw [hqueued.getResponse_eq] <;>
      cases (n t).ep.responses.get? msgid <;> rfl

/-- A response is that of a result or of an error. -/
def Action.WellFormed : Action V → Prop
  | .sendResponse _ error result _ => error = none ∨ result = none
  | _ => True

/-- The ids of the requests are different, and each is pending, or its response kept or returned. -/
def Party.Answered (p : Party V) : Prop := p.Tracked ∧ p.ids.Nodup

end Ryu.Rpc
