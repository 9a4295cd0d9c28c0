import Mathlib.Data.Finset.Basic
import Ryu.Lib.Dict
import Ryu.Lib.Pipe
import Ryu.Lib.Python

/-! # Endpoints of `msgpack-rpc`

An endpoint packs requests, responses and notifications into its send buffer, and queues what it
unpacks of the octets it receives. A response is kept for the request it answers, unless no
such request is pending. Packing and unpacking is that of `msgpack`, a codec of the messages.
-/

namespace Ryu.Rpc

/-- A message with the values of `msgpack`, in which `None` is a value of its own. A message of an
unknown type is ignored. -/
inductive Message (V : Type)
  | request (msgid : UInt32) (method params : V)
  | response (msgid : UInt32) (error result : Option V)
  | notify (method params : V)
  | unknown (type : V)
  deriving DecidableEq, Repr

abbrev Msgpack (V : Type) := PipeCodec UInt8 (Message V)

/-- `EndPoint`, with the next message id of its encoder and what the unpacker keeps. -/
structure EndPoint (V : Type) where
  nextMsgid : UInt32
  unpacker : List UInt8
  sendBuffer : List UInt8
  pendingRequests : Finset UInt32
  requests : List (UInt32 × V × V)
  notifications : List (V × V)
  responses : Dict UInt32 (Option V × Option V)
  incoming : ℕ
  closedByPeer : Bool

namespace EndPoint

variable {V : Type} (C : Msgpack V) (ep : EndPoint V)

def init : EndPoint V := ⟨0, [], [], ∅, [], [], .empty, 0, false⟩

/-- `_create_msgid`: the id, and the endpoint with the next one. -/
def createMsgid : UInt32 × EndPoint V :=
  (ep.nextMsgid, { ep with nextMsgid := (ep.nextMsgid + 1) % 0xffffffff })

/-- `process_outgoing`: what is sent is as much as the socket takes, which is nothing if it
raises. -/
def processOutgoing (sentBytes : ℕ) : List UInt8 × EndPoint V :=
  (ep.sendBuffer.take sentBytes, { ep with sendBuffer := ep.sendBuffer.drop sentBytes })

/-- `_send_message`. -/
def sendMessage (msg : Message V) (sentBytes : ℕ) : List UInt8 × EndPoint V :=
  { ep with sendBuffer := ep.sendBuffer ++ C.pack msg }.processOutgoing sentBytes

/-- `send_request`: the id, what is sent and the endpoint. -/
def sendRequest (method params : V) (sentBytes : ℕ) : UInt32 × List UInt8 × EndPoint V :=
  let (msgid, ep) := ep.createMsgid
  let (bytes, ep) := ep.sendMessage C (.request msgid method params) sentBytes
  (msgid, bytes, { ep with pendingRequests := insert msgid ep.pendingRequests })

/-- `send_response`, of a result or an error. -/
def sendResponse (msgid : UInt32) (error result : Option V) (sentBytes : ℕ) :
    Except PyError (List UInt8 × EndPoint V) :=
  if error = none ∨ result = none then
    .ok (ep.sendMessage C (.response msgid error result) sentBytes)
  else .error .assertionError

/-- `send_notification`. -/
def sendNotification (method params : V) (sentBytes : ℕ) : List UInt8 × EndPoint V :=
  ep.sendMessage C (.notify method params) sentBytes

def enqueueIncomingRequest (m : UInt32 × V × V) : EndPoint V :=
  { ep with requests := ep.requests ++ [m], incoming := ep.incoming + 1 }

/-- `_enqueue_incoming_response`, with the exception that it raises. -/
def enqueueIncomingResponse (msgid : UInt32) (error result : Option V) :
    EndPoint V × Option PyError :=
  if msgid ∈ ep.pendingRequests then
    let ep := { ep with pendingRequests := ep.pendingRequests.erase msgid }
    if (ep.responses.get? msgid).isSome then (ep, some .assertionError)
    else
      ({ ep with
        responses := ep.responses.set msgid (error, result)
        incoming := ep.incoming + 1 }, none)
  else (ep, none)

def enqueueIncomingNotification (m : V × V) : EndPoint V :=
  { ep with notifications := ep.notifications ++ [m], incoming := ep.incoming + 1 }

/-- `_dispatch_message`, by the table of an endpoint. -/
def dispatchMessage : Message V → EndPoint V × Option PyError
  | .request msgid method params => (ep.enqueueIncomingRequest (msgid, method, params), none)
  | .response msgid error result => ep.enqueueIncomingResponse msgid error result
  | .notify method params => (ep.enqueueIncomingNotification (method, params), none)
  | .unknown _ => (ep, none)

/-- Dispatching a message leaves what is sent, and what has not been cut, as it is. -/
theorem dispatchMessage_keeps (m : Message V) :
    (ep.dispatchMessage m).1.unpacker = ep.unpacker ∧
      (ep.dispatchMessage m).1.sendBuffer = ep.sendBuffer ∧
      (ep.dispatchMessage m).1.nextMsgid = ep.nextMsgid := by
  cases m with
  | request msgid method params => exact ⟨rfl, rfl, rfl⟩
  | response msgid error result =>
    simp only [dispatchMessage, enqueueIncomingResponse]
    split_ifs <;> exact ⟨rfl, rfl, rfl⟩
  | notify method params => exact ⟨rfl, rfl, rfl⟩
  | unknown type => exact ⟨rfl, rfl, rfl⟩

/-- A message that was cut off what the unpacker has is dispatched. -/
def dispatchNext (m : Message V) (r : List UInt8) : EndPoint V × Option PyError :=
  { ep with unpacker := r }.dispatchMessage m

theorem unpacker_dispatchNext (m : Message V) (r : List UInt8) :
    (ep.dispatchNext m r).1.unpacker = r := (dispatchMessage_keeps _ m).1

/-- The loop over the messages of the unpacker, with those that were dispatched. -/
def dispatchMessages (ep : EndPoint V) : EndPoint V × List (Message V) × Option PyError :=
  match _h : C.framer.next ep.unpacker with
  | none => (ep, [], none)
  | some (m, r) =>
    match _hd : ep.dispatchNext m r with
    | (ep', some e) => (ep', [m], some e)
    | (ep', none) =>
      let (ep'', ms, e) := dispatchMessages ep'
      (ep'', m :: ms, e)
termination_by ep.unpacker.length
decreasing_by
  have hkeep := unpacker_dispatchNext ep m r
  rw [_hd] at hkeep
  rw [hkeep]
  exact C.framer.next_lt _h

/-- One round of the loop of `receive_messages`: the socket raises, or returns a packet, which is
empty if the peer closed it. -/
def receivePacket : Option (List UInt8) → EndPoint V × List (Message V) × Option PyError
  | none => (ep, [], none)
  | some [] => ({ ep with closedByPeer := true }, [], none)
  | some (x :: packet) =>
    { ep with unpacker := ep.unpacker ++ (x :: packet) }.dispatchMessages C

/-- What a getter does with the counter. -/
def countTaken : EndPoint V × Option PyError :=
  if 0 < ep.incoming then ({ ep with incoming := ep.incoming - 1 }, none)
  else (ep, some .assertionError)

def getRequest : EndPoint V × Except PyError (Option (UInt32 × V × V)) :=
  match ep.requests with
  | [] => (ep, .ok none)
  | m :: q =>
    match { ep with requests := q }.countTaken with
    | (ep, some e) => (ep, .error e)
    | (ep, none) => (ep, .ok (some m))

def getNotification : EndPoint V × Except PyError (Option (V × V)) :=
  match ep.notifications with
  | [] => (ep, .ok none)
  | m :: q =>
    match { ep with notifications := q }.countTaken with
    | (ep, some e) => (ep, .error e)
    | (ep, none) => (ep, .ok (some m))

/-- `get_response`: the result and the error. -/
def getResponse (msgid : UInt32) : EndPoint V × Except PyError (Option (Option V × Option V)) :=
  match ep.responses.get? msgid with
  | none => (ep, .ok none)
  | some (error, result) =>
    match { ep with responses := ep.responses.erase msgid }.countTaken with
    | (ep, some e) => (ep, .error e)
    | (ep, none) => (ep, .ok (some (result, error)))

variable {C ep}

theorem dispatchMessages_of_none (h : C.framer.next ep.unpacker = none) :
    ep.dispatchMessages C = (ep, [], none) := by
  rw [dispatchMessages]
  split
  · rfl
  · next hnext =>
    rw [h] at hnext
    cases hnext

theorem dispatchMessages_of_some {m : Message V} {r : List UInt8}
    (h : C.framer.next ep.unpacker = some (m, r)) : ep.dispatchMessages C =
      match ep.dispatchNext m r with
      | (ep', some e) => (ep', [m], some e)
      | (ep', none) =>
        ((ep'.dispatchMessages C).1, m :: (ep'.dispatchMessages C).2.1,
          (ep'.dispatchMessages C).2.2) := by
  rw [dispatchMessages]
  split
  · next hnext =>
    rw [h] at hnext
    cases hnext
  · next m' r' hnext =>
    rw [h] at hnext
    obtain ⟨rfl, rfl⟩ := Prod.mk.inj (Option.some.inj hnext)
    split
    · next hd => rw [hd]
    · next hd => rw [hd]

/-- What each dispatched message keeps is kept by the loop. -/
theorem dispatchMessages_rule (P : EndPoint V → List (Message V) → Option PyError → Prop)
    (hstep : ∀ ep done m r, P ep done none → C.framer.next ep.unpacker = some (m, r) →
      P (ep.dispatchNext m r).1 (done ++ [m]) (ep.dispatchNext m r).2)
    (done : List (Message V)) (h : P ep done none) :
    P (ep.dispatchMessages C).1 (done ++ (ep.dispatchMessages C).2.1)
      (ep.dispatchMessages C).2.2 := by
  induction hlen : ep.unpacker.length using Nat.strongRecOn generalizing ep done with
  | ind n ih =>
    cases hnext : C.framer.next ep.unpacker with
    | none => simpa [dispatchMessages_of_none hnext] using h
    | some x =>
      obtain ⟨m, r⟩ := x
      have hfirst := hstep ep done m r h hnext
      have hkeep := unpacker_dispatchNext ep m r
      rw [dispatchMessages_of_some hnext]
      generalize ep.dispatchNext m r = y at hfirst hkeep ⊢
      obtain ⟨ep', _ | e⟩ := y
      · have hlt : ep'.unpacker.length < n := by
          rw [hkeep, ← hlen]
          exact C.framer.next_lt hnext
        have hrest := ih _ hlt _ hfirst rfl
        rwa [List.append_assoc, List.singleton_append] at hrest
      · exact hfirst

end EndPoint

/-! ## A codec of `msgpack` -/

/-- The empty string and the empty list, which are a method and its parameters. -/
inductive Value
  | str
  | list
  deriving DecidableEq, Repr

def Value.pack : Value → UInt8
  | .str => 0xa0
  | .list => 0x90

def packNone : Option Value → UInt8
  | none => 0xc0
  | some v => v.pack

def unpackValue (x : UInt8) : Option Value :=
  if x = 0xa0 then some .str else if x = 0x90 then some .list else none

def unpackNone (x : UInt8) : Option (Option Value) :=
  if x = 0xc0 then some none else (unpackValue x).map some

def packMsgid (msgid : UInt32) : List UInt8 :=
  if msgid < 0x80 then [msgid.toUInt8]
  else [0xce, .ofNat (msgid.toNat / 0x1000000), .ofNat (msgid.toNat / 0x10000),
    .ofNat (msgid.toNat / 0x100), .ofNat msgid.toNat]

def unpackMsgid : List UInt8 → Option (UInt32 × List UInt8)
  | x :: a :: b :: c :: d :: l =>
    if x < 0x80 then some (x.toUInt32, a :: b :: c :: d :: l)
    else if x = 0xce then
      some (.ofNat (a.toNat * 0x1000000 + b.toNat * 0x10000 + c.toNat * 0x100 + d.toNat), l)
    else none
  | x :: l => if x < 0x80 then some (x.toUInt32, l) else none
  | [] => none

theorem unpackMsgid_pack (msgid : UInt32) (r : List UInt8) :
    unpackMsgid (packMsgid msgid ++ r) = some (msgid, r) := by
  rw [packMsgid]
  split_ifs with h
  · have hlt : msgid.toUInt8 < 0x80 := by
      simp only [UInt8.lt_iff_toNat_lt, UInt32.lt_iff_toNat_lt] at *
      simp at *
      omega
    have hid : msgid.toUInt8.toUInt32 = msgid := by
      simp only [UInt32.lt_iff_toNat_lt] at *
      apply UInt32.toNat_inj.mp
      simp at *
      omega
    rcases r with _ | ⟨a, _ | ⟨b, _ | ⟨c, _ | ⟨d, r⟩⟩⟩⟩ <;> simp [unpackMsgid, hlt, hid]
  · have hlt : ¬ (0xce : UInt8) < 0x80 := by decide
    simp only [List.cons_append, List.nil_append, unpackMsgid, if_neg hlt, if_pos]
    congr 2
    apply UInt32.toNat_inj.mp
    have hmax := msgid.toNat_lt
    simp only [UInt8.toNat_ofNat', UInt32.toNat_ofNat']
    omega

theorem unpackMsgid_append {b r : List UInt8} {msgid : UInt32} (c : List UInt8)
    (h : unpackMsgid b = some (msgid, r)) : unpackMsgid (b ++ c) = some (msgid, r ++ c) ∧
      r.length < b.length := by
  rcases b with _ | ⟨x, l⟩
  · cases h
  · by_cases hx : x < 0x80
    · have hshort (l : List UInt8) : unpackMsgid (x :: l) = some (x.toUInt32, l) := by
        rcases l with _ | ⟨a, _ | ⟨b, _ | ⟨c, _ | ⟨d, l⟩⟩⟩⟩ <;> simp [unpackMsgid, hx]
      rw [hshort] at h
      obtain ⟨rfl, rfl⟩ := Prod.mk.inj (Option.some.inj h)
      exact ⟨hshort _, Nat.lt_succ_self _⟩
    · rcases l with _ | ⟨a, _ | ⟨b, _ | ⟨c', _ | ⟨d, l⟩⟩⟩⟩ <;> simp [unpackMsgid, hx] at h
      obtain ⟨rfl, hid, rfl⟩ := h
      simp only [List.cons_append, unpackMsgid, if_neg hx, if_pos]
      refine ⟨?_, by simp only [List.length_cons]; omega⟩
      simp [hid]

/-- The next message of the octets, of those that are as long as their first two say. -/
def unpackNext : List UInt8 → Option (Message Value × List UInt8)
  | 0x94 :: 0x00 :: l => do
    let (msgid, l) ← unpackMsgid l
    match l with
    | a :: b :: l => some (.request msgid (← unpackValue a) (← unpackValue b), l)
    | _ => none
  | 0x94 :: 0x01 :: l => do
    let (msgid, l) ← unpackMsgid l
    match l with
    | a :: b :: l => some (.response msgid (← unpackNone a) (← unpackNone b), l)
    | _ => none
  | 0x93 :: 0x02 :: a :: b :: l => do some (.notify (← unpackValue a) (← unpackValue b), l)
  | 0x91 :: a :: l => do some (.unknown (← unpackValue a), l)
  | _ => none

def packMessage : Message Value → List UInt8
  | .request msgid method params => 0x94 :: 0x00 :: packMsgid msgid ++ [method.pack, params.pack]
  | .response msgid error result =>
    0x94 :: 0x01 :: packMsgid msgid ++ [packNone error, packNone result]
  | .notify method params => [0x93, 0x02, method.pack, params.pack]
  | .unknown type => [0x91, type.pack]

theorem unpackValue_pack (v : Value) : unpackValue v.pack = some v := by cases v <;> rfl

theorem unpackNone_pack (v : Option Value) : unpackNone (packNone v) = some v := by
  cases v with
  | none => rfl
  | some v => cases v <;> rfl

theorem unpackNext_pack (m : Message Value) (r : List UInt8) :
    unpackNext (packMessage m ++ r) = some (m, r) := by
  cases m with
  | request msgid method params =>
    simp [packMessage, unpackNext, unpackMsgid_pack, unpackValue_pack]
  | response msgid error result =>
    simp [packMessage, unpackNext, unpackMsgid_pack, unpackNone_pack]
  | notify method params => simp [packMessage, unpackNext, unpackValue_pack]
  | unknown type => simp [packMessage, unpackNext, unpackValue_pack]

theorem unpackNext_append {b r : List UInt8} {m : Message Value} (c : List UInt8)
    (h : unpackNext b = some (m, r)) : unpackNext (b ++ c) = some (m, r ++ c) ∧
      r.length < b.length := by
  unfold unpackNext at h
  split at h
  · obtain ⟨⟨msgid, l'⟩, hid, h⟩ := Option.bind_eq_some_iff.mp h
    obtain ⟨hid', hlt⟩ := unpackMsgid_append c hid
    rcases l' with _ | ⟨a, _ | ⟨b, l'⟩⟩
    · cases h
    · cases h
    · obtain ⟨x, hx, y, hy, rfl, rfl⟩ := by simpa [Option.bind_eq_some_iff] using h
      simp only [List.length_cons] at hlt
      refine ⟨?_, by simp only [List.length_cons]; omega⟩
      simp [unpackNext, hid', hx, hy]
  · obtain ⟨⟨msgid, l'⟩, hid, h⟩ := Option.bind_eq_some_iff.mp h
    obtain ⟨hid', hlt⟩ := unpackMsgid_append c hid
    rcases l' with _ | ⟨a, _ | ⟨b, l'⟩⟩
    · cases h
    · cases h
    · obtain ⟨x, hx, y, hy, rfl, rfl⟩ := by simpa [Option.bind_eq_some_iff] using h
      simp only [List.length_cons] at hlt
      refine ⟨?_, by simp only [List.length_cons]; omega⟩
      simp [unpackNext, hid', hx, hy]
  · obtain ⟨x, hx, y, hy, rfl, rfl⟩ := by simpa [Option.bind_eq_some_iff] using h
    refine ⟨?_, by simp only [List.length_cons]; omega⟩
    simp [unpackNext, hx, hy]
  · obtain ⟨x, hx, rfl, rfl⟩ := by simpa [Option.bind_eq_some_iff] using h
    refine ⟨?_, by simp only [List.length_cons]; omega⟩
    simp [unpackNext, hx]
  · cases h

/-- Messages whose values are empty, as `msgpack` packs them. -/
def plainMsgpack : Msgpack Value where
  framer := {
    next := unpackNext
    next_append := fun c h => (unpackNext_append c h).1
    next_lt := fun h => (unpackNext_append [] h).2 }
  pack := packMessage
  next_pack := unpackNext_pack

end Ryu.Rpc
