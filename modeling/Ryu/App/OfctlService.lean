import Mathlib.Algebra.BigOperators.Group.Multiset.Basic
import Mathlib.Algebra.Order.Group.Multiset
import Mathlib.Tactic.Abel
import Ryu.Lib.Dict
import Ryu.Lib.Outcome
import Ryu.Lib.Run

/-! # Requests to the `ofctl` service

The service sends a message to a switch for another application, with a barrier behind it, and
replies when the switch has answered the barrier, or the switch is gone. While a request waits for
messages of a class, the service observes their event.
-/

namespace Ryu.OfctlService

/-- A message class, by the version of its parser and its name. -/
structure MsgCls where
  version : ℕ
  name : String
  deriving DecidableEq, Repr

/-- A datapath, which is `obj` among all objects. -/
structure Datapath where
  obj : ℕ
  id : Option ℕ
  version : ℕ
  deriving DecidableEq, Repr

/-- A message of a switch. -/
structure Msg where
  cls : MsgCls
  xid : ℕ
  datapath : Datapath
  body : List UInt8
  deriving DecidableEq, Repr

/-- `SendMsgRequest`, with what is read of its message, and what tells it from other requests. -/
structure SendMsgRequest where
  req : ℕ
  cls : MsgCls
  datapath : Datapath
  replyCls : Option MsgCls
  replyMulti : Bool
  deriving DecidableEq, Repr

inductive Request
  | getDatapath (req : ℕ) (dpid : Option ℕ)
  | sendMsg (r : SendMsgRequest)
  deriving DecidableEq, Repr

/-- The exceptions a reply carries. -/
inductive Exception
  | unexpectedMultiReply (result : List Msg)
  | ofError (result : List Msg)
  | invalidDatapath (result : Option ℕ)
  deriving DecidableEq, Repr

inductive Reply
  | datapaths (result : List Datapath)
  | datapath (result : Option Datapath)
  | none
  | msg (result : Msg)
  | msgs (result : List Msg)
  | exception (e : Exception)
  deriving DecidableEq, Repr

/-- `_SwitchInfo`. -/
structure SwitchInfo where
  datapath : Datapath
  xids : Dict ℕ SendMsgRequest
  barriers : Dict ℕ ℕ
  results : Dict ℕ (List Msg)

def SwitchInfo.new (datapath : Datapath) : SwitchInfo := ⟨datapath, .empty, .empty, .empty⟩

/-- The handlers that are registered for messages. -/
inductive Handler
  | switchFeatures
  | handleBarrier
  | handleReply
  deriving DecidableEq, Repr

/-- `OfctlService`, with the events it observes and the replies it has given. -/
structure Service where
  switches : Dict ℕ SwitchInfo
  observing : Dict String ℕ
  eventHandlers : Dict String (List Handler)
  observed : List String
  replies : List (Request × Reply)

/-- `ofp_msg_to_ev_cls`, by name. -/
def evCls (cls : MsgCls) : String := "Event" ++ cls.name

def evSwitchFeatures : String := "EventOFPSwitchFeatures"

def evBarrierReply : String := "EventOFPBarrierReply"

def evErrorMsg : String := "EventOFPErrorMsg"

def barrierRequest (version : ℕ) : MsgCls := ⟨version, "OFPBarrierRequest"⟩

def barrierReply (version : ℕ) : MsgCls := ⟨version, "OFPBarrierReply"⟩

/-- The service as `set_ev_cls` leaves it. -/
def Service.init : Service where
  switches := .empty
  observing := .empty
  eventHandlers := ((Dict.empty.set evSwitchFeatures [.switchFeatures]).set evBarrierReply
    [.handleBarrier]).set evErrorMsg [.handleReply]
  observed := [evSwitchFeatures, evBarrierReply, evErrorMsg]
  replies := []

/-- `Datapath.set_xid`: the next number. -/
def setXid (xid : ℕ) : ℕ := (xid + 1) &&& 0xffffffff

def isError (m : Msg) : Bool := evCls m.cls = evErrorMsg

namespace Service

def replyToRequest (s : Service) (req : Request) (rep : Reply) : Service :=
  { s with replies := s.replies ++ [(req, rep)] }

def registerHandler (s : Service) (ev : String) (h : Handler) : Service :=
  { s with eventHandlers := s.eventHandlers.set ev ((s.eventHandlers.get? ev).getD [] ++ [h]) }

def unregisterHandler (s : Service) (ev : String) (h : Handler) : Outcome Service :=
  match s.eventHandlers.get? ev with
  | none => (s, some (.keyError ev))
  | some handlers =>
    if h ∈ handlers then
      if handlers.erase h = [] then ({ s with eventHandlers := s.eventHandlers.erase ev }, none)
      else ({ s with eventHandlers := s.eventHandlers.set ev (handlers.erase h) }, none)
    else (s, some (.valueError ev))

def observeEvent (s : Service) (ev : String) : Service :=
  if ev ∈ s.observed then s else { s with observed := ev :: s.observed }

def unobserveEvent (s : Service) (ev : String) : Outcome Service :=
  if ev ∈ s.observed then ({ s with observed := s.observed.filter (· ≠ ev) }, none)
  else (s, some (.keyError ev))

/-- `_observe_msg`. -/
def observeMsg (s : Service) (cls : MsgCls) : Service :=
  let ev := evCls cls
  let s := { s with observing := s.observing.setdefault ev 0 }
  let count := (s.observing.get? ev).getD 0
  let s := if count = 0 then (s.registerHandler ev .handleReply).observeEvent ev else s
  { s with observing := s.observing.set ev (count + 1) }

/-- `_unobserve_msg`. -/
def unobserveMsg (s : Service) (cls : MsgCls) : Outcome Service :=
  let ev := evCls cls
  match s.observing.get? ev with
  | none => (s, some (.keyError ev))
  | some 0 => (s, some .assertionError)
  | some (count + 1) =>
    let s := { s with observing := s.observing.set ev count }
    if count = 0 then (s.unregisterHandler ev .handleReply).andThen (·.unobserveEvent ev)
    else (s, none)

variable (isInstance : MsgCls → MsgCls → Bool)

/-- `_cancel`, of a request that may be no longer among the switches. -/
def cancel (x : SwitchInfo × Service) (barrierXid : ℕ) (e : Exception) :
    Outcome (SwitchInfo × Service) :=
  let (info, s) := x
  match info.barriers.get? barrierXid with
  | none => ((info, s), some (.keyError "xid"))
  | some xid =>
    let info := { info with barriers := info.barriers.erase barrierXid }
    match info.xids.get? xid with
    | none => ((info, s), some (.keyError "xid"))
    | some req =>
      let info := { info with xids := info.xids.erase xid }
      let isBarrier := isInstance req.cls (barrierRequest req.datapath.version)
      match info.results.get? xid with
      | none => ((info, s), some (.keyError "xid"))
      | some _ =>
        let info := { info with results := info.results.erase xid }
        let unobserved : Outcome Service :=
          match isBarrier, req.replyCls with
          | false, some cls => s.unobserveMsg cls
          | _, _ => (s, none)
        (unobserved.andThen fun s =>
          (s.replyToRequest (.sendMsg req) (.exception e), none)).lift (info, ·)

/-- The loop over `list(info.barriers)`. -/
def cancelAll (info : SwitchInfo) (s : Service) (e : Exception) : Outcome Service :=
  (Outcome.forEach (fun x barrierXid => cancel isInstance x barrierXid e) (info, s)
    info.barriers.keys).lift Prod.snd

/-- `_switch_features_handler`. -/
def switchFeatures (s : Service) (datapath : Datapath) : Outcome Service :=
  match datapath.id with
  | none => (s, some .assertionError)
  | some id =>
    let s' := { s with switches := s.switches.set id (.new datapath) }
    match s.switches.get? id with
    | none => (s', none)
    | some info => s'.cancelAll isInstance info (.invalidDatapath (some id))

/-- `_handle_dead`. -/
def handleDead (s : Service) (datapath : Datapath) : Outcome Service :=
  match datapath.id with
  | none => (s, none)
  | some id =>
    match s.switches.get? id with
    | none => (s, none)
    | some info =>
      if info.datapath.obj = datapath.obj then
        { s with switches := s.switches.erase id }.cancelAll isInstance info
          (.invalidDatapath (some id))
      else (s, none)

/-- `_handle_get_datapath`. -/
def handleGetDatapath (s : Service) (req : ℕ) (dpid : Option ℕ) : Service :=
  s.replyToRequest (.getDatapath req dpid)
    (match dpid with
    | none => .datapaths (s.switches.values.map (·.datapath))
    | some dpid => .datapath ((s.switches.get? dpid).map (·.datapath)))

end Service

/-- `_store_xid`. -/
def SwitchInfo.storeXid (si : SwitchInfo) (xid barrierXid : ℕ) (req : SendMsgRequest) :
    Except PyError SwitchInfo :=
  if (si.results.get? xid).isSome ∨ (si.xids.get? xid).isSome ∨
      (si.barriers.get? barrierXid).isSome then .error .assertionError
  else
    .ok { si with
      results := si.results.set xid []
      xids := si.xids.set xid req
      barriers := si.barriers.set barrierXid xid }

namespace Service

variable (isInstance : MsgCls → MsgCls → Bool)

/-- What a send of a datapath that is not sent leaves. -/
def cancelUnlessSent (s : Service) (id : ℕ) (si : SwitchInfo) (barrierXid : ℕ) (sent : Bool) :
    Outcome Service :=
  if sent then ({ s with switches := s.switches.set id si }, none)
  else
    (cancel isInstance (si, s) barrierXid (.invalidDatapath (some id))).lift
      fun (si, s) => { s with switches := s.switches.set id si }

/-- `_handle_send_msg`, with the last xid of the datapath and what its `send_msg` returns for the
message and the barrier. -/
def handleSendMsg (s : Service) (req : SendMsgRequest) (xid : ℕ) (sent barrierSent : Bool) :
    Outcome Service :=
  let isBarrier := isInstance req.cls (barrierRequest req.datapath.version)
  match req.datapath.id.bind fun id => (s.switches.get? id).map (id, ·) with
  | none =>
    (s.replyToRequest (.sendMsg req) (.exception (.invalidDatapath req.datapath.id)), none)
  | some (id, si) =>
    if isBarrier then
      let barrier := setXid xid
      match si.storeXid barrier barrier req with
      | .error e => (s, some e)
      | .ok si => s.cancelUnlessSent isInstance id si barrier barrierSent
    else
      let s := match req.replyCls with
        | some cls => s.observeMsg cls
        | none => s
      let xid := setXid xid
      let barrier := setXid xid
      match si.storeXid xid barrier req with
      | .error e => (s, some e)
      | .ok si => s.cancelUnlessSent isInstance id si barrier (sent && barrierSent)

/-- What the request is answered, when the switch has answered its barrier. -/
def replyOf (req : SendMsgRequest) (isBarrier : Bool) (msg : Msg) (result : List Msg) : Reply :=
  if isBarrier ∧ req.replyCls = some (barrierReply msg.datapath.version) then .msg msg
  else if result.any isError then .exception (.ofError result)
  else if req.replyMulti then .msgs result
  else
    match result with
    | [] => .none
    | [m] => .msg m
    | result => .exception (.unexpectedMultiReply result)

/-- `_handle_barrier`. -/
def handleBarrier (s : Service) (msg : Msg) : Outcome Service :=
  match msg.datapath.id.bind fun id => (s.switches.get? id).map (id, ·) with
  | none => (s, none)
  | some (id, si) =>
    match si.barriers.get? msg.xid with
    | none => (s, none)
    | some xid =>
      let si := { si with barriers := si.barriers.erase msg.xid }
      let put (si : SwitchInfo) (s : Service) := { s with switches := s.switches.set id si }
      match si.results.get? xid with
      | none => (put si s, some (.keyError "xid"))
      | some result =>
        let si := { si with results := si.results.erase xid }
        match si.xids.get? xid with
        | none => (put si s, some (.keyError "xid"))
        | some req =>
          let s := put { si with xids := si.xids.erase xid } s
          let isBarrier := isInstance req.cls (barrierRequest msg.datapath.version)
          let unobserved : Outcome Service :=
            match isBarrier, req.replyCls with
            | false, some cls => s.unobserveMsg cls
            | _, _ => (s, none)
          unobserved.andThen fun s =>
            (s.replyToRequest (.sendMsg req) (replyOf req isBarrier msg result), none)

/-- `_handle_reply`, for a message that comes with an event of its own class. -/
def handleReply (s : Service) (msg : Msg) : Service :=
  match msg.datapath.id.bind fun id => (s.switches.get? id).map (id, ·) with
  | none => s
  | some (id, si) =>
    match si.xids.get? msg.xid with
    | none => s
    | some req =>
      if isError msg = false ∧ (req.replyCls.all fun cls => isInstance msg.cls cls = false) then s
      else
        match si.results.get? msg.xid with
        | none => s
        | some l =>
          let si := { si with results := si.results.set msg.xid (l ++ [msg]) }
          { s with switches := s.switches.set id si }

/-- A handler that is called for a message. -/
def call (msg : Msg) (s : Service) : Handler → Outcome Service
  | .switchFeatures => s.switchFeatures isInstance msg.datapath
  | .handleBarrier => s.handleBarrier isInstance msg
  | .handleReply => (s.handleReply isInstance msg, none)

end Service

inductive Event
  | stateDead (datapath : Datapath)
  | getDatapath (req : ℕ) (dpid : Option ℕ)
  | sendMsg (req : SendMsgRequest) (xid : ℕ) (sent barrierSent : Bool)
  | message (msg : Msg)

/-- The service, the requests it has received and those whose handler raised, and the exceptions
its event loop has logged. -/
structure State where
  service : Service
  received : List Request
  failed : List SendMsgRequest
  raised : List PyError

variable (isInstance : MsgCls → MsgCls → Bool)

/-- What the event loop does with the outcome of a handler. -/
def State.logged (s : State) (x : Outcome Service) : State :=
  { s with service := x.1, raised := s.raised ++ x.2.toList }

/-- A round of `_event_loop`. The handlers of a message are those that are registered before the
first is called. -/
def step (s : State) : Event → State
  | .stateDead datapath => s.logged (s.service.handleDead isInstance datapath)
  | .getDatapath req dpid =>
    { s with
      service := s.service.handleGetDatapath req dpid
      received := s.received ++ [.getDatapath req dpid] }
  | .sendMsg req xid sent barrierSent =>
    let x := s.service.handleSendMsg isInstance req xid sent barrierSent
    let s := s.logged x
    { s with
      received := s.received ++ [.sendMsg req]
      failed := if x.2.isSome then s.failed ++ [req] else s.failed }
  | .message msg =>
    ((s.service.eventHandlers.get? (evCls msg.cls)).getD []).foldl
      (fun s h => s.logged (s.service.call isInstance msg h)) s

def start : State := ⟨.init, [], [], []⟩

/-! ## What is observed -/

/-- The handlers that `set_ev_cls` registers for an event. -/
def own (ev : String) : List Handler := (Service.init.eventHandlers.get? ev).getD []

namespace SendMsgRequest

def isBarrier (r : SendMsgRequest) : Bool :=
  isInstance r.cls (barrierRequest r.datapath.version)

/-- The event a request waits for. -/
def waitsFor (r : SendMsgRequest) : Option String :=
  if r.isBarrier isInstance then none else r.replyCls.map evCls

end SendMsgRequest

variable {isInstance}

/-- The requests of `w` wait, each event is counted for as many of them as wait for it, and it is
observed and handled as long as there is one. -/
structure Watches (isInstance : MsgCls → MsgCls → Bool) (s : Service)
    (w : Multiset SendMsgRequest) : Prop where
  counted : ∀ ev, (s.observing.get? ev).getD 0 = w.countP (·.waitsFor isInstance = some ev)
  handled : ∀ ev, (s.eventHandlers.get? ev).getD [] =
    own ev ++ if w.countP (·.waitsFor isInstance = some ev) = 0 then [] else [.handleReply]
  observed : ∀ ev, ev ∈ s.observed ↔
    own ev ≠ [] ∨ w.countP (·.waitsFor isInstance = some ev) ≠ 0
  apart : ∀ r ∈ w, ∀ ev, r.waitsFor isInstance = some ev → own ev = []

/-- A handler changes what is observed, and nothing else. -/
def Service.SameRest (s s' : Service) : Prop :=
  s'.switches = s.switches ∧ s'.replies = s.replies

variable {s s' : Service} {w : Multiset SendMsgRequest} {r : SendMsgRequest} {cls : MsgCls}

theorem own_cases (ev : String) :
    (ev = evErrorMsg ∧ own ev = [.handleReply]) ∨
      (ev = evBarrierReply ∧ own ev = [.handleBarrier]) ∨
      (ev = evSwitchFeatures ∧ own ev = [.switchFeatures]) ∨
      (ev ∉ Service.init.observed ∧ own ev = []) := by
  by_cases herror : ev = evErrorMsg
  · subst herror
    exact .inl ⟨rfl, rfl⟩
  by_cases hbarrier : ev = evBarrierReply
  · subst hbarrier
    exact .inr (.inl ⟨rfl, rfl⟩)
  by_cases hfeatures : ev = evSwitchFeatures
  · subst hfeatures
    exact .inr (.inr (.inl ⟨rfl, rfl⟩))
  refine .inr (.inr (.inr ⟨by simp [Service.init, herror, hbarrier, hfeatures], ?_⟩))
  simp [own, Service.init, Dict.get?_set, Ne.symm herror, Ne.symm hbarrier, Ne.symm hfeatures]

theorem own_init (ev : String) : own ev ≠ [] ↔ ev ∈ Service.init.observed := by
  obtain ⟨rfl, hown⟩ | ⟨rfl, hown⟩ | ⟨rfl, hown⟩ | ⟨hnot, hown⟩ := own_cases ev
  · simp [hown, Service.init]
  · simp [hown, Service.init]
  · simp [hown, Service.init]
  · simp [hown, hnot]

theorem watches_init : Watches isInstance Service.init 0 := by
  refine ⟨fun ev => rfl, fun ev => ?_, fun ev => ?_, by simp⟩
  · rw [Multiset.countP_zero, if_pos rfl, List.append_nil, own]
  · rw [own_init, Multiset.countP_zero]
    simp

theorem Watches.congr (h : Watches isInstance s w) (hobserving : s'.observing = s.observing)
    (hhandlers : s'.eventHandlers = s.eventHandlers) (hobserved : s'.observed = s.observed) :
    Watches isInstance s' w := by
  refine ⟨?_, ?_, ?_, h.apart⟩
  · rw [hobserving]
    exact h.counted
  · rw [hhandlers]
    exact h.handled
  · rw [hobserved]
    exact h.observed

theorem Watches.cons_of_none (h : Watches isInstance s w) (hr : r.waitsFor isInstance = none) :
    Watches isInstance s (r ::ₘ w) := by
  have hcount (ev : String) : (r ::ₘ w).countP (·.waitsFor isInstance = some ev) =
      w.countP (·.waitsFor isInstance = some ev) :=
    Multiset.countP_cons_of_neg _ (by simp [hr])
  refine ⟨?_, ?_, ?_, ?_⟩
  · simpa only [hcount] using h.counted
  · simpa only [hcount] using h.handled
  · simpa only [hcount] using h.observed
  · intro r' hmem ev hev
    obtain rfl | hmem := Multiset.mem_cons.mp hmem
    · rw [hr] at hev
      cases hev
    · exact h.apart r' hmem ev hev

theorem countP_cons_waits {ev ev' : String} (hr : r.waitsFor isInstance = some ev) :
    (r ::ₘ w).countP (·.waitsFor isInstance = some ev') =
      w.countP (·.waitsFor isInstance = some ev') + if ev = ev' then 1 else 0 := by
  rw [Multiset.countP_cons, hr]
  simp

theorem getD_set_setdefault (d : Dict String ℕ) (ev ev' : String) (n : ℕ) :
    (((d.setdefault ev 0).set ev n).get? ev').getD 0 =
      if ev = ev' then n else (d.get? ev').getD 0 := by
  rw [Dict.get?_set]
  split_ifs with hev
  · rfl
  · rw [Dict.get?_setdefault, if_neg hev]

/-- A request that waits has its event observed. -/
theorem Watches.observeMsg (h : Watches isInstance s w)
    (hr : r.waitsFor isInstance = some (evCls cls)) (hown : own (evCls cls) = []) :
    Watches isInstance (s.observeMsg cls) (r ::ₘ w) ∧ s.SameRest (s.observeMsg cls) := by
  have hcount : (((s.observing.setdefault (evCls cls) 0).get? (evCls cls)).getD 0) =
      w.countP (·.waitsFor isInstance = some (evCls cls)) := by
    rw [← h.counted, Dict.get?_setdefault]
    cases s.observing.get? (evCls cls) <;> simp
  have hcounted (ev : String) : (((s.observing.setdefault (evCls cls) 0).set (evCls cls)
      (w.countP (·.waitsFor isInstance = some (evCls cls)) + 1)).get? ev).getD 0 =
      (r ::ₘ w).countP (·.waitsFor isInstance = some ev) := by
    rw [getD_set_setdefault, countP_cons_waits hr]
    split_ifs with hev
    · rw [hev]
    · rw [h.counted, Nat.add_zero]
  have hapart (r' : SendMsgRequest) (hmem : r' ∈ r ::ₘ w) (ev : String)
      (hev : r'.waitsFor isInstance = some ev) : own ev = [] := by
    obtain rfl | hmem := Multiset.mem_cons.mp hmem
    · rw [hr] at hev
      obtain rfl := Option.some.inj hev
      exact hown
    · exact h.apart r' hmem ev hev
  simp only [Service.observeMsg, hcount]
  by_cases hzero : w.countP (·.waitsFor isInstance = some (evCls cls)) = 0
  · have hnew : evCls cls ∉ s.observed := by
      rw [h.observed, hown]
      simp [hzero]
    have hnone := h.handled (evCls cls)
    rw [hown, if_pos hzero] at hnone
    rw [if_pos hzero]
    simp only [Service.registerHandler, Service.observeEvent, hnew, if_false]
    refine ⟨⟨hcounted, fun ev => ?_, fun ev => ?_, hapart⟩, rfl, rfl⟩
    · rw [Dict.get?_set, countP_cons_waits hr]
      by_cases hev : evCls cls = ev
      · subst hev
        simp [hnone, hown]
      · simp [hev, h.handled]
    · rw [countP_cons_waits hr, List.mem_cons, h.observed]
      by_cases hev : evCls cls = ev
      · simp [hev]
      · simp [hev, Ne.symm hev]
  · rw [if_neg hzero]
    refine ⟨⟨hcounted, fun ev => ?_, fun ev => ?_, hapart⟩, rfl, rfl⟩
    · change (s.eventHandlers.get? ev).getD [] = _
      rw [h.handled, countP_cons_waits hr]
      by_cases hev : evCls cls = ev
      · subst hev
        simp [hzero]
      · simp [hev]
    · change ev ∈ s.observed ↔ _
      rw [h.observed, countP_cons_waits hr]
      split_ifs with hev
      · subst hev
        simp [hzero]
      · rw [Nat.add_zero]

/-- A request that ends has its event observed once less. -/
theorem Watches.unobserveMsg (h : Watches isInstance s (r ::ₘ w))
    (hr : r.waitsFor isInstance = some (evCls cls)) :
    ∃ s', s.unobserveMsg cls = (s', none) ∧ Watches isInstance s' w ∧ s.SameRest s' := by
  have hown := h.apart r (Multiset.mem_cons_self _ _) _ hr
  have hapart (r' : SendMsgRequest) (hmem : r' ∈ w) := h.apart r' (Multiset.mem_cons_of_mem hmem)
  have hcount := h.counted (evCls cls)
  rw [countP_cons_waits hr, if_pos rfl] at hcount
  have hget : s.observing.get? (evCls cls) =
      some (w.countP (·.waitsFor isInstance = some (evCls cls)) + 1) := by
    cases hobs : s.observing.get? (evCls cls) with
    | none => simp [hobs] at hcount
    | some n => rw [hobs, Option.getD_some] at hcount; rw [hcount]
  have hcounted (ev : String) : ((s.observing.set (evCls cls)
      (w.countP (·.waitsFor isInstance = some (evCls cls)))).get? ev).getD 0 =
      w.countP (·.waitsFor isInstance = some ev) := by
    rw [Dict.get?_set]
    split_ifs with hev
    · rw [hev, Option.getD_some]
    · rw [h.counted, countP_cons_waits hr, if_neg hev, Nat.add_zero]
  have hhandled := h.handled (evCls cls)
  rw [hown, countP_cons_waits hr, if_pos rfl, if_neg (Nat.succ_ne_zero _)] at hhandled
  have hhandlers : s.eventHandlers.get? (evCls cls) = some [.handleReply] := by
    cases hget : s.eventHandlers.get? (evCls cls) with
    | none => simp [hget] at hhandled
    | some l => rw [hget, Option.getD_some] at hhandled; rw [hhandled]; rfl
  have hmem : evCls cls ∈ s.observed := by
    rw [h.observed, countP_cons_waits hr, if_pos rfl]
    exact .inr (Nat.succ_ne_zero _)
  rw [Service.unobserveMsg, hget]
  simp only
  by_cases hzero : w.countP (·.waitsFor isInstance = some (evCls cls)) = 0
  · rw [if_pos hzero]
    simp only [Service.unregisterHandler, hhandlers, List.mem_singleton, if_true,
      List.erase_cons_head, Outcome.andThen_none, Service.unobserveEvent, if_pos hmem]
    refine ⟨_, rfl, ⟨hcounted, fun ev => ?_, fun ev => ?_, hapart⟩, rfl, rfl⟩
    · rw [Dict.get?_erase]
      split_ifs with hev hnone hnone
      · subst hev
        rw [hown]
        rfl
      · exact absurd (hev ▸ hzero) hnone
      · rw [h.handled, countP_cons_waits hr, if_neg hev, Nat.add_zero, if_pos hnone]
      · rw [h.handled, countP_cons_waits hr, if_neg hev, Nat.add_zero, if_neg hnone]
    · rw [List.mem_filter, h.observed, countP_cons_waits hr]
      by_cases hev : evCls cls = ev
      · subst hev
        simp [hown, hzero]
      · simp [hev, Ne.symm hev]
  · rw [if_neg hzero]
    refine ⟨_, rfl, ⟨hcounted, fun ev => ?_, fun ev => ?_, hapart⟩, rfl, rfl⟩
    · change (s.eventHandlers.get? ev).getD [] = _
      rw [h.handled, countP_cons_waits hr]
      by_cases hev : evCls cls = ev
      · subst hev
        simp [hzero]
      · simp [hev]
    · change ev ∈ s.observed ↔ _
      rw [h.observed, countP_cons_waits hr]
      by_cases hev : evCls cls = ev
      · subst hev
        simp [hzero]
      · simp [hev]

/-- The request that ends is one of those that may wait. -/
theorem Watches.unobserve (h : Watches isInstance s (r ::ₘ w)) :
    ∃ s', (match r.isBarrier isInstance, r.replyCls with
      | false, some cls => s.unobserveMsg cls
      | _, _ => (s, none)) = (s', none) ∧ Watches isInstance s' w ∧ s.SameRest s' := by
  have hnone (hr : r.waitsFor isInstance = none) : Watches isInstance s w := by
    have hcount (ev : String) : (r ::ₘ w).countP (·.waitsFor isInstance = some ev) =
        w.countP (·.waitsFor isInstance = some ev) :=
      Multiset.countP_cons_of_neg _ (by simp [hr])
    refine ⟨?_, ?_, ?_, fun r' hmem => h.apart r' (Multiset.mem_cons_of_mem hmem)⟩
    · simpa only [hcount] using h.counted
    · simpa only [hcount] using h.handled
    · simpa only [hcount] using h.observed
  cases hbarrier : r.isBarrier isInstance with
  | true => exact ⟨s, rfl, hnone (by simp [SendMsgRequest.waitsFor, hbarrier]), rfl, rfl⟩
  | false =>
    cases hcls : r.replyCls with
    | none => exact ⟨s, rfl, hnone (by simp [SendMsgRequest.waitsFor, hcls]), rfl, rfl⟩
    | some cls => exact h.unobserveMsg (by simp [SendMsgRequest.waitsFor, hbarrier, hcls])

/-! ## What is pending -/

namespace SwitchInfo

variable {si info : SwitchInfo} {xid barrierXid : ℕ} {e : Exception}

def pending (si : SwitchInfo) : Multiset SendMsgRequest := si.xids.values

/-- Each barrier is that of a request, each request has a barrier and a list of results, which are
errors and messages of the class it asks for. -/
structure Ok (isInstance : MsgCls → MsgCls → Bool) (si : SwitchInfo) : Prop where
  barriers : (si.barriers.values : Multiset ℕ) = si.xids.keys
  results : ∀ xid, (si.results.get? xid).isSome = (si.xids.get? xid).isSome
  versions : ∀ r ∈ si.pending, r.datapath.version = si.datapath.version
  collected : ∀ xid r l, si.xids.get? xid = some r → si.results.get? xid = some l → ∀ m ∈ l,
    m.xid = xid ∧ (isError m ∨ ∃ cls, r.replyCls = some cls ∧ isInstance m.cls cls)

theorem ok_new (datapath : Datapath) : (new datapath).Ok isInstance :=
  ⟨rfl, fun _ => rfl, by simp [pending, new, Dict.values, Dict.empty], by simp [new]⟩

/-- The request of a barrier is no longer pending. -/
def without (si : SwitchInfo) (barrierXid xid : ℕ) : SwitchInfo :=
  { si with
    barriers := si.barriers.erase barrierXid
    xids := si.xids.erase xid
    results := si.results.erase xid }

theorem Ok.take (h : si.Ok isInstance) (hb : si.barriers.get? barrierXid = some xid) :
    ∃ r l, si.xids.get? xid = some r ∧ si.results.get? xid = some l ∧
      si.pending = r ::ₘ (si.without barrierXid xid).pending ∧
      (si.without barrierXid xid).Ok isInstance := by
  have hbarriers : (si.barriers.values : Multiset ℕ) =
      xid ::ₘ (si.barriers.erase barrierXid).values :=
    Multiset.coe_eq_coe.mpr (Dict.values_perm_of_get? hb)
  have hmem : xid ∈ si.xids.keys := by
    rw [← Multiset.mem_coe, ← h.barriers, hbarriers]
    exact Multiset.mem_cons_self _ _
  obtain ⟨r, hr⟩ := Option.isSome_iff_exists.mp (Dict.mem_keys_iff.1 hmem)
  have hsome := h.results xid
  rw [hr] at hsome
  obtain ⟨l, hl⟩ := Option.isSome_iff_exists.mp hsome
  have hpending : si.pending = r ::ₘ (si.without barrierXid xid).pending :=
    Multiset.coe_eq_coe.mpr (Dict.values_perm_of_get? hr)
  refine ⟨r, l, hr, hl, hpending, ?_, ?_, ?_, ?_⟩
  · have hkeys : (si.xids.keys : Multiset ℕ) = xid ::ₘ (si.xids.erase xid).keys :=
      Multiset.coe_eq_coe.mpr (Dict.keys_perm_of_get? hr)
    have heq := h.barriers
    rw [hbarriers, hkeys] at heq
    exact (Multiset.cons_inj_right xid).mp heq
  · intro xid'
    change ((si.results.erase xid).get? xid').isSome = ((si.xids.erase xid).get? xid').isSome
    rw [Dict.get?_erase, Dict.get?_erase]
    split_ifs
    · rfl
    · exact h.results xid'
  · intro r' hmem'
    exact h.versions r' (hpending ▸ Multiset.mem_cons_of_mem hmem')
  · intro xid' r' l' hr' hl'
    change (si.xids.erase xid).get? xid' = some r' at hr'
    change (si.results.erase xid).get? xid' = some l' at hl'
    rw [Dict.get?_erase] at hr' hl'
    split_ifs at hr' hl'
    exact h.collected xid' r' l' hr' hl'

theorem Ok.storeXid (h : si.Ok isInstance) (hversion : r.datapath.version = si.datapath.version)
    {si' : SwitchInfo} (hstore : si.storeXid xid barrierXid r = .ok si') :
    si'.Ok isInstance ∧ si'.pending = r ::ₘ si.pending ∧
      si'.barriers.get? barrierXid = some xid ∧ si'.datapath = si.datapath := by
  rw [SwitchInfo.storeXid] at hstore
  split_ifs at hstore with hnew
  obtain rfl := Except.ok.inj hstore
  simp only [not_or, Option.not_isSome_iff_eq_none] at hnew
  obtain ⟨hresults, hxids, hbarriers⟩ := hnew
  have hpending : ((si.xids.set xid r).values : Multiset SendMsgRequest) = r ::ₘ si.pending := by
    rw [Multiset.coe_eq_coe.mpr (Dict.values_set_perm si.xids xid r), Dict.erase_of_none hxids]
    rfl
  refine ⟨⟨?_, ?_, ?_, ?_⟩, hpending, Dict.get?_set_self .., rfl⟩
  · change ((si.barriers.set barrierXid xid).values : Multiset ℕ) = (si.xids.set xid r).keys
    rw [Multiset.coe_eq_coe.mpr (Dict.values_set_perm si.barriers barrierXid xid),
      Dict.erase_of_none hbarriers, Dict.keys_set_of_none hxids, ← Multiset.cons_coe, h.barriers,
      ← Multiset.coe_add, add_comm]
    rfl
  · intro xid'
    change ((si.results.set xid []).get? xid').isSome = ((si.xids.set xid r).get? xid').isSome
    rw [Dict.get?_set, Dict.get?_set]
    split_ifs
    · rfl
    · exact h.results xid'
  · intro r' hmem
    change r' ∈ ((si.xids.set xid r).values : Multiset SendMsgRequest) at hmem
    rw [hpending] at hmem
    obtain rfl | hmem := Multiset.mem_cons.mp hmem
    · exact hversion
    · exact h.versions r' hmem
  · intro xid' r' l hr hl
    change (si.xids.set xid r).get? xid' = some r' at hr
    change (si.results.set xid []).get? xid' = some l at hl
    rw [Dict.get?_set] at hr hl
    split_ifs at hr hl
    · obtain rfl := Option.some.inj hl
      simp
    · exact h.collected xid' r' l hr hl

end SwitchInfo

open SwitchInfo

variable {si info : SwitchInfo} {xid barrierXid : ℕ} {e : Exception}

theorem cancel_eq (h : info.Ok isInstance) (hb : info.barriers.get? barrierXid = some xid)
    (hw : Watches isInstance s (info.pending + w)) :
    ∃ r s', Service.cancel isInstance (info, s) barrierXid e =
        ((info.without barrierXid xid, s'), none) ∧
      info.pending = r ::ₘ (info.without barrierXid xid).pending ∧
      (info.without barrierXid xid).Ok isInstance ∧
      Watches isInstance s' ((info.without barrierXid xid).pending + w) ∧
      s'.switches = s.switches ∧ s'.replies = s.replies ++ [(.sendMsg r, .exception e)] := by
  obtain ⟨r, l, hr, hl, hpending, hok⟩ := h.take hb
  rw [hpending, Multiset.cons_add] at hw
  obtain ⟨s', hs', hw', hswitches, hreplies⟩ := hw.unobserve
  refine ⟨r, s'.replyToRequest (.sendMsg r) (.exception e), ?_, hpending, hok,
    hw'.congr rfl rfl rfl, hswitches, by rw [← hreplies]; rfl⟩
  simp only [Service.cancel, hb, hr, hl]
  change (Outcome.andThen (match r.isBarrier isInstance, r.replyCls with
    | false, some cls => s.unobserveMsg cls
    | _, _ => (s, none)) _).lift _ = _
  rw [hs']
  rfl

theorem cancelAll_eq (h : info.Ok isInstance) (hw : Watches isInstance s (info.pending + w)) :
    ∃ (rs : List SendMsgRequest) (s' : Service),
      Service.cancelAll isInstance info s e = (s', none) ∧
      (rs : Multiset SendMsgRequest) = info.pending ∧ Watches isInstance s' w ∧
      s'.switches = s.switches ∧
      s'.replies = s.replies ++ rs.map fun r => (.sendMsg r, .exception e) := by
  have hloop (l : List ℕ) (info : SwitchInfo) (s : Service) (hl : info.barriers.keys = l)
      (h : info.Ok isInstance) (hw : Watches isInstance s (info.pending + w)) :
      ∃ (rs : List SendMsgRequest) (s' : Service),
        (Outcome.forEach (fun x barrierXid => Service.cancel isInstance x barrierXid e) (info, s)
          l).lift Prod.snd = (s', none) ∧
        (rs : Multiset SendMsgRequest) = info.pending ∧ Watches isInstance s' w ∧
        s'.switches = s.switches ∧
        s'.replies = s.replies ++ rs.map fun r => (.sendMsg r, .exception e) := by
    induction l generalizing info s with
    | nil =>
      have hentries : info.barriers.entries = [] := List.map_eq_nil_iff.mp hl
      have hkeys : info.xids.keys = [] := by
        rw [← Multiset.coe_eq_zero, ← h.barriers, Dict.values, hentries]
        rfl
      have hnone : info.pending = 0 := by
        rw [SwitchInfo.pending, Dict.values, List.map_eq_nil_iff.mp hkeys]
        rfl
      rw [hnone, zero_add] at hw
      exact ⟨[], s, rfl, hnone.symm, hw, rfl, (List.append_nil _).symm⟩
    | cons barrierXid l ih =>
      have hmem : barrierXid ∈ info.barriers.keys := hl ▸ List.mem_cons_self
      obtain ⟨xid, hb⟩ := Option.isSome_iff_exists.mp (Dict.mem_keys_iff.1 hmem)
      obtain ⟨r, s₁, heq, hpending, hok, hw₁, hswitches, hreplies⟩ := cancel_eq (e := e) h hb hw
      have hkeys : (info.without barrierXid xid).barriers.keys = l := by
        change (info.barriers.erase barrierXid).keys = l
        rw [Dict.keys_erase, hl, List.erase_cons_head]
      obtain ⟨rs, s', heq', hrs, hw', hswitches', hreplies'⟩ := ih _ s₁ hkeys hok hw₁
      refine ⟨r :: rs, s', ?_, ?_, hw', hswitches'.trans hswitches, ?_⟩
      · rw [Outcome.forEach, heq, Outcome.andThen_none]
        exact heq'
      · rw [← Multiset.cons_coe, hrs, hpending]
      · rw [hreplies', hreplies, List.append_assoc]
        rfl
  exact hloop _ info s rfl h hw

/-- The requests that are pending among the switches. -/
def pendingIn (d : Dict ℕ SwitchInfo) : Multiset SendMsgRequest :=
  ((d.values : Multiset SwitchInfo).map pending).sum

variable {d : Dict ℕ SwitchInfo} {id : ℕ}

theorem pendingIn_set (d : Dict ℕ SwitchInfo) (id : ℕ) (si : SwitchInfo) :
    pendingIn (d.set id si) = si.pending + pendingIn (d.erase id) := by
  rw [pendingIn, Multiset.coe_eq_coe.mpr (Dict.values_set_perm d id si), ← Multiset.cons_coe,
    Multiset.map_cons, Multiset.sum_cons, pendingIn]

theorem pendingIn_of_get? (h : d.get? id = some si) :
    pendingIn d = si.pending + pendingIn (d.erase id) := by
  rw [pendingIn, Multiset.coe_eq_coe.mpr (Dict.values_perm_of_get? h), ← Multiset.cons_coe,
    Multiset.map_cons, Multiset.sum_cons, pendingIn]

/-! ## What a request is answered -/

/-- The messages of the class a request asks for. -/
def Answers (isInstance : MsgCls → MsgCls → Bool) (r : SendMsgRequest) (m : Msg) : Prop :=
  ∃ cls, r.replyCls = some cls ∧ isInstance m.cls cls

/-- The replies a request may get. -/
def Suits (isInstance : MsgCls → MsgCls → Bool) (r : SendMsgRequest) : Reply → Prop
  | .datapaths _ | .datapath _ => False
  | .none => r.replyMulti = false
  | .msg m =>
    (r.isBarrier isInstance ∧ r.replyCls = some (barrierReply r.datapath.version)) ∨
      (r.replyMulti = false ∧ isError m = false ∧ Answers isInstance r m)
  | .msgs l => r.replyMulti ∧ ∀ m ∈ l, isError m = false ∧ Answers isInstance r m
  | .exception (.unexpectedMultiReply l) =>
    r.replyMulti = false ∧ 1 < l.length ∧ ∀ m ∈ l, isError m = false ∧ Answers isInstance r m
  | .exception (.ofError l) =>
    (∃ m ∈ l, isError m) ∧ ∀ m ∈ l, isError m ∨ Answers isInstance r m
  | .exception (.invalidDatapath _) => True

theorem suits_replyOf {msg : Msg} {l : List Msg}
    (hversion : msg.datapath.version = r.datapath.version)
    (hl : ∀ m ∈ l, isError m ∨ Answers isInstance r m) :
    Suits isInstance r (Service.replyOf r (r.isBarrier isInstance) msg l) := by
  unfold Service.replyOf
  rw [hversion]
  by_cases hbarrier : r.isBarrier isInstance ∧ r.replyCls = some (barrierReply r.datapath.version)
  · rw [if_pos hbarrier]
    exact .inl hbarrier
  rw [if_neg hbarrier]
  by_cases herror : l.any isError
  · rw [if_pos herror]
    exact ⟨by simpa using herror, hl⟩
  rw [if_neg herror]
  have hanswers (m : Msg) (hm : m ∈ l) : isError m = false ∧ Answers isInstance r m := by
    simp only [List.any_eq_true, not_exists, not_and, Bool.not_eq_true] at herror
    exact ⟨herror m hm, (hl m hm).resolve_left (by simp [herror m hm])⟩
  by_cases hmulti : r.replyMulti
  · rw [if_pos hmulti]
    exact ⟨hmulti, hanswers⟩
  rw [if_neg hmulti]
  rw [Bool.not_eq_true] at hmulti
  match l with
  | [] => exact hmulti
  | [m] => exact .inr ⟨hmulti, hanswers m (List.mem_singleton_self m)⟩
  | m :: m' :: l => exact ⟨hmulti, by simp, hanswers⟩

/-! ## Handlers -/

/-- The switches are in order, what the pending and the failed requests wait for is observed, and
each reply suits its request. -/
structure Fine (isInstance : MsgCls → MsgCls → Bool) (s : Service)
    (failed : Multiset SendMsgRequest) : Prop where
  infos : ∀ id si, s.switches.get? id = some si → si.Ok isInstance
  watched : Watches isInstance s (pendingIn s.switches + failed)
  suits : ∀ r rep, (Request.sendMsg r, rep) ∈ s.replies → Suits isInstance r rep

/-- The requests that were replied to or are pending. -/
def Service.known (s : Service) : Multiset Request :=
  (s.replies.map Prod.fst : Multiset Request) + (pendingIn s.switches).map .sendMsg

variable {f : Multiset SendMsgRequest}

theorem suits_append_canceled {rs : List SendMsgRequest} {replies : List (Request × Reply)}
    (h : ∀ r rep, (Request.sendMsg r, rep) ∈ replies → Suits isInstance r rep) {dpid : Option ℕ}
    (r : SendMsgRequest) (rep : Reply) (hmem : (Request.sendMsg r, rep) ∈ replies ++
      rs.map fun r => (.sendMsg r, .exception (.invalidDatapath dpid))) :
    Suits isInstance r rep := by
  obtain hmem | hmem := List.mem_append.mp hmem
  · exact h r rep hmem
  · obtain ⟨r', -, heq⟩ := List.mem_map.mp hmem
    obtain ⟨-, rfl⟩ := Prod.mk.inj heq
    trivial

/-- The switch of a datapath is forgotten, or known anew, and its requests are canceled. -/
theorem Fine.cancelAll (h : Fine isInstance s f) (hget : s.switches.get? id = some info)
    (hinfos : ∀ id si, d.get? id = some si → si.Ok isInstance)
    (hd : pendingIn d = pendingIn (s.switches.erase id)) (dpid : Option ℕ) :
    ∃ s', Service.cancelAll isInstance info { s with switches := d } (.invalidDatapath dpid) =
      (s', none) ∧ Fine isInstance s' f ∧ s'.known = s.known ∧ s'.switches = d := by
  have hw : Watches isInstance { s with switches := d }
      (info.pending + (pendingIn (s.switches.erase id) + f)) := by
    rw [← add_assoc, ← pendingIn_of_get? hget]
    exact h.watched.congr rfl rfl rfl
  obtain ⟨rs, s', heq, hrs, hw', hswitches, hreplies⟩ :=
    cancelAll_eq (e := .invalidDatapath dpid) (h.infos id info hget) hw
  refine ⟨s', heq, ⟨?_, ?_, ?_⟩, ?_, hswitches⟩
  · rw [hswitches]
    exact hinfos
  · rw [hswitches, hd]
    exact hw'
  · rw [hreplies]
    exact suits_append_canceled h.suits
  · rw [Service.known, hreplies, hswitches, hd, Service.known, pendingIn_of_get? hget,
      Multiset.map_add, ← hrs, List.map_append, ← Multiset.coe_add, Multiset.map_coe, List.map_map]
    exact add_assoc _ _ _

theorem Fine.handleDead (h : Fine isInstance s f) (datapath : Datapath) :
    ∃ s', s.handleDead isInstance datapath = (s', none) ∧ Fine isInstance s' f ∧
      s'.known = s.known := by
  rw [Service.handleDead]
  cases datapath.id with
  | none => exact ⟨s, rfl, h, rfl⟩
  | some id =>
    cases hget : s.switches.get? id with
    | none => exact ⟨s, by simp only [hget], h, rfl⟩
    | some info =>
      simp only [hget]
      split_ifs
      · have hinfos (id' : ℕ) (si : SwitchInfo)
            (hsi : (s.switches.erase id).get? id' = some si) : si.Ok isInstance := by
          rw [Dict.get?_erase] at hsi
          split_ifs at hsi
          exact h.infos id' si hsi
        obtain ⟨s', heq, hfine, hknown, -⟩ := h.cancelAll hget hinfos rfl (some id)
        exact ⟨s', heq, hfine, hknown⟩
      · exact ⟨s, rfl, h, rfl⟩

theorem pending_new (datapath : Datapath) : (SwitchInfo.new datapath).pending = 0 := rfl

theorem Fine.switchFeatures (h : Fine isInstance s f) {datapath : Datapath}
    (hid : datapath.id.isSome) : ∃ s', s.switchFeatures isInstance datapath = (s', none) ∧
      Fine isInstance s' f ∧ s'.known = s.known := by
  obtain ⟨id, hid⟩ := Option.isSome_iff_exists.mp hid
  have hpending :
      pendingIn (s.switches.set id (.new datapath)) = pendingIn (s.switches.erase id) := by
    rw [pendingIn_set, pending_new, zero_add]
  have hinfos (id' : ℕ) (si : SwitchInfo)
      (hsi : (s.switches.set id (.new datapath)).get? id' = some si) : si.Ok isInstance := by
    rw [Dict.get?_set] at hsi
    split_ifs at hsi
    · obtain rfl := Option.some.inj hsi
      exact ok_new datapath
    · exact h.infos id' si hsi
  simp only [Service.switchFeatures, hid]
  cases hget : s.switches.get? id with
  | none =>
    rw [Dict.erase_of_none hget] at hpending
    refine ⟨_, rfl, ⟨hinfos, ?_, h.suits⟩, ?_⟩
    · change Watches isInstance _ (pendingIn (s.switches.set id (.new datapath)) + f)
      rw [hpending]
      exact h.watched.congr rfl rfl rfl
    · rw [Service.known, Service.known, hpending]
  | some info =>
    obtain ⟨s', heq, hfine, hknown, -⟩ := h.cancelAll hget hinfos hpending (some id)
    exact ⟨s', heq, hfine, hknown⟩

theorem Fine.infos_set (h : Fine isInstance s f) (hsi : si.Ok isInstance) (id' : ℕ)
    (si' : SwitchInfo) (hget : (s.switches.set id si).get? id' = some si') : si'.Ok isInstance := by
  rw [Dict.get?_set] at hget
  split_ifs at hget
  · obtain rfl := Option.some.inj hget
    exact hsi
  · exact h.infos id' si' hget

theorem suits_append {replies : List (Request × Reply)} {req : Request} {rep : Reply}
    (h : ∀ r rep, (Request.sendMsg r, rep) ∈ replies → Suits isInstance r rep)
    (hnew : ∀ r, req = .sendMsg r → Suits isInstance r rep) (r' : SendMsgRequest) (rep' : Reply)
    (hmem : (Request.sendMsg r', rep') ∈ replies ++ [(req, rep)]) : Suits isInstance r' rep' := by
  obtain hmem | hmem := List.mem_append.mp hmem
  · exact h r' rep' hmem
  · obtain ⟨rfl, rfl⟩ := Prod.mk.inj (List.mem_singleton.mp hmem)
    exact hnew r' rfl

/-- The datapath is of the version of the one that is registered under its id. -/
def SameVersion (s : Service) (datapath : Datapath) : Prop :=
  ∀ id si, datapath.id = some id → s.switches.get? id = some si →
    si.datapath.version = datapath.version

instance (s : Service) (datapath : Datapath) : Decidable (SameVersion s datapath) :=
  decidable_of_iff
    (∀ x ∈ datapath.id.bind s.switches.get?, x.datapath.version = datapath.version) (by
      simp only [SameVersion, Option.mem_def, Option.bind_eq_some_iff]
      exact ⟨fun h id si hid hget => h si ⟨id, hid, hget⟩,
        fun h si ⟨id, hid, hget⟩ => h id si hid hget⟩)

theorem Fine.handleBarrier (h : Fine isInstance s f) {msg : Msg}
    (hversion : SameVersion s msg.datapath) :
    ∃ s', s.handleBarrier isInstance msg = (s', none) ∧ Fine isInstance s' f ∧
      s'.known = s.known := by
  rw [Service.handleBarrier]
  cases hid : msg.datapath.id with
  | none => exact ⟨s, rfl, h, rfl⟩
  | some id =>
    simp only [Option.bind_some]
    cases hget : s.switches.get? id with
    | none => exact ⟨s, rfl, h, rfl⟩
    | some si =>
      simp only [Option.map_some]
      cases hb : si.barriers.get? msg.xid with
      | none => exact ⟨s, rfl, h, rfl⟩
      | some xid =>
        obtain ⟨r, l, hr, hl, hpending, hok⟩ := (h.infos id si hget).take hb
        have hmem : r ∈ si.pending := hpending ▸ Multiset.mem_cons_self _ _
        have hsame : r.datapath.version = msg.datapath.version :=
          ((h.infos id si hget).versions r hmem).trans (hversion id si hid hget)
        have hsplit : pendingIn s.switches =
            r ::ₘ pendingIn (s.switches.set id (si.without msg.xid xid)) := by
          rw [pendingIn_of_get? hget, hpending, pendingIn_set, Multiset.cons_add]
        have hw : Watches isInstance
            { s with switches := s.switches.set id (si.without msg.xid xid) }
            (r ::ₘ (pendingIn (s.switches.set id (si.without msg.xid xid)) + f)) := by
          rw [← Multiset.cons_add, ← hsplit]
          exact h.watched.congr rfl rfl rfl
        obtain ⟨s', hs', hw', hswitches, hreplies⟩ := hw.unobserve
        simp only [hl, hr]
        rw [← hsame]
        refine ⟨s'.replyToRequest (.sendMsg r)
          (Service.replyOf r (r.isBarrier isInstance) msg l), ?_, ⟨?_, ?_, ?_⟩, ?_⟩
        · change Outcome.andThen (match r.isBarrier isInstance, r.replyCls with
            | false, some cls => Service.unobserveMsg
              { s with switches := s.switches.set id (si.without msg.xid xid) } cls
            | _, _ =>
              ({ s with switches := s.switches.set id (si.without msg.xid xid) }, none)) _ = _
          rw [hs']
          rfl
        · change ∀ id' si', s'.switches.get? id' = some si' → _
          rw [hswitches]
          exact h.infos_set hok
        · change Watches isInstance _ (pendingIn s'.switches + f)
          rw [hswitches]
          exact hw'.congr rfl rfl rfl
        · change ∀ r rep, (Request.sendMsg r, rep) ∈ s'.replies ++ [_] → _
          rw [hreplies]
          refine suits_append h.suits ?_
          rintro _ ⟨⟩
          refine suits_replyOf hsame.symm fun m hm => ?_
          exact ((h.infos id si hget).collected xid r l hr hl m hm).2
        · change (((s'.replies ++ [_]).map Prod.fst : List Request) : Multiset Request) +
            (pendingIn s'.switches).map .sendMsg = _
          rw [hswitches, hreplies, Service.known, hsplit, Multiset.map_cons, List.map_append,
            ← Multiset.coe_add, Multiset.add_cons, ← Multiset.singleton_add]
          change _ + ({Request.sendMsg r} : Multiset Request) + _ = _
          abel

theorem Fine.handleReply (h : Fine isInstance s f) (msg : Msg) :
    Fine isInstance (s.handleReply isInstance msg) f ∧
      (s.handleReply isInstance msg).known = s.known := by
  rw [Service.handleReply]
  cases msg.datapath.id with
  | none => exact ⟨h, rfl⟩
  | some id =>
    simp only [Option.bind_some]
    cases hget : s.switches.get? id with
    | none => exact ⟨h, rfl⟩
    | some si =>
      simp only [Option.map_some]
      cases hr : si.xids.get? msg.xid with
      | none => exact ⟨h, rfl⟩
      | some r =>
        simp only
        split_ifs with hother
        · exact ⟨h, rfl⟩
        · have hok := h.infos id si hget
          cases hl : si.results.get? msg.xid with
          | none => exact ⟨h, rfl⟩
          | some l =>
            have hnew : isError msg ∨ Answers isInstance r msg := by
              by_cases herror : isError msg
              · exact .inl herror
              · rw [Bool.not_eq_true] at herror
                cases hcls : r.replyCls with
                | none => exact absurd ⟨herror, by simp [hcls]⟩ hother
                | some cls => exact .inr ⟨cls, hcls, by simpa [herror, hcls] using hother⟩
            have hok' : ({ si with results := si.results.set msg.xid (l ++ [msg]) } :
                SwitchInfo).Ok isInstance := by
              refine ⟨hok.barriers, fun xid => ?_, hok.versions, fun xid r' l' hr' hl' m hm => ?_⟩
              · change ((si.results.set msg.xid (l ++ [msg])).get? xid).isSome = _
                rw [Dict.get?_set]
                split_ifs with hxid
                · rw [← hxid, hr]
                  rfl
                · exact hok.results xid
              · change (si.results.set msg.xid (l ++ [msg])).get? xid = some l' at hl'
                rw [Dict.get?_set] at hl'
                split_ifs at hl' with hxid
                · subst hxid
                  rw [hr] at hr'
                  obtain rfl := Option.some.inj hr'
                  obtain rfl := Option.some.inj hl'
                  obtain hm | hm := List.mem_append.mp hm
                  · exact hok.collected _ r l hr hl m hm
                  · obtain rfl := List.mem_singleton.mp hm
                    exact ⟨rfl, hnew⟩
                · exact hok.collected xid r' l' hr' hl' m hm
            have hpending : pendingIn (s.switches.set id
                { si with results := si.results.set msg.xid (l ++ [msg]) }) =
                pendingIn s.switches := by
              rw [pendingIn_set, pendingIn_of_get? hget]
              rfl
            refine ⟨⟨h.infos_set hok', ?_, h.suits⟩, ?_⟩
            · change Watches isInstance _ (pendingIn (s.switches.set id _) + f)
              rw [hpending]
              exact h.watched.congr rfl rfl rfl
            · rw [Service.known, Service.known, hpending]

theorem Fine.handleGetDatapath (h : Fine isInstance s f) (req : ℕ) (dpid : Option ℕ) :
    Fine isInstance (s.handleGetDatapath req dpid) f ∧
      (s.handleGetDatapath req dpid).known = s.known + {.getDatapath req dpid} := by
  refine ⟨⟨h.infos, h.watched.congr rfl rfl rfl, ?_⟩, ?_⟩
  · refine suits_append h.suits ?_
    rintro r ⟨⟩
  · change (((s.replies ++ [_]).map Prod.fst : List Request) : Multiset Request) +
      (pendingIn s.switches).map .sendMsg = _
    rw [Service.known, List.map_append, ← Multiset.coe_add]
    change _ + ({Request.getDatapath req dpid} : Multiset Request) + _ = _
    abel

/-- A request that was stored is pending, or canceled. -/
theorem Fine.cancelUnlessSent (h : Fine isInstance s f) {s₁ : Service} (hrest : s.SameRest s₁)
    (hw : Watches isInstance s₁ (r ::ₘ (pendingIn s.switches + f)))
    (hget : s.switches.get? id = some info) (hpending : si.pending = r ::ₘ info.pending)
    (hok : si.Ok isInstance) (hb : si.barriers.get? barrierXid = some xid) (sent : Bool) :
    ∃ s', s₁.cancelUnlessSent isInstance id si barrierXid sent = (s', none) ∧
      Fine isInstance s' f ∧ s'.known = s.known + {.sendMsg r} := by
  obtain ⟨hswitches, hreplies⟩ := hrest
  rw [pendingIn_of_get? hget] at hw
  have hinfos {s' : Service} {si : SwitchInfo} (hs' : s'.switches = s.switches)
      (hok : si.Ok isInstance) (id' : ℕ) (si' : SwitchInfo)
      (hsi : (s'.switches.set id si).get? id' = some si') : si'.Ok isInstance := by
    rw [hs'] at hsi
    exact h.infos_set hok id' si' hsi
  rw [Service.cancelUnlessSent]
  split_ifs
  · refine ⟨_, rfl, ⟨hinfos hswitches hok, ?_, ?_⟩, ?_⟩
    · change Watches isInstance _ (pendingIn (s₁.switches.set id si) + f)
      rw [hswitches, pendingIn_set, hpending, Multiset.cons_add, Multiset.cons_add]
      exact hw.congr rfl rfl rfl
    · change ∀ r rep, (Request.sendMsg r, rep) ∈ s₁.replies → _
      rw [hreplies]
      exact h.suits
    · rw [Service.known, Service.known, hreplies, pendingIn_of_get? hget]
      change _ + (pendingIn (s₁.switches.set id si)).map Request.sendMsg = _
      rw [hswitches, pendingIn_set, hpending, Multiset.cons_add, Multiset.map_cons,
        ← Multiset.singleton_add]
      abel
  · have hw' : Watches isInstance s₁ (si.pending + (pendingIn (s.switches.erase id) + f)) := by
      rw [hpending, Multiset.cons_add, ← add_assoc]
      exact hw
    obtain ⟨r', s', heq, htake, hok', hw₂, hswitches', hreplies'⟩ :=
      cancel_eq (e := .invalidDatapath (some id)) hok hb hw'
    rw [heq]
    refine ⟨_, rfl, ⟨hinfos (hswitches'.trans hswitches) hok', ?_, ?_⟩, ?_⟩
    · change Watches isInstance _ (pendingIn (s'.switches.set id _) + f)
      rw [hswitches', hswitches, pendingIn_set, add_assoc]
      exact hw₂.congr rfl rfl rfl
    · change ∀ r rep, (Request.sendMsg r, rep) ∈ s'.replies → _
      rw [hreplies', hreplies]
      refine suits_append h.suits ?_
      rintro _ ⟨⟩
      trivial
    · rw [Service.known, Service.known, pendingIn_of_get? hget]
      change ((s'.replies.map Prod.fst : List Request) : Multiset Request) +
        (pendingIn (s'.switches.set id (si.without barrierXid xid))).map .sendMsg = _
      rw [hswitches', hswitches, hreplies', hreplies, pendingIn_set, List.map_append,
        ← Multiset.coe_add, Multiset.map_add, Multiset.map_add]
      have hsum := congrArg (Multiset.map Request.sendMsg) (htake.symm.trans hpending)
      rw [Multiset.map_cons, Multiset.map_cons, ← Multiset.singleton_add,
        ← Multiset.singleton_add] at hsum
      change _ + ({Request.sendMsg r'} : Multiset Request) + (_ + _) = _
      rw [← add_assoc, add_assoc _ _ (Multiset.map _ (si.without barrierXid xid).pending), hsum]
      abel

/-- A request is answered, pending, or failed with an assertion. -/
theorem Fine.handleSendMsg (h : Fine isInstance s f)
    (hown : ∀ ev, r.waitsFor isInstance = some ev → own ev = [])
    (hversion : SameVersion s r.datapath) (xid : ℕ) (sent barrierSent : Bool) :
    (∃ s', s.handleSendMsg isInstance r xid sent barrierSent = (s', none) ∧ Fine isInstance s' f ∧
      s'.known = s.known + {.sendMsg r}) ∨
    (∃ s', s.handleSendMsg isInstance r xid sent barrierSent = (s', some .assertionError) ∧
      Fine isInstance s' (r ::ₘ f) ∧ s'.known = s.known) := by
  have hunknown : Fine isInstance (s.replyToRequest (.sendMsg r)
        (.exception (.invalidDatapath r.datapath.id))) f ∧
      (s.replyToRequest (.sendMsg r) (.exception (.invalidDatapath r.datapath.id))).known =
        s.known + {.sendMsg r} := by
    refine ⟨⟨h.infos, h.watched.congr rfl rfl rfl, suits_append h.suits ?_⟩, ?_⟩
    · rintro _ ⟨⟩
      trivial
    · change (((s.replies ++ [_]).map Prod.fst : List Request) : Multiset Request) +
        (pendingIn s.switches).map .sendMsg = _
      rw [Service.known, List.map_append, ← Multiset.coe_add]
      change _ + ({Request.sendMsg r} : Multiset Request) + _ = _
      abel
  have hstored {s₁ : Service} {si : SwitchInfo} {id xid barrierXid : ℕ} (hrest : s.SameRest s₁)
      (hw : Watches isInstance s₁ (r ::ₘ (pendingIn s.switches + f)))
      (hid : r.datapath.id = some id) (hget : s.switches.get? id = some si) (sent : Bool) :
      (∃ s', (match si.storeXid xid barrierXid r with
        | .error e => (s₁, some e)
        | .ok si => s₁.cancelUnlessSent isInstance id si barrierXid sent) = (s', none) ∧
        Fine isInstance s' f ∧ s'.known = s.known + {.sendMsg r}) ∨
      (∃ s', (match si.storeXid xid barrierXid r with
        | .error e => (s₁, some e)
        | .ok si => s₁.cancelUnlessSent isInstance id si barrierXid sent) =
          (s', some .assertionError) ∧ Fine isInstance s' (r ::ₘ f) ∧ s'.known = s.known) := by
    obtain ⟨hswitches, hreplies⟩ := hrest
    cases hstore : si.storeXid xid barrierXid r with
    | error e =>
      have he : e = .assertionError := by
        rw [SwitchInfo.storeXid] at hstore
        split_ifs at hstore
        exact (Except.error.inj hstore).symm
      refine .inr ⟨s₁, by rw [he], ⟨?_, ?_, ?_⟩, ?_⟩
      · rw [hswitches]
        exact h.infos
      · rw [hswitches, Multiset.add_cons]
        exact hw
      · rw [hreplies]
        exact h.suits
      · rw [Service.known, hswitches, hreplies, Service.known]
    | ok si' =>
      obtain ⟨hok, hpending, hb, -⟩ :=
        (h.infos id si hget).storeXid (hversion id si hid hget).symm hstore
      exact .inl (h.cancelUnlessSent ⟨hswitches, hreplies⟩ hw hget hpending hok hb sent)
  rw [Service.handleSendMsg]
  cases hid : r.datapath.id with
  | none =>
    rw [hid] at hunknown
    exact .inl ⟨_, rfl, hunknown⟩
  | some id =>
    simp only [Option.bind_some]
    cases hget : s.switches.get? id with
    | none =>
      rw [hid] at hunknown
      exact .inl ⟨_, rfl, hunknown⟩
    | some si =>
      simp only [Option.map_some]
      cases hbarrier : isInstance r.cls (barrierRequest r.datapath.version) with
      | true =>
        have hnone : r.waitsFor isInstance = none := if_pos hbarrier
        exact hstored ⟨rfl, rfl⟩ (h.watched.cons_of_none hnone) hid hget barrierSent
      | false =>
        have hwaits : r.waitsFor isInstance = r.replyCls.map evCls := by
          rw [SendMsgRequest.waitsFor, SendMsgRequest.isBarrier, hbarrier]
          rfl
        cases hcls : r.replyCls with
        | none =>
          rw [hcls] at hwaits
          exact hstored ⟨rfl, rfl⟩ (h.watched.cons_of_none hwaits) hid hget _
        | some cls =>
          rw [hcls] at hwaits
          obtain ⟨hw, hrest⟩ := h.watched.observeMsg hwaits (hown _ hwaits)
          exact hstored hrest hw hid hget _

/-! ## Runs -/

/-- A request waits for no event that the service handles of its own, and its datapath, or that of
a message, is of the version that is registered. -/
def Proper (isInstance : MsgCls → MsgCls → Bool) (s : State) : Event → Prop
  | .sendMsg r _ _ _ => (∀ ev, r.waitsFor isInstance = some ev → own ev = []) ∧
    SameVersion s.service r.datapath
  | .message msg =>
    if evCls msg.cls = evSwitchFeatures then msg.datapath.id.isSome = true
    else SameVersion s.service msg.datapath
  | _ => True

instance (isInstance : MsgCls → MsgCls → Bool) (s : State) : (e : Event) →
    Decidable (Proper isInstance s e)
  | .sendMsg r _ _ _ =>
    inferInstanceAs (Decidable ((∀ ev ∈ r.waitsFor isInstance, own ev = []) ∧
      SameVersion s.service r.datapath))
  | .message msg =>
    inferInstanceAs (Decidable (if evCls msg.cls = evSwitchFeatures then
      msg.datapath.id.isSome = true else SameVersion s.service msg.datapath))
  | .stateDead _ => inferInstanceAs (Decidable True)
  | .getDatapath _ _ => inferInstanceAs (Decidable True)

/-- Each request that was received was replied to, is pending, or has failed, and only the handlers
of those raised. -/
structure Consistent (isInstance : MsgCls → MsgCls → Bool) (s : State) : Prop where
  fine : Fine isInstance s.service s.failed
  accounted : (s.received : Multiset Request) =
    s.service.known + (s.failed : Multiset SendMsgRequest).map .sendMsg
  raised : s.raised = List.replicate s.failed.length .assertionError

theorem consistent_start : Consistent isInstance start :=
  ⟨⟨by simp [start, Service.init], watches_init, by simp [start, Service.init]⟩, rfl, rfl⟩

variable {t : State}

theorem Consistent.logged (h : Consistent isInstance t) {x : Outcome Service}
    (hx : ∃ s', x = (s', none) ∧ Fine isInstance s' t.failed ∧ s'.known = t.service.known) :
    Consistent isInstance (t.logged x) := by
  obtain ⟨s', rfl, hfine, hknown⟩ := hx
  refine ⟨hfine, ?_, ?_⟩
  · change (t.received : Multiset Request) = s'.known + _
    rw [hknown]
    exact h.accounted
  · change t.raised ++ [] = _
    rw [List.append_nil]
    exact h.raised

/-- The handlers of a message are those of the service, or the one that collects replies. -/
theorem handlers_cases (h : Consistent isInstance t) (ev : String) :
    (t.service.eventHandlers.get? ev).getD [] = own ev ∨
      (own ev = [] ∧ (t.service.eventHandlers.get? ev).getD [] = [.handleReply]) := by
  have hw := h.fine.watched
  have hhandled := hw.handled ev
  split_ifs at hhandled with hzero
  · exact .inl (hhandled.trans (List.append_nil _))
  · obtain ⟨r, hmem, hr⟩ := Multiset.countP_pos.mp (Nat.pos_of_ne_zero hzero)
    have hown := hw.apart r hmem ev hr
    exact .inr ⟨hown, hhandled.trans (by rw [hown]; rfl)⟩

theorem Consistent.step (h : Consistent isInstance t) (e : Event) (hp : Proper isInstance t e) :
    Consistent isInstance (step isInstance t e) := by
  cases e with
  | stateDead datapath => exact h.logged (h.fine.handleDead datapath)
  | getDatapath req dpid =>
    obtain ⟨hfine, hknown⟩ := h.fine.handleGetDatapath req dpid
    refine ⟨hfine, ?_, h.raised⟩
    change ((t.received ++ [Request.getDatapath req dpid] : List Request) : Multiset Request) =
      (t.service.handleGetDatapath req dpid).known +
        (t.failed : Multiset SendMsgRequest).map .sendMsg
    rw [hknown, ← Multiset.coe_add, h.accounted]
    change _ + ({Request.getDatapath req dpid} : Multiset Request) = _
    abel
  | sendMsg r xid sent barrierSent =>
    obtain ⟨s', heq, hfine, hknown⟩ | ⟨s', heq, hfine, hknown⟩ :=
      h.fine.handleSendMsg hp.1 hp.2 xid sent barrierSent
    · simp only [OfctlService.step, heq, State.logged]
      refine ⟨hfine, ?_, ?_⟩
      · change ((t.received ++ [Request.sendMsg r] : List Request) : Multiset Request) =
          s'.known + (t.failed : Multiset SendMsgRequest).map .sendMsg
        rw [hknown, ← Multiset.coe_add, h.accounted]
        change _ + ({Request.sendMsg r} : Multiset Request) = _
        abel
      · exact (List.append_nil _).trans h.raised
    · simp only [OfctlService.step, heq, State.logged]
      refine ⟨?_, ?_, ?_⟩
      · change Fine isInstance s' ((t.failed ++ [r] : List SendMsgRequest) : Multiset _)
        rw [← Multiset.coe_add, add_comm]
        exact hfine
      · change ((t.received ++ [Request.sendMsg r] : List Request) : Multiset Request) =
          s'.known + ((t.failed ++ [r] : List SendMsgRequest) : Multiset _).map .sendMsg
        rw [hknown, ← Multiset.coe_add, h.accounted, ← Multiset.coe_add, Multiset.map_add]
        change _ + ({Request.sendMsg r} : Multiset Request) =
          _ + (_ + ({Request.sendMsg r} : Multiset Request))
        abel
      · change t.raised ++ [.assertionError] =
          List.replicate (t.failed ++ [r]).length .assertionError
        rw [h.raised, List.length_append, List.length_singleton, List.replicate_succ']
  | message msg =>
    have hreply : Consistent isInstance
        (t.logged (t.service.call isInstance msg .handleReply)) := by
      obtain ⟨hfine, hknown⟩ := h.fine.handleReply msg
      exact h.logged ⟨_, rfl, hfine, hknown⟩
    simp only [OfctlService.step]
    simp only [Proper] at hp
    obtain hhandlers | ⟨-, hhandlers⟩ := handlers_cases h (evCls msg.cls)
    · obtain ⟨-, hown⟩ | ⟨hev, hown⟩ | ⟨hev, hown⟩ | ⟨-, hown⟩ := own_cases (evCls msg.cls) <;>
        rw [hhandlers, hown]
      · exact hreply
      · rw [if_neg (by rw [hev]; decide)] at hp
        exact h.logged (h.fine.handleBarrier hp)
      · rw [if_pos hev] at hp
        exact h.logged (h.fine.switchFeatures hp)
      · exact h
    · rw [hhandlers]
      exact hreply

/-- A switch of OpenFlow 1.3 is asked for its ports, answers with them, and then the barrier. -/
def portDescRun : List Event :=
  let dp : Datapath := ⟨0, some 1, 4⟩
  let desc : MsgCls := ⟨4, "OFPPortDescStatsReply"⟩
  [.message ⟨⟨4, "OFPSwitchFeatures"⟩, 1, dp, []⟩,
    .sendMsg ⟨0, ⟨4, "OFPPortDescStatsRequest"⟩, dp, some desc, true⟩ 6 true true,
    .message ⟨desc, 7, dp, [0]⟩,
    .message ⟨barrierReply 4, 8, dp, []⟩]

end Ryu.OfctlService
