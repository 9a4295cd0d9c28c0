import Mathlib.Data.Nat.Bitwise
import Ryu.Lib.Dict
import Ryu.Lib.Python
import Ryu.Lib.Run

/-! # Statistics requests

Any number of `send_stats_request` on one datapath wait at the same time, each for the replies that
carry its xid. The handler appends a reply to the messages of the request and, unless more are to
follow, removes its entry and wakes it. A request that runs into its timeout removes the entry
itself. Replies behind the last one find no entry any more, so that a request returns what has
arrived up to its first reply that none follow.
-/

namespace Ryu.StatsRequest

/-- The versions that the handler tells apart. -/
inductive OfpVersion
  | v10
  | v12
  | v13
  | other
  deriving DecidableEq, Repr

/-- `OFPSF_REPLY_MORE` or `OFPMPF_REPLY_MORE`. -/
def replyMore : OfpVersion → ℕ
  | .v10 | .v12 | .v13 => 1
  | .other => 0

structure Msg where
  xid : ℕ
  flags : ℕ
  body : List UInt8
  deriving DecidableEq, Repr

/-- No reply follows. -/
def Msg.isLast (v : OfpVersion) (m : Msg) : Bool := m.flags &&& replyMore v = 0

/-- A call of `send_stats_request`. What has arrived for it until it returned is noted beside. -/
structure Request where
  xid : ℕ
  isSet : Bool
  msgs : List Msg
  previousLen : ℕ
  returned : Bool
  given : List Msg
  arrived : List Msg
  deriving DecidableEq, Repr

/-- The datapath draws xids. The entries of `waiters` are the requests by their positions, and
the exceptions are those of the handler and of the requests. -/
structure State where
  version : OfpVersion
  xid : ℕ
  waiters : Option (Dict ℕ ℕ)
  requests : List Request
  raised : List PyError

def maxXid : ℕ := 0xffffffff

/-- `Datapath.set_xid`. -/
def nextXid (xid : ℕ) : ℕ := (xid + 1) &&& maxXid

/-- `del d[k]`. -/
def delItem (d : Dict ℕ ℕ) (k : ℕ) : Except PyError (Dict ℕ ℕ) :=
  if (d.get? k).isSome then .ok (d.erase k) else .error (.keyError (toString k))

inductive Event
  /-- Another message draws an xid. -/
  | setXid
  /-- `send_stats_request` is called with a list, up to its first wait. -/
  | request (msgs : List Msg)
  /-- `stats_reply_handler`. -/
  | reply (msg : Msg)
  /-- The wait of a request ends, by the event or by the timeout. -/
  | wake (i : ℕ)

namespace State

/-- `waiters[dp.id].get(xid)`. -/
def lookup (s : State) (xid : ℕ) : Option ℕ := s.waiters.bind (·.get? xid)

def modify (s : State) (i : ℕ) (f : Request → Request) : State :=
  { s with requests := s.requests.modify i f }

/-- A message has arrived, for the requests of its xid that have not returned. -/
def note (s : State) (msg : Msg) : State :=
  { s with
    requests := s.requests.map fun r =>
      if r.returned = false ∧ r.xid = msg.xid then { r with arrived := r.arrived ++ [msg] } else r }

/-- `stats_reply_handler`. -/
def statsReplyHandler (s : State) (msg : Msg) : State :=
  match s.waiters with
  | none => s
  | some perDp =>
    match perDp.get? msg.xid with
    | none => s
    | some i =>
      let s := s.modify i fun r => { r with msgs := r.msgs ++ [msg] }
      if msg.isLast s.version then
        match delItem perDp msg.xid with
        | .error e => { s with raised := s.raised ++ [e] }
        | .ok perDp => { s with waiters := some perDp }.modify i fun r => { r with isSet := true }
      else s

/-- `send_stats_request`, up to its first wait. -/
def sendStatsRequest (s : State) (msgs : List Msg) : State :=
  let xid := nextXid s.xid
  { s with
    xid := xid
    waiters := some ((s.waiters.getD Dict.empty).set xid s.requests.length)
    requests := s.requests ++ [⟨xid, false, msgs, msgs.length, false, msgs, []⟩] }

/-- A request after a wait. It waits again if more messages have come and the event is not set:
a wait for an event that is set ends at once, and finds no more. -/
def resume (s : State) (i : ℕ) (r : Request) : State :=
  if r.isSet then s.modify i fun r => { r with returned := true }
  else if r.previousLen < r.msgs.length then
    s.modify i fun r => { r with previousLen := r.msgs.length }
  else
    match delItem (s.waiters.getD Dict.empty) r.xid with
    | .error e =>
      { s with raised := s.raised ++ [e] }.modify i fun r => { r with returned := true }
    | .ok perDp =>
      { s with waiters := some perDp }.modify i fun r => { r with returned := true }

def step (s : State) : Event → State
  | .setXid => { s with xid := nextXid s.xid }
  | .request msgs => s.sendStatsRequest msgs
  | .reply msg => (s.note msg).statsReplyHandler msg
  | .wake i =>
    match s.requests[i]? with
    | none => s
    | some r => if r.returned then s else s.resume i r

/-- No request has been sent. -/
def init (version : OfpVersion) (xid : ℕ) : State := ⟨version, xid, none, [], []⟩

end State

/-- The messages up to the first that none follow. -/
def upToLast (v : OfpVersion) : List Msg → List Msg
  | [] => []
  | m :: l => if m.isLast v then [m] else m :: upToLast v l

/-- What is asked of every state, for what a request is to return of the messages that have
arrived for it. -/
structure Answered (result : OfpVersion → List Msg → List Msg) (s : State) : Prop where
  /-- A request that has returned has its messages behind those given, and no entry. -/
  exact : ∀ i r, s.requests[i]? = some r → r.returned = true →
    r.msgs = r.given ++ result s.version r.arrived ∧ ∀ xid, s.lookup xid ≠ some i
  /-- Woken by a reply, or without a new message, a request returns. -/
  returns : ∀ i r, s.requests[i]? = some r → r.isSet = true ∨ r.msgs.length ≤ r.previousLen →
    ∃ r', (s.step (.wake i)).requests[i]? = some r' ∧ r'.returned = true
  raised : s.raised = []

/-- A new request draws an xid that no other waits under. -/
def Meets (s : State) : Event → Prop
  | .request _ => s.lookup (nextXid s.xid) = none
  | _ => True

/-- What holds of every state. -/
structure Inv (s : State) : Prop where
  raised : s.raised = []
  msgs : ∀ (i : ℕ) (r : Request), s.requests[i]? = some r → r.msgs = r.given ++ upToLast s.version r.arrived
  isSet : ∀ (i : ℕ) (r : Request), s.requests[i]? = some r → r.isSet = r.arrived.any (·.isLast s.version)
  entry : ∀ i r, s.requests[i]? = some r →
    (s.lookup r.xid = some i ↔ r.returned = false ∧ r.isSet = false)
  known : ∀ xid i, s.lookup xid = some i → ∃ r, s.requests[i]? = some r ∧ r.xid = xid

variable {v : OfpVersion} {s : State} {l : List Msg} {m msg : Msg} {i j xid : ℕ} {r : Request}

theorem upToLast_of_any (h : l.any (·.isLast v) = true) (m : Msg) :
    upToLast v (l ++ [m]) = upToLast v l := by
  induction l with
  | nil => cases h
  | cons a l ih =>
    rw [List.any_cons] at h
    rw [List.cons_append, upToLast, upToLast]
    by_cases ha : a.isLast v = true
    · rw [if_pos ha, if_pos ha]
    · rw [if_neg ha, if_neg ha, ih (by simpa [ha] using h)]

theorem upToLast_of_not_any (h : l.any (·.isLast v) = false) : upToLast v l = l := by
  induction l with
  | nil => rfl
  | cons a l ih =>
    obtain ⟨ha, hl⟩ := Bool.or_eq_false_iff.mp h
    rw [upToLast, if_neg (by simp [ha]), ih hl]

theorem upToLast_concat (h : l.any (·.isLast v) = false) (m : Msg) :
    upToLast v (l ++ [m]) = l ++ [m] := by
  induction l with
  | nil =>
    rw [List.nil_append, upToLast]
    split <;> rfl
  | cons a l ih =>
    obtain ⟨ha, hl⟩ := Bool.or_eq_false_iff.mp h
    rw [List.cons_append, upToLast, if_neg (by simp [ha]), ih hl]

theorem delItem_eq_ok {d : Dict ℕ ℕ} (h : d.get? xid = some i) :
    delItem d xid = .ok (d.erase xid) := by
  rw [delItem, h]
  rfl

theorem get?_getD (s : State) (xid : ℕ) :
    (s.waiters.getD Dict.empty).get? xid = s.lookup xid := by
  rw [State.lookup]
  cases s.waiters <;> rfl

namespace State

/-- What a request is after a reply. -/
def received (s : State) (msg : Msg) (j : ℕ) (r : Request) : Request :=
  let r := if r.returned = false ∧ r.xid = msg.xid then { r with arrived := r.arrived ++ [msg] }
    else r
  if s.lookup msg.xid = some j then
    { r with msgs := r.msgs ++ [msg], isSet := r.isSet || msg.isLast s.version }
  else r

theorem reply_none (h : s.lookup msg.xid = none) : s.step (.reply msg) = s.note msg := by
  have hwaiters : (s.note msg).waiters = s.waiters := rfl
  rw [step, statsReplyHandler, hwaiters]
  rw [lookup] at h
  cases hw : s.waiters with
  | none => rfl
  | some perDp =>
    rw [hw] at h
    have hget : perDp.get? msg.xid = none := h
    simp only [hget]

theorem reply_some (h : s.lookup msg.xid = some i) : s.step (.reply msg) =
    if msg.isLast s.version = true then
      ({ (s.note msg).modify i fun r => { r with msgs := r.msgs ++ [msg] } with
          waiters := s.waiters.map (·.erase msg.xid) } : State).modify i
        fun r => { r with isSet := true }
    else (s.note msg).modify i fun r => { r with msgs := r.msgs ++ [msg] } := by
  have hwaiters : (s.note msg).waiters = s.waiters := rfl
  have hversion : (s.note msg).version = s.version := rfl
  rw [step, statsReplyHandler, hwaiters]
  rw [lookup] at h
  cases hw : s.waiters with
  | none =>
    rw [hw] at h
    cases h
  | some perDp =>
    rw [hw] at h
    have hget : perDp.get? msg.xid = some i := h
    simp only [hget, delItem_eq_ok hget, modify, hversion, Option.map_some]

theorem lookup_reply : (s.step (.reply msg)).lookup xid =
    if xid = msg.xid ∧ msg.isLast s.version = true then none else s.lookup xid := by
  cases h : s.lookup msg.xid with
  | none =>
    rw [reply_none h]
    split
    · next hc =>
      rw [hc.1]
      exact h
    · rfl
  | some i =>
    rw [reply_some h]
    by_cases hlast : msg.isLast s.version = true
    · rw [if_pos hlast]
      simp only [lookup, modify, hlast, and_true]
      cases s.waiters with
      | none => simp
      | some perDp =>
        rw [Option.map_some, Option.bind_some, Option.bind_some, Dict.get?_erase]
        simp only [eq_comm]
    · rw [if_neg hlast, if_neg (fun hc => hlast hc.2)]
      rfl

theorem getElem?_note : (s.note msg).requests[j]? = s.requests[j]?.map fun r =>
    if r.returned = false ∧ r.xid = msg.xid then { r with arrived := r.arrived ++ [msg] }
    else r := by
  rw [note, List.getElem?_map]

theorem requests_reply : (s.step (.reply msg)).requests[j]? =
    s.requests[j]?.map (s.received msg j) := by
  cases h : s.lookup msg.xid with
  | none =>
    rw [reply_none h, getElem?_note]
    cases s.requests[j]? with
    | none => rfl
    | some r => simp [received, h]
  | some i =>
    have hne (hij : i ≠ j) : s.lookup msg.xid ≠ some j := fun hc =>
      hij (Option.some.inj (h.symm.trans hc))
    rw [reply_some h]
    by_cases hlast : msg.isLast s.version = true
    · rw [if_pos hlast]
      simp only [modify, List.getElem?_modify, getElem?_note]
      cases s.requests[j]? with
      | none => rfl
      | some r =>
        by_cases hij : i = j
        · subst hij
          simp [received, h, hlast]
        · simp [received, hne hij, hij]
    · rw [if_neg hlast]
      simp only [modify, List.getElem?_modify, getElem?_note]
      cases s.requests[j]? with
      | none => rfl
      | some r =>
        by_cases hij : i = j
        · subst hij
          simp [received, h, hlast]
        · simp [received, hne hij, hij]

theorem raised_reply : (s.step (.reply msg)).raised = s.raised := by
  cases h : s.lookup msg.xid with
  | none =>
    rw [reply_none h]
    rfl
  | some i =>
    rw [reply_some h]
    split <;> rfl

theorem version_reply : (s.step (.reply msg)).version = s.version := by
  cases h : s.lookup msg.xid with
  | none =>
    rw [reply_none h]
    rfl
  | some i =>
    rw [reply_some h]
    split <;> rfl

end State

namespace Inv

variable (hI : Inv s)
include hI

/-- An entry is that of a request of its xid that waits. -/
theorem waits (h : s.lookup xid = some i) : ∃ r, s.requests[i]? = some r ∧ r.xid = xid ∧
    r.returned = false ∧ r.isSet = false := by
  obtain ⟨r, hr, rfl⟩ := hI.known xid i h
  obtain ⟨hreturned, hset⟩ := (hI.entry i r hr).mp h
  exact ⟨r, hr, rfl, hreturned, hset⟩

theorem step_request (hfree : s.lookup (nextXid s.xid) = none) (msgs : List Msg) :
    Inv (s.step (.request msgs)) := by
  have hlookup (x : ℕ) : (s.step (.request msgs)).lookup x =
      if x = nextXid s.xid then some s.requests.length else s.lookup x := by
    have hset : (s.step (.request msgs)).lookup x =
        ((s.waiters.getD Dict.empty).set (nextXid s.xid) s.requests.length).get? x := rfl
    rw [hset, Dict.get?_set, get?_getD]
    simp only [eq_comm]
  have hcases {i : ℕ} {r : Request} (h : (s.step (.request msgs)).requests[i]? = some r) :
      s.requests[i]? = some r ∨ i = s.requests.length ∧
        r = ⟨nextXid s.xid, false, msgs, msgs.length, false, msgs, []⟩ := by
    have hreq : (s.step (.request msgs)).requests =
        s.requests ++ [⟨nextXid s.xid, false, msgs, msgs.length, false, msgs, []⟩] := rfl
    rw [hreq, List.getElem?_append] at h
    split at h
    · exact Or.inl h
    · next hge =>
      rw [List.getElem?_singleton] at h
      split at h
      · exact Or.inr ⟨by omega, (Option.some.inj h).symm⟩
      · cases h
  have hold {i : ℕ} {r : Request} (h : s.requests[i]? = some r) :
      (s.step (.request msgs)).requests[i]? = some r := by
    have hlt : i < s.requests.length := (List.getElem?_eq_some_iff.mp h).1
    exact (List.getElem?_append_left hlt).trans h
  refine ⟨hI.raised, fun i r h => ?_, fun i r h => ?_, fun i r h => ?_, fun x i h => ?_⟩
  · obtain h | ⟨-, rfl⟩ := hcases h
    · exact hI.msgs i r h
    · exact (List.append_nil _).symm
  · obtain h | ⟨-, rfl⟩ := hcases h
    · exact hI.isSet i r h
    · rfl
  · rw [hlookup]
    obtain h | ⟨rfl, rfl⟩ := hcases h
    · have hlt : i < s.requests.length := (List.getElem?_eq_some_iff.mp h).1
      split
      · next hx =>
        rw [← hI.entry i r h, hx, hfree]
        simp only [Option.some.injEq, reduceCtorEq, iff_false]
        omega
      · exact hI.entry i r h
    · simp
  · rw [hlookup] at h
    split at h
    · next hx =>
      obtain rfl := Option.some.inj h
      exact ⟨_, List.getElem?_concat_length, hx.symm⟩
    · obtain ⟨r, hr, hx⟩ := hI.known x i h
      exact ⟨r, hold hr, hx⟩

/-- What a reply adds to a request, and to what has arrived for it. -/
theorem received_exact (h : s.requests[j]? = some r) :
    (s.received msg j r).msgs =
        (s.received msg j r).given ++ upToLast s.version (s.received msg j r).arrived ∧
      (s.received msg j r).isSet = (s.received msg j r).arrived.any (·.isLast s.version) := by
  have hmsgs := hI.msgs j r h
  have hset := hI.isSet j r h
  have hentry := hI.entry j r h
  by_cases hj : s.lookup msg.xid = some j
  · obtain ⟨r', hr', hx, hreturned, hunset⟩ := hI.waits hj
    obtain rfl := Option.some.inj (h.symm.trans hr')
    rw [hunset] at hset
    have hnone := hset.symm
    simp only [State.received, hreturned, hx, and_self, if_true, hj]
    constructor
    · rw [hmsgs, upToLast_of_not_any hnone, upToLast_concat hnone, List.append_assoc]
    · rw [List.any_append, hnone, hunset]
      simp
  · simp only [State.received, hj, if_false]
    split
    · next hc =>
      have hany : r.arrived.any (·.isLast s.version) = true := by
        rw [← hset]
        by_contra hunset
        exact hj (hc.2 ▸ hentry.mpr ⟨hc.1, by simpa using hunset⟩)
      constructor
      · rw [hmsgs, upToLast_of_any hany]
      · rw [hset, List.any_append, hany, Bool.true_or]
    · exact ⟨hmsgs, hset⟩

omit hI in
theorem received_fields (s : State) (msg : Msg) (j : ℕ) (r : Request) :
    (s.received msg j r).xid = r.xid ∧
    (s.received msg j r).returned = r.returned ∧
    (s.received msg j r).isSet =
      (r.isSet || decide (s.lookup msg.xid = some j) && msg.isLast s.version) := by
  unfold State.received
  split_ifs <;> simp [*]

theorem step_reply (msg : Msg) : Inv (s.step (.reply msg)) := by
  have hcases {j : ℕ} {r' : Request} (h : (s.step (.reply msg)).requests[j]? = some r') :
      ∃ r, s.requests[j]? = some r ∧ s.received msg j r = r' := by
    rw [State.requests_reply] at h
    exact Option.map_eq_some_iff.mp h
  refine ⟨?_, fun j r' h => ?_, fun j r' h => ?_, fun j r' h => ?_, fun x j h => ?_⟩
  · rw [State.raised_reply, hI.raised]
  · obtain ⟨r, hr, rfl⟩ := hcases h
    rw [State.version_reply]
    exact (hI.received_exact hr).1
  · obtain ⟨r, hr, rfl⟩ := hcases h
    rw [State.version_reply]
    exact (hI.received_exact hr).2
  · obtain ⟨r, hr, rfl⟩ := hcases h
    obtain ⟨hx, hreturned, hset⟩ := received_fields s msg j r
    rw [hx, hreturned, hset, State.lookup_reply]
    have hentry := hI.entry j r hr
    by_cases hj : s.lookup msg.xid = some j
    · obtain ⟨r', hr', hx', -, hunset⟩ := hI.waits hj
      obtain rfl := Option.some.inj (hr.symm.trans hr')
      simp only [hx', hj, true_and, decide_true, Bool.true_and, hunset, Bool.false_or]
      rw [hx', hj, hunset] at hentry
      cases hlast : msg.isLast s.version
      · simpa using hentry
      · simp
    · simp only [hj, decide_false, Bool.false_and, Bool.or_false]
      split
      · next hc =>
        rw [← hentry, hc.1]
        simp [hj]
      · exact hentry
  · rw [State.lookup_reply] at h
    split at h
    · cases h
    · obtain ⟨r, hr, hx⟩ := hI.known x j h
      refine ⟨s.received msg j r, ?_, (received_fields s msg j r).1.trans hx⟩
      rw [State.requests_reply, hr, Option.map_some]

/-- A request is changed in what the invariant does not tell of a request that is done. -/
theorem of_modify {f : Request → Request} {waiters : Option (Dict ℕ ℕ)} (i : ℕ)
    (hf : ∀ r, (f r).xid = r.xid ∧ (f r).msgs = r.msgs ∧ (f r).given = r.given ∧
      (f r).arrived = r.arrived ∧ (f r).isSet = r.isSet)
    (hentry : ∀ j r, s.requests[j]? = some r → (waiters.bind (·.get? r.xid) = some j ↔
      (if i = j then f r else r).returned = false ∧ r.isSet = false))
    (hknown : ∀ x j, waiters.bind (·.get? x) = some j → s.lookup x = some j) :
    Inv (({ s with waiters := waiters } : State).modify i f) := by
  have hfields (j : ℕ) (r : Request) : (if i = j then f r else r).xid = r.xid ∧
      (if i = j then f r else r).msgs = r.msgs ∧ (if i = j then f r else r).given = r.given ∧
      (if i = j then f r else r).arrived = r.arrived ∧
      (if i = j then f r else r).isSet = r.isSet := by
    split
    · exact hf r
    · exact ⟨rfl, rfl, rfl, rfl, rfl⟩
  have hget (j : ℕ) : (({ s with waiters := waiters } : State).modify i f).requests[j]? =
      s.requests[j]?.map fun r => if i = j then f r else r :=
    List.getElem?_modify f i s.requests j
  have hcases {j : ℕ} {r' : Request}
      (h : (({ s with waiters := waiters } : State).modify i f).requests[j]? = some r') :
      ∃ r, s.requests[j]? = some r ∧ (if i = j then f r else r) = r' := by
    rw [hget] at h
    exact Option.map_eq_some_iff.mp h
  refine ⟨hI.raised, fun j r' h => ?_, fun j r' h => ?_, fun j r' h => ?_, fun x j h => ?_⟩
  · obtain ⟨r, hr, rfl⟩ := hcases h
    obtain ⟨-, hmsgs, hgiven, harrived, -⟩ := hfields j r
    rw [hmsgs, hgiven, harrived]
    exact hI.msgs j r hr
  · obtain ⟨r, hr, rfl⟩ := hcases h
    obtain ⟨-, -, -, harrived, hset⟩ := hfields j r
    rw [harrived, hset]
    exact hI.isSet j r hr
  · obtain ⟨r, hr, rfl⟩ := hcases h
    obtain ⟨hx, -, -, -, hset⟩ := hfields j r
    rw [hx, hset]
    exact hentry j r hr
  · obtain ⟨r, hr, hx⟩ := hI.known x j (hknown x j h)
    refine ⟨if i = j then f r else r, ?_, (hfields j r).1.trans hx⟩
    rw [hget, hr, Option.map_some]

/-- A request that has not been woken by a reply finds its entry when it gives up. -/
theorem resume_eq (hr : s.requests[i]? = some r) (hreturned : r.returned = false)
    (hset : r.isSet = false) (hlen : ¬ r.previousLen < r.msgs.length) :
    s.resume i r =
      ({ s with waiters := some ((s.waiters.getD Dict.empty).erase r.xid) } : State).modify i
        fun r => { r with returned := true } := by
  have hget : (s.waiters.getD Dict.empty).get? r.xid = some i :=
    (get?_getD s r.xid).trans ((hI.entry i r hr).mpr ⟨hreturned, hset⟩)
  rw [State.resume, hset, if_neg Bool.false_ne_true, if_neg hlen, delItem_eq_ok hget]

theorem step_wake (i : ℕ) : Inv (s.step (.wake i)) := by
  rw [State.step]
  split
  · exact hI
  next r hr =>
  by_cases hreturned : r.returned = true
  · rw [if_pos hreturned]
    exact hI
  rw [if_neg hreturned]
  have hunreturned : r.returned = false := by simpa using hreturned
  have hentry := hI.entry
  by_cases hset : r.isSet = true
  · rw [State.resume, if_pos hset]
    refine hI.of_modify i (fun _ => ⟨rfl, rfl, rfl, rfl, rfl⟩) (fun j r' hr' => ?_)
      fun _ _ h => h
    refine (hentry j r' hr').trans ?_
    by_cases hij : i = j
    · subst hij
      obtain rfl := Option.some.inj (hr.symm.trans hr')
      simp [hset]
    · rw [if_neg hij]
  have hunset : r.isSet = false := by simpa using hset
  by_cases hlen : r.previousLen < r.msgs.length
  · rw [State.resume, if_neg hset, if_pos hlen]
    refine hI.of_modify i (fun _ => ⟨rfl, rfl, rfl, rfl, rfl⟩) (fun j r' hr' => ?_)
      fun _ _ h => h
    refine (hentry j r' hr').trans ?_
    split <;> rfl
  · rw [hI.resume_eq hr hunreturned hunset hlen]
    have hlookup (x : ℕ) : (some ((s.waiters.getD Dict.empty).erase r.xid)).bind (·.get? x) =
        if r.xid = x then none else s.lookup x := by
      rw [Option.bind_some, Dict.get?_erase, get?_getD]
    refine hI.of_modify i (fun _ => ⟨rfl, rfl, rfl, rfl, rfl⟩) (fun j r' hr' => ?_)
      fun x j h => ?_
    · rw [hlookup]
      have hj := hentry j r' hr'
      by_cases hij : i = j
      · subst hij
        obtain rfl := Option.some.inj (hr.symm.trans hr')
        simp
      · rw [if_neg hij]
        split
        · next hx =>
          rw [← hj, ← hx, (hentry i r hr).mpr ⟨hunreturned, hunset⟩]
          simpa using hij
        · exact hj
    · rw [hlookup] at h
      split at h
      · cases h
      · exact h

theorem step (e : Event) (hm : Meets s e) : Inv (s.step e) := by
  cases e with
  | setXid => exact ⟨hI.raised, hI.msgs, hI.isSet, hI.entry, hI.known⟩
  | request msgs => exact hI.step_request hm msgs
  | reply msg => exact hI.step_reply msg
  | wake i => exact hI.step_wake i

theorem answered : Answered upToLast s where
  exact i r hr hreturned := by
    refine ⟨hI.msgs i r hr, fun xid h => ?_⟩
    obtain ⟨r', hr', -, hunreturned, -⟩ := hI.waits h
    obtain rfl := Option.some.inj (hr.symm.trans hr')
    rw [hreturned] at hunreturned
    cases hunreturned
  returns i r hr hdone := by
    have hget (w : Option (Dict ℕ ℕ)) : (({ s with waiters := w } : State).modify i
        fun r => { r with returned := true }).requests[i]? = some { r with returned := true } := by
      rw [State.modify, List.getElem?_modify_eq, hr]
      rfl
    rw [State.step]
    simp only [hr]
    by_cases hreturned : r.returned = true
    · rw [if_pos hreturned]
      exact ⟨r, hr, hreturned⟩
    rw [if_neg hreturned]
    by_cases hset : r.isSet = true
    · rw [State.resume, if_pos hset]
      exact ⟨_, hget s.waiters, rfl⟩
    · have hlen : ¬ r.previousLen < r.msgs.length := not_lt.mpr (hdone.resolve_left hset)
      rw [hI.resume_eq hr (by simpa using hreturned) (by simpa using hset) hlen]
      exact ⟨_, hget _, rfl⟩
  raised := hI.raised

end Inv

theorem inv_init (v : OfpVersion) (xid : ℕ) : Inv (State.init v xid) where
  raised := rfl
  msgs _ _ h := by cases h
  isSet _ _ h := by cases h
  entry _ _ h := by cases h
  known _ _ h := by cases h

/-- As long as no request draws an xid that another one waits under, every request returns what
has arrived for it up to the last reply. -/
theorem answered_run (v : OfpVersion) (xid : ℕ) (es : List Event)
    (h : EveryStep State.step Meets (State.init v xid) es) :
    Throughout State.step (Answered upToLast) (State.init v xid) es :=
  (throughout_of_everyStep (inv_init v xid) (fun _ e hI hm => hI.step e hm) h).mono
    fun _ hI => hI.answered

/-- One request, answered by a reply that more follow and by the last one. -/
theorem answered_run_two :
    Throughout State.step (Answered upToLast) (State.init .v13 0)
      [.request [], .reply ⟨1, 1, []⟩, .wake 0, .reply ⟨1, 0, []⟩, .wake 0] :=
  answered_run .v13 0 [.request [], .reply ⟨1, 1, []⟩, .wake 0, .reply ⟨1, 0, []⟩, .wake 0]
    ⟨rfl, trivial, trivial, trivial, trivial, trivial⟩

/-! ## How often xids are drawn -/

def Event.draws : Event → Bool
  | .setXid | .request _ => true
  | .reply _ | .wake _ => false

theorem nextXid_eq (xid : ℕ) : nextXid xid = (xid + 1) % 2 ^ 32 :=
  Nat.and_two_pow_sub_one_eq_mod (xid + 1) 32

/-- So many xids have been drawn, and the entries are under some of them. -/
structure Drawn (x₀ n : ℕ) (s : State) : Prop where
  xid : s.xid = (x₀ + n) % 2 ^ 32
  entries : ∀ x i, s.lookup x = some i → ∃ k, 0 < k ∧ k ≤ n ∧ x = (x₀ + k) % 2 ^ 32

theorem lookup_of_wake (h : (s.step (.wake i)).lookup xid = some j) : s.lookup xid = some j := by
  rw [State.step] at h
  split at h
  · exact h
  · unfold State.resume at h
    split_ifs at h
    · exact h
    · exact h
    · exact h
    · split at h
      · exact h
      · next perDp hdel =>
        rw [delItem] at hdel
        split_ifs at hdel
        obtain rfl := Except.ok.inj hdel
        have herase : ((s.waiters.getD Dict.empty).erase _).get? xid = some j := h
        rw [Dict.get?_erase, get?_getD] at herase
        split at herase
        · cases herase
        · exact herase

theorem Drawn.step {x₀ n : ℕ} (h : Drawn x₀ n s) (e : Event) :
    Drawn x₀ (n + if e.draws then 1 else 0) (s.step e) := by
  cases e with
  | setXid =>
    refine ⟨?_, fun x i hx => ?_⟩
    · change nextXid s.xid = _
      rw [nextXid_eq, h.xid]
      simp only [Event.draws, if_true]
      omega
    · obtain ⟨k, hpos, hle, hk⟩ := h.entries x i hx
      exact ⟨k, hpos, hle.trans (Nat.le_add_right _ _), hk⟩
  | request msgs =>
    have hxid : nextXid s.xid = (x₀ + (n + 1)) % 2 ^ 32 := by
      rw [nextXid_eq, h.xid]
      omega
    refine ⟨hxid, fun x i hx => ?_⟩
    have hset : ((s.waiters.getD Dict.empty).set (nextXid s.xid) s.requests.length).get? x =
        some i := hx
    rw [Dict.get?_set, get?_getD] at hset
    split at hset
    · next heq => exact ⟨n + 1, Nat.succ_pos n, le_rfl, heq.symm.trans hxid⟩
    · obtain ⟨k, hpos, hle, hk⟩ := h.entries x i hset
      exact ⟨k, hpos, hle.trans (Nat.le_add_right _ _), hk⟩
  | reply msg =>
    have hxid : (s.step (.reply msg)).xid = s.xid := by
      cases hlookup : s.lookup msg.xid with
      | none =>
        rw [State.reply_none hlookup]
        rfl
      | some i =>
        rw [State.reply_some hlookup]
        split <;> rfl
    refine ⟨hxid.trans h.xid, fun x i hx => ?_⟩
    rw [State.lookup_reply] at hx
    split at hx
    · cases hx
    · exact h.entries x i hx
  | wake i =>
    have hxid : (s.step (.wake i)).xid = s.xid := by
      rw [State.step]
      split
      · rfl
      · unfold State.resume
        split_ifs
        · rfl
        · rfl
        · rfl
        · split <;> rfl
    exact ⟨hxid.trans h.xid, fun x j hx => h.entries x j (lookup_of_wake hx)⟩

/-- Requests draw no xid that another one waits under as long as it is not the turn of that xid
again. -/
theorem everyStep_meets {x₀ n : ℕ} {es : List Event} (h : Drawn x₀ n s)
    (hes : n + es.countP Event.draws ≤ 2 ^ 32) : EveryStep State.step Meets s es := by
  induction es generalizing s n with
  | nil => trivial
  | cons e es ih =>
    rw [List.countP_cons] at hes
    refine ⟨?_, ih (h.step e) (by omega)⟩
    cases e with
    | request msgs =>
      change s.lookup (nextXid s.xid) = none
      by_contra hne
      obtain ⟨i, hi⟩ := Option.ne_none_iff_exists'.mp hne
      obtain ⟨k, hpos, hle, hk⟩ := h.entries _ i hi
      rw [nextXid_eq, h.xid] at hk
      simp only [Event.draws, if_true] at hes
      omega
    | setXid => trivial
    | reply msg => trivial
    | wake i => trivial

theorem everyStep_meets_init (v : OfpVersion) {xid : ℕ} (hxid : xid < 2 ^ 32) {es : List Event}
    (hes : es.countP Event.draws ≤ 2 ^ 32) :
    EveryStep State.step Meets (State.init v xid) es := by
  have hdrawn : Drawn xid 0 (State.init v xid) :=
    ⟨(Nat.mod_eq_of_lt hxid).symm, fun _ _ h => by cases h⟩
  exact everyStep_meets hdrawn (by omega)

theorem foldl_setXid (hxid : s.xid < 2 ^ 32) (n : ℕ) :
    (List.replicate n Event.setXid).foldl State.step s =
      { s with xid := (s.xid + n) % 2 ^ 32 } := by
  induction n generalizing s with
  | zero => rw [List.replicate_zero, List.foldl_nil, Nat.add_zero, Nat.mod_eq_of_lt hxid]
  | succ n ih =>
    have hnext : (s.step .setXid).xid = (s.xid + 1) % 2 ^ 32 := nextXid_eq s.xid
    have hmod : ((s.xid + 1) % 2 ^ 32 + n) % 2 ^ 32 = (s.xid + (n + 1)) % 2 ^ 32 := by omega
    rw [List.replicate_succ, List.foldl_cons, ih (by rw [hnext]; exact Nat.mod_lt _ (by decide)),
      hnext, hmod]
    rfl

/-- A reply behind the last one is left out. And where the xids come round while a request waits,
another one takes its entry, and one of the two finds none when it gives up. -/
theorem not_answered :
    (¬ ∀ (v : OfpVersion) (xid : ℕ) (es : List Event), Throughout State.step
      (Answered fun _ arrived => arrived) (State.init v xid) es) ∧
    ¬ ∀ (v : OfpVersion) (xid : ℕ) (es : List Event), Throughout State.step
      (fun s => s.raised = []) (State.init v xid) es := by
  constructor
  · intro h
    have hlast := (h .v13 0 [.request [], .reply ⟨1, 0, []⟩, .reply ⟨1, 1, []⟩, .wake 0]).last
    exact absurd (hlast.exact 0 _ rfl rfl).1 (by decide)
  · intro h
    obtain ⟨n, hn⟩ : ∃ n, n = 2 ^ 32 - 1 := ⟨_, rfl⟩
    have hlast := (h .v13 0 (.request [] :: (List.replicate n .setXid ++
      [.request [], .wake 0, .wake 1]))).last
    have hzero : (1 + n) % 2 ^ 32 = 0 := by omega
    have hfirst : ((State.init .v13 0).step (.request [])).xid = 1 := rfl
    rw [List.foldl_cons, List.foldl_append, foldl_setXid (by rw [hfirst]; decide), hfirst,
      hzero] at hlast
    exact absurd (congrArg List.length hlast) (by decide)

end Ryu.StatsRequest
