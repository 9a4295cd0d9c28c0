import Mathlib.Algebra.Order.Ring.Int
import Mathlib.Tactic.Linarith

/-! # BFD sessions

A session takes its detection time from the first packet and from every packet with the Poll bit,
as the interval the packet announces times its multiplier. Its own desired interval changes with
its state, and the Poll bit is left out of a packet that answers a poll. Times are in
microseconds.
-/

namespace Ryu.Bfd

inductive State
  | adminDown
  | down
  | init
  | up
  deriving DecidableEq, Repr

def diagCtrlDetectTimeExpired : ℕ := 1
def diagNeigSigSessDown : ℕ := 3

/-- The arguments of the constructor. -/
structure Config where
  myDiscr : ℕ
  detectMult : ℕ
  desiredMinTxInterval : ℕ
  requiredMinRxInterval : ℕ
  deriving DecidableEq, Repr

structure Packet where
  diag : ℕ
  state : State
  poll : Bool
  final : Bool
  demand : Bool
  detectMult : ℕ
  myDiscr : ℕ
  yourDiscr : ℕ
  desiredMinTxInterval : ℕ
  requiredMinRxInterval : ℕ
  deriving DecidableEq, Repr

/-- What the sizes of the fields allow. -/
def Packet.fits (pkt : Packet) : Prop :=
  pkt.detectMult < 2 ^ 8 ∧ pkt.desiredMinTxInterval < 2 ^ 32 ∧ pkt.requiredMinRxInterval < 2 ^ 32

instance (pkt : Packet) : Decidable pkt.fits := by
  unfold Packet.fits
  infer_instance

/-- A session, with the packets that have not yet reached the other one. The remote interval is -1
before a packet was handled, the transmission period is in hundredths of a microsecond, and
`sendLoop` says that the thread which sends has not ended. -/
structure Session where
  config : Config
  sessionState : State
  remoteSessionState : State
  remoteDiscr : ℕ
  localDiag : ℕ
  desiredMinTxInterval : ℕ
  remoteMinRxInterval : ℤ
  demandMode : Bool
  remoteDemandMode : Bool
  activeRole : Bool
  detectTime : ℕ
  xmitPeriod : ℤ
  isPolling : Bool
  pendingFinal : Bool
  enableSend : Bool
  sendLoop : Bool
  connected : Bool
  sent : List Packet
  deriving DecidableEq, Repr

/-- `random.randint`. -/
def randint (a b draw : ℕ) : ℕ := a + draw % (b - a + 1)

namespace Session

def updateXmitPeriod (s : Session) (draw : ℕ) : Session :=
  let xmitPeriod : ℤ :=
    if (s.desiredMinTxInterval : ℤ) > s.remoteMinRxInterval then s.desiredMinTxInterval
    else s.remoteMinRxInterval
  let percent := if s.config.detectMult = 1 then randint 75 90 draw else randint 75 100 draw
  { s with xmitPeriod := xmitPeriod * percent }

/-- The constructor. -/
def start (config : Config) (draw : ℕ) : Session :=
  updateXmitPeriod
    { config
      sessionState := .down
      remoteSessionState := .down
      remoteDiscr := 0
      localDiag := 0
      desiredMinTxInterval := 1000000
      remoteMinRxInterval := -1
      demandMode := false
      remoteDemandMode := false
      activeRole := true
      detectTime := 0
      xmitPeriod := 0
      isPolling := true
      pendingFinal := false
      enableSend := true
      sendLoop := true
      connected := false
      sent := [] } draw

def setState (s : Session) (newState : State) (diag : Option ℕ) (draw : ℕ) : Session :=
  match newState with
  | .down =>
    updateXmitPeriod
      { s with
        sessionState := .down, localDiag := diag.getD s.localDiag,
        desiredMinTxInterval := 1000000, isPolling := true } draw
  | .up =>
    updateXmitPeriod
      { s with
        sessionState := .up, desiredMinTxInterval := s.config.desiredMinTxInterval,
        isPolling := true } draw
  | newState => { s with sessionState := newState }

/-- The new state at a packet, with the diagnostic code, if the state is to change. -/
def stateChange (sessionState state : State) : Option (State × Option ℕ) :=
  if state = .adminDown then
    if sessionState ≠ .down then some (.down, some diagNeigSigSessDown) else none
  else
    match sessionState with
    | .down =>
      if state = .down then some (.init, none)
      else if state = .init then some (.up, none)
      else none
    | .init => if state = .init ∨ state = .up then some (.up, none) else none
    | _ => if state = .down then some (.down, some diagNeigSigSessDown) else none

/-- Both ends are up and the other one asked for demand mode. -/
def demanded (s : Session) : Prop :=
  s.remoteDemandMode = true ∧ s.sessionState = .up ∧ s.remoteSessionState = .up

instance (s : Session) : Decidable s.demanded := by
  unfold demanded
  infer_instance

/-- Switch the periodic transmission off, or on again with a new thread. -/
def switchSend (s : Session) : Session :=
  let s := if s.demanded then { s with enableSend := false } else s
  if ¬ s.demanded ∧ s.enableSend = false then { s with enableSend := true, sendLoop := true } else s

/-! The paragraphs of `recv`. -/

def noteRemote (s : Session) (pkt : Packet) (draw : ℕ) : Session :=
  let s := { s with remoteDiscr := pkt.myDiscr, remoteDemandMode := pkt.demand }
  if s.remoteMinRxInterval ≠ (pkt.requiredMinRxInterval : ℤ) then
    { s with remoteMinRxInterval := pkt.requiredMinRxInterval }.updateXmitPeriod draw
  else s

def noteFinal (s : Session) (pkt : Packet) : Session :=
  if pkt.final ∧ s.isPolling then { s with isPolling := false } else s

def checkState (s : Session) (pkt : Packet) (draw : ℕ) : Session :=
  match stateChange s.sessionState pkt.state with
  | none => s
  | some (newState, diag) => s.setState newState diag draw

def updateDetectTime (s : Session) (pkt : Packet) : Session :=
  let s :=
    if s.detectTime = 0 then { s with detectTime := pkt.desiredMinTxInterval * pkt.detectMult }
    else s
  if pkt.poll then
    { s with pendingFinal := true, detectTime := pkt.desiredMinTxInterval * pkt.detectMult }
  else s

def recv (s : Session) (pkt : Packet) (draws : ℕ × ℕ) : Session :=
  let s := (s.noteRemote pkt draws.1).noteFinal pkt
  if s.sessionState = .adminDown then s
  else ((s.checkState pkt draws.2).switchSend).updateDetectTime pkt

/-- The checks of `recv_bfd_pkt` on a packet without authentication. -/
def accepts (s : Session) (pkt : Packet) : Prop :=
  pkt.detectMult ≠ 0 ∧ pkt.myDiscr ≠ 0 ∧ (pkt.yourDiscr = 0 ∨ pkt.yourDiscr = s.config.myDiscr) ∧
    (pkt.yourDiscr = 0 → pkt.state = .adminDown ∨ pkt.state = .down)

instance (s : Session) (pkt : Packet) : Decidable (s.accepts pkt) := by
  unfold accepts
  infer_instance

def recvBfdPkt (s : Session) (pkt : Packet) (draws : ℕ × ℕ) : Session :=
  if s.accepts pkt then s.recv pkt draws else s

/-- The turn of `_recv_timeout_loop` at which no packet came within the detection time. -/
def timeOut (s : Session) (draw : ℕ) : Session :=
  if s.detectTime ≠ 0 ∧ s.sessionState ≠ .down ∧ s.sessionState ≠ .adminDown then
    s.setState .down (some diagCtrlDetectTimeExpired) draw
  else s

/-- The switch of the session has connected. -/
def connect (s : Session) : Session := { s with connected := true }

/-- The first packet on the way was received. -/
def taken (s : Session) (rest : List Packet) : Session := { s with sent := rest }

/-- `_send`. A packet whose values do not fit ends the thread. -/
def send (s : Session) : Session :=
  if s.connected = false then s
  else
    let final := s.pendingFinal
    let s := if s.pendingFinal then { s with pendingFinal := false, isPolling := false } else s
    let pkt : Packet :=
      { diag := s.localDiag
        state := s.sessionState
        poll := s.isPolling
        final
        demand := s.demandMode ∧ s.sessionState = .up ∧ s.remoteSessionState = .up
        detectMult := s.config.detectMult
        myDiscr := s.config.myDiscr
        yourDiscr := s.remoteDiscr
        desiredMinTxInterval := s.desiredMinTxInterval
        requiredMinRxInterval := s.config.requiredMinRxInterval }
    if pkt.fits then { s with sent := s.sent ++ [pkt] } else { s with sendLoop := false }

/-- The turn of `_send_loop` after the sleep. -/
def wake (s : Session) : Session :=
  if s.sendLoop = false then s
  else
    let s :=
      if s.remoteDiscr = 0 ∧ s.activeRole = false then s
      else if s.remoteMinRxInterval = 0 then s
      else if s.demanded ∧ s.isPolling = false then s
      else s.send
    if s.enableSend then s else { s with sendLoop := false }

variable {s : Session} {pkt : Packet} {draw : ℕ} {draws : ℕ × ℕ}

/-- The session has handled a packet. -/
def Handled (s : Session) : Prop := s.remoteMinRxInterval ≠ -1

instance (s : Session) : Decidable s.Handled := by
  unfold Handled
  infer_instance

/-- The interval a session switches to with the state it enters. -/
def intervalOf (c : Config) : State → Option ℕ
  | .down => some 1000000
  | .up => some c.desiredMinTxInterval
  | _ => none

/-- The interval a session switches to at a packet. -/
def switchesAt (s : Session) (pkt : Packet) : Option ℕ :=
  (stateChange s.sessionState pkt.state).bind fun x => intervalOf s.config x.1

@[simp] theorem setState_config {state : State} {diag : Option ℕ} :
    (s.setState state diag draw).config = s.config := by
  cases state <;> rfl

@[simp] theorem setState_remoteMinRxInterval {state : State} {diag : Option ℕ} :
    (s.setState state diag draw).remoteMinRxInterval = s.remoteMinRxInterval := by
  cases state <;> rfl

@[simp] theorem setState_detectTime {state : State} {diag : Option ℕ} :
    (s.setState state diag draw).detectTime = s.detectTime := by
  cases state <;> rfl

@[simp] theorem setState_sent {state : State} {diag : Option ℕ} :
    (s.setState state diag draw).sent = s.sent := by
  cases state <;> rfl

@[simp] theorem setState_sessionState {state : State} {diag : Option ℕ} :
    (s.setState state diag draw).sessionState = state := by
  cases state <;> rfl

theorem setState_desiredMinTxInterval {state : State} {diag : Option ℕ} :
    (s.setState state diag draw).desiredMinTxInterval =
      (intervalOf s.config state).getD s.desiredMinTxInterval := by
  cases state <;> rfl

/-- What a packet changes of the intervals and the state. -/
structure Takes (s : Session) (pkt : Packet) (s' : Session) : Prop where
  config : s'.config = s.config
  sent : s'.sent = s.sent
  remote : s'.remoteMinRxInterval = pkt.requiredMinRxInterval
  state : s'.sessionState =
    (stateChange s.sessionState pkt.state).elim s.sessionState Prod.fst
  desired : s'.desiredMinTxInterval = (s.switchesAt pkt).getD s.desiredMinTxInterval
  detect : s'.detectTime =
    if s.detectTime = 0 ∨ pkt.poll = true then pkt.desiredMinTxInterval * pkt.detectMult
    else s.detectTime

/-- The session before the state is checked: only the remote interval has changed. -/
structure Noted (s : Session) (pkt : Packet) (s' : Session) : Prop where
  config : s'.config = s.config
  sent : s'.sent = s.sent
  remote : s'.remoteMinRxInterval = pkt.requiredMinRxInterval
  state : s'.sessionState = s.sessionState
  desired : s'.desiredMinTxInterval = s.desiredMinTxInterval
  detect : s'.detectTime = s.detectTime

theorem noted (s : Session) (pkt : Packet) (draw : ℕ) :
    s.Noted pkt ((s.noteRemote pkt draw).noteFinal pkt) := by
  have h : s.Noted pkt (s.noteRemote pkt draw) := by
    unfold noteRemote
    dsimp only
    split_ifs with h
    · exact ⟨rfl, rfl, rfl, rfl, rfl, rfl⟩
    · exact ⟨rfl, rfl, not_not.mp h, rfl, rfl, rfl⟩
  unfold noteFinal
  split_ifs
  · exact ⟨h.config, h.sent, h.remote, h.state, h.desired, h.detect⟩
  · exact h

/-- Nothing but the sending has changed. -/
theorem switchSend_eq (s : Session) :
    ∃ b b', s.switchSend = { s with enableSend := b, sendLoop := b' } := by
  unfold switchSend
  dsimp only
  split_ifs <;> exact ⟨_, _, rfl⟩

theorem updateDetectTime_eq (s : Session) (pkt : Packet) :
    ∃ b, s.updateDetectTime pkt =
      { s with
        pendingFinal := b
        detectTime := if s.detectTime = 0 ∨ pkt.poll = true then
          pkt.desiredMinTxInterval * pkt.detectMult else s.detectTime } := by
  unfold updateDetectTime
  dsimp only
  by_cases hp : pkt.poll = true
  · exact ⟨true, by split_ifs <;> simp_all⟩
  · exact ⟨s.pendingFinal, by split_ifs <;> simp_all⟩

theorem takes_recv (h : s.sessionState ≠ .adminDown) : s.Takes pkt (s.recv pkt draws) := by
  have hn := s.noted pkt draws.1
  unfold recv
  dsimp only
  generalize (s.noteRemote pkt draws.1).noteFinal pkt = t at hn
  rw [if_neg (hn.state ▸ h)]
  obtain ⟨b, b', hsend⟩ := switchSend_eq (t.checkState pkt draws.2)
  obtain ⟨b'', hdetect⟩ := updateDetectTime_eq (t.checkState pkt draws.2).switchSend pkt
  rw [hdetect, hsend]
  cases hc : stateChange s.sessionState pkt.state with
  | none =>
    have hcheck : t.checkState pkt draws.2 = t := by rw [checkState, hn.state, hc]
    rw [hcheck]
    exact ⟨hn.config, hn.sent, hn.remote, by rw [hn.state, hc]; rfl,
      by rw [hn.desired, switchesAt, hc]; rfl, by rw [hn.detect]⟩
  | some x =>
    have hcheck : t.checkState pkt draws.2 = t.setState x.1 x.2 draws.2 := by
      rw [checkState, hn.state, hc]
    rw [hcheck]
    constructor
    · simpa using hn.config
    · simpa using hn.sent
    · simpa using hn.remote
    · simp [hc]
    · rw [setState_desiredMinTxInterval, hn.desired, hn.config, switchesAt, hc]
      rfl
    · simp [hn.detect]

theorem timeOut_cases (s : Session) (draw : ℕ) :
    (s.timeOut draw = s ∧ (s.detectTime = 0 ∨ s.sessionState = .down ∨ s.sessionState = .adminDown)) ∨
      (s.timeOut draw = s.setState .down (some diagCtrlDetectTimeExpired) draw ∧
        s.detectTime ≠ 0 ∧ s.sessionState ≠ .down ∧ s.sessionState ≠ .adminDown) := by
  unfold timeOut
  split_ifs with h
  · right
    exact ⟨rfl, h⟩
  · left
    exact ⟨rfl, by tauto⟩

/-- What a turn of the sending thread leaves as it was, and what it may send. -/
structure Sends (s s' : Session) : Prop where
  config : s'.config = s.config
  state : s'.sessionState = s.sessionState
  desired : s'.desiredMinTxInterval = s.desiredMinTxInterval
  remote : s'.remoteMinRxInterval = s.remoteMinRxInterval
  detect : s'.detectTime = s.detectTime
  period : s'.xmitPeriod = s.xmitPeriod
  sent : s'.sent = s.sent ∨ ∃ pkt : Packet, s'.sent = s.sent ++ [pkt] ∧
    pkt.detectMult = s.config.detectMult ∧ pkt.desiredMinTxInterval = s.desiredMinTxInterval ∧
    pkt.requiredMinRxInterval = s.config.requiredMinRxInterval

theorem sends_refl (s : Session) : s.Sends s := ⟨rfl, rfl, rfl, rfl, rfl, rfl, Or.inl rfl⟩

theorem sends_send (s : Session) : s.Sends s.send := by
  unfold send
  dsimp only
  split_ifs
  · exact s.sends_refl
  · exact ⟨rfl, rfl, rfl, rfl, rfl, rfl, Or.inr ⟨_, rfl, rfl, rfl, rfl⟩⟩
  · exact ⟨rfl, rfl, rfl, rfl, rfl, rfl, Or.inl rfl⟩
  · exact ⟨rfl, rfl, rfl, rfl, rfl, rfl, Or.inr ⟨_, rfl, rfl, rfl, rfl⟩⟩
  · exact ⟨rfl, rfl, rfl, rfl, rfl, rfl, Or.inl rfl⟩

theorem sends_wake (s : Session) : s.Sends s.wake := by
  have hend : ∀ t : Session, s.Sends t → s.Sends (if t.enableSend then t else
      { t with sendLoop := false }) := by
    intro t h
    split_ifs
    · exact h
    · exact ⟨h.config, h.state, h.desired, h.remote, h.detect, h.period, h.sent⟩
  unfold wake
  split
  · exact s.sends_refl
  · apply hend
    split_ifs
    · exact s.sends_refl
    · exact s.sends_refl
    · exact s.sends_refl
    · exact s.sends_send

/-- The period is at most the larger of the session's own interval and the one asked for. -/
def Drawn (s : Session) : Prop :=
  s.xmitPeriod ≤ 100 * max (s.desiredMinTxInterval : ℤ) s.remoteMinRxInterval

theorem randint_le {a b : ℕ} (h : a ≤ b) (draw : ℕ) : randint a b draw ≤ b := by
  have hlt : draw % (b - a + 1) < b - a + 1 := Nat.mod_lt draw (Nat.succ_pos _)
  unfold randint
  omega

theorem drawn_updateXmitPeriod (s : Session) (draw : ℕ) : (s.updateXmitPeriod draw).Drawn := by
  have h90 := randint_le (a := 75) (b := 90) (by omega) draw
  have h100 := randint_le (a := 75) (b := 100) (by omega) draw
  have hpercent : (if s.config.detectMult = 1 then randint 75 90 draw else randint 75 100 draw) ≤ 100 := by
    split_ifs <;> omega
  unfold Drawn updateXmitPeriod
  dsimp only
  generalize (if s.config.detectMult = 1 then randint 75 90 draw else randint 75 100 draw) = percent
    at hpercent
  split_ifs with h
  · rw [max_eq_left h.le, mul_comm]
    exact mul_le_mul_of_nonneg_right (by exact_mod_cast hpercent) (Int.natCast_nonneg _)
  · rw [max_eq_right (not_lt.mp h), mul_comm]
    exact mul_le_mul_of_nonneg_right (by exact_mod_cast hpercent)
      ((Int.natCast_nonneg _).trans (not_lt.mp h))

theorem drawn_setState {state : State} {diag : Option ℕ} (h : s.Drawn) :
    (s.setState state diag draw).Drawn := by
  cases state with
  | down => exact drawn_updateXmitPeriod _ _
  | up => exact drawn_updateXmitPeriod _ _
  | init => exact h
  | adminDown => exact h

theorem drawn_congr {s' : Session} (hd : s'.desiredMinTxInterval = s.desiredMinTxInterval)
    (hr : s'.remoteMinRxInterval = s.remoteMinRxInterval) (hp : s'.xmitPeriod = s.xmitPeriod)
    (h : s.Drawn) : s'.Drawn := by
  unfold Drawn
  rw [hd, hr, hp]
  exact h

theorem drawn_recv (h : s.Drawn) : (s.recv pkt draws).Drawn := by
  have hnote : (s.noteRemote pkt draws.1).Drawn := by
    unfold noteRemote
    dsimp only
    split_ifs
    · exact drawn_updateXmitPeriod _ _
    · exact h
  have hfinal : ((s.noteRemote pkt draws.1).noteFinal pkt).Drawn := by
    unfold noteFinal
    split_ifs
    · exact hnote
    · exact hnote
  unfold recv
  dsimp only
  generalize (s.noteRemote pkt draws.1).noteFinal pkt = t at hfinal
  split_ifs
  · exact hfinal
  have hcheck : (t.checkState pkt draws.2).Drawn := by
    unfold checkState
    split
    · exact hfinal
    · exact drawn_setState hfinal
  obtain ⟨b, b', hsend⟩ := switchSend_eq (t.checkState pkt draws.2)
  obtain ⟨b'', hdetect⟩ := updateDetectTime_eq (t.checkState pkt draws.2).switchSend pkt
  rw [hdetect, hsend]
  exact hcheck

end Session

end Ryu.Bfd
