import Mathlib.Data.NNRat.Defs
import Mathlib.Data.List.Lex
import Ryu.Lib.Outcome
import Ryu.Lib.Timer

/-! # The VRRP router

The state machine of `services/protocols/vrrp/router.py` for both versions. Its three timers post
events to the queue the router's event loop takes from, behind what was received meanwhile, so an
event may be handled long after its timer was cancelled. Times are exact.
-/

namespace Ryu.Vrrp

inductive Version where
  | v2
  | v3
  deriving DecidableEq, Repr

/-- `_SEC_IN_MAX_ADVER_INT_UNIT`. -/
def Version.secInMaxAdverIntUnit : Version → ℕ
  | .v2 => 1
  | .v3 => 100

/-- The bytes of an IPv4 or IPv6 address. -/
abbrev Address := List (Fin 256)

/-- The address 10.0.0.`host`. -/
def hostAddress (host : ℕ) : Address := [10, 0, 0, Fin.ofNat 256 host]

/-- `ip_address_lt`: Python compares bytes lexicographically. -/
def ipAddressLt (ip1 ip2 : Address) : Prop := ip1 < ip2

instance (ip1 ip2 : Address) : Decidable (ipAddressLt ip1 ip2) :=
  inferInstanceAs (Decidable (ip1 < ip2))

/-- An advertisement. -/
structure Advertisement where
  version : Version
  vrid : ℕ
  priority : ℕ
  /-- In units of the version. -/
  maxAdverInt : ℤ
  ipAddresses : List Address
  deriving DecidableEq, Repr

/-- `sec_to_max_adver_int`; `int` rounds to zero. -/
def secToMaxAdverInt (version : Version) (seconds : ℚ) : ℤ :=
  let units := seconds * version.secInMaxAdverIntUnit
  units.num.tdiv units.den

/-- `max_adver_int_in_sec`. -/
def Advertisement.maxAdverIntInSec (a : Advertisement) : ℚ :=
  a.maxAdverInt / a.version.secInMaxAdverIntUnit

def priorityAddressOwner : ℕ := 255

def priorityReleaseResponsibility : ℕ := 0

/-- `admin_state`: a flag by default, or a text. -/
inductive AdminState where
  | flag (b : Bool)
  | text (s : String)
  deriving DecidableEq, Repr

/-- `VRRPConfig`. -/
structure VRRPConfig where
  version : Version
  vrid : ℕ
  adminState : AdminState
  priority : ℕ
  ipAddresses : List Address
  advertisementInterval : ℚ
  preemptMode : Bool
  preemptDelay : ℚ
  acceptMode : Bool
  deriving DecidableEq, Repr

/-- `address_owner`. -/
def VRRPConfig.addressOwner (c : VRRPConfig) : Bool := c.priority = priorityAddressOwner

/-- `EventVRRPConfigChangeRequest`: `none` leaves a setting as it is. -/
structure ConfigChange where
  priority : Option ℕ
  advertisementInterval : Option ℚ
  preemptMode : Option Bool
  preemptDelay : Option ℚ
  acceptMode : Option Bool
  deriving DecidableEq, Repr

/-- The settings that `vrrp_config_change_request_handler` gives the configuration. -/
def VRRPConfig.change (config : VRRPConfig) (c : ConfigChange) : VRRPConfig :=
  { config with
    priority := c.priority.getD config.priority
    advertisementInterval := c.advertisementInterval.getD config.advertisementInterval
    preemptMode := c.preemptMode.getD config.preemptMode
    preemptDelay := c.preemptDelay.getD config.preemptDelay
    acceptMode := c.acceptMode.getD config.acceptMode }

/-- `EventVRRPReceived`: what the router reads of the packet. -/
structure Received where
  src : Address
  vrrp : Advertisement
  deriving DecidableEq, Repr

inductive RouterState where
  | initial
  | master
  | backup
  deriving DecidableEq, Repr

/-- `VRRPRouter`, with the advertisements it transmitted. -/
structure Router where
  config : VRRPConfig
  primaryIpAddress : Address
  state : RouterState
  /-- `params.master_adver_interval`, in seconds. -/
  masterAdverInterval : Option ℚ
  /-- The cached advertisement, `self.vrrp`. -/
  vrrp : Option Advertisement
  masterDownTimer : Timer ℚ
  adverTimer : Timer ℚ
  preemptDelayTimer : Timer ℚ
  transmitted : List Advertisement
  deriving DecidableEq, Repr

namespace Router

/-- `skew_time`. -/
def skewTime (r : Router) : Except PyError ℚ :=
  match r.config.version with
  | .v2 => .ok ((256 - r.config.priority) / 256)
  | .v3 =>
    match r.masterAdverInterval with
    | some i => .ok ((256 - r.config.priority) * i / 256)
    | none => .error (.typeError "unsupported operand type(s) for *: 'float' and 'NoneType'")

/-- `master_down_interval`. -/
def masterDownInterval (r : Router) : Except PyError ℚ :=
  match r.masterAdverInterval with
  | some i => r.skewTime.map (3 * i + ·)
  | none => .error (.typeError "unsupported operand type(s) for *: 'float' and 'NoneType'")

/-- The advertisement `send_advertisement` creates if none is cached. -/
def createAdvertisement (r : Router) : Advertisement where
  version := r.config.version
  vrid := r.config.vrid
  priority := r.config.priority
  maxAdverInt := secToMaxAdverInt r.config.version r.config.advertisementInterval
  ipAddresses := r.config.ipAddresses

/-- The advertisement `send_advertisement` sends. -/
def currentAdvertisement (r : Router) : Advertisement := r.vrrp.getD r.createAdvertisement

/-- `send_advertisement`. -/
def sendAdvertisement (release : Bool) (r : Router) : Router :=
  let vrrp := r.currentAdvertisement
  let sent := if release then { vrrp with priority := priorityReleaseResponsibility } else vrrp
  { r with vrrp := some vrrp, transmitted := r.transmitted ++ [sent] }

/-- `master_down_timer.start`, with an interval that may raise. -/
def startMasterDown (now : ℚ) (interval : Except PyError ℚ) (r : Router) : Outcome Router :=
  match interval with
  | .ok i => ({ r with masterDownTimer := .start now i }, none)
  | .error e => (r, some e)

/-- `VRRPV2StateMaster._adver` and `VRRPV3StateMaster._adver`. -/
def adver (now : ℚ) (r : Router) : Router :=
  let r := r.sendAdvertisement false
  { r with adverTimer := .start now r.config.advertisementInterval }

/-- The router gives way to a sender that Master receives. -/
def givesWay (r : Router) (a : Received) : Prop :=
  r.config.priority < a.vrrp.priority ∨
    r.config.priority = a.vrrp.priority ∧ ipAddressLt r.primaryIpAddress a.src

instance (r : Router) (a : Received) : Decidable (r.givesWay a) :=
  inferInstanceAs (Decidable (_ ∨ _))

/-- `VRRPV2StateMaster.vrrp_received`. -/
def masterReceivedV2 (now : ℚ) (a : Received) (r : Router) : Outcome Router :=
  if a.vrrp.priority = 0 then (r.adver now, none)
  else if r.givesWay a then
    let r := { r with adverTimer := .idle, state := .backup }
    r.startMasterDown now r.masterDownInterval
  else (r, none)

/-- `VRRPV3StateMaster.vrrp_received`. -/
def masterReceivedV3 (now : ℚ) (a : Received) (r : Router) : Outcome Router :=
  if a.vrrp.priority = 0 then (r.adver now, none)
  else if r.givesWay a then
    let r := { r with
      adverTimer := .idle
      masterAdverInterval := some a.vrrp.maxAdverIntInSec
      state := .backup }
    r.startMasterDown now r.masterDownInterval
  else (r, none)

/-- `VRRPV2StateBackup._master_down` and `VRRPV3StateBackup._master_down`. -/
def masterDown (now : ℚ) (r : Router) : Router :=
  let r := r.sendAdvertisement false
  { r with
    preemptDelayTimer := .idle
    state := .master
    adverTimer := .start now r.config.advertisementInterval }

/-- `preempt_delay_timer.start`, unless it is running. -/
def startPreemptDelay (now : ℚ) (r : Router) : Router :=
  if r.preemptDelayTimer.isRunning then r
  else { r with preemptDelayTimer := .start now r.config.preemptDelay }

/-- `VRRPV2StateBackup.vrrp_received`. -/
def backupReceivedV2 (now : ℚ) (a : Received) (r : Router) : Outcome Router :=
  if a.vrrp.priority = 0 then r.startMasterDown now r.skewTime
  else if ¬ r.config.preemptMode ∨ r.config.priority ≤ a.vrrp.priority then
    let r := { r with preemptDelayTimer := .idle }
    r.startMasterDown now r.masterDownInterval
  else if 0 < r.config.preemptDelay then
    (r.startPreemptDelay now).startMasterDown now r.masterDownInterval
  else (r, none)

/-- `VRRPV3StateBackup.vrrp_received`: the preempt delay timer is not cancelled. -/
def backupReceivedV3 (now : ℚ) (a : Received) (r : Router) : Outcome Router :=
  if a.vrrp.priority = 0 then r.startMasterDown now r.skewTime
  else if ¬ r.config.preemptMode ∨ r.config.priority ≤ a.vrrp.priority then
    let r := { r with masterAdverInterval := some a.vrrp.maxAdverIntInSec }
    r.startMasterDown now r.masterDownInterval
  else if 0 < r.config.preemptDelay then
    (r.startPreemptDelay now).startMasterDown now r.masterDownInterval
  else (r, none)

/-- `vrrp_received_handler`. -/
def vrrpReceived (now : ℚ) (a : Received) (r : Router) : Outcome Router :=
  match r.state, r.config.version with
  | .initial, _ => (r, none)
  | .master, .v2 => r.masterReceivedV2 now a
  | .master, .v3 => r.masterReceivedV3 now a
  | .backup, .v2 => r.backupReceivedV2 now a
  | .backup, .v3 => r.backupReceivedV3 now a

/-- `vrrp_shutdown_request_handler`. -/
def shutdownRequest (r : Router) : Router :=
  match r.state with
  | .initial => r
  | .master =>
    { ({ r with adverTimer := .idle }).sendAdvertisement true with state := .initial }
  | .backup => { r with masterDownTimer := .idle, preemptDelayTimer := .idle, state := .initial }

/-- `vrrp_config_change_request` of the Master states. -/
def masterConfigChange (now : ℚ) (c : ConfigChange) (r : Router) : Router :=
  if c.priority.isSome ∨ c.advertisementInterval.isSome then r.adver now else r

/-- `vrrp_config_change_request` of the Backup states. -/
def backupConfigChange (now : ℚ) (c : ConfigChange) (r : Router) : Router :=
  let r :=
    if c.priority.isSome ∧ r.config.addressOwner then
      ({ r with masterDownTimer := .idle }).masterDown now
    else r
  if c.preemptMode.isSome ∨ c.preemptDelay.isSome then { r with preemptDelayTimer := .idle } else r

/-- `vrrp_config_change_request_handler`. -/
def configChangeRequest (now : ℚ) (c : ConfigChange) (r : Router) : Router :=
  -- the cached advertisement is to be created again
  let r := { r with config := r.config.change c, vrrp := none }
  match r.state with
  | .initial => r
  | .master => r.masterConfigChange now c
  | .backup => r.backupConfigChange now c

/-- The router before `start`. -/
def create (config : VRRPConfig) (primaryIpAddress : Address) : Router where
  config := config
  primaryIpAddress := primaryIpAddress
  state := .initial
  masterAdverInterval := none
  vrrp := none
  masterDownTimer := .idle
  adverTimer := .idle
  preemptDelayTimer := .idle
  transmitted := []

/-- `start` as Master. -/
def startMaster (now : ℚ) (r : Router) : Router :=
  let r := r.sendAdvertisement false
  { r with state := .master, adverTimer := .start now r.config.advertisementInterval }

/-- `start` as Backup. -/
def startBackup (now : ℚ) (r : Router) : Outcome Router :=
  let r := { r with state := .backup }
  r.startMasterDown now r.masterDownInterval

/-- `VRRPRouterV2.start`. -/
def startV2 (now : ℚ) (r : Router) : Outcome Router :=
  let r := { r with masterAdverInterval := some r.config.advertisementInterval }
  if r.config.addressOwner then (r.startMaster now, none) else r.startBackup now

/-- `VRRPRouterV3.start`. -/
def startV3 (now : ℚ) (r : Router) : Outcome Router :=
  if r.config.addressOwner ∨ r.config.adminState = .text "master" then (r.startMaster now, none)
  else ({ r with masterAdverInterval := some r.config.advertisementInterval }).startBackup now

/-- A router of its version, created and started. -/
def start (now : ℚ) (config : VRRPConfig) (primaryIpAddress : Address) : Outcome Router :=
  match config.version with
  | .v2 => (create config primaryIpAddress).startV2 now
  | .v3 => (create config primaryIpAddress).startV3 now

/-- `VRRPRouter`'s own timers. -/
inductive TimerId where
  | masterDown
  | adver
  | preemptDelay
  deriving DecidableEq, Repr

def timer (r : Router) : TimerId → Timer ℚ
  | .masterDown => r.masterDownTimer
  | .adver => r.adverTimer
  | .preemptDelay => r.preemptDelayTimer

/-- A timer of the router posts its event. -/
def fireTimer (r : Router) : TimerId → Router
  | .masterDown => { r with masterDownTimer := r.masterDownTimer.fire }
  | .adver => { r with adverTimer := r.adverTimer.fire }
  | .preemptDelay => { r with preemptDelayTimer := r.preemptDelayTimer.fire }

/-- `master_down_handler`, `adver_handler` and `preempt_delay_handler`. -/
def timerExpired (now : ℚ) (t : TimerId) (r : Router) : Router :=
  match r.state, t with
  | .master, .adver => r.adver now
  | .backup, .masterDown => r.masterDown now
  | .backup, .preemptDelay => r.masterDown now
  | _, _ => r

end Router

/-- What others send to the router. -/
inductive Request where
  | received (a : Received)
  | shutdown
  | configChange (c : ConfigChange)
  deriving DecidableEq, Repr

/-- What waits in the router's queue. -/
inductive Event where
  | timer (t : Router.TimerId)
  | request (q : Request)
  deriving DecidableEq, Repr

/-- The handler of an event. -/
def Router.handle (now : ℚ) (e : Event) (r : Router) : Outcome Router :=
  match e with
  | .timer t => (r.timerExpired now t, none)
  | .request (.received a) => r.vrrpReceived now a
  | .request .shutdown => (r.shutdownRequest, none)
  | .request (.configChange c) => (r.configChangeRequest now c, none)

/-- The router, its queue and the time. -/
structure System where
  router : Router
  events : List Event
  now : ℚ
  deriving DecidableEq, Repr

inductive Input where
  | post (q : Request)
  | tick (d : ℚ≥0)
  | fire (t : Router.TimerId)
  /-- The event loop takes the next event. -/
  | handle
  deriving DecidableEq

namespace System

/-- A router just started. -/
def start (now : ℚ) (config : VRRPConfig) (primaryIpAddress : Address) : System where
  router := (Router.start now config primaryIpAddress).1
  events := []
  now := now

/-- `_event_loop`: a handler that raises leaves what it did until then. -/
def step (s : System) : Input → System
  | .post q => { s with events := s.events ++ [.request q] }
  | .tick d => { s with now := s.now + d }
  | .fire t =>
    if (s.router.timer t).isDue s.now then
      { s with router := s.router.fireTimer t, events := s.events ++ [.timer t] }
    else s
  | .handle =>
    match s.events with
    | [] => s
    | e :: es => { s with router := (s.router.handle s.now e).1, events := es }

end System

end Ryu.Vrrp
