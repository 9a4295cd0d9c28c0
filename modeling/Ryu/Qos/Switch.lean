import Ryu.Lib.Dict
import Ryu.Lib.Python
import Ryu.Lib.Run

/-! # The QoS switches of the REST service

A `QoS` object holds what `rest_qos` remembers of one switch: its VLAN counters, the
queues set on its ports and its OVSDB link. The link is set and deleted by
`conf_switch` events; it is what the events ask for, except that an address that was
deleted cannot be set again.
-/

namespace Ryu.Qos

/-- `VLANID_NONE`. -/
def vlanidNone : ℕ := 0

/-- `OVSBridge`, as far as it is read: `brName` is known once `init` has run. -/
structure OVSBridge where
  datapathId : ℕ
  ovsdbAddr : String
  brName : Option String
  deriving DecidableEq, Repr

/-- The `config` of one queue. -/
structure QueueConfig where
  maxRate : Option String
  minRate : Option String
  deriving DecidableEq, Repr

/-- The queues set on a port; `queue_id` is the position. -/
abbrev QueueList := List QueueConfig

structure QoS where
  dpId : ℕ
  vlanList : Dict ℕ ℕ
  queueList : Dict String QueueList
  ovsdbAddr : Option String
  ovsBridge : Option OVSBridge
  deriving DecidableEq, Repr

/-- `QoS.__init__`. -/
def QoS.init (dpId : ℕ) : QoS :=
  ⟨dpId, Dict.empty.set vlanidNone 0, Dict.empty, none, none⟩

/-- What `OVSBridge.init` meets: whether the address is valid, and the names of the bridges
OVSDB finds for the datapath (none when the command fails or times out). -/
structure InitEnv where
  validOvsdbAddr : Bool
  find : Option (List String)
  deriving DecidableEq, Repr

/-- `OVSBridge.init`. -/
def OVSBridge.init (b : OVSBridge) (env : InitEnv) : Except PyError OVSBridge :=
  if env.validOvsdbAddr then
    match b.brName, env.find with
    | some _, _ => .ok b
    | none, none => .error .timeout
    | none, some [name] => .ok { b with brName := some name }
    | none, some _ => .error (.other "no bridge for datapath_id")
  else .error (.valueError s!"Invalid OVSDB address: {b.ovsdbAddr}")

/-- `QoS.set_ovsdb_addr`. -/
def QoS.setOvsdbAddr (q : QoS) (dpid : ℕ) (ovsdbAddr : Option String) (env : InitEnv) :
    Except PyError Unit × QoS :=
  if q.ovsdbAddr = ovsdbAddr then (.ok (), q)
  else match ovsdbAddr with
    | none => (.ok (), { q with ovsBridge := none })
    | some addr =>
      match OVSBridge.init ⟨dpid, addr, none⟩ env with
      | .error _ => (.error (.valueError "ovsdb addr is not available."), q)
      | .ok bridge => (.ok (), { q with ovsdbAddr := some addr, ovsBridge := some bridge })

/-- `QoSOfsList`. -/
abbrev OfsList := Dict ℕ QoS

/-- `QoSController.regist_ofs`. -/
def registOfs (ofs : OfsList) (dpId : ℕ) : OfsList :=
  if (ofs.get? dpId).isSome then ofs else ofs.setdefault dpId (QoS.init dpId)

/-- `QoSController.unregist_ofs`. -/
def unregistOfs (ofs : OfsList) (dpId : ℕ) : OfsList := ofs.erase dpId

theorem get?_registOfs_unregistOfs (ofs : OfsList) (d : ℕ) :
    (registOfs (unregistOfs ofs d) d).get? d = some (QoS.init d) := by
  simp [registOfs, unregistOfs, Dict.get?_setdefault, Dict.get?_erase]

/-- A `conf_switch` event for the key `OVSDB_ADDR`. -/
inductive AddrEvent
  | set (value : String) (env : InitEnv)
  | delete
  deriving DecidableEq, Repr

/-- `QoSController.set_ovsdb_addr` and `delete_ovsdb_addr`: unknown switches are skipped, an
exception is left to the event loop. -/
def confSwitch (ofs : OfsList) (dpid : ℕ) (ev : AddrEvent) : OfsList :=
  match ofs.get? dpid with
  | none => ofs
  | some q =>
    match ev with
    | .set value env => ofs.set dpid (q.setOvsdbAddr dpid (some value) env).2
    | .delete => ofs.set dpid (q.setOvsdbAddr dpid none ⟨false, none⟩).2

/-- The bridge `init` makes of a fresh `OVSBridge`, if it succeeds. -/
def InitEnv.bridge (env : InitEnv) (dpid : ℕ) (addr : String) : Option OVSBridge :=
  (OVSBridge.init ⟨dpid, addr, none⟩ env).toOption

/-- The link the events of one switch ask for: the bridge of the last set that succeeded, none
after a delete, and no change by a set that fails or repeats the address of the bridge. -/
def askedLink (dpid : ℕ) (link : Option OVSBridge) : AddrEvent → Option OVSBridge
  | .set value env =>
    if link.map OVSBridge.ovsdbAddr = some value then link
    else (env.bridge dpid value).or link
  | .delete => none

section OvsdbAddr

variable {q : QoS} {d : ℕ} {addr : String} {env : InitEnv}

theorem bridge_ovsdbAddr {b : OVSBridge} (h : env.bridge d addr = some b) :
    b.ovsdbAddr = addr := by
  unfold InitEnv.bridge OVSBridge.init at h
  rcases hv : env.validOvsdbAddr <;> rcases hf : env.find with _ | (_ | ⟨name, _ | _⟩) <;>
    simp_all [Except.toOption]
  rw [← h]

theorem setOvsdbAddr_same {a : Option String} (h : q.ovsdbAddr = a) :
    q.setOvsdbAddr d a env = (.ok (), q) := by
  simp [QoS.setOvsdbAddr, h]

theorem setOvsdbAddr_some (h : q.ovsdbAddr ≠ some addr) :
    (q.setOvsdbAddr d (some addr) env).2 =
      match env.bridge d addr with
      | none => q
      | some b => { q with ovsdbAddr := some addr, ovsBridge := some b } := by
  simp only [QoS.setOvsdbAddr, if_neg h, InitEnv.bridge]
  cases OVSBridge.init ⟨d, addr, none⟩ env <;> rfl

theorem setOvsdbAddr_none_ovsBridge (h : q.ovsdbAddr = none → q.ovsBridge = none) :
    (q.setOvsdbAddr d none env).2 = { q with ovsBridge := none } := by
  by_cases hn : q.ovsdbAddr = none
  · rw [setOvsdbAddr_same hn, ← h hn]
  · simp [QoS.setOvsdbAddr, hn]

/-- A set that raises changes nothing. -/
theorem setOvsdbAddr_error {a : Option String} {e : PyError}
    (h : (q.setOvsdbAddr d a env).1 = .error e) : (q.setOvsdbAddr d a env).2 = q := by
  revert h
  unfold QoS.setOvsdbAddr
  split
  · simp
  · cases a with
    | none => simp
    | some addr => cases hi : OVSBridge.init ⟨d, addr, none⟩ env <;> simp [hi]

/-- A bridge is bound to the stored address. -/
def QoS.Linked (q : QoS) : Prop :=
  ∀ b, q.ovsBridge = some b → q.ovsdbAddr = some b.ovsdbAddr

theorem QoS.Linked.none (h : q.Linked) (hn : q.ovsdbAddr = none) : q.ovsBridge = none := by
  cases hb : q.ovsBridge with
  | none => rfl
  | some b => rw [h b hb] at hn; cases hn

/-- A set event asks for the stored address, whose bridge is gone but could be made. -/
def QoS.Stale (q : QoS) (d : ℕ) : AddrEvent → Prop
  | .set value env =>
    q.ovsdbAddr = some value ∧ q.ovsBridge = none ∧ (env.bridge d value).isSome
  | .delete => False

/-- One event on a registered switch. -/
def QoS.addrStep (q : QoS) (d : ℕ) : AddrEvent → QoS
  | .set value env => (q.setOvsdbAddr d (some value) env).2
  | .delete => (q.setOvsdbAddr d Option.none ⟨false, Option.none⟩).2

theorem QoS.Linked.addrStep (h : q.Linked) (ev : AddrEvent) : (q.addrStep d ev).Linked := by
  cases ev with
  | delete =>
    rw [QoS.addrStep, setOvsdbAddr_none_ovsBridge h.none]
    intro b hb
    cases hb
  | set value env =>
    by_cases hs : q.ovsdbAddr = some value
    · simpa [QoS.addrStep, setOvsdbAddr_same hs] using h
    · rw [QoS.addrStep, setOvsdbAddr_some hs]
      cases hb : env.bridge d value with
      | none => exact h
      | some b =>
        rintro b' ⟨⟩
        rw [bridge_ovsdbAddr hb]

/-- One event moves the link as asked exactly when the event is not stale. -/
theorem addrStep_ovsBridge (h : q.Linked) (ev : AddrEvent) :
    (q.addrStep d ev).ovsBridge = askedLink d q.ovsBridge ev ↔ ¬ q.Stale d ev := by
  cases ev with
  | delete => simp [QoS.addrStep, setOvsdbAddr_none_ovsBridge h.none, askedLink, QoS.Stale]
  | set value env =>
    by_cases hs : q.ovsdbAddr = some value
    · rw [QoS.addrStep, setOvsdbAddr_same hs]
      cases hb : q.ovsBridge with
      | none => cases hi : env.bridge d value <;> simp [askedLink, QoS.Stale, hs, hb, hi]
      | some b =>
        have ha : b.ovsdbAddr = value := by simpa [hs] using (h b hb).symm
        simp [askedLink, QoS.Stale, hb, ha]
    · have hne : q.ovsBridge.map OVSBridge.ovsdbAddr ≠ some value := by
        intro hm
        obtain ⟨b, hb, rfl⟩ := Option.map_eq_some_iff.mp hm
        exact hs (h b hb)
      rw [QoS.addrStep, setOvsdbAddr_some hs]
      cases hb : env.bridge d value <;> simp [askedLink, QoS.Stale, hs, hne, hb]

end OvsdbAddr

section Run

/-- The service's switches beside the link asked for on switch `d`. -/
structure LinkState where
  ofs : OfsList
  asked : Option OVSBridge
  deriving DecidableEq, Repr

def linkStep (d : ℕ) (s : LinkState) (e : ℕ × AddrEvent) : LinkState :=
  ⟨confSwitch s.ofs e.1 e.2, if e.1 = d then askedLink d s.asked e.2 else s.asked⟩

/-- Switch `d` is registered and its bridge is the one asked for. -/
def LinkAsAsked (d : ℕ) (s : LinkState) : Prop :=
  (s.ofs.get? d).map QoS.ovsBridge = some s.asked

instance (d : ℕ) : DecidablePred (LinkAsAsked d) := fun s =>
  inferInstanceAs (Decidable ((s.ofs.get? d).map QoS.ovsBridge = some s.asked))

/-- An event for `d` is not stale. -/
def NotStale (d : ℕ) (s : LinkState) (e : ℕ × AddrEvent) : Prop :=
  e.1 = d → ∀ q, s.ofs.get? d = some q → ¬ q.Stale d e.2

theorem get?_confSwitch (ofs : OfsList) (d d' : ℕ) (ev : AddrEvent) :
    (confSwitch ofs d ev).get? d' =
      if d = d' then (ofs.get? d').map (QoS.addrStep · d ev) else ofs.get? d' := by
  unfold confSwitch
  by_cases hd : d = d'
  · subst hd
    cases hq : ofs.get? d with
    | none => simp [hq]
    | some q => cases ev <;> simp [QoS.addrStep]
  · cases ofs.get? d with
    | none => simp [hd]
    | some q => cases ev <;> simp [hd, Dict.get?_set_of_ne hd]

/-- A failed set changes nothing, and over every run of events the bridge of a registered
switch is the one asked for exactly when no event is stale. -/
theorem ovsBridge_asAsked_iff (ofs : OfsList) (d : ℕ) (evs : List (ℕ × AddrEvent)) :
    (∀ (q : QoS) (a : Option String) (env : InitEnv) (e : PyError),
      (q.setOvsdbAddr d a env).1 = .error e → (q.setOvsdbAddr d a env).2 = q) ∧
    (Throughout (linkStep d) (LinkAsAsked d) ⟨registOfs (unregistOfs ofs d) d, none⟩ evs ↔
      EveryStep (linkStep d) (NotStale d) ⟨registOfs (unregistOfs ofs d) d, none⟩ evs) := by
  refine ⟨fun q a env e h => setOvsdbAddr_error h, ?_⟩
  apply throughout_iff_everyStep (I := fun s => ∀ q, s.ofs.get? d = some q → q.Linked)
  · rintro s ⟨d', ev⟩ hs q hq
    simp only [linkStep, get?_confSwitch] at hq
    split at hq
    · next hd =>
      subst hd
      obtain ⟨q', hq', rfl⟩ := Option.map_eq_some_iff.mp hq
      exact (hs q' hq').addrStep ev
    · exact hs q hq
  · rintro s ⟨d', ev⟩ hs hl
    obtain ⟨q, hq, hb⟩ := Option.map_eq_some_iff.mp hl
    by_cases hd : d' = d
    · subst hd
      simp only [LinkAsAsked, linkStep, get?_confSwitch, if_true, hq, Option.map_some,
        Option.some.injEq, NotStale, forall_const, forall_eq']
      rw [← hb]
      exact addrStep_ovsBridge (hs q hq) ev
    · simpa [LinkAsAsked, linkStep, get?_confSwitch, NotStale, hd] using hl
  · intro q hq
    rw [get?_registOfs_unregistOfs] at hq
    cases hq
    intro b hb
    cases hb
  · simp [LinkAsAsked, get?_registOfs_unregistOfs, QoS.init]

/-- Set, delete, set again: the second set asks for a bridge and gets none. -/
theorem ovsBridge_not_recreated :
    ¬ LinkAsAsked 1 ([(1, .set "tcp:127.0.0.1:6632" ⟨true, some ["s1"]⟩), (1, .delete),
      (1, .set "tcp:127.0.0.1:6632" ⟨true, some ["s1"]⟩)].foldl (linkStep 1)
        ⟨registOfs (unregistOfs Dict.empty 1) 1, none⟩) := by
  decide

end Run

end Ryu.Qos
