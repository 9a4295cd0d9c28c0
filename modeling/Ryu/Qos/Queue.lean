import Mathlib.Data.List.Sort
import Ryu.Qos.Switch

/-! # Queues on the ports of a bridge

`set_queue` attaches a QoS record to the ports of a bridge one by one and remembers the
queues of each; `delete_queue` detaches it from the external ports and forgets them all.
The two stay in step as long as no remembered port is left out by `get_external_ports`
and no OVSDB command fails after it took effect.
-/

namespace Ryu.Qos

/-- A `QoS` row. `applied` is the queue list this service last applied to it, none for a row
others made. -/
structure QosRow where
  type : String
  maxRate : Option String
  queues : Dict ℕ QueueConfig
  applied : Option QueueList
  deriving DecidableEq, Repr

/-- A port and its interface. `ofport` is none while OVS has not assigned it. -/
structure PortRow where
  ofport : Option ℤ
  externalIds : Dict String String
  options : Dict String String
  qos : Option QosRow
  deriving DecidableEq, Repr

/-- The ports of one bridge by name. -/
abbrev Ovsdb := Dict String PortRow

/-- `OVSBridge.get_port_name_list`: `list-ports` sorts the names. -/
def getPortNameList (db : Ovsdb) : List String := db.keys.insertionSort (· ≤ ·)

/-- `OVSBridge._get_external_port`, after the `ofport` check of `_get_ports`. -/
def getExternalPort (row : PortRow) : Except PyError Bool :=
  match row.ofport with
  | none => .error .assertionError
  | some n =>
    if n < 0 then .ok false
    else if row.externalIds.entries ≠ [] then .ok false
    else .ok ((row.options.get? "remote_ip").isNone)

/-- `OVSBridge.get_external_ports`: the names, or the first failing read. -/
def getExternalPorts (db : Ovsdb) : List String → Except PyError (List String)
  | [] => .ok []
  | name :: names =>
    match db.get? name with
    | none => .error .assertionError
    | some row =>
      match getExternalPort row with
      | .error e => .error e
      | .ok external =>
        match getExternalPorts db names with
        | .error e => .error e
        | .ok ports => .ok (if external then name :: ports else ports)

/-- `VSCtlContext.set_queue`: a queue of that number keeps what is not set again. -/
def setQueueRow (queues : Dict ℕ QueueConfig) (queueId : ℕ) (config : QueueConfig) :
    Dict ℕ QueueConfig :=
  let old := (queues.get? queueId).getD ⟨none, none⟩
  queues.set queueId ⟨config.maxRate.or old.maxRate, config.minRate.or old.minRate⟩

/-- `VSCtlContext.set_qos`, then `set_queue` for each queue: a port's row is kept or made. -/
def setQosRow (type : String) (maxRate : Option String) (ql : QueueList) (old : Option QosRow) :
    QosRow :=
  let row := old.getD ⟨type, none, Dict.empty, none⟩
  { type := type
    maxRate := maxRate.or row.maxRate
    queues := ql.zipIdx.foldl (fun qs c => setQueueRow qs c.2 c.1) row.queues
    applied := some ql }

/-- `set-qos` and `set-queue` in one transaction. -/
def Ovsdb.setQos (db : Ovsdb) (name type : String) (maxRate : Option String) (ql : QueueList) :
    Ovsdb :=
  match db.get? name with
  | none => db
  | some row => db.set name { row with qos := some (setQosRow type maxRate ql row.qos) }

/-- `del-qos`. -/
def Ovsdb.delQos (db : Ovsdb) (name : String) : Ovsdb :=
  match db.get? name with
  | none => db
  | some row => db.set name { row with qos := none }

/-- The queue list this service last applied to the record a port carries. -/
def Ovsdb.applied (db : Ovsdb) (name : String) : Option QueueList :=
  (db.get? name).bind fun row => row.qos.bind QosRow.applied

/-- How one OVSDB command ends: a raising command may have been committed, as when the wait for
the switch to reload times out. -/
inductive Outcome
  | ok
  | raised (committed : Bool) (e : PyError)
  deriving DecidableEq, Repr

/-- What a request meets: a failing read, or the outcome of each port's command. -/
structure OvsdbEnv where
  readError : Option PyError
  outcome : String → Outcome

/-- The `queues` of a request, before they are checked. -/
structure QueueRequest where
  portName : Option String
  queueType : String
  maxRate : Option String
  queues : List QueueConfig
  deriving DecidableEq, Repr

/-- `Required to specify max_rate or min_rate`. -/
def queueConfig : List QueueConfig → Except PyError QueueList
  | [] => .ok []
  | q :: qs =>
    if q.maxRate = none ∧ q.minRate = none then
      .error (.valueError "Required to specify max_rate or min_rate")
    else (queueConfig qs).map (q :: ·)

def targetPorts (db : Ovsdb) (rest : QueueRequest) : Except PyError (List String) :=
  match rest.portName with
  | none => .ok (getPortNameList db)
  | some name =>
    if name ∈ getPortNameList db then .ok [name]
    else .error (.valueError s!"{name} port is not exists")

/-- `except Exception as msg: raise ValueError(msg)`; a timeout is not an `Exception`. -/
def asValueError : PyError → PyError
  | .timeout => .timeout
  | .valueError m => .valueError m
  | .other m => .valueError m
  | e => .valueError (reprStr e)

/-- The switch's memory and its bridge. -/
structure QueueState where
  qos : QoS
  ovsdb : Ovsdb
  deriving DecidableEq, Repr

/-- The loop of `set_queue` over the ports. -/
def setQueuePorts (rest : QueueRequest) (ql : QueueList) (outcome : String → Outcome) :
    List String → QueueState → Except PyError Unit × QueueState
  | [], s => (.ok (), s)
  | name :: names, s =>
    let db := s.ovsdb.setQos name rest.queueType rest.maxRate ql
    match outcome name with
    | .ok =>
      setQueuePorts rest ql outcome names
        ⟨{ s.qos with queueList := s.qos.queueList.set name ql }, db⟩
    | .raised committed e =>
      (.error (asValueError e), { s with ovsdb := if committed then db else s.ovsdb })

/-- The result of a REST command. -/
inductive Reply
  | success (details : QueueList)
  | failure
  deriving DecidableEq, Repr

/-- `QoS.set_queue`. -/
def setQueue (s : QueueState) (rest : QueueRequest) (env : OvsdbEnv) :
    Except PyError Reply × QueueState :=
  if s.qos.ovsBridge = none then (.ok .failure, s)
  else match env.readError with
    | some e => (.error e, s)
    | none =>
      match targetPorts s.ovsdb rest with
      | .error e => (.error e, s)
      | .ok names =>
        match queueConfig rest.queues with
        | .error e => (.error e, s)
        | .ok ql =>
          let r := setQueuePorts rest ql env.outcome names s
          (r.1.map fun _ => .success ql, r.2)

/-- The loop of `_delete_queue` over the external ports. -/
def delQosPorts (outcome : String → Outcome) : List String → Ovsdb → Except PyError Unit × Ovsdb
  | [], db => (.ok (), db)
  | name :: names, db =>
    match outcome name with
    | .ok => delQosPorts outcome names (db.delQos name)
    | .raised committed e => (.error e, if committed then db.delQos name else db)

/-- `QoS.delete_queue`. -/
def deleteQueue (s : QueueState) (env : OvsdbEnv) : Except PyError Reply × QueueState :=
  if s.qos.ovsBridge = none then (.ok .failure, s)
  else match env.readError with
    | some e => (.error e, s)
    | none =>
      match getExternalPorts s.ovsdb (getPortNameList s.ovsdb) with
      | .error e => (.error e, s)
      | .ok names =>
        match delQosPorts env.outcome names s.ovsdb with
        | (.error e, db) => (.error e, { s with ovsdb := db })
        | (.ok _, db) => (.ok (.success []), ⟨{ s.qos with queueList := Dict.empty }, db⟩)

section Ports

variable {db : Ovsdb} {name name' type : String} {maxRate : Option String} {ql : QueueList}

theorem mem_getPortNameList : name ∈ getPortNameList db ↔ name ∈ db.keys :=
  List.mem_insertionSort _

theorem nodup_getPortNameList (db : Ovsdb) : (getPortNameList db).Nodup :=
  (List.perm_insertionSort _ _).nodup_iff.mpr db.nodup_keys'

theorem mem_keys_setQos : name' ∈ (db.setQos name type maxRate ql).keys ↔ name' ∈ db.keys := by
  unfold Ovsdb.setQos
  cases h : db.get? name with
  | none => rfl
  | some row =>
    have hn : name ∈ db.keys := Dict.mem_keys_iff.mpr (by simp [h])
    simp only [Dict.mem_keys_set, or_iff_right_iff_imp]
    rintro rfl
    exact hn

theorem applied_setQos (hn : name ∈ db.keys) :
    (db.setQos name type maxRate ql).applied name' =
      if name = name' then some ql else db.applied name' := by
  obtain ⟨row, h⟩ := Option.isSome_iff_exists.mp (Dict.mem_keys_iff.mp hn)
  simp only [Ovsdb.setQos, h, Ovsdb.applied, Dict.get?_set]
  split <;> rfl

theorem applied_delQos :
    (db.delQos name).applied name' = if name = name' then none else db.applied name' := by
  unfold Ovsdb.delQos
  cases h : db.get? name with
  | none =>
    by_cases hn : name = name'
    · subst hn; simp [Ovsdb.applied, h]
    · simp [hn]
  | some row =>
    simp only [Ovsdb.applied, Dict.get?_set]
    split <;> rfl

/-- The first port whose command raises, and whether the command was committed. -/
def firstRaised (outcome : String → Outcome) : List String → Option (String × Bool)
  | [] => none
  | name :: names =>
    match outcome name with
    | .ok => firstRaised outcome names
    | .raised committed _ => some (name, committed)

theorem firstRaised_mem {outcome : String → Outcome} {names : List String} {b : Bool}
    (h : firstRaised outcome names = some (name, b)) : name ∈ names := by
  induction names with
  | nil => cases h
  | cons n names ih =>
    cases ho : outcome n with
    | ok => exact List.mem_cons_of_mem _ (ih (by simpa [firstRaised, ho] using h))
    | raised c e =>
      have : n = name ∧ c = b := by simpa [firstRaised, ho] using h
      simp [this.1]

/-- The ports whose records `_delete_queue` takes away. -/
def detached (outcome : String → Outcome) : List String → List String
  | [] => []
  | name :: names =>
    match outcome name with
    | .ok => name :: detached outcome names
    | .raised committed _ => if committed then [name] else []

theorem detached_of_firstRaised_none {outcome : String → Outcome} {names : List String}
    (h : firstRaised outcome names = none) : detached outcome names = names := by
  induction names with
  | nil => rfl
  | cons n names ih =>
    cases ho : outcome n with
    | ok => simp [detached, ho, ih (by simpa [firstRaised, ho] using h)]
    | raised c e => simp [firstRaised, ho] at h

theorem applied_delQosPorts {outcome : String → Outcome} {names : List String} :
    (delQosPorts outcome names db).2.applied name' =
      if name' ∈ detached outcome names then none else db.applied name' := by
  induction names generalizing db with
  | nil => rfl
  | cons n names ih =>
    cases ho : outcome n with
    | ok =>
      simp only [delQosPorts, ho, ih, applied_delQos, detached, List.mem_cons]
      by_cases hn : name' = n
      · simp [hn]
      · simp [hn, Ne.symm hn]
    | raised c e =>
      cases c
      · simp [delQosPorts, ho, detached]
      · simp [delQosPorts, ho, detached, applied_delQos, eq_comm]

theorem delQosPorts_fst (db : Ovsdb) {outcome : String → Outcome} {names : List String} :
    (delQosPorts outcome names db).1 = .ok () ↔ firstRaised outcome names = none := by
  induction names generalizing db with
  | nil => simp [delQosPorts, firstRaised]
  | cons n names ih => cases ho : outcome n <;> simp [delQosPorts, firstRaised, ho, ih]

end Ports

section InStep

/-- The remembered ports are those that carry a record of this service, each with the queue
list last applied. -/
def InStep (s : QueueState) : Prop :=
  ∀ name, s.qos.queueList.get? name = s.ovsdb.applied name

variable {s : QueueState} {rest : QueueRequest} {ql : QueueList} {env : OvsdbEnv}

theorem inStep_setQueuePorts {names : List String} (h : InStep s) (hn : names.Nodup)
    (hk : ∀ name ∈ names, name ∈ s.ovsdb.keys) :
    InStep (setQueuePorts rest ql env.outcome names s).2 ↔
      ∀ name, firstRaised env.outcome names = some (name, true) →
        s.qos.queueList.get? name = some ql := by
  induction names generalizing s with
  | nil => simpa [setQueuePorts, firstRaised] using h
  | cons n names ih =>
    obtain ⟨hnot, hn⟩ := List.nodup_cons.mp hn
    have hkn : n ∈ s.ovsdb.keys := hk n List.mem_cons_self
    cases ho : env.outcome n with
    | ok =>
      have hs : InStep ⟨{ s.qos with queueList := s.qos.queueList.set n ql },
          s.ovsdb.setQos n rest.queueType rest.maxRate ql⟩ := by
        intro name
        simp only [Dict.get?_set, applied_setQos hkn, h name]
      simp only [setQueuePorts, ho, firstRaised]
      rw [ih hs hn fun name hm => mem_keys_setQos.2 (hk name (List.mem_cons_of_mem _ hm))]
      -- the port that raises is a later one, whose queues are still the old ones
      refine forall_congr' fun name => imp_congr_right fun hf => ?_
      have hne : n ≠ name := by
        rintro rfl
        exact hnot (firstRaised_mem hf)
      rw [Dict.get?_set_of_ne hne]
    | raised c e =>
      cases c with
      | false => simpa [setQueuePorts, ho, firstRaised] using h
      | true =>
        simp only [setQueuePorts, ho, firstRaised, if_true, Option.some.injEq, Prod.mk.injEq,
          and_true, forall_eq']
        constructor
        · intro hi
          simpa [applied_setQos hkn] using hi n
        · intro hq name
          simp only [applied_setQos hkn]
          split
          · next he => rw [← he]; exact hq
          · exact h name

theorem inStep_delete (env : OvsdbEnv) (names : List String) (h : InStep s) :
    InStep { s with ovsdb := (delQosPorts env.outcome names s.ovsdb).2 } ↔
      ∀ name ∈ s.qos.queueList.keys, name ∉ detached env.outcome names := by
  simp only [InStep, applied_delQosPorts]
  refine forall_congr' fun name => ?_
  rw [h name, Dict.mem_keys_iff, h name]
  by_cases hm : name ∈ detached env.outcome names
  · cases s.ovsdb.applied name <;> simp [hm]
  · simp [hm]

theorem inStep_clear {names : List String} (h : InStep s)
    (hf : firstRaised env.outcome names = none) :
    InStep ⟨{ s.qos with queueList := Dict.empty }, (delQosPorts env.outcome names s.ovsdb).2⟩ ↔
      ∀ name ∈ s.qos.queueList.keys, name ∈ names := by
  simp only [InStep, applied_delQosPorts, Dict.get?_empty, detached_of_firstRaised_none hf]
  refine forall_congr' fun name => ?_
  rw [Dict.mem_keys_iff, h name]
  by_cases hm : name ∈ names
  · simp [hm]
  · cases s.ovsdb.applied name <;> simp [hm]

end InStep

section Run

inductive QueueEvent
  | setQueue (rest : QueueRequest) (env : OvsdbEnv)
  | deleteQueue (env : OvsdbEnv)

def queueStep (s : QueueState) : QueueEvent → QueueState
  | .setQueue rest env => (setQueue s rest env).2
  | .deleteQueue env => (deleteQueue s env).2

/-- No command that raises takes effect, and a delete reaches every remembered port: with its
ports all detached they are forgotten, and with a port in the way none was detached. -/
def KeepsStep (s : QueueState) : QueueEvent → Prop
  | .setQueue rest env => s.qos.ovsBridge ≠ none → env.readError = none →
      ∀ names ql, targetPorts s.ovsdb rest = .ok names → queueConfig rest.queues = .ok ql →
        ∀ name, firstRaised env.outcome names = some (name, true) →
          s.qos.queueList.get? name = some ql
  | .deleteQueue env => s.qos.ovsBridge ≠ none → env.readError = none →
      ∀ names, getExternalPorts s.ovsdb (getPortNameList s.ovsdb) = .ok names →
        if firstRaised env.outcome names = none then
          ∀ name ∈ s.qos.queueList.keys, name ∈ names
        else ∀ name ∈ s.qos.queueList.keys, name ∉ detached env.outcome names

variable {s : QueueState}

theorem targetPorts_ok {rest : QueueRequest} {db : Ovsdb} {names : List String}
    (h : targetPorts db rest = .ok names) :
    names.Nodup ∧ ∀ name ∈ names, name ∈ db.keys := by
  unfold targetPorts at h
  split at h
  · cases h
    exact ⟨nodup_getPortNameList db, fun name hm => mem_getPortNameList.1 hm⟩
  · split at h
    · next hm =>
      cases h
      exact ⟨List.nodup_singleton _, fun name hn => by
        rw [List.mem_singleton.mp hn]; exact mem_getPortNameList.1 hm⟩
    · cases h

theorem inStep_setQueue (h : InStep s) (rest : QueueRequest) (env : OvsdbEnv) :
    InStep (setQueue s rest env).2 ↔ KeepsStep s (.setQueue rest env) := by
  simp only [setQueue, KeepsStep]
  by_cases hb : s.qos.ovsBridge = none
  · simpa [hb] using h
  cases hr : env.readError with
  | some e => simpa [hb] using h
  | none =>
    cases ht : targetPorts s.ovsdb rest with
    | error e => simpa [hb] using h
    | ok names =>
      cases hq : queueConfig rest.queues with
      | error e => simpa [hb] using h
      | ok ql =>
        obtain ⟨hn, hk⟩ := targetPorts_ok ht
        simpa [hb] using inStep_setQueuePorts h hn hk

theorem inStep_deleteQueue (h : InStep s) (env : OvsdbEnv) :
    InStep (deleteQueue s env).2 ↔ KeepsStep s (.deleteQueue env) := by
  simp only [deleteQueue, KeepsStep]
  by_cases hb : s.qos.ovsBridge = none
  · simpa [hb] using h
  cases hr : env.readError with
  | some e => simpa [hb] using h
  | none =>
    cases ht : getExternalPorts s.ovsdb (getPortNameList s.ovsdb) with
    | error e => simpa [hb] using h
    | ok names =>
      by_cases hf : firstRaised env.outcome names = none
      · have hd := (delQosPorts_fst s.ovsdb).mpr hf
        have hc := inStep_clear (s := s) h hf
        simp only [hb, if_false]
        generalize delQosPorts env.outcome names s.ovsdb = r at hd hc ⊢
        obtain ⟨_, db⟩ := r
        cases hd
        simpa [hb, hf] using hc
      · have hd := mt (delQosPorts_fst s.ovsdb).mp hf
        have hc := inStep_delete env names h
        simp only [hb, if_false]
        generalize delQosPorts env.outcome names s.ovsdb = r at hd hc ⊢
        obtain ⟨(e | _), db⟩ := r
        · simpa [hb, hf] using hc
        · exact absurd rfl hd

/-- After a delete that reports success nothing is remembered. -/
theorem deleteQueue_success {env : OvsdbEnv} {details : QueueList}
    (h : (deleteQueue s env).1 = .ok (.success details)) :
    (deleteQueue s env).2.qos.queueList = Dict.empty := by
  revert h
  unfold deleteQueue
  split
  · simp
  · cases env.readError with
    | some e => simp
    | none =>
      cases getExternalPorts s.ovsdb (getPortNameList s.ovsdb) with
      | error e => simp
      | ok names =>
        dsimp only
        generalize delQosPorts env.outcome names s.ovsdb = r
        obtain ⟨(e | _), db⟩ := r <;> simp

/-- Over every run of requests, memory and bridge stay in step exactly when every request keeps
them so; where they are, no port carries a record after a delete that reports success. -/
theorem queueList_inStep_iff (s : QueueState) (h : InStep s) (evs : List QueueEvent) :
    (Throughout queueStep InStep s evs ↔ EveryStep queueStep KeepsStep s evs) ∧
    (∀ (t : QueueState) (env : OvsdbEnv) (details : QueueList),
      (deleteQueue t env).1 = .ok (.success details) → InStep (deleteQueue t env).2 →
        ∀ name, (deleteQueue t env).2.ovsdb.applied name = none) := by
  constructor
  · apply throughout_iff_everyStep (I := fun _ => True) (fun _ _ _ => trivial) _ trivial h
    rintro t (⟨rest, env⟩ | env) - ht
    · exact inStep_setQueue ht rest env
    · exact inStep_deleteQueue ht env
  · intro t env details hd hi name
    rw [← hi name, deleteQueue_success hd]
    rfl

/-- A bridge whose one port is a tunnel. -/
def tunnelBridge : QueueState where
  qos := { QoS.init 1 with
    ovsdbAddr := some "tcp:127.0.0.1:6632"
    ovsBridge := some ⟨1, "tcp:127.0.0.1:6632", some "s1"⟩ }
  ovsdb := Dict.empty.set "vxlan1"
    ⟨some 1, Dict.empty, Dict.empty.set "remote_ip" "192.0.2.1", none⟩

def allOk : OvsdbEnv := ⟨none, fun _ => .ok⟩

theorem inStep_tunnelBridge : InStep tunnelBridge := by
  intro name
  by_cases hn : "vxlan1" = name <;>
    simp [tunnelBridge, QoS.init, Ovsdb.applied, Dict.get?_set, hn]

theorem queueList_inStep_tunnelBridge :
    Throughout queueStep InStep tunnelBridge [.deleteQueue allOk] ↔
      EveryStep queueStep KeepsStep tunnelBridge [.deleteQueue allOk] :=
  (queueList_inStep_iff tunnelBridge inStep_tunnelBridge _).1

/-- Queues set on a tunnel port are forgotten by a delete that leaves its record. -/
theorem tunnel_record_stays :
    ¬ Throughout queueStep InStep tunnelBridge
      [.setQueue ⟨none, "linux-htb", none, [⟨some "500000", none⟩]⟩ allOk,
        .deleteQueue allOk] := by
  intro h
  have hv := h.last "vxlan1"
  revert hv
  decide

end Run

end Ryu.Qos
