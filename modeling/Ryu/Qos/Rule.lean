import Ryu.Ofctl.Flow
import Ryu.Qos.Match
import Ryu.Qos.Switch

/-! # QoS rules

A rule is a flow of the first table. Its cookie carries the VLAN it was set for and an
identifier counted for that VLAN. `set_qos` adds rules, `get_qos` lists them and
`delete_qos` removes those of an identifier and a VLAN, both from the flow statistics.
-/

namespace Ryu.Qos

open Numeral

def qosTableId : ℕ := 0
def defaultFlowPriority : ℕ := 0
def qosPriorityMin : ℕ := 1
def qosPriorityMax : ℕ := 65534
def cookieShiftVlanid : ℕ := 32
def uint32Max : ℕ := 0xffffffff

/-- A VLAN of a request: all, or an identifier, none being 0. -/
inductive VlanId
  | all
  | id (vlanId : ℕ)
  deriving DecidableEq, Repr

/-- `_conv_toint_vlanid`. -/
def convTointVlanid : VlanId → Except PyError VlanId
  | .all => .ok .all
  | .id vlanId =>
    if vlanId ≠ vlanidNone ∧ (vlanId < 2 ∨ 4094 < vlanId) then
      .error (.valueError "Invalid \x7bvlan_id\x7d value. Set [2-4094]")
    else .ok (.id vlanId)

/-- The `actions` of a request. -/
structure RestAction where
  mark : Option Value
  meter : Option Value
  queue : Option Value
  deriving DecidableEq, Repr

/-- The body of a request to set a rule. -/
structure RuleBody where
  ofMatch : Option (Dict RestKey Value)
  priority : Option Value
  actions : Option RestAction
  deriving DecidableEq, Repr

/-- `int(value)`. -/
def pyInt : Value → Except PyError ℤ
  | .int n => .ok n
  | .str s =>
    match int? s with
    | some n => .ok n
    | none => .error (.valueError "invalid literal for int() with base 10")

/-- `_cookie_to_qosid`. -/
def cookieToQosid (cookie : ℕ) : ℕ := cookie &&& uint32Max

/-- One turn of the loop of `_get_cookie`. -/
def nextCookie (vlanList : Dict ℕ ℕ) (vlanId : ℕ) : ℕ × Dict ℕ ℕ :=
  let count := ((vlanList.get? vlanId).getD 0 + 1) &&& uint32Max
  ((vlanId <<< cookieShiftVlanid) + count, vlanList.set vlanId count)

/-- The loop of `_get_cookie`. -/
def nextCookies : List ℕ → Dict ℕ ℕ → List (ℕ × ℕ) × Dict ℕ ℕ
  | [], vlanList => ([], vlanList)
  | vlanId :: ids, vlanList =>
    let r := nextCookie vlanList vlanId
    let rest := nextCookies ids r.2
    ((r.1, vlanId) :: rest.1, rest.2)

/-- `_get_cookie`: the cookies with their VLANs. -/
def getCookie (vlanList : Dict ℕ ℕ) : VlanId → List (ℕ × ℕ) × Dict ℕ ℕ
  | .all => nextCookies vlanList.keys vlanList
  | .id vlanId => nextCookies [vlanId] vlanList

/-- The actions of a rule; a request without any asks for queue 0. -/
def ruleActions : Option RestAction → Except PyError (List ActionDict)
  | none => .ok [.setQueue (.int 0), .gotoTable (qosTableId + 1)]
  | some action =>
    let rest := (action.meter.map ActionDict.meter).toList ++
      (action.queue.map ActionDict.setQueue).toList ++ [.gotoTable (qosTableId + 1)]
    match action.mark with
    | none => .ok rest
    | some mark => (pyInt mark).map fun n => .setField "ip_dscp" n :: rest

/-- `match_value[REST_DL_VLAN] = vlan_id`, where there is a VLAN. -/
def withVlan (value : Dict RestKey Value) (vlanId : ℕ) : Dict RestKey Value :=
  if vlanId = vlanidNone then value else value.set (.legacy .dlVlan) (.int vlanId)

variable (ac : AddrConv)

/-- `_set_qos`: the flow that is added, and the body it leaves, whose match it completes. -/
def setRule (cookie : ℕ) (rest : RuleBody) (vlanId : ℕ) : Except PyError Flow × RuleBody :=
  match rest.ofMatch with
  | none => (.error (.keyError "match"), rest)
  | some value =>
    let value := withVlan value vlanId
    let rest := { rest with ofMatch := some value }
    match pyInt (rest.priority.getD (.int qosPriorityMin)) with
    | .error e => (.error e, rest)
    | .ok priority =>
      if qosPriorityMax < priority then
        (.error (.valueError "Invalid priority value. Set [1-65534]"), rest)
      else
        let r := toOpenflow value
        let rest := { rest with ofMatch := some r.2 }
        match r.1 with
        | .error e => (.error e, rest)
        | .ok ofMatch =>
          match ruleActions rest.actions with
          | .error e => (.error e, rest)
          | .ok actions =>
            match modFlowEntry ac cookie priority ofMatch actions with
            | .error _ => (.error (.valueError "Invalid rule parameter."), rest)
            | .ok flow => (.ok flow, rest)

/-- The message of an added rule. -/
structure RuleMsg where
  qosId : ℕ
  vlanId : Option ℕ
  deriving DecidableEq, Repr

def ruleMsg (cookie vlanId : ℕ) : RuleMsg :=
  ⟨cookieToQosid cookie, if vlanId = vlanidNone then none else some vlanId⟩

/-- A switch as the service sees it: what it remembers, and the flow tables. -/
structure RuleSwitch where
  qos : QoS
  table : List Flow
  deriving DecidableEq

/-- The loop of `set_qos`: an exception leaves the flows that were added. -/
def setRules : List (ℕ × ℕ) → RuleBody → List Flow →
    Except PyError (List RuleMsg) × RuleBody × List Flow
  | [], rest, table => (.ok [], rest, table)
  | (cookie, vlanId) :: cookies, rest, table =>
    match setRule ac cookie rest vlanId with
    | (.error e, rest) => (.error e, rest, table)
    | (.ok flow, rest) =>
      let r := setRules cookies rest (addFlow table flow)
      (r.1.map fun msgs => ruleMsg cookie vlanId :: msgs, r.2)

/-- `set_qos`. -/
def setQos (s : RuleSwitch) (rest : RuleBody) (vlanId : VlanId) :
    Except PyError (List RuleMsg) × RuleBody × RuleSwitch :=
  let c := getCookie s.qos.vlanList vlanId
  let r := setRules ac c.1 rest s.table
  (r.1, r.2.1, { qos := { s.qos with vlanList := c.2 }, table := r.2.2 })

/-- The digits after the first occurrence of a text that digits follow. -/
def searchDigits (start : Text) : Text → Option Text
  | [] => none
  | c :: s =>
    let digits := ((c :: s).drop start.length).takeWhile Char.isDigit
    if start <+: c :: s ∧ digits ≠ [] then some digits else searchDigits start s

/-- An action of a listed rule. -/
inductive RuleAction
  | mark (value : Text)
  | meter (meterId : Text)
  | queue (queueId : Text)
  deriving DecidableEq, Repr

/-- One turn of the loop of `Action.to_rest`; a pattern is searched in texts only. -/
def actionToRest : ActionStr → Except PyError (List RuleAction)
  | .writeActions => .error (.typeError "expected string or bytes-like object")
  | .text act =>
    .ok (((searchDigits "SET_FIELD: \x7bip_dscp:".toList act).map RuleAction.mark).toList ++
      ((searchDigits "METER:".toList act).map RuleAction.meter).toList ++
      ((searchDigits "SET_QUEUE:".toList act).map RuleAction.queue).toList)

/-- `Action.to_rest`. -/
def actionsToRest : List ActionStr → Except PyError (List RuleAction)
  | [] => .ok []
  | act :: acts =>
    match actionToRest act, actionsToRest acts with
    | .error e, _ => .error e
    | .ok _, .error e => .error e
    | .ok a, .ok as => .ok (a ++ as)

/-- A rule as it is listed. -/
structure RestRule where
  qosId : ℕ
  priority : ℕ
  ofMatch : Dict RestKey Value
  actions : List RuleAction
  deriving DecidableEq, Repr

/-- `_to_rest_rule`. -/
def toRestRule (flow : FlowStat) : Except PyError RestRule :=
  match toRest ac flow.ofMatch, actionsToRest flow.actions with
  | .error e, _ => .error e
  | .ok _, .error e => .error e
  | .ok ofMatch, .ok actions => .ok ⟨cookieToQosid flow.cookie, flow.priority, ofMatch, actions⟩

/-- The VLAN of a flow, a text unless the match has none. -/
def vidOf (flow : FlowStat) : Value :=
  (flow.ofMatch.get? (.legacy .dlVlan)).getD (.int vlanidNone)

/-- The VLAN asked for is all, or the one that is given. -/
def VlanId.Covers (vlanId : VlanId) (vid : Value) : Prop :=
  match vlanId with
  | .all => True
  | .id n => Value.int n = vid

instance (vlanId : VlanId) (vid : Value) : Decidable (vlanId.Covers vid) := by
  unfold VlanId.Covers
  split <;> infer_instance

/-- A flow that `get_qos` lists. -/
def Lists (vlanId : VlanId) (flow : FlowStat) : Prop :=
  flow.tableId = .int qosTableId ∧ flow.priority ≠ defaultFlowPriority ∧ vlanId.Covers (vidOf flow)

instance (vlanId : VlanId) (flow : FlowStat) : Decidable (Lists vlanId flow) :=
  inferInstanceAs (Decidable (_ ∧ _))

/-- The loop of `get_qos`: the rules by VLAN. -/
def collectRules (vlanId : VlanId) :
    List FlowStat → Dict Value (List RestRule) → Except PyError (Dict Value (List RestRule))
  | [], rules => .ok rules
  | flow :: flows, rules =>
    if Lists vlanId flow then
      match toRestRule ac flow with
      | .error e => .error e
      | .ok rule =>
        collectRules vlanId flows
          (rules.set (vidOf flow) ((rules.get? (vidOf flow)).getD [] ++ [rule]))
    else collectRules vlanId flows rules

/-- `get_qos`. -/
def getQos (s : RuleSwitch) (vlanId : VlanId) : Except PyError (Dict Value (List RestRule)) :=
  collectRules ac vlanId (getFlowStats ac s.table) Dict.empty

/-- An identifier of a request: all, or a number. -/
inductive QosId
  | all
  | id (n : ℤ)
  deriving DecidableEq, Repr

/-- The identifier of a request to delete rules. -/
def toQosId : Option Value → Except PyError QosId
  | none => .error (.valueError "Invalid qos id.")
  | some v =>
    if v = .str "all".toList then .ok .all
    else match pyInt v with
      | .ok n => .ok (.id n)
      | .error _ => .error (.valueError "Invalid qos id.")

def QosId.Covers (qosId : QosId) (ruleid : ℕ) : Prop :=
  match qosId with
  | .all => True
  | .id n => n = ruleid

instance (qosId : QosId) (ruleid : ℕ) : Decidable (qosId.Covers ruleid) := by
  unfold QosId.Covers
  split <;> infer_instance

/-- A flow that `delete_qos` selects, whatever its table. -/
def Selects (qosId : QosId) (vlanId : VlanId) (flow : FlowStat) : Prop :=
  flow.priority ≠ defaultFlowPriority ∧ qosId.Covers (cookieToQosid flow.cookie) ∧
    vlanId.Covers (vidOf flow)

instance (qosId : QosId) (vlanId : VlanId) (flow : FlowStat) :
    Decidable (Selects qosId vlanId flow) :=
  inferInstanceAs (Decidable (_ ∧ _))

/-- The VLANs of the flows that stay. -/
def stayingVlans (qosId : QosId) (vlanId : VlanId) (flows : List FlowStat) : List Value :=
  (flows.filter fun flow =>
    flow.priority ≠ defaultFlowPriority ∧ ¬ Selects qosId vlanId flow).map vidOf

/-- `_update_vlan_list`: the dictionary must not change while it is iterated. -/
def updateVlanList (counters : Dict ℕ ℕ) (vlanList : List Value) :
    Except PyError Unit × Dict ℕ ℕ :=
  match counters.keys.find? fun vlanId =>
      vlanId ≠ vlanidNone ∧ Value.int vlanId ∉ vlanList with
  | none => (.ok (), counters)
  | some vlanId =>
    (.error (.runtimeError "dictionary changed size during iteration"), counters.erase vlanId)

/-- The answer to a request to delete rules: the identifiers by VLAN. -/
inductive DeleteMsg
  | failure (details : String)
  | success (deleteIds : Dict Value (List ℕ))
  deriving DecidableEq, Repr

/-- The loop of `delete_qos` over what it selected. -/
def deleteRules :
    List FlowStat → List Flow → Dict Value (List ℕ) →
      Except PyError (Dict Value (List ℕ)) × List Flow
  | [], table, ids => (.ok ids, table)
  | flow :: flows, table, ids =>
    let ofMatch := toModOpenflow ac flow.ofMatch
    match modFlowEntry ac flow.cookie flow.priority ofMatch [] with
    | .error e => (.error e, table)
    | .ok f =>
      let vid := (ofMatch.get? (.legacy .dlVlan)).getD (.int vlanidNone)
      deleteRules flows (deleteStrict table f)
        (ids.set vid ((ids.get? vid).getD [] ++ [cookieToQosid flow.cookie]))

def notExist : QosId → String
  | .all => "QoS rule is not exist."
  | .id n => "QoS rule is not exist. : QoS ID=" ++ shown (some (.int n))

/-- `delete_qos`. -/
def deleteQos (s : RuleSwitch) (qosId : Option Value) (vlanId : VlanId) :
    Except PyError DeleteMsg × RuleSwitch :=
  match toQosId qosId with
  | .error e => (.error e, s)
  | .ok qosId =>
    let flows := getFlowStats ac s.table
    let r := updateVlanList s.qos.vlanList (stayingVlans qosId vlanId flows)
    let s := { s with qos := { s.qos with vlanList := r.2 } }
    match r.1 with
    | .error e => (.error e, s)
    | .ok () =>
      match flows.filter fun flow => Selects qosId vlanId flow with
      | [] => (.ok (.failure (notExist qosId)), s)
      | selected =>
        let d := deleteRules ac selected s.table Dict.empty
        (d.1.map DeleteMsg.success, { s with table := d.2 })

end Ryu.Qos
