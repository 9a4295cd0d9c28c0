import Ryu.Lib.Grouping
import Ryu.Lib.Table
import Ryu.Ofctl.Version
import Ryu.Qos.Rule

/-! # Firewall rules

A rule is a flow that outputs packets as a switch without a firewall would, or does not, perhaps
with a copy to the controller. Beside the rules there are flows for ARP, for a firewall that is
stopped, and for the packets that match no rule; the last one tells whether packets are logged.
Identifiers, VLAN counters, and reading a match back are as for QoS rules.
-/

namespace Ryu.RestFirewall

open Numeral Qos

section Match

/-- `_MATCHES`. -/
def matchKeys : List RestKey :=
  [.oxm .inPort, .legacy .dlSrc, .legacy .dlDst, .legacy .dlType, .legacy .dlVlan, .legacy .nwSrc,
    .legacy .nwDst, .oxm .ipv6Src, .oxm .ipv6Dst, .legacy .nwProto, .legacy .tpSrc, .legacy .tpDst]

/-- The error check of `Match.to_openflow`, and the `dl_type` it infers where none is given. -/
def checkMatch (rest : Dict RestKey Value) : Except PyError (Option String) :=
  let has (k : RestKey) : Bool := (rest.get? k).isSome
  let nwProto := rest.get? (.legacy .nwProto)
  let ipv6Src := has (.oxm .ipv6Src)
  let ipv6Dst := has (.oxm .ipv6Dst)
  let nwSrc := has (.legacy .nwSrc)
  let nwDst := has (.legacy .nwDst)
  let icmp : Bool := Named nwProto "ICMP"
  let icmpv6 : Bool := Named nwProto "ICMPv6"
  match rest.get? (.legacy .dlType) with
  | some dlType =>
    if dlType = .str "ARP".toList then
      (refuse [(ipv6Src, inv2and1 "dl_type" "ARP" "ipv6_src"),
        (ipv6Dst, inv2and1 "dl_type" "ARP" "ipv6_dst"),
        (truthy nwProto, inv2and1 "dl_type" "ARP" "nw_proto")]).map fun _ => none
    else if dlType = .str "IPv4".toList then
      (refuse [(ipv6Src, inv2and1 "dl_type" "IPv4" "ipv6_src"),
        (ipv6Dst, inv2and1 "dl_type" "IPv4" "ipv6_dst"),
        (icmpv6, inv2and2 "dl_type" "IPv4" "nw_proto" "ICMPv6")]).map fun _ => none
    else if dlType = .str "IPv6".toList then
      (refuse [(nwSrc, inv2and1 "dl_type" "IPv6" "nw_src"),
        (nwDst, inv2and1 "dl_type" "IPv6" "nw_dst"),
        (icmp, inv2and2 "dl_type" "IPv6" "nw_proto" "ICMP")]).map fun _ => none
    else .error (.valueError ("Unknown dl_type : " ++ shown (some dlType)))
  | none =>
    if nwSrc then
      (refuse [(ipv6Src, inv1and1 "nw_src" "ipv6_src"), (ipv6Dst, inv1and1 "nw_src" "ipv6_dst"),
        (icmpv6, inv1and2 "nw_src" "nw_proto" "ICMPv6")]).map fun _ => some "IPv4"
    else if nwDst then
      (refuse [(ipv6Src, inv1and1 "nw_dst" "ipv6_src"), (ipv6Dst, inv1and1 "nw_dst" "ipv6_dst"),
        (icmpv6, inv1and2 "nw_dst" "nw_proto" "ICMPv6")]).map fun _ => some "IPv4"
    else if ipv6Src then
      (refuse [(icmp, inv1and2 "ipv6_src" "nw_proto" "ICMP")]).map fun _ => some "IPv6"
    else if ipv6Dst then
      (refuse [(icmp, inv1and2 "ipv6_dst" "nw_proto" "ICMP")]).map fun _ => some "IPv6"
    else if icmp then .ok (some "IPv4")
    else if icmpv6 then .ok (some "IPv6")
    else if Named nwProto "TCP" ∨ Named nwProto "UDP" then
      .error (.valueError "no dl_type was specified")
    else .error (.valueError ("Unknown nw_proto: " ++ shown nwProto))

/-- The dictionary `Match.to_openflow` leaves, with the `dl_type` it infers. -/
def inferType (rest : Dict RestKey Value) : Option String → Dict RestKey Value
  | none => rest
  | some dlType => rest.set (.legacy .dlType) (.str dlType.toList)

/-- `Match.to_openflow`, and the dictionary it leaves; other keys than those of a match are left
out. -/
def toOpenflow (rest : Dict RestKey Value) :
    Except PyError (Dict RestKey Value) × Dict RestKey Value :=
  match checkMatch rest with
  | .error e => (.error e, rest)
  | .ok dlType =>
    let rest := inferType rest dlType
    (convNames (rest.filter fun k _ => k ∈ matchKeys), rest)

end Match

section Action

/-- An action dictionary, of type `OUTPUT`. -/
structure OutputDict where
  port : Text
  maxLen : Option ℕ
  deriving DecidableEq, Repr

/-- `Action.to_openflow` of the `actions` of a request. -/
def actionToOpenflow (actions : Option Value) : Except PyError (List OutputDict) :=
  let value := actions.getD (.str "ALLOW".toList)
  if value = .str "ALLOW".toList then .ok [⟨"NORMAL".toList, none⟩]
  else if value = .str "DENY".toList then .ok []
  else if value = .str "PACKETIN".toList then .ok [⟨"CONTROLLER".toList, some 128⟩]
  else .error (.valueError "Invalid action type.")

/-- How a rule is reported. -/
inductive RestAction
  | allow | deny
  deriving DecidableEq, Repr

/-- `Action.to_rest`. -/
def actionToRest (actions : List Text) : RestAction :=
  if actions = ["OUTPUT:NORMAL".toList] then .allow else .deny

/-- An output action. -/
structure Output where
  port : ℕ
  maxLen : ℕ
  deriving DecidableEq, Repr

variable (c : Ofctl)

/-- `to_actions`, of output actions. -/
def toActions : List OutputDict → Except PyError (List Output)
  | [] => .ok []
  | a :: as =>
    match pack c.portSize (reservedNumFromUser "OFPP_".toList c.ofpp (.str a.port)) with
    | .error e => .error e
    | .ok port => (toActions as).map fun outputs => ⟨port, a.maxLen.getD 0xffe5⟩ :: outputs

/-- `action_to_str`. -/
def outputToStr (a : Output) : Text := "OUTPUT:".toList ++ reservedText c.ofpp a.port

/-- `'OUTPUT:%d' % OFPP_NORMAL`. -/
def outputNormal : Text := "OUTPUT:".toList ++ dec c.ofppNormal

end Action

section Flow

/-- A flow of the firewall, its actions being those that are applied. -/
structure FlowEntry (M : Type) where
  cookie : ℕ
  priority : ℕ
  ofMatch : M
  actions : List Output
  deriving DecidableEq

/-- What names an entry of the table. -/
def FlowEntry.key {M : Type} (f : FlowEntry M) : ℕ × M := (f.priority, f.ofMatch)

/-- The command of a flow modification. -/
inductive Command
  | add
  | deleteStrict
  deriving DecidableEq, Repr

/-- What a switch does with a flow modification. -/
def Command.apply {M : Type} [DecidableEq M] (cmd : Command) (table : List (FlowEntry M))
    (f : FlowEntry M) : List (FlowEntry M) :=
  match cmd with
  | .add => Table.put FlowEntry.key table f
  | .deleteStrict => Table.remove FlowEntry.key table f.key

variable (c : Ofctl)

/-- The flow that `mod_flow_entry` sends for a flow of `_to_of_flow`. -/
def toFlow (cookie : ℕ) (priority : ℤ) (ofMatch : Dict RestKey Value) (actions : List OutputDict) :
    Except PyError (FlowEntry c.Match) :=
  match c.toMatch ofMatch with
  | .error e => .error e
  | .ok m =>
    match toActions c actions with
    | .error e => .error e
    | .ok outputs => (pack 2 (.int priority)).map fun priority => ⟨cookie, priority, m, outputs⟩

/-- `mod_flow_entry`: an exception leaves the table. -/
def modFlowEntry (cmd : Command) (cookie : ℕ) (priority : ℤ) (ofMatch : Dict RestKey Value)
    (actions : List OutputDict) (table : List (FlowEntry c.Match)) :
    Except PyError Unit × List (FlowEntry c.Match) :=
  match toFlow c cookie priority ofMatch actions with
  | .error e => (.error e, table)
  | .ok f => (.ok (), cmd.apply table f)

/-- An entry of `get_flow_stats`. -/
structure FlowStat where
  cookie : ℕ
  priority : ℕ
  ofMatch : Dict RestKey Value
  actions : List Text
  deriving DecidableEq, Repr

def FlowEntry.stat (f : FlowEntry c.Match) : FlowStat :=
  ⟨f.cookie, f.priority, c.matchToStr f.ofMatch, f.actions.map (outputToStr c)⟩

/-- `get_flow_stats`. -/
def getFlowStats (table : List (FlowEntry c.Match)) : List FlowStat :=
  table.map (FlowEntry.stat c)

end Flow

def statusFlowPriority : ℕ := 65535
def arpFlowPriority : ℕ := statusFlowPriority - 1
def logFlowPriority : ℕ := 0
def aclFlowPriorityMin : ℕ := logFlowPriority + 1
def aclFlowPriorityMax : ℕ := arpFlowPriority - 1

/-- The priority is not that of a flow of the firewall itself. -/
def AclPriority (priority : ℕ) : Prop :=
  priority ≠ statusFlowPriority ∧ priority ≠ arpFlowPriority ∧ priority ≠ logFlowPriority

instance (p : ℕ) : Decidable (AclPriority p) := inferInstanceAs (Decidable (_ ∧ _))

/-- A firewall: the counters it remembers, and the table of its switch. -/
structure Firewall (c : Ofctl) where
  vlanList : Dict ℕ ℕ
  table : List (FlowEntry c.Match)
  deriving DecidableEq

variable (ac : AddrConv) (c : Ofctl)

section Status

/-- The match of ARP packets. -/
def arpMatch : Dict RestKey Value := Dict.empty.set (.legacy .dlType) (.int 0x0806)

def setDisableFlow (table : List (FlowEntry c.Match)) :
    Except PyError Unit × List (FlowEntry c.Match) :=
  modFlowEntry c .add 0 statusFlowPriority Dict.empty [] table

def setEnableFlow (table : List (FlowEntry c.Match)) :
    Except PyError Unit × List (FlowEntry c.Match) :=
  modFlowEntry c .deleteStrict 0 statusFlowPriority Dict.empty [] table

def setArpFlow (table : List (FlowEntry c.Match)) :
    Except PyError Unit × List (FlowEntry c.Match) :=
  modFlowEntry c .add 0 arpFlowPriority arpMatch [⟨"NORMAL".toList, none⟩] table

/-- The actions of `_set_log_status`. -/
def logActions (isEnable : Bool) : List OutputDict :=
  if isEnable then [⟨"CONTROLLER".toList, some 128⟩] else []

/-- `_set_log_status` without waiters, which makes the flow. -/
def initLogFlow (table : List (FlowEntry c.Match)) :
    Except PyError Unit × List (FlowEntry c.Match) :=
  modFlowEntry c .add 0 logFlowPriority Dict.empty (logActions true) table

/-- `get_log_status`: the log is enabled. -/
def getLogStatus (table : List (FlowEntry c.Match)) : Bool :=
  (getFlowStats c table).any fun flow => flow.priority = logFlowPriority ∧ flow.actions ≠ []

/-- A flow that `_set_log_status` passes over. -/
def Skipped (flow : FlowStat) : Prop :=
  flow.priority = statusFlowPriority ∨ flow.priority = arpFlowPriority ∨
    flow.actions = [outputNormal c]

instance (flow : FlowStat) : Decidable (Skipped c flow) := inferInstanceAs (Decidable (_ ∨ _))

/-- The loop of `_set_log_status` over the flows, and the table as they are rewritten. -/
def rewriteFlows (actions : List OutputDict) :
    List FlowStat → List (FlowEntry c.Match) → Except PyError Unit × List (FlowEntry c.Match)
  | [], table => (.ok (), table)
  | flow :: flows, table =>
    if Skipped c flow then rewriteFlows actions flows table
    else
      match modFlowEntry c .add flow.cookie flow.priority (toModOpenflow ac flow.ofMatch) actions
          table with
      | (.error e, table) => (.error e, table)
      | (.ok (), table) => rewriteFlows actions flows table

/-- `set_log_enable`, `set_log_disable`. -/
def setLogStatus (isEnable : Bool) (table : List (FlowEntry c.Match)) :
    Except PyError Unit × List (FlowEntry c.Match) :=
  rewriteFlows ac c (logActions isEnable) (getFlowStats c table) table

end Status

section Rules

/-- The body of a request to set a rule: its match keys, and the rest that is read. -/
structure RuleBody where
  fields : Dict RestKey Value
  priority : Option Value
  actions : Option Value
  deriving DecidableEq, Repr

/-- A rule that denies is one that copies, if packets are logged. -/
def logged (actions : Option Value) (logStatus : Bool) : Option Value :=
  if actions = some (.str "DENY".toList) ∧ logStatus then some (.str "PACKETIN".toList) else actions

/-- `_set_rule`: the flow that is added to the table, and the body it leaves. -/
def setRule (cookie : ℕ) (rest : RuleBody) (vlanId : ℕ) (table : List (FlowEntry c.Match)) :
    Except PyError (FlowEntry c.Match) × RuleBody :=
  match pyInt (rest.priority.getD (.int aclFlowPriorityMin)) with
  | .error e => (.error e, rest)
  | .ok priority =>
    if priority < aclFlowPriorityMin ∨ aclFlowPriorityMax < priority then
      (.error (.valueError "Invalid priority value. Set [1-65533]"), rest)
    else
      let r := toOpenflow (withVlan rest.fields vlanId)
      let rest := { rest with fields := r.2 }
      match r.1 with
      | .error e => (.error e, rest)
      | .ok ofMatch =>
        let rest := { rest with actions := logged rest.actions (getLogStatus c table) }
        match actionToOpenflow rest.actions with
        | .error e => (.error e, rest)
        | .ok actions =>
          match toFlow c cookie priority ofMatch actions with
          | .error _ => (.error (.valueError "Invalid rule parameter."), rest)
          | .ok flow => (.ok flow, rest)

/-- `_cookie_to_ruleid`. -/
def cookieToRuleid (cookie : ℕ) : ℕ := cookie &&& uint32Max

/-- The message of an added rule. -/
structure RuleMsg where
  ruleId : ℕ
  vlanId : Option ℕ
  deriving DecidableEq, Repr

def ruleMsg (cookie vlanId : ℕ) : RuleMsg :=
  ⟨cookieToRuleid cookie, if vlanId = vlanidNone then none else some vlanId⟩

/-- The loop of `set_rule`: an exception leaves the flows that were added. -/
def setRules : List (ℕ × ℕ) → RuleBody → List (FlowEntry c.Match) →
    Except PyError (List RuleMsg) × RuleBody × List (FlowEntry c.Match)
  | [], rest, table => (.ok [], rest, table)
  | (cookie, vlanId) :: cookies, rest, table =>
    match setRule c cookie rest vlanId table with
    | (.error e, rest) => (.error e, rest, table)
    | (.ok flow, rest) =>
      let r := setRules cookies rest (Command.add.apply table flow)
      (r.1.map fun msgs => ruleMsg cookie vlanId :: msgs, r.2)

/-- `set_rule`. -/
def addRule (s : Firewall c) (rest : RuleBody) (vlanId : VlanId) :
    Except PyError (List RuleMsg) × RuleBody × Firewall c :=
  let cookies := getCookie s.vlanList vlanId
  let r := setRules c cookies.1 rest s.table
  (r.1, r.2.1, ⟨cookies.2, r.2.2⟩)

/-- A rule as it is listed. -/
structure RestRule where
  ruleId : ℕ
  priority : ℕ
  ofMatch : Dict RestKey Value
  action : RestAction
  deriving DecidableEq, Repr

/-- `_to_rest_rule`. -/
def toRestRule (flow : FlowStat) : Except PyError RestRule :=
  (toRest ac flow.ofMatch).map fun ofMatch =>
    ⟨cookieToRuleid flow.cookie, flow.priority, ofMatch, actionToRest flow.actions⟩

/-- The VLAN of a flow. -/
def vidOf (flow : FlowStat) : Value :=
  (flow.ofMatch.get? (.legacy .dlVlan)).getD (.int vlanidNone)

/-- A flow that `get_rules` lists. -/
def Lists (vlanId : VlanId) (flow : FlowStat) : Prop :=
  AclPriority flow.priority ∧ vlanId.Covers (vidOf flow)

instance (vlanId : VlanId) (flow : FlowStat) : Decidable (Lists vlanId flow) :=
  inferInstanceAs (Decidable (_ ∧ _))

/-- `get_rules`: the rules by VLAN. -/
def getRules (s : Firewall c) (vlanId : VlanId) : Except PyError (Dict Value (List RestRule)) :=
  Grouping.collect (Lists vlanId) vidOf (toRestRule ac) (getFlowStats c s.table) Dict.empty

/-- The identifier of a request to delete rules. -/
def toRuleId : Option Value → Except PyError QosId
  | none => .error (.valueError "Invalid ruleID.")
  | some v =>
    if v = .str "all".toList then .ok .all
    else match pyInt v with
      | .ok n => .ok (.id n)
      | .error _ => .error (.valueError "Invalid ruleID.")

/-- A flow that `delete_rule` selects. -/
def Selects (ruleId : QosId) (vlanId : VlanId) (flow : FlowStat) : Prop :=
  AclPriority flow.priority ∧ ruleId.Covers (cookieToRuleid flow.cookie) ∧
    vlanId.Covers (vidOf flow)

instance (ruleId : QosId) (vlanId : VlanId) (flow : FlowStat) :
    Decidable (Selects ruleId vlanId flow) :=
  inferInstanceAs (Decidable (_ ∧ _))

/-- The VLANs of the rules that stay. -/
def stayingVlans (ruleId : QosId) (vlanId : VlanId) (flows : List FlowStat) : List Value :=
  (flows.filter fun flow => AclPriority flow.priority ∧ ¬ Selects ruleId vlanId flow).map vidOf

/-- The answer to a request to delete rules: the identifiers by VLAN. -/
inductive DeleteMsg
  | failure (details : String)
  | success (deleteIds : Dict Value (List ℕ))
  deriving DecidableEq, Repr

/-- The loop of `delete_rule` over what it selected. -/
def deleteRules :
    List FlowStat → List (FlowEntry c.Match) → Dict Value (List ℕ) →
      Except PyError (Dict Value (List ℕ)) × List (FlowEntry c.Match)
  | [], table, ids => (.ok ids, table)
  | flow :: flows, table, ids =>
    let ofMatch := toModOpenflow ac flow.ofMatch
    match modFlowEntry c .deleteStrict flow.cookie flow.priority ofMatch [] table with
    | (.error e, table) => (.error e, table)
    | (.ok (), table) =>
      let vid := (ofMatch.get? (.legacy .dlVlan)).getD (.int vlanidNone)
      deleteRules flows table
        (ids.set vid ((ids.get? vid).getD [] ++ [cookieToRuleid flow.cookie]))

def notExist : QosId → String
  | .all => "Rule is not exist."
  | .id n => "Rule is not exist. : ruleID=" ++ shown (some (.int n))

/-- `delete_rule`. -/
def deleteRule (s : Firewall c) (ruleId : Option Value) (vlanId : VlanId) :
    Except PyError DeleteMsg × Firewall c :=
  match toRuleId ruleId with
  | .error e => (.error e, s)
  | .ok ruleId =>
    let flows := getFlowStats c s.table
    let r := updateVlanList s.vlanList (stayingVlans ruleId vlanId flows)
    let s := { s with vlanList := r.2 }
    match r.1 with
    | .error e => (.error e, s)
    | .ok () =>
      match flows.filter fun flow => Selects ruleId vlanId flow with
      | [] => (.ok (.failure (notExist ruleId)), s)
      | selected =>
        let d := deleteRules ac c selected s.table Dict.empty
        (d.1.map DeleteMsg.success, { s with table := d.2 })

end Rules

section Requests

/-- What follows is done unless there was an exception. -/
def andThen {τ : Type} (r : Except PyError Unit × τ) (f : τ → Except PyError Unit × τ) :
    Except PyError Unit × τ :=
  match r.1 with
  | .error _ => r
  | .ok () => f r.2

/-- `regist_ofs`, of a switch whose table is empty. -/
def registOfs : Except PyError Unit × List (FlowEntry c.Match) :=
  andThen (andThen (setDisableFlow c []) (setArpFlow c)) (initLogFlow c)

/-- The firewall once its switch joined. -/
def Firewall.join : Firewall c := ⟨Dict.empty.set vlanidNone 0, (registOfs c).2⟩

/-- A request to one switch. -/
inductive Request
  | setEnable
  | setDisable
  | setLog (isEnable : Bool)
  | setRule (vlanId : VlanId) (rest : RuleBody)
  | deleteRule (vlanId : VlanId) (ruleId : Option Value)
  deriving DecidableEq, Repr

/-- The request to the controller, for one switch. -/
def request (s : Firewall c) : Request → Except PyError Unit × Firewall c
  | .setEnable => ((setEnableFlow c s.table).1, { s with table := (setEnableFlow c s.table).2 })
  | .setDisable => ((setDisableFlow c s.table).1, { s with table := (setDisableFlow c s.table).2 })
  | .setLog isEnable =>
    ((setLogStatus ac c isEnable s.table).1,
      { s with table := (setLogStatus ac c isEnable s.table).2 })
  | .setRule vlanId rest =>
    match convTointVlanid vlanId with
    | .error e => (.error e, s)
    | .ok vid => ((addRule c s rest vid).1.map fun _ => (), (addRule c s rest vid).2.2)
  | .deleteRule vlanId ruleId =>
    match convTointVlanid vlanId with
    | .error e => (.error e, s)
    | .ok vid =>
      ((deleteRule ac c s ruleId vid).1.map fun _ => (), (deleteRule ac c s ruleId vid).2)

def step (s : Firewall c) (r : Request) : Firewall c := (request ac c s r).2

end Requests

end Ryu.RestFirewall
