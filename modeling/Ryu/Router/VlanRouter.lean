import Ryu.Lib.Run
import Ryu.Router.Flow

/-! # The router of a VLAN

Addresses and routes are set and deleted by requests. A route is refused unless its gateway lies
in an address, an address is not deleted while the gateway of a route lies in it, and an address
that overlaps another is refused. So every gateway lies in exactly one address.
-/

namespace Ryu.Router

open Numeral

section Model

def defaultRoute : Text := "0.0.0.0/0".toList

structure Route where
  routeId : ℕ
  dstIp : Option Ip
  netmask : ℕ
  gatewayIp : Ip
  gatewayMac : Option Text
  deriving DecidableEq, Repr

/-- `RoutingTable`: a dictionary with a counter. -/
structure RoutingTable where
  entries : Dict Text Route
  routeId : ℕ

def RoutingTable.init : RoutingTable := ⟨Dict.empty, 1⟩

def RoutingTable.values (rt : RoutingTable) : List Route := rt.entries.values

/-- The key of a route; `ip_addr_ntoa` of the number 0 is that of the address zero. -/
def routeKey (dstIp : Option Ip) (netmask : ℕ) : Text := networkKey (dstIp.getD 0) netmask

section Parse

variable (aton : Text → Option Ip)

/-- The destination of a route: the number 0 for `DEFAULT_ROUTE`, else a network. -/
def destinationOf (dstNwAddr : Text) : Except PyError (Option Ip × ℕ) :=
  if dstNwAddr = defaultRoute then .ok (none, 0)
  else (nwAddrAton aton dstNwAddr "Invalid [destination] value.").map fun n =>
    (some n.nwAddr, n.netmask)

/-- `RoutingTable.add`. What is looked up is the destination as it was written. -/
def RoutingTable.add (rt : RoutingTable) (dstNwAddr gatewayIp : Text) :
    Except Failure (Route × RoutingTable) :=
  match destinationOf aton dstNwAddr, ipAddrAton aton gatewayIp with
  | .error e, _ => .error (.raised e)
  | _, .error e => .error (.raised e)
  | .ok (dstIp, netmask), .ok gateway =>
    match rt.entries.get? dstNwAddr with
    | some other =>
      .error (.command ("Destination overlaps [route_id=" ++ toString other.routeId ++ "]"))
    | none =>
      let route := ⟨rt.routeId, dstIp, netmask, gateway, none⟩
      .ok (route, ⟨rt.entries.set (routeKey dstIp netmask) route, nextId rt.routeId⟩)

end Parse

/-- `RoutingTable.delete`: the first route with that id. -/
def RoutingTable.delete (rt : RoutingTable) (routeId : ℕ) : RoutingTable :=
  match rt.entries.entries.find? fun x => x.2.routeId = routeId with
  | some x => { rt with entries := rt.entries.erase x.1 }
  | none => rt

def RoutingTable.getGateways (rt : RoutingTable) : List Ip := rt.values.map Route.gatewayIp

structure VlanRouter where
  vlanId : ℕ
  addressData : AddressData
  routingTbl : RoutingTable

/-- A response: whether it reports success, the details, and the VLAN where there is one. -/
structure Response where
  ok : Bool
  details : String
  vlanId : Option ℕ
  deriving DecidableEq, Repr

/-- An id in a request: `REST_ALL`, a number or a text. -/
inductive RestId
  | all
  | number (n : ℤ)
  | text (t : Text)
  deriving DecidableEq, Repr

/-- `int(rest_id)` unless it is `REST_ALL`; for that, nothing. -/
def RestId.toInt : RestId → Except PyError (Option ℤ)
  | .all => .ok none
  | .number n => .ok (some n)
  | .text t =>
    match int? t with
    | some n => .ok (some n)
    | none => .error (.attributeError "message")

/-- The ids of a response. -/
def joinIds (ids : List ℕ) : String := ",".intercalate (ids.map toString)

namespace VlanRouter

def init (vlanId : ℕ) : VlanRouter := ⟨vlanId, .init, .init⟩

variable (vr : VlanRouter)

/-- `_response`. -/
def respond (ok : Bool) (details : String) : Response :=
  ⟨ok, details, if vr.vlanId = vlanidNone then none else some vr.vlanId⟩

/-- `_set_defaultroute_drop`. -/
def dropFlow (vlanId : ℕ) : RouterFlow where
  vlan := vlanId
  owner := .default
  priority := getPriority priorityDefaultRouting vlanId
  fields := ⟨etherTypeIp, vlanId, none, none⟩
  output := .drop
  idleTimeout := 0

/-- The flows of `_set_address_data`: host MAC learning, IP handling and L2 switching. -/
def addressFlows (address : Address) : List RouterFlow :=
  let net := matchNet (some address.nwAddr) address.netmask
  let flow priorityType nwSrc nwDst output : RouterFlow :=
    ⟨vr.vlanId, .address address.addressId, getPriority priorityType vr.vlanId,
      ⟨etherTypeIp, vr.vlanId, nwSrc, nwDst⟩, output, 0⟩
  [flow priorityMacLearning none net .controller,
    flow priorityIpHandling none (matchNet (some address.defaultGw) 32) .controller,
    flow priorityL2Switching net net .normal]

/-- A flow of a route: `_set_route_packetin`, and `_update_routing_tbl` once its gateway has
answered. -/
def routeFlow (route : Route) (output : FlowOutput) : RouterFlow where
  vlan := vr.vlanId
  owner := .route route.routeId
  priority := routePriority route.dstIp route.netmask vr.vlanId
  fields := ⟨etherTypeIp, vr.vlanId, none, matchNet route.dstIp route.netmask⟩
  output := output
  idleTimeout := 0

/-- `_set_address_data`. -/
def setAddressData (aton : Text → Option Ip) (address : Text) :
    Except Failure (ℕ × VlanRouter × List FlowMod) :=
  match vr.addressData.add aton address with
  | .error e => .error e
  | .ok (a, addressData) =>
    .ok (a.addressId, { vr with addressData }, (vr.addressFlows a).map .add)

/-- `_set_routing_data`. -/
def setRoutingData (aton : Text → Option Ip) (destination gateway : Text) :
    Except Failure (ℕ × VlanRouter × List FlowMod) :=
  match ipAddrAton aton gateway with
  | .error e => .error (.raised e)
  | .ok dstIp =>
    match vr.addressData.getByIp dstIp with
    | none => .error (.command
        ("Gateway=" ++ String.ofList gateway ++ "'s address is not registered."))
    | some address =>
      if dstIp = address.defaultGw then .error (.command
        ("Gateway=" ++ String.ofList gateway ++ " is used as default gateway of address_id=" ++
          toString address.addressId))
      else
        match vr.routingTbl.add aton destination gateway with
        | .error e => .error e
        | .ok (route, routingTbl) =>
          .ok (route.routeId, { vr with routingTbl }, [.add (vr.routeFlow route .controller)])

/-- The body of a POST request. -/
structure SetBody where
  address : Option Text
  gateway : Option Text
  destination : Option Text

/-- What a request comes to: the router, the commands to the switch, and the response. -/
structure Outcome where
  router : VlanRouter
  mods : List FlowMod
  response : Except PyError (Option Response)

/-- What `set_data` makes of the id of what was set, or of the exception. -/
def answer (details : String) : Except Failure (ℕ × VlanRouter × List FlowMod) → Outcome
  | .ok (id, vr', mods) =>
    ⟨vr', mods, .ok (some (vr.respond true (details ++ toString id ++ "]")))⟩
  | .error (.command msg) => ⟨vr, [], .ok (some (vr.respond false msg))⟩
  | .error (.raised e) => ⟨vr, [], .error e⟩

/-- `set_data`. -/
def setData (aton : Text → Option Ip) (data : SetBody) : Outcome :=
  match data.address, data.gateway with
  | some address, _ => vr.answer "Add address [address_id=" (vr.setAddressData aton address)
  | none, some gateway =>
    vr.answer "Add route [route_id="
      (vr.setRoutingData aton (data.destination.getD defaultRoute) gateway)
  | none, none => ⟨vr, [], .error (.valueError "Invalid parameter.")⟩

/-- `_chk_addr_relation_route`: the ids of addresses with the gateway of a route, all or one. -/
def chkAddrRelationRoute : Option ℤ → List ℕ → List ℕ → List ℕ
  | _, [], relateList => relateList
  | addressId, id :: ids, relateList =>
    match addressId with
    | none =>
      chkAddrRelationRoute none ids (if id ∈ relateList then relateList else relateList ++ [id])
    | some n => if (id : ℤ) = n then [id] else chkAddrRelationRoute (some n) ids relateList

/-- The ids of the addresses that the gateways lie in. -/
def gatewayAddressIds : List ℕ :=
  vr.routingTbl.getGateways.filterMap fun g => (vr.addressData.getByIp g).map Address.addressId

/-- Whether `_delete_address_data` deletes a flow of the statistics. -/
def SelectsAddress (addressId : Option ℤ) (skipIds : List ℕ) (stats : RouterFlow) : Prop :=
  let addrId := cookieToAddressId stats.cookie
  cookieToVlanId stats.cookie = vr.vlanId ∧ addrId ∉ skipIds ∧
    match addressId with
    | none => ¬(addrId ≤ cookieDefaultId ∨ uint16Max < addrId)
    | some n => n = addrId

instance : (addressId : Option ℤ) → (skipIds : List ℕ) → (stats : RouterFlow) →
    Decidable (vr.SelectsAddress addressId skipIds stats)
  | none, _, _ => inferInstanceAs (Decidable (_ ∧ _ ∧ ¬_))
  | some _, _, _ => inferInstanceAs (Decidable (_ ∧ _ ∧ _ = _))

/-- The address data and the ids for the response, as flows are deleted. -/
def deleteAddressStep (st : AddressData × List ℕ) (stats : RouterFlow) : AddressData × List ℕ :=
  let addressId := cookieToAddressId stats.cookie
  match st.1.getById addressId with
  | some _ =>
    (st.1.delete addressId, if addressId ∈ st.2 then st.2 else st.2 ++ [addressId])
  | none => st

/-- The response to the deletion of addresses. -/
def deleteAddressResponse (deleteIds skipIds : List ℕ) : Option Response :=
  let deleted := "Delete address [address_id=" ++ joinIds deleteIds ++ "]"
  let skipped := "Skip delete (related route exist) [address_id=" ++ joinIds skipIds ++ "]"
  match deleteIds, skipIds with
  | [], [] => none
  | [], _ => some (vr.respond false skipped)
  | _, [] => some (vr.respond true deleted)
  | _, _ => some (vr.respond true (deleted ++ ", " ++ skipped))

/-- `_delete_address_data`, with the flow statistics that the switch has replied. -/
def deleteAddressData (addressId : RestId) (stats : List RouterFlow) : Outcome :=
  match addressId.toInt with
  | .error e => ⟨vr, [], .error e⟩
  | .ok addressId =>
    let skipIds := chkAddrRelationRoute addressId vr.gatewayAddressIds []
    let deleteList := stats.filter (vr.SelectsAddress addressId skipIds ·)
    let st := deleteList.foldl deleteAddressStep (vr.addressData, [])
    ⟨{ vr with addressData := st.1 }, deleteList.map .delete,
      .ok (vr.deleteAddressResponse st.2 skipIds)⟩

/-- Whether `_delete_routing_data` deletes a flow of the statistics. -/
def SelectsRoute (routeId : Option ℤ) (stats : RouterFlow) : Prop :=
  let rtId := cookieToRouteId stats.cookie
  cookieToVlanId stats.cookie = vr.vlanId ∧
    match routeId with
    | none => rtId ≠ cookieDefaultId
    | some n => n = rtId

instance : (routeId : Option ℤ) → (stats : RouterFlow) → Decidable (vr.SelectsRoute routeId stats)
  | none, _ => inferInstanceAs (Decidable (_ ∧ _ ≠ _))
  | some _, _ => inferInstanceAs (Decidable (_ ∧ _ = _))

/-- The commands for one flow; where it was that of a default route, packets are dropped again. -/
def deleteRouteMods (stats : RouterFlow) : List FlowMod :=
  if getPriorityType stats.priority vr.vlanId = priorityDefaultRouting then
    [.delete stats, .add (dropFlow vr.vlanId)]
  else [.delete stats]

/-- The routes and the ids for the response, as flows are deleted. -/
def deleteRouteStep (st : RoutingTable × List ℕ) (stats : RouterFlow) : RoutingTable × List ℕ :=
  let routeId := cookieToRouteId stats.cookie
  (st.1.delete routeId, if routeId ∈ st.2 then st.2 else st.2 ++ [routeId])

/-- `_delete_routing_data`, with the flow statistics that the switch has replied. -/
def deleteRoutingData (routeId : RestId) (stats : List RouterFlow) : Outcome :=
  match routeId.toInt with
  | .error e => ⟨vr, [], .error e⟩
  | .ok routeId =>
    let deleteList := stats.filter (vr.SelectsRoute routeId ·)
    let st := deleteList.foldl deleteRouteStep (vr.routingTbl, [])
    ⟨{ vr with routingTbl := st.1 }, deleteList.flatMap vr.deleteRouteMods,
      .ok (match st.2 with
        | [] => none
        | ids => some (vr.respond true ("Delete route [route_id=" ++ joinIds ids ++ "]")))⟩

/-- The body of a DELETE request. -/
structure DeleteBody where
  routeId : Option RestId
  addressId : Option RestId

/-- `delete_data`. -/
def deleteData (data : DeleteBody) (stats : List RouterFlow) : Outcome :=
  match data.routeId, data.addressId with
  | some routeId, _ => vr.deleteRoutingData routeId stats
  | none, some addressId => vr.deleteAddressData addressId stats
  | none, none => ⟨vr, [], .error (.valueError "Invalid parameter.")⟩

/-- An ARP packet: its source, the port it came in at, and the MAC address of that port. -/
structure ArpPacket where
  srcIp : Ip
  srcMac : Text
  outPort : ℕ
  dstMac : Text

/-- A packet from the gateway of a route tells its MAC address. -/
def learns (arp : ArpPacket) (r : Route) : Bool :=
  r.gatewayIp = arp.srcIp ∧ r.gatewayMac ≠ some arp.srcMac

def learn (arp : ArpPacket) (r : Route) : Route :=
  if learns arp r then { r with gatewayMac := some arp.srcMac } else r

/-- `_update_routing_tbl`: whether the packet is from a gateway, and what is learned from it. -/
def updateRoutingTbl (arp : ArpPacket) : Bool × VlanRouter × List FlowMod :=
  let output := FlowOutput.forward arp.outPort arp.dstMac arp.srcMac
  let entries := vr.routingTbl.entries.mapValues fun _ r => learn arp r
  (arp.srcIp ∈ vr.routingTbl.getGateways,
    { vr with routingTbl := { vr.routingTbl with entries } },
    (vr.routingTbl.values.filter (learns arp)).map fun r => .add (vr.routeFlow r output))

def idleTimeout : ℕ := 1800

/-- `_learning_host_mac`. -/
def learningHostMac (arp : ArpPacket) : List FlowMod :=
  match vr.addressData.getByIp arp.srcIp with
  | none => []
  | some address => [.add
      { vlan := vr.vlanId
        owner := .address address.addressId
        priority := getPriority priorityImplicitRouting vr.vlanId
        fields := ⟨etherTypeIp, vr.vlanId, none, matchNet (some arp.srcIp) 32⟩
        output := .forward arp.outPort arp.dstMac arp.srcMac
        idleTimeout }]

/-- What `_packetin_arp` learns. -/
def packetinArp (arp : ArpPacket) : VlanRouter × List FlowMod :=
  match vr.addressData.getByIp arp.srcIp with
  | none => (vr, [])
  | some _ =>
    let (gwFlg, vr', mods) := vr.updateRoutingTbl arp
    (vr', if gwFlg then mods else mods ++ vr'.learningHostMac arp)

inductive Request
  | set (data : SetBody)
  | delete (data : DeleteBody)

/-- One request, with the flow statistics that the switch replies. -/
def handle (aton : Text → Option Ip) (stats : List RouterFlow) : Request → Outcome
  | .set data => vr.setData aton data
  | .delete data => vr.deleteData data stats

/-- A request is rejected: it raises, reports a failure, or finds nothing. -/
def Outcome.Rejected (o : Outcome) : Prop := ∀ r, o.response = .ok (some r) → r.ok = false

end VlanRouter

end Model

section Covered

open VlanRouter

variable {aton : Text → Option Ip} {vr : VlanRouter} {rt rt' : RoutingTable} {r : Route} {a : Address}

theorem mem_routes : r ∈ rt.values ↔ ∃ k, rt.entries.get? k = some r := by
  rw [RoutingTable.values, Dict.values, List.mem_map]
  constructor
  · rintro ⟨⟨k, r'⟩, hmem, rfl⟩
    exact ⟨k, Dict.mem_entries_iff.mp hmem⟩
  · rintro ⟨k, hk⟩
    exact ⟨(k, r), Dict.mem_entries_iff.mpr hk, rfl⟩

/-- The addresses are sound, and each gateway lies in one of them. -/
structure VlanRouter.Covered (vr : VlanRouter) : Prop where
  sound : vr.addressData.Sound
  covered : ∀ r ∈ vr.routingTbl.values, ∃ a ∈ vr.addressData.values, a.Contains r.gatewayIp

/-- What an addition of a route that goes through comes to. -/
theorem addRoute_eq_ok {dst gateway : Text} (h : rt.add aton dst gateway = .ok (r, rt')) :
    destinationOf aton dst = .ok (r.dstIp, r.netmask) ∧
      ipAddrAton aton gateway = .ok r.gatewayIp ∧ rt.entries.get? dst = none ∧
      r.routeId = rt.routeId ∧ r.gatewayMac = none ∧
      rt' = ⟨rt.entries.set (routeKey r.dstIp r.netmask) r, nextId rt.routeId⟩ := by
  unfold RoutingTable.add at h
  split at h
  · cases h
  · cases h
  · next hdst hgw =>
    split at h
    · cases h
    · next hfree =>
      obtain ⟨rfl, rfl⟩ := Prod.mk.inj (Except.ok.inj h)
      exact ⟨hdst, hgw, hfree, rfl, rfl, rfl⟩

theorem deleteRoute_cases (rt : RoutingTable) (id : ℕ) :
    (rt.delete id = rt ∧ ∀ r ∈ rt.values, r.routeId ≠ id) ∨
      ∃ k r, rt.entries.get? k = some r ∧ r.routeId = id ∧
        rt.delete id = { rt with entries := rt.entries.erase k } := by
  unfold RoutingTable.delete
  split
  · next x hx =>
    right
    have hid : x.2.routeId = id := by simpa using List.find?_some hx
    exact ⟨x.1, x.2, Dict.mem_entries_iff.mp (List.mem_of_find?_eq_some hx), hid, rfl⟩
  · next hx =>
    refine .inl ⟨rfl, fun r hr => ?_⟩
    obtain ⟨k, hk⟩ := mem_routes.1 hr
    simpa using List.find?_eq_none.mp hx (k, r) (Dict.mem_entries_iff.mpr hk)

theorem get?_of_deleteRoute {id : ℕ} {k : Text} (h : (rt.delete id).entries.get? k = some r) :
    rt.entries.get? k = some r := by
  rcases deleteRoute_cases rt id with ⟨he, -⟩ | ⟨k', r', -, -, he⟩
  · rwa [he] at h
  · rw [he, Dict.get?_erase] at h
    split at h
    · cases h
    · exact h

theorem get?_of_deleteRoutes {stats : List RouterFlow} {ids : List ℕ} {k : Text}
    (h : (stats.foldl deleteRouteStep (rt, ids)).1.entries.get? k = some r) :
    rt.entries.get? k = some r := by
  induction stats generalizing rt ids with
  | nil => exact h
  | cons f stats ih => exact get?_of_deleteRoute (ih h)

/-- What setting an address that goes through comes to. -/
theorem setAddressData_eq_ok {t : Text} {id : ℕ} {vr' : VlanRouter} {mods : List FlowMod}
    (h : vr.setAddressData aton t = .ok (id, vr', mods)) :
    ∃ a ad, vr.addressData.add aton t = .ok (a, ad) ∧ id = a.addressId ∧
      vr' = { vr with addressData := ad } ∧ mods = (vr.addressFlows a).map .add := by
  unfold setAddressData at h
  split at h
  · cases h
  · next a ad hadd =>
    obtain ⟨rfl, hrest⟩ := Prod.mk.inj (Except.ok.inj h)
    obtain ⟨rfl, rfl⟩ := Prod.mk.inj hrest
    exact ⟨a, ad, hadd, rfl, rfl, rfl⟩

/-- A gateway that lies in an address, and is not the address itself. -/
def VlanRouter.AcceptsGateway (aton : Text → Option Ip) (vr : VlanRouter) (gateway : Text) : Prop :=
  ∃ ip a, ipAddrAton aton gateway = .ok ip ∧ vr.addressData.getByIp ip = some a ∧ ip ≠ a.defaultGw

/-- What setting a route that goes through comes to. -/
theorem setRoutingData_eq_ok {dst gateway : Text} {id : ℕ} {vr' : VlanRouter}
    {mods : List FlowMod} (h : vr.setRoutingData aton dst gateway = .ok (id, vr', mods)) :
    ∃ r rt, vr.routingTbl.add aton dst gateway = .ok (r, rt) ∧ id = r.routeId ∧
      vr' = { vr with routingTbl := rt } ∧ mods = [.add (vr.routeFlow r .controller)] ∧
      vr.AcceptsGateway aton gateway ∧ ∃ a ∈ vr.addressData.values, a.Contains r.gatewayIp := by
  unfold setRoutingData at h
  split at h
  · cases h
  · next ip hip =>
    split at h
    · cases h
    · next a ha =>
      split at h
      · cases h
      · next hne =>
        split at h
        · cases h
        · next r rt hadd =>
          obtain ⟨rfl, hrest⟩ := Prod.mk.inj (Except.ok.inj h)
          obtain ⟨rfl, rfl⟩ := Prod.mk.inj hrest
          obtain ⟨-, hgw, -⟩ := addRoute_eq_ok hadd
          obtain rfl := Except.ok.inj (hip.symm.trans hgw)
          exact ⟨r, rt, hadd, rfl, rfl, rfl, ⟨_, a, hip, ha, hne⟩, a, getByIp_eq_some ha⟩

theorem answer_cases (vr : VlanRouter) (details : String)
    (result : Except Failure (ℕ × VlanRouter × List FlowMod)) :
    (∃ id vr' mods, result = .ok (id, vr', mods) ∧ (vr.answer details result).router = vr' ∧
      (vr.answer details result).mods = mods ∧ ¬(vr.answer details result).Rejected) ∨
    ((vr.answer details result).router = vr ∧ (vr.answer details result).mods = []) := by
  match result with
  | .ok (id, vr', mods) =>
    refine .inl ⟨id, vr', mods, rfl, rfl, rfl, fun h => ?_⟩
    cases h _ rfl
  | .error (.command _) => exact .inr ⟨rfl, rfl⟩
  | .error (.raised _) => exact .inr ⟨rfl, rfl⟩

/-- A POST request sets an address, or a route, or changes nothing and sends nothing. -/
theorem setData_cases (aton : Text → Option Ip) (vr : VlanRouter) (data : SetBody) :
    (∃ t id, data.address = some t ∧ vr.setAddressData aton t =
        .ok (id, (vr.setData aton data).router, (vr.setData aton data).mods) ∧
      ¬(vr.setData aton data).Rejected) ∨
    (∃ gateway id, data.address = none ∧ data.gateway = some gateway ∧
      vr.setRoutingData aton (data.destination.getD defaultRoute) gateway =
        .ok (id, (vr.setData aton data).router, (vr.setData aton data).mods) ∧
      ¬(vr.setData aton data).Rejected) ∨
    ((vr.setData aton data).router = vr ∧ (vr.setData aton data).mods = []) := by
  unfold setData
  split
  · next t ht =>
    rcases answer_cases vr "Add address [address_id=" (vr.setAddressData aton t) with
      ⟨id, vr', mods, hok, hr, hm, hrej⟩ | h
    · exact .inl ⟨t, id, ht, by rw [hr, hm, hok], hrej⟩
    · exact .inr (.inr h)
  · next gateway ha hg =>
    rcases answer_cases vr "Add route [route_id="
        (vr.setRoutingData aton (data.destination.getD defaultRoute) gateway) with
      ⟨id, vr', mods, hok, hr, hm, hrej⟩ | h
    · exact .inr (.inl ⟨gateway, id, ha, hg, by rw [hr, hm, hok], hrej⟩)
    · exact .inr (.inr h)
  · exact .inr (.inr ⟨rfl, rfl⟩)

theorem VlanRouter.Covered.init (vlanId : ℕ) : (VlanRouter.init vlanId).Covered where
  sound := .init
  covered r hr := by cases hr

theorem VlanRouter.Covered.setData (h : vr.Covered) (data : SetBody) : (vr.setData aton data).router.Covered := by
  rcases setData_cases aton vr data with ⟨t, id, -, hset, -⟩ | ⟨gateway, id, -, -, hset, -⟩ | ⟨hr, -⟩
  · obtain ⟨a, ad, hadd, -, hr, -⟩ := setAddressData_eq_ok hset
    rw [hr]
    refine ⟨h.sound.add hadd, fun r hmem => ?_⟩
    obtain ⟨b, hb, hip⟩ := h.covered r hmem
    exact ⟨b, (h.sound.mem_add hadd).mpr (.inr hb), hip⟩
  · obtain ⟨r, rt, hadd, -, hr, -, -, a, ha, hip⟩ := setRoutingData_eq_ok hset
    obtain ⟨-, -, -, -, -, rfl⟩ := addRoute_eq_ok hadd
    rw [hr]
    refine ⟨h.sound, fun r' hmem => ?_⟩
    obtain ⟨k, hk⟩ := mem_routes.1 hmem
    rw [Dict.get?_set] at hk
    split at hk
    · obtain rfl := Option.some.inj hk
      exact ⟨a, ha, hip⟩
    · exact h.covered r' (mem_routes.2 ⟨k, hk⟩)
  · rwa [hr]

/-- The ids that are skipped include that of an address with a gateway, if it is asked for. -/
theorem mem_chkAddrRelationRoute {addressId : Option ℤ} {id : ℕ} {ids relateList : List ℕ}
    (hid : id ∈ ids ∨ addressId = none ∧ id ∈ relateList)
    (ha : ∀ n, addressId = some n → n = id) :
    id ∈ chkAddrRelationRoute addressId ids relateList := by
  induction ids generalizing relateList with
  | nil =>
    rcases hid with hid | ⟨-, hid⟩
    · cases hid
    · cases addressId <;> exact hid
  | cons i ids ih =>
    cases addressId with
    | none =>
      rw [chkAddrRelationRoute]
      apply ih
      rcases hid with hid | ⟨-, hid⟩
      · rcases List.mem_cons.mp hid with rfl | hid
        · right
          refine ⟨rfl, ?_⟩
          split
          · assumption
          · simp
        · exact .inl hid
      · right
        refine ⟨rfl, ?_⟩
        split
        · exact hid
        · exact List.mem_append_left _ hid
    | some n =>
      obtain rfl := ha n rfl
      rw [chkAddrRelationRoute]
      split
      · next hi =>
        rw [Int.ofNat_inj.mp hi]
        exact List.mem_singleton_self id
      · next hi =>
        apply ih
        rcases hid with hid | ⟨hno, -⟩
        · rcases List.mem_cons.mp hid with rfl | hid
          · exact absurd rfl hi
          · exact .inl hid
        · cases hno

theorem deleteAddressStep_cases (ad : AddressData) (ids : List ℕ) (f : RouterFlow) :
    deleteAddressStep (ad, ids) f = (ad, ids) ∨
      ∃ ids', deleteAddressStep (ad, ids) f = (ad.delete (cookieToAddressId f.cookie), ids') ∧
        cookieToAddressId f.cookie ∈ ids' := by
  unfold deleteAddressStep
  simp only
  split
  · refine .inr ⟨_, rfl, ?_⟩
    split
    · assumption
    · simp
  · exact .inl rfl

theorem sound_deleteAddresses {ad : AddressData} (hs : ad.Sound) (stats : List RouterFlow)
    (ids : List ℕ) : (stats.foldl deleteAddressStep (ad, ids)).1.Sound := by
  induction stats generalizing ad ids with
  | nil => exact hs
  | cons f stats ih =>
    rw [List.foldl_cons]
    rcases deleteAddressStep_cases ad ids f with h | ⟨ids', h, -⟩ <;> rw [h]
    · exact ih hs ids
    · exact ih (hs.delete _) ids'

/-- An address stays unless a flow with its id is deleted. -/
theorem mem_deleteAddresses {ad : AddressData} {stats : List RouterFlow} {ids : List ℕ}
    (ha : a ∈ ad.values) (hid : ∀ f ∈ stats, cookieToAddressId f.cookie ≠ a.addressId) :
    a ∈ (stats.foldl deleteAddressStep (ad, ids)).1.values := by
  induction stats generalizing ad ids with
  | nil => exact ha
  | cons f stats ih =>
    have hstats := fun g hg => hid g (List.mem_cons_of_mem _ hg)
    rw [List.foldl_cons]
    rcases deleteAddressStep_cases ad ids f with h | ⟨ids', h, -⟩ <;> rw [h]
    · exact ih ha hstats
    · exact ih (mem_delete_of_ne ha (hid f List.mem_cons_self).symm) hstats

/-- Where no id is reported no address is deleted. -/
theorem deleteAddresses_of_nil {ad : AddressData} {stats : List RouterFlow} {ids : List ℕ}
    (h : (stats.foldl deleteAddressStep (ad, ids)).2 = []) :
    (stats.foldl deleteAddressStep (ad, ids)).1 = ad ∧ ids = [] := by
  induction stats generalizing ad ids with
  | nil => exact ⟨rfl, h⟩
  | cons f stats ih =>
    rw [List.foldl_cons] at h ⊢
    rcases deleteAddressStep_cases ad ids f with hs | ⟨ids', hs, hmem⟩ <;> rw [hs] at h ⊢
    · exact ih h
    · obtain ⟨-, rfl⟩ := ih h
      cases hmem

theorem VlanRouter.Covered.deleteAddressData (h : vr.Covered) (addressId : RestId)
    (stats : List RouterFlow) : (vr.deleteAddressData addressId stats).router.Covered := by
  unfold VlanRouter.deleteAddressData
  split
  · exact h
  · next n _ =>
    refine ⟨sound_deleteAddresses h.sound _ _, fun r hr => ?_⟩
    obtain ⟨a, ha, hip⟩ := h.covered r hr
    refine ⟨a, mem_deleteAddresses ha fun f hf hid => ?_, hip⟩
    -- The id is one of those that are skipped, or not the one that is asked for.
    obtain ⟨-, hskip, hn⟩ := of_decide_eq_true (List.mem_filter.mp hf).2
    refine hskip (mem_chkAddrRelationRoute (.inl ?_) fun n' hn' => ?_)
    · rw [hid]
      refine List.mem_filterMap.mpr ⟨r.gatewayIp, List.mem_map_of_mem hr, ?_⟩
      rw [h.sound.getByIp ha hip]
      rfl
    · subst hn'
      exact hn

theorem VlanRouter.Covered.deleteRoutingData (h : vr.Covered) (routeId : RestId)
    (stats : List RouterFlow) : (vr.deleteRoutingData routeId stats).router.Covered := by
  unfold VlanRouter.deleteRoutingData
  split
  · exact h
  · refine ⟨h.sound, fun r hr => h.covered r ?_⟩
    obtain ⟨k, hk⟩ := mem_routes.1 hr
    exact mem_routes.2 ⟨k, get?_of_deleteRoutes hk⟩

theorem VlanRouter.Covered.handle (h : vr.Covered) (stats : List RouterFlow) (req : Request) :
    (vr.handle aton stats req).router.Covered := by
  cases req with
  | set data => exact h.setData data
  | delete data =>
    obtain ⟨_ | routeId, _ | addressId⟩ := data
    · exact h
    · exact h.deleteAddressData addressId stats
    · exact h.deleteRoutingData routeId stats
    · exact h.deleteRoutingData routeId stats

/-- Only the MAC address is learned. -/
theorem learn_eq (arp : ArpPacket) (r : Route) : (learn arp r).routeId = r.routeId ∧
    (learn arp r).dstIp = r.dstIp ∧ (learn arp r).netmask = r.netmask ∧
    (learn arp r).gatewayIp = r.gatewayIp := by
  unfold learn
  split <;> exact ⟨rfl, rfl, rfl, rfl⟩

theorem VlanRouter.Covered.packetinArp (h : vr.Covered) (arp : ArpPacket) :
    (vr.packetinArp arp).1.Covered := by
  unfold VlanRouter.packetinArp
  split
  · exact h
  · refine ⟨h.sound, fun r hr => ?_⟩
    obtain ⟨k, hk⟩ := mem_routes.1 hr
    have hk' : (vr.routingTbl.entries.get? k).map _ = some r := Dict.get?_mapValues _ _ k ▸ hk
    obtain ⟨r', hr', rfl⟩ := Option.map_eq_some_iff.mp hk'
    obtain ⟨a, ha, hip⟩ := h.covered r' (mem_routes.2 ⟨k, hr'⟩)
    exact ⟨a, ha, (learn_eq arp r').2.2.2 ▸ hip⟩

theorem deleteRoutes_ne_nil {st : RoutingTable × List ℕ} (stats : List RouterFlow)
    (h : st.2 ≠ []) : (stats.foldl deleteRouteStep st).2 ≠ [] := by
  induction stats generalizing st with
  | nil => exact h
  | cons f stats ih =>
    apply ih
    unfold deleteRouteStep
    simp only
    split
    · exact h
    · simp

theorem router_deleteRoutingData {routeId : RestId} {stats : List RouterFlow}
    (h : (vr.deleteRoutingData routeId stats).Rejected) :
    (vr.deleteRoutingData routeId stats).router = vr := by
  unfold VlanRouter.deleteRoutingData at h ⊢
  split
  · rfl
  · next n hn =>
    simp only [hn, Outcome.Rejected] at h
    cases hl : stats.filter (vr.SelectsRoute n ·) with
    | nil => rfl
    | cons f l =>
      have hne : ((f :: l).foldl deleteRouteStep (vr.routingTbl, [])).2 ≠ [] :=
        deleteRoutes_ne_nil l (by simp [deleteRouteStep])
      rw [hl] at h
      split at h
      · next hnil => exact absurd hnil hne
      · cases h _ rfl

theorem deleteIds_eq_nil {ids skipIds : List ℕ}
    (h : ∀ r, vr.deleteAddressResponse ids skipIds = some r → r.ok = false) : ids = [] := by
  unfold VlanRouter.deleteAddressResponse at h
  split at h
  · rfl
  · rfl
  · cases h _ rfl
  · cases h _ rfl

theorem router_deleteAddressData {addressId : RestId} {stats : List RouterFlow}
    (h : (vr.deleteAddressData addressId stats).Rejected) :
    (vr.deleteAddressData addressId stats).router = vr := by
  unfold VlanRouter.deleteAddressData at h ⊢
  split
  · rfl
  · next n hn =>
    simp only [hn, Outcome.Rejected] at h
    have hnil := deleteIds_eq_nil fun r hr => h r (congrArg Except.ok hr)
    simp only [(deleteAddresses_of_nil hnil).1]

/-- A request that is rejected changes nothing. -/
theorem router_of_rejected {stats : List RouterFlow} {req : Request}
    (h : (vr.handle aton stats req).Rejected) : (vr.handle aton stats req).router = vr := by
  cases req with
  | set data =>
    rcases setData_cases aton vr data with ⟨-, -, -, -, hnot⟩ | ⟨-, -, -, -, -, hnot⟩ | ⟨hr, -⟩
    · exact absurd h hnot
    · exact absurd h hnot
    · exact hr
  | delete data =>
    obtain ⟨_ | routeId, _ | addressId⟩ := data
    · rfl
    · exact router_deleteAddressData h
    · exact router_deleteRoutingData h
    · exact router_deleteRoutingData h

/-- What happens at a router: a request, with the flow statistics that the switch replies to
it, or an ARP packet. -/
inductive Input
  | request (req : Request) (stats : List RouterFlow)
  | arp (packet : ArpPacket)

def VlanRouter.receive (aton : Text → Option Ip) (vr : VlanRouter) : Input → VlanRouter
  | .request req stats => (vr.handle aton stats req).router
  | .arp packet => (vr.packetinArp packet).1

theorem VlanRouter.Covered.receive (h : vr.Covered) (i : Input) : (vr.receive aton i).Covered := by
  cases i with
  | request req stats => exact h.handle stats req
  | arp packet => exact h.packetinArp packet

end Covered

end Ryu.Router
