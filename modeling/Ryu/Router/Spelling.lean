import Ryu.Router.Routes

/-! # Runs in which no network is spelled in two ways

The state after each step is routed as long as the steps take no route out of the table without
its flow, nor a flow without its route. There are four ways to do this: to spell a network that is
there in another way, to use up the ids of 16 bits, and to delete by an id that has the place of
the cookie of a route, or of the default flows, while it is not that of a route.
-/

namespace Ryu.Router

open VlanRouter

section Statement

/-- The network that a route leads to, the default route to that of no bits. -/
def Route.network (r : Route) : Ip × ℕ := (networkOf r.netmask (r.dstIp.getD 0), r.netmask)

/-- The request for the id of a route removes this route with its flows, and no other route. -/
def VlanRouter.Removable (ver : OfVersion) (s : RouterState) (vr : VlanRouter) (r : Route) : Prop :=
  let o := vr.deleteRoutingData (.number r.routeId) s.flows
  (∀ r', r' ∈ o.router.routingTbl.values ↔ r' ∈ vr.routingTbl.values ∧ r' ≠ r) ∧
    ∀ f ∈ applyMods ver s.flows o.mods, f.vlan = vr.vlanId → f.owner ≠ .route r.routeId

/-- There is one route for a network, a flow of a route belongs to a route of the table, and each
route is removed by its id. -/
structure RouterState.Consistent (ver : OfVersion) (s : RouterState) : Prop where
  single : ∀ v vr, s.vlans.get? v = some vr → ∀ k r k' r', vr.routingTbl.entries.get? k = some r →
    vr.routingTbl.entries.get? k' = some r' → r.network = r'.network → k = k'
  belongs : ∀ f ∈ s.flows, ∀ id, f.owner = .route id → ∃ vr, s.vlans.get? f.vlan = some vr ∧
    ∃ r ∈ vr.routingTbl.values, r.routeId = id
  removable : ∀ v vr, s.vlans.get? v = some vr → ∀ r ∈ vr.routingTbl.values, vr.Removable ver s r

/-- A request to add a route for a network that has a route is rejected. -/
def PresentRejected (aton : Text → Option Ip) (s : RouterState) : SwitchEvent → Prop
  | .request v (.set ⟨none, some gateway, dst⟩) => ∀ vr, s.vlans.get? v = some vr →
    ∀ r ∈ vr.routingTbl.values, ∀ dstIp netmask,
      destinationOf aton (dst.getD defaultRoute) = .ok (dstIp, netmask) →
      (networkOf netmask (dstIp.getD 0), netmask) = r.network →
      (vr.setData aton ⟨none, some gateway, dst⟩).Rejected
  | _ => True

/-- A network that has a route is spelled as its key, and one that has none gets an id of
16 bits. -/
def VlanRouter.TakesRoute (aton : Text → Option Ip) (vr : VlanRouter) (dst : Text) : Prop :=
  ∀ dstIp netmask, destinationOf aton dst = .ok (dstIp, netmask) →
    match vr.routingTbl.entries.get? (routeKey dstIp netmask) with
    | some _ => dst = routeKey dstIp netmask
    | none => vr.routingTbl.routeId < 2 ^ 16

/-- The id 0 selects no default flow of the VLAN while there is a default route. -/
def VlanRouter.SparesDefault (s : RouterState) (vr : VlanRouter) (n : ℤ) : Prop :=
  n = 0 → (∃ r ∈ vr.routingTbl.values, r.dstIp = none) →
    ∀ f ∈ s.flows, f.vlan = vr.vlanId → f.owner ≠ .default

/-- An address that may be deleted has not the place of a route in the cookies. -/
def VlanRouter.SparesRoutes (vr : VlanRouter) (n : ℤ) : Prop :=
  vr.Related n ∨ ∀ r ∈ vr.routingTbl.values, n ≠ (r.routeId * 2 ^ 16 : ℕ)

/-- What keeps the routes and their flows together. -/
def KeepsRoutes (aton : Text → Option Ip) (s : RouterState) : SwitchEvent → Prop
  | .request v (.set ⟨none, some gateway, dst⟩) => ∀ vr, s.vlans.get? v = some vr →
    vr.AcceptsGateway aton gateway → vr.TakesRoute aton (dst.getD defaultRoute)
  | .request v (.delete ⟨some id, _⟩) => ∀ vr, s.vlans.get? v = some vr →
    ∀ n, id.toInt = .ok (some n) → vr.SparesDefault s n
  | .request v (.delete ⟨none, some id⟩) => ∀ vr, s.vlans.get? v = some vr →
    ∀ n, id.toInt = .ok (some n) → vr.SparesRoutes n
  | _ => True

end Statement

section Runs

variable {aton : Text → Option Ip} {ver : OfVersion} {s : RouterState} {vr : VlanRouter}
variable {v : ℕ} {f : RouterFlow} {r : Route} {e : SwitchEvent}

theorem RouterState.Routed.init : (RouterState.init ver).Routed := by
  have hvlans : ∀ v vr, (RouterState.init ver).vlans.get? v = some vr → vr = .init vlanidNone := by
    intro v vr h
    rw [RouterState.init, Dict.get?_set] at h
    split at h
    · exact (Option.some.inj h).symm
    · cases h
  have hflows : ∀ f ∈ (RouterState.init ver).flows, f.owner = .default := by
    intro f hf
    rcases mem_of_mem_applyMods hf with hf | ⟨hf, -⟩
    · have hcases : f = arpFlow ∨ f = normalFlow ∨ f = dropFlow vlanidNone := by simpa using hf
      rcases hcases with rfl | rfl | rfl <;> rfl
    · cases hf
  refine ⟨.init, fun v vr h => ?_, fun v vr h r hr => ?_, fun f hf i ho => ?_, fun f hf a ho => ?_⟩
  · rw [hvlans v vr h]
    exact .init
  · rw [hvlans v vr h] at hr
    cases hr
  · rw [hflows f hf] at ho
    cases ho
  · rw [hflows f hf] at ho
    cases ho

theorem RouterState.Routed.addVlanRouter (h : s.Routed) (v : ℕ) :
    (s.addVlanRouter ver v).Routed := by
  unfold RouterState.addVlanRouter
  split
  · next hv =>
    have hnot : ∀ f, ¬Deleted ver ([dropFlow v].map .add) f := fun f => not_deleted_of_adds
    refine h.set rfl (.init v) (.init v) (fun f hf => ?_) .init (fun r hr => ?_)
      (fun f hf hfv i ho _ => ?_) fun f _ _ _ _ => hnot f
    · obtain rfl := FlowMod.add.inj (List.mem_singleton.mp hf)
      exact .drop
    · cases hr
    · obtain ⟨wr, hw, -⟩ := h.owned f hf i ho
      rw [hfv, hv.2.2] at hw
      cases hw
  · exact h

/-- A router is removed with all flows of its VLAN, and has no route. -/
theorem RouterState.Routed.delVlanRouter (h : s.Routed) (v : ℕ) :
    (s.delVlanRouter ver v).Routed := by
  have hvalid : (s.delVlanRouter ver v).Valid := h.valid.delVlanRouter v
  unfold RouterState.delVlanRouter at hvalid ⊢
  split at hvalid
  · exact h
  · next vr hv =>
    split at hvalid
    · next hempty =>
      have hvr := h.valid.vlanId v vr hv
      simp only [hempty, ne_eq, not_false_eq_true, and_self, if_true]
      have hget : ∀ w wr, (s.vlans.erase v).get? w = some wr ↔ v ≠ w ∧ s.vlans.get? w = some wr := by
        intro w wr
        rw [Dict.get?_erase]
        split
        · next hw => simp [hw]
        · next hw => simp [hw]
      have hdel : ∀ f ∈ s.flows, (Deleted ver ((s.flows.filter fun f =>
          cookieToVlanId f.cookie = vr.vlanId).map .delete) f ↔ cookieToVlanId f.cookie = v) := by
        intro f hf
        rw [← hvr]
        exact deleted_iff (P := fun f => cookieToVlanId f.cookie = vr.vlanId) h.valid.placed
          (fun f g hfg => by rw [hfg]) (fun g => by simp) hf
      refine ⟨hvalid, fun w wr hw => h.tables w wr ((hget w wr).mp hw).2, fun w wr hw r hr => ?_,
        fun f hf i ho => ?_, fun f hf a ho => ?_⟩
      · obtain ⟨hne, hw⟩ := (hget w wr).mp hw
        obtain ⟨o, ho⟩ := h.installed w wr hw r hr
        refine ⟨o, mem_applyMods ho (fun hd => hne ?_) fun g hg => ?_⟩
        · obtain ⟨hdv, -, -⟩ := decode_routeFlow wr o (h.lt hw hr)
          exact ((hdel _ ho).mp hd).symm.trans (hdv.trans (h.valid.vlanId w wr hw))
        · obtain ⟨_, -, heq⟩ := List.mem_map.mp hg
          cases heq
      · rcases mem_of_mem_applyMods hf with hf | ⟨hf, -⟩
        · obtain ⟨_, -, heq⟩ := List.mem_map.mp hf
          cases heq
        · obtain ⟨wr, hw, r, hr, o, hfr⟩ := h.owned f hf i ho
          refine ⟨wr, (hget f.vlan wr).mpr ⟨fun hvf => ?_, hw⟩, r, hr, o, hfr⟩
          obtain rfl := Option.some.inj (hv.symm.trans (hvf ▸ hw))
          rw [hempty.2.2] at hr
          cases hr
      · rcases mem_of_mem_applyMods hf with hf | ⟨hf, -⟩
        · obtain ⟨_, -, heq⟩ := List.mem_map.mp hf
          cases heq
        · exact h.addressed f hf a ho
    · next hkept =>
      rw [if_neg hkept]
      exact h

/-- The flows of routes do not expire. -/
theorem RouterState.Routed.expired (h : s.Routed) (flow : RouterFlow) :
    (s.expired flow).Routed := by
  have hsub : ∀ f ∈ (s.expired flow).flows, f ∈ s.flows := fun f hf => (List.mem_filter.mp hf).1
  refine ⟨⟨h.valid.vlanId, h.valid.ids, h.valid.covered, fun f hf => h.valid.flows f (hsub f hf),
    fun f hf g hg => h.valid.placed f (hsub f hf) g (hsub g hg)⟩, h.tables, fun v vr hv r hr => ?_,
    fun f hf => h.owned f (hsub f hf), fun f hf => h.addressed f (hsub f hf)⟩
  obtain ⟨o, ho⟩ := h.installed v vr hv r hr
  have hstays : ¬(vr.routeFlow r o = flow ∧ (vr.routeFlow r o).idleTimeout ≠ 0) :=
    fun hidle => hidle.2 rfl
  exact ⟨o, List.mem_filter.mpr ⟨ho, decide_eq_true hstays⟩⟩

theorem RouterState.Routed.setData (h : s.Routed) (hv : s.vlans.get? v = some vr) (data : SetBody)
    (hk : KeepsRoutes aton s (.request v (.set data))) :
    RouterState.Routed ⟨s.vlans.set v (vr.setData aton data).router,
      applyMods ver s.flows (vr.setData aton data).mods⟩ := by
  have hcov := h.valid.covered v vr hv
  have hb : vr.Becomes (vr.setData aton data).router (vr.setData aton data).mods :=
    (h.valid.ids v vr hv).setData hcov data
  have hc : (vr.setData aton data).router.Covered := hcov.setData data
  rcases setData_cases aton vr data with ⟨t, id, -, hset, -⟩ |
    ⟨gateway, id, ha, hg, hset, -⟩ | ⟨hr, hm⟩
  · exact h.setAddress hv hset hb hc
  · obtain ⟨address, gw, dst⟩ := data
    obtain rfl : address = none := ha
    obtain rfl : gw = some gateway := hg
    obtain ⟨r, rt, hadd, -, -, -, hacc, -⟩ := setRoutingData_eq_ok hset
    obtain ⟨hdst, -, hnone, -⟩ := addRoute_eq_ok hadd
    have htakes := hk vr hv hacc
    have hfree : vr.routingTbl.entries.get? (routeKey r.dstIp r.netmask) = none ∧
        vr.routingTbl.routeId < 2 ^ 16 := by
      have hmatch := htakes _ _ hdst
      split at hmatch
      · next hsome =>
        rw [← hmatch] at hsome
        cases hnone.symm.trans hsome
      · next hkey => exact ⟨hkey, hmatch⟩
    refine h.setRoute hv hset (fun dstIp netmask hdst' => ?_) hfree.2 hb hc
    obtain ⟨rfl, rfl⟩ := Prod.mk.inj (Except.ok.inj (hdst.symm.trans hdst'))
    exact hfree.1
  · rw [hr, hm]
    exact h.keep hv

theorem RouterState.Routed.deleteData (h : s.Routed) (hv : s.vlans.get? v = some vr)
    (data : DeleteBody) (hk : KeepsRoutes aton s (.request v (.delete data))) :
    RouterState.Routed ⟨s.vlans.set v (vr.deleteData data s.flows).router,
      applyMods ver s.flows (vr.deleteData data s.flows).mods⟩ := by
  obtain ⟨_ | routeId, addressId⟩ := data
  · cases addressId with
    | none => exact h.keep hv
    | some id =>
      change RouterState.Routed ⟨s.vlans.set v (vr.deleteAddressData id s.flows).router,
        applyMods ver s.flows (vr.deleteAddressData id s.flows).mods⟩
      cases hm : id.toInt with
      | error e =>
        have ho : (vr.deleteAddressData id s.flows).router = vr ∧
            (vr.deleteAddressData id s.flows).mods = [] := by
          simp only [deleteAddressData, hm, and_self]
        rw [ho.1, ho.2]
        exact h.keep hv
      | ok m =>
        refine h.deleteAddress hv hm fun n hn => ?_
        subst hn
        exact hk vr hv n hm
  · change RouterState.Routed ⟨s.vlans.set v (vr.deleteRoutingData routeId s.flows).router,
      applyMods ver s.flows (vr.deleteRoutingData routeId s.flows).mods⟩
    cases hm : routeId.toInt with
    | error e =>
      have ho : (vr.deleteRoutingData routeId s.flows).router = vr ∧
          (vr.deleteRoutingData routeId s.flows).mods = [] := by
        simp only [deleteRoutingData, hm, and_self]
      rw [ho.1, ho.2]
      exact h.keep hv
    | ok m =>
      refine h.deleteRoute hv hm fun hm0 => ?_
      subst hm0
      exact hk vr hv 0 hm rfl

/-- A step that keeps the routes and their flows together. -/
theorem RouterState.Routed.step (h : s.Routed) (hk : KeepsRoutes aton s e) :
    (s.step aton ver e).Routed := by
  cases e with
  | addVlanRouter v => exact h.addVlanRouter v
  | delVlanRouter v => exact h.delVlanRouter v
  | request v req =>
    simp only [RouterState.step, RouterState.request]
    split
    · exact h
    · next vr hv =>
      cases req with
      | set data => exact h.setData hv data hk
      | delete data => exact h.deleteData hv data hk
  | arp v packet =>
    simp only [RouterState.step, RouterState.arp]
    split
    · exact h
    · next vr hv => exact h.arp hv packet
  | expired flow => exact h.expired flow

theorem RouterState.Routed.removable (h : s.Routed) (hv : s.vlans.get? v = some vr)
    (hr : r ∈ vr.routingTbl.values) : vr.Removable ver s r := by
  have ht := h.tables v vr hv
  have hvr := h.valid.vlanId v vr hv
  have hm : (RestId.number r.routeId).toInt = .ok (some (r.routeId : ℤ)) := rfl
  obtain ⟨-, hleft⟩ := ht.mem_deleteRoutingData hm
  obtain ⟨o, ho⟩ := h.installed v vr hv r hr
  obtain ⟨hdv, -, hdr⟩ := decode_routeFlow vr o (h.lt hv hr)
  refine ⟨fun r' => (hleft r').trans ?_, fun f hf hfv hof => ?_⟩
  · constructor
    · rintro ⟨hr', hnot⟩
      refine ⟨hr', ?_⟩
      rintro rfl
      exact hnot _ ho ⟨hdv, congrArg Nat.cast hdr.symm⟩ hdr
    · rintro ⟨hr', hne⟩
      refine ⟨hr', fun f _ hsel hid => hne (ht.unique r' hr' r hr ?_)⟩
      have hn : (r.routeId : ℤ) = cookieToRouteId f.cookie := hsel.2
      omega
  · rcases mem_of_mem_applyMods hf with hadd | ⟨hf, hnot⟩
    · obtain ⟨rfl, -⟩ := dropFlow_of_add hm hadd
      cases hof
    · obtain ⟨wr, hw, r', hr', o', rfl⟩ := h.owned f hf r.routeId hof
      have hw' : s.vlans.get? v = some wr := (hfv.trans hvr) ▸ hw
      obtain rfl := Option.some.inj (hv.symm.trans hw')
      have hid : r'.routeId = r.routeId := FlowOwner.route.inj hof
      obtain ⟨hdv, -, hdr⟩ := decode_routeFlow vr o' (h.lt hv hr')
      exact hnot ((deletedRoutes_iff h.valid hm hf).mpr ⟨hdv, by rw [hdr, hid]⟩)

theorem Route.IsNetwork.network_eq (h : r.IsNetwork) : r.network = (r.dstIp.getD 0, r.netmask) := by
  unfold Route.network
  cases hd : r.dstIp with
  | none => rw [h.default hd, networkOf_zero]; rfl
  | some ip => rw [Option.getD_some, h.base ip hd]

theorem RouterState.Routed.consistent (h : s.Routed) : s.Consistent ver where
  single v vr hv k r k' r' hk hk' hn := by
    have ht := h.tables v vr hv
    rw [(ht.network r (mem_routes.2 ⟨k, hk⟩)).network_eq,
      (ht.network r' (mem_routes.2 ⟨k', hk'⟩)).network_eq] at hn
    obtain ⟨hd, hm⟩ := Prod.mk.inj hn
    rw [ht.keyed k r hk, ht.keyed k' r' hk', routeKey, routeKey, hd, hm]
  belongs f hf id ho := by
    obtain ⟨vr, hv, r, hr, o, rfl⟩ := h.owned f hf id ho
    exact ⟨vr, hv, r, hr, FlowOwner.route.inj ho⟩
  removable v vr hv r hr := h.removable hv hr

theorem rejected_of_error {details : String} (failure : Failure) :
    (vr.answer details (.error failure)).Rejected := by
  intro response hr
  cases failure with
  | command msg =>
    obtain rfl := Option.some.inj (Except.ok.inj hr)
    rfl
  | raised e => cases hr

/-- A destination that has a route is looked up under its key, which is how it is spelled. -/
theorem RouterState.Routed.presentRejected (h : s.Routed) (hk : KeepsRoutes aton s e) :
    PresentRejected aton s e := by
  unfold PresentRejected
  split
  · next v gateway dst =>
    intro vr hv r hr dstIp netmask hdst hn
    have hset : vr.setData aton ⟨none, some gateway, dst⟩ = vr.answer "Add route [route_id="
        (vr.setRoutingData aton (dst.getD defaultRoute) gateway) := rfl
    rw [hset]
    cases hres : vr.setRoutingData aton (dst.getD defaultRoute) gateway with
    | error failure => exact rejected_of_error failure
    | ok res =>
      obtain ⟨id, vr', mods⟩ := res
      obtain ⟨r', rt, hadd, -, -, -, hacc, -⟩ := setRoutingData_eq_ok hres
      obtain ⟨hdst', -, hfree, -⟩ := addRoute_eq_ok hadd
      obtain ⟨rfl, rfl⟩ := Prod.mk.inj (Except.ok.inj (hdst.symm.trans hdst'))
      have ht := h.tables v vr hv
      obtain ⟨k, hget⟩ := mem_routes.1 hr
      have hkey : k = routeKey r'.dstIp r'.netmask := by
        have hn' : r'.network = r.network := hn
        rw [(ht.network r hr).network_eq, (isNetwork_of_destinationOf hdst).network_eq] at hn'
        obtain ⟨hd, hm⟩ := Prod.mk.inj hn'
        rw [ht.keyed k r hget, routeKey, routeKey, hd, hm]
      have htakes := hk vr hv hacc _ _ hdst
      rw [← hkey, hget] at htakes
      rw [show dst.getD defaultRoute = k from htakes, hget] at hfree
      cases hfree
  · trivial

/-- In every run whose steps keep the routes and their flows together, each state is consistent,
and a route for a network that has one is rejected. -/
theorem routes_consistent (aton : Text → Option Ip) (ver : OfVersion) (events : List SwitchEvent)
    (h : EveryStep (RouterState.step aton ver) (KeepsRoutes aton) (RouterState.init ver) events) :
    Throughout (RouterState.step aton ver) (RouterState.Consistent ver) (RouterState.init ver)
      events ∧
    EveryStep (RouterState.step aton ver) (PresentRejected aton) (RouterState.init ver) events := by
  have hinit : (RouterState.init ver).Routed := .init
  have hrun : Throughout (RouterState.step aton ver) RouterState.Routed (RouterState.init ver)
      events := throughout_of_everyStep hinit (fun _ _ hs hk => RouterState.Routed.step hs hk) h
  exact ⟨hrun.mono fun _ hs => hs.consistent, everyStep_of_everyStep hinit
    (fun _ _ hs hk => ⟨RouterState.Routed.presentRejected hs hk, RouterState.Routed.step hs hk⟩) h⟩

theorem VlanRouter.takesRoute {dst : Text} (dstIp : Option Ip) (netmask : ℕ)
    (hdst : destinationOf aton dst = .ok (dstIp, netmask))
    (hfree : vr.routingTbl.entries.get? (routeKey dstIp netmask) = none)
    (hlt : vr.routingTbl.routeId < 2 ^ 16) : vr.TakesRoute aton dst := by
  intro dstIp' netmask' hdst'
  obtain ⟨rfl, rfl⟩ := Prod.mk.inj (Except.ok.inj (hdst.symm.trans hdst'))
  rwa [hfree]

/-- A route to a network, and another to all. -/
def defaultEvents : List SwitchEvent :=
  routedEvents ++ [.request 0 (.set ⟨none, some "172.16.20.3".toList, none⟩)]

theorem default_consistent :
    Throughout (RouterState.step dottedAton .v1_3) (RouterState.Consistent .v1_3)
      (RouterState.init .v1_3) defaultEvents := by
  refine (routes_consistent dottedAton .v1_3 defaultEvents ?_).1
  refine ⟨trivial, fun vr hv _ => ?_, fun vr hv _ => ?_, trivial⟩
  · obtain rfl := Option.some.inj hv
    exact VlanRouter.takesRoute (some 0xac100a00) 24 (by decide +kernel)
      (by decide +kernel) (by decide +kernel)
  · obtain rfl := Option.some.inj hv
    exact VlanRouter.takesRoute none 0 (by decide +kernel)
      (by decide +kernel) (by decide +kernel)

/-- A default route, and another spelling of its network. -/
def respelledEvents : List SwitchEvent :=
  [.request 0 (.set ⟨some "172.16.20.1/24".toList, none, none⟩),
    .request 0 (.set ⟨none, some "172.16.20.2".toList, none⟩),
    .request 0 (.set ⟨none, some "172.16.20.3".toList, some "10.0.0.0/0".toList⟩)]

/-- The second route takes the place of the first in the table, and the flow of the first
stays. -/
theorem respelled_flow_left :
    ¬Throughout (RouterState.step dottedAton .v1_3) (RouterState.Consistent .v1_3)
      (RouterState.init .v1_3) respelledEvents := by
  intro h
  have hf : (⟨0, .route 1, 1, ⟨etherTypeIp, 0, none, none⟩, .controller, 0⟩ : RouterFlow) ∈
      (RouterState.run dottedAton .v1_3 respelledEvents).flows := by decide +kernel
  obtain ⟨vr, hv, r, hr, hid⟩ := h.last.belongs _ hf 1 rfl
  have hgone : ((RouterState.run dottedAton .v1_3 respelledEvents).vlans.get? 0).all
      (fun vr => vr.routingTbl.values.all (·.routeId ≠ 1)) = true := by decide +kernel
  have hv' : (RouterState.run dottedAton .v1_3 respelledEvents).vlans.get? 0 = some vr := hv
  rw [hv'] at hgone
  exact absurd hid (by simpa using List.all_eq_true.mp hgone r hr)

end Runs

end Ryu.Router
