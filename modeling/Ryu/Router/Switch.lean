import Ryu.Router.VlanRouter

/-! # The routers of a switch

The routers of all VLANs set their flows in one table, and select the flows that a request
deletes by the ids they read from the cookies. The id of a route has 16 bits in a cookie. What
an id selects beside its own flows are the default flows, for the id 0, the flows of addresses or
routes whose ids have the same bits in that place, and those of routes whose ids have more bits.
-/

namespace Ryu.Router

open VlanRouter

section Model

/-- The routers by VLAN, and the flow table of the switch. -/
structure RouterState where
  vlans : Dict ℕ VlanRouter
  flows : List RouterFlow

def arpFlow : RouterFlow where
  vlan := vlanidNone
  owner := .default
  priority := getPriority priorityArpHandling vlanidNone
  fields := ⟨etherTypeArp, 0, none, none⟩
  output := .controller
  idleTimeout := 0

def normalFlow : RouterFlow where
  vlan := vlanidNone
  owner := .default
  priority := getPriority priorityNormal vlanidNone
  fields := ⟨0, 0, none, none⟩
  output := .normal
  idleTimeout := 0

def vlanidMin : ℕ := 2
def vlanidMax : ℕ := 4094

/-- What happens at a switch. A request to `Router` is made of requests to its VLAN routers, with
`_add_vlan_router` before and `_del_vlan_router` behind. -/
inductive SwitchEvent
  | addVlanRouter (vlanId : ℕ)
  | delVlanRouter (vlanId : ℕ)
  | request (vlanId : ℕ) (req : Request)
  | arp (vlanId : ℕ) (packet : ArpPacket)
  | expired (flow : RouterFlow)

variable (aton : Text → Option Ip) (ver : OfVersion)

namespace RouterState

/-- `Router.__init__`, on a switch without flows. -/
def init : RouterState where
  vlans := Dict.empty.set vlanidNone (VlanRouter.init vlanidNone)
  flows := applyMods ver [] [.add arpFlow, .add normalFlow, .add (dropFlow vlanidNone)]

/-- `_add_vlan_router`, for the ids that `_get_vlan_router` lets through. -/
def addVlanRouter (s : RouterState) (vlanId : ℕ) : RouterState :=
  if vlanidMin ≤ vlanId ∧ vlanId ≤ vlanidMax ∧ s.vlans.get? vlanId = none then
    { vlans := s.vlans.set vlanId (VlanRouter.init vlanId)
      flows := applyMods ver s.flows [.add (dropFlow vlanId)] }
  else s

/-- `_del_vlan_router`. -/
def delVlanRouter (s : RouterState) (vlanId : ℕ) : RouterState :=
  match s.vlans.get? vlanId with
  | none => s
  | some vr =>
    if vlanId ≠ vlanidNone ∧ vr.addressData.values = [] ∧ vr.routingTbl.values = [] then
      let stats := s.flows.filter fun f => cookieToVlanId f.cookie = vr.vlanId
      { vlans := s.vlans.erase vlanId
        flows := applyMods ver s.flows (stats.map .delete) }
    else s

def request (s : RouterState) (vlanId : ℕ) (req : Request) : RouterState :=
  match s.vlans.get? vlanId with
  | none => s
  | some vr =>
    let o := vr.handle aton s.flows req
    { vlans := s.vlans.set vlanId o.router
      flows := applyMods ver s.flows o.mods }

def arp (s : RouterState) (vlanId : ℕ) (packet : ArpPacket) : RouterState :=
  match s.vlans.get? vlanId with
  | none => s
  | some vr =>
    let (vr', mods) := vr.packetinArp packet
    { vlans := s.vlans.set vlanId vr'
      flows := applyMods ver s.flows mods }

/-- The switch removes a flow that has been idle. -/
def expired (s : RouterState) (flow : RouterFlow) : RouterState :=
  { s with flows := s.flows.filter fun f => ¬(f = flow ∧ f.idleTimeout ≠ 0) }

def step (s : RouterState) : SwitchEvent → RouterState
  | .addVlanRouter v => s.addVlanRouter ver v
  | .delVlanRouter v => s.delVlanRouter ver v
  | .request v req => s.request aton ver v req
  | .arp v packet => s.arp ver v packet
  | .expired flow => s.expired flow

def run (events : List SwitchEvent) : RouterState := events.foldl (step aton ver) (init ver)

end RouterState

end Model

section Invariant

variable {aton : Text → Option Ip} {ver : OfVersion} {s : RouterState} {vr : VlanRouter}
variable {v : ℕ} {f g : RouterFlow} {mods : List FlowMod}

theorem nextId_lt (id : ℕ) : nextId id < 2 ^ 32 := by
  have hmask : (id + 1) &&& uint32Max = (id + 1) % 2 ^ 32 := Nat.and_two_pow_sub_one_eq_mod _ 32
  unfold nextId
  simp only [hmask]
  split <;> omega

/-- The ids of the addresses of a router have 32 bits. -/
structure VlanRouter.AddressIds (vr : VlanRouter) : Prop where
  next : vr.addressData.addressId < 2 ^ 32
  values : ∀ a ∈ vr.addressData.values, a.addressId < 2 ^ 32

/-- A router is kept under its VLAN, the ids of addresses have 32 bits, and no two flows are in
the same place. -/
structure RouterState.Valid (s : RouterState) : Prop where
  vlanId : ∀ v vr, s.vlans.get? v = some vr → vr.vlanId = v
  ids : ∀ v vr, s.vlans.get? v = some vr → vr.AddressIds
  covered : ∀ v vr, s.vlans.get? v = some vr → vr.Covered
  flows : ∀ f ∈ s.flows, ∀ a, f.owner = .address a → a < 2 ^ 32
  placed : Placed s.flows

/-- A flow that a router sets: that for dropping, one of an address, or one of a route. -/
inductive VlanRouter.Sets (vr : VlanRouter) : RouterFlow → Prop
  | drop : Sets vr (dropFlow vr.vlanId)
  | address (a : Address) (ha : a ∈ vr.addressData.values) {f : RouterFlow}
      (hf : f ∈ vr.addressFlows a) : Sets vr f
  | host (packet : ArpPacket) {f : RouterFlow} (hf : FlowMod.add f ∈ vr.learningHostMac packet) :
      Sets vr f
  | route (r : Route) (hr : r ∈ vr.routingTbl.values) (output : FlowOutput) :
      Sets vr (vr.routeFlow r output)

/-- What an operation of a router leaves: its VLAN, ids of 32 bits, and flows that are those of
the router afterwards. -/
structure VlanRouter.Becomes (vr vr' : VlanRouter) (mods : List FlowMod) : Prop where
  vlanId : vr'.vlanId = vr.vlanId
  ids : vr'.AddressIds
  sets : ∀ f, FlowMod.add f ∈ mods → vr'.Sets f

theorem VlanRouter.AddressIds.init (v : ℕ) : (VlanRouter.init v).AddressIds where
  next := show 1 < 2 ^ 32 by decide
  values a ha := by cases ha

theorem VlanRouter.AddressIds.becomes (h : vr.AddressIds) : vr.Becomes vr [] :=
  ⟨rfl, h, fun _ hf => by cases hf⟩

theorem VlanRouter.AddressIds.setData (h : vr.AddressIds) (hc : vr.Covered) (data : SetBody) :
    vr.Becomes (vr.setData aton data).router (vr.setData aton data).mods := by
  rcases setData_cases aton vr data with ⟨t, id, -, hset, -⟩ | ⟨gateway, id, -, -, hset, -⟩ |
    ⟨hr, hm⟩
  · obtain ⟨a, ad, hadd, -, hr, hm⟩ := setAddressData_eq_ok hset
    have hmem := fun b => hc.sound.mem_add (b := b) hadd
    obtain ⟨-, hid, had⟩ := add_eq_ok hadd
    rw [hr, hm]
    refine ⟨rfl, ⟨?_, fun b hb => ?_⟩, fun f hf => ?_⟩
    · rw [had]
      exact nextId_lt _
    · rcases (hmem b).mp hb with rfl | hb
      · exact hid ▸ h.next
      · exact h.values b hb
    · obtain ⟨g, hg, heq⟩ := List.mem_map.mp hf
      obtain rfl := FlowMod.add.inj heq
      exact .address a ((hmem a).mpr (.inl rfl)) hg
  · obtain ⟨r, rt, hadd, -, hr, hm, -⟩ := setRoutingData_eq_ok hset
    obtain ⟨-, -, -, -, -, hrt⟩ := addRoute_eq_ok hadd
    rw [hr, hm]
    refine ⟨rfl, ⟨h.next, h.values⟩, fun f hf => ?_⟩
    obtain rfl := FlowMod.add.inj (List.mem_singleton.mp hf)
    refine .route r (mem_routes.2 ⟨routeKey r.dstIp r.netmask, ?_⟩) _
    rw [hrt]
    exact Dict.get?_set_self ..
  · rw [hr, hm]
    exact h.becomes

theorem addressId_deleteAddresses {ad : AddressData} (stats : List RouterFlow) (ids : List ℕ) :
    (stats.foldl deleteAddressStep (ad, ids)).1.addressId = ad.addressId ∧
      ∀ a ∈ (stats.foldl deleteAddressStep (ad, ids)).1.values, a ∈ ad.values := by
  induction stats generalizing ad ids with
  | nil => exact ⟨rfl, fun _ ha => ha⟩
  | cons f stats ih =>
    rw [List.foldl_cons]
    rcases deleteAddressStep_cases ad ids f with h | ⟨ids', h, -⟩ <;> rw [h]
    · exact ih ids
    · exact ⟨(ih ids').1.trans (addressId_delete ..),
        fun a ha => mem_of_mem_delete ((ih ids').2 a ha)⟩

theorem VlanRouter.AddressIds.deleteAddressData (h : vr.AddressIds) (id : RestId)
    (stats : List RouterFlow) :
    vr.Becomes (vr.deleteAddressData id stats).router (vr.deleteAddressData id stats).mods := by
  unfold VlanRouter.deleteAddressData
  split
  · exact h.becomes
  · refine ⟨rfl, ⟨?_, fun a ha => ?_⟩, fun f hf => ?_⟩
    · simpa only [(addressId_deleteAddresses _ _).1] using h.next
    · exact h.values a ((addressId_deleteAddresses _ _).2 a ha)
    · obtain ⟨g, -, hg⟩ := List.mem_map.mp hf
      cases hg

theorem VlanRouter.AddressIds.deleteRoutingData (h : vr.AddressIds) (id : RestId)
    (stats : List RouterFlow) :
    vr.Becomes (vr.deleteRoutingData id stats).router (vr.deleteRoutingData id stats).mods := by
  unfold VlanRouter.deleteRoutingData
  split
  · exact h.becomes
  · refine ⟨rfl, ⟨h.next, h.values⟩, fun f hf => ?_⟩
    obtain ⟨g, -, hg⟩ := List.mem_flatMap.mp hf
    unfold VlanRouter.deleteRouteMods at hg
    split at hg
    · have hmem : FlowMod.add f ∈ [FlowMod.add (dropFlow vr.vlanId)] := by simpa using hg
      obtain rfl := FlowMod.add.inj (List.mem_singleton.mp hmem)
      exact .drop
    · cases List.mem_singleton.mp hg

theorem VlanRouter.AddressIds.handle (h : vr.AddressIds) (hc : vr.Covered)
    (stats : List RouterFlow) (req : Request) :
    vr.Becomes (vr.handle aton stats req).router (vr.handle aton stats req).mods := by
  cases req with
  | set data => exact h.setData hc data
  | delete data =>
    obtain ⟨_ | routeId, _ | addressId⟩ := data
    · exact h.becomes
    · exact h.deleteAddressData addressId stats
    · exact h.deleteRoutingData routeId stats
    · exact h.deleteRoutingData routeId stats

theorem VlanRouter.AddressIds.packetinArp (h : vr.AddressIds) (packet : ArpPacket) :
    vr.Becomes (vr.packetinArp packet).1 (vr.packetinArp packet).2 := by
  unfold VlanRouter.packetinArp
  split
  · exact h.becomes
  · refine ⟨rfl, ⟨h.next, h.values⟩, fun f hf => ?_⟩
    have hroute : ∀ r, r ∈ vr.routingTbl.values → ∀ output,
        ((vr.updateRoutingTbl packet).2.1).Sets (vr.routeFlow r output) := by
      intro r hr output
      obtain ⟨k, hk⟩ := mem_routes.1 hr
      have hmem : learn packet r ∈ (vr.updateRoutingTbl packet).2.1.routingTbl.values :=
        mem_routes.2 ⟨k, by rw [VlanRouter.updateRoutingTbl, Dict.get?_mapValues, hk]; rfl⟩
      have hset := Sets.route (learn packet r) hmem output
      obtain ⟨hid, hdst, hmask, -⟩ := learn_eq packet r
      unfold routeFlow at hset ⊢
      rwa [hid, hdst, hmask] at hset
    have hupdate : FlowMod.add f ∈ (vr.updateRoutingTbl packet).2.2 →
        ((vr.updateRoutingTbl packet).2.1).Sets f := by
      intro hf
      obtain ⟨r, hr, heq⟩ := List.mem_map.mp hf
      obtain rfl := FlowMod.add.inj heq
      exact hroute r (List.mem_filter.mp hr).1 _
    simp only at hf
    split at hf
    · exact hupdate hf
    · rcases List.mem_append.mp hf with hf | hf
      · exact hupdate hf
      · exact .host packet hf

/-- A flow that a router sets is for itself, and for an address only with an id of 32 bits. -/
theorem VlanRouter.Sets.owner (h : vr.Sets f) (hids : vr.AddressIds) :
    f.vlan = vr.vlanId ∧ ∀ a, f.owner = .address a → a < 2 ^ 32 := by
  cases h with
  | drop => exact ⟨rfl, fun a ha => by cases ha⟩
  | address a ha hf =>
    have hcases : f.vlan = vr.vlanId ∧ f.owner = .address a.addressId := by
      simp only [addressFlows, List.mem_cons, List.not_mem_nil, or_false] at hf
      rcases hf with rfl | rfl | rfl <;> exact ⟨rfl, rfl⟩
    refine ⟨hcases.1, fun b hb => ?_⟩
    obtain rfl := FlowOwner.address.inj (hcases.2.symm.trans hb)
    exact hids.values a ha
  | host packet hf =>
    unfold learningHostMac at hf
    split at hf
    · cases hf
    · next a ha =>
      obtain rfl := FlowMod.add.inj (List.mem_singleton.mp hf)
      refine ⟨rfl, fun b hb => ?_⟩
      obtain rfl := FlowOwner.address.inj hb
      exact hids.values a (getByIp_eq_some ha).1
  | route r hr output => exact ⟨rfl, fun a ha => by cases ha⟩

theorem RouterState.Valid.init : (RouterState.init ver).Valid where
  vlanId v vr h := by
    rw [RouterState.init, Dict.get?_set] at h
    split at h
    · next hv =>
      obtain rfl := Option.some.inj h
      exact hv
    · cases h
  ids v vr h := by
    rw [RouterState.init, Dict.get?_set] at h
    split at h
    · obtain rfl := Option.some.inj h
      exact .init _
    · cases h
  covered v vr h := by
    rw [RouterState.init, Dict.get?_set] at h
    split at h
    · obtain rfl := Option.some.inj h
      exact .init _
    · cases h
  flows f hf a ha := by
    rcases mem_of_mem_applyMods hf with hf | ⟨hf, -⟩
    · have hcases : f = arpFlow ∨ f = normalFlow ∨ f = dropFlow vlanidNone := by simpa using hf
      rcases hcases with rfl | rfl | rfl <;> cases ha
    · cases hf
  placed := Placed.applyMods (fun f hf => by cases hf) _

/-- A state stays valid with a router of a VLAN and the flows that this router sets. -/
theorem RouterState.Valid.set (h : s.Valid) (hv : vr.vlanId = v) (hids : vr.AddressIds)
    (hc : vr.Covered) (hsets : ∀ f, FlowMod.add f ∈ mods → vr.Sets f) :
    RouterState.Valid ⟨s.vlans.set v vr, applyMods ver s.flows mods⟩ where
  vlanId w wr hw := by
    rw [Dict.get?_set] at hw
    split at hw
    · next hvw =>
      obtain rfl := Option.some.inj hw
      exact hv.trans hvw
    · exact h.vlanId w wr hw
  ids w wr hw := by
    rw [Dict.get?_set] at hw
    split at hw
    · obtain rfl := Option.some.inj hw
      exact hids
    · exact h.ids w wr hw
  covered w wr hw := by
    rw [Dict.get?_set] at hw
    split at hw
    · obtain rfl := Option.some.inj hw
      exact hc
    · exact h.covered w wr hw
  flows f hf a ha := by
    rcases mem_of_mem_applyMods hf with hf | ⟨hf, -⟩
    · exact ((hsets f hf).owner hids).2 a ha
    · exact h.flows f hf a ha
  placed := h.placed.applyMods mods

theorem RouterState.Valid.addVlanRouter (h : s.Valid) (v : ℕ) : (s.addVlanRouter ver v).Valid := by
  unfold RouterState.addVlanRouter
  split
  · refine h.set rfl (.init v) (.init v) fun f hf => ?_
    obtain rfl := FlowMod.add.inj (List.mem_singleton.mp hf)
    exact .drop
  · exact h

theorem RouterState.Valid.delVlanRouter (h : s.Valid) (v : ℕ) : (s.delVlanRouter ver v).Valid := by
  unfold RouterState.delVlanRouter
  split
  · exact h
  · next vr hvr =>
    split
    · have hget : ∀ w wr, (s.vlans.erase v).get? w = some wr → s.vlans.get? w = some wr := by
        intro w wr hw
        rw [Dict.get?_erase] at hw
        split at hw
        · cases hw
        · exact hw
      refine ⟨fun w wr hw => h.vlanId w wr (hget w wr hw), fun w wr hw => h.ids w wr (hget w wr hw),
        fun w wr hw => h.covered w wr (hget w wr hw), fun f hf a ha => ?_, h.placed.applyMods _⟩
      rcases mem_of_mem_applyMods hf with hf | ⟨hf, -⟩
      · obtain ⟨g, -, hg⟩ := List.mem_map.mp hf
        cases hg
      · exact h.flows f hf a ha
    · exact h

theorem RouterState.Valid.step (h : s.Valid) (e : SwitchEvent) : (s.step aton ver e).Valid := by
  cases e with
  | addVlanRouter v => exact h.addVlanRouter v
  | delVlanRouter v => exact h.delVlanRouter v
  | request v req =>
    simp only [RouterState.step, RouterState.request]
    split
    · exact h
    · next vr hv =>
      have hc := h.covered v vr hv
      have hb : vr.Becomes (vr.handle aton s.flows req).router (vr.handle aton s.flows req).mods :=
        (h.ids v vr hv).handle hc s.flows req
      exact h.set (hb.vlanId.trans (h.vlanId v vr hv)) hb.ids (hc.handle s.flows req) hb.sets
  | arp v packet =>
    simp only [RouterState.step, RouterState.arp]
    split
    · exact h
    · next vr hv =>
      have hb := (h.ids v vr hv).packetinArp packet
      exact h.set (hb.vlanId.trans (h.vlanId v vr hv)) hb.ids ((h.covered v vr hv).packetinArp packet)
        hb.sets
  | expired flow =>
    refine ⟨h.vlanId, h.ids, h.covered, fun f hf => h.flows f (List.mem_filter.mp hf).1, ?_⟩
    intro f hf g hg
    exact h.placed f (List.mem_filter.mp hf).1 g (List.mem_filter.mp hg).1

theorem RouterState.Valid.run (events : List SwitchEvent) :
    (RouterState.run aton ver events).Valid :=
  (throughout_of_step .init (fun _ e h => h.step e) events).last

end Invariant

end Ryu.Router
