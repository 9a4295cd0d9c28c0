import Ryu.Router.Select

/-! # The routes and their flows

A route is kept under the key of its network, but the overlap check looks up the destination as
it was written. Another spelling of a network that is there takes the place of the route, whose
flow may stay. As long as no network is spelled in two ways, and the ids have 16 bits, each flow
of a route belongs to a route of the table, and each route is removed by its id.
-/

namespace Ryu.Router

open VlanRouter

section Places

variable {vr wr : VlanRouter} {r r' : Route} {f : RouterFlow} {a : Address} {o o' : FlowOutput}

/-- A destination is the base of its network; the default route has no bit. -/
structure Route.IsNetwork (r : Route) : Prop where
  netmask_le : r.netmask ≤ 32
  default : r.dstIp = none → r.netmask = 0
  base : ∀ ip, r.dstIp = some ip → networkOf r.netmask ip = ip

theorem shiftPriority_static (priorityType priority vid : ℕ) (h : priorityType ≤ 2) :
    shiftPriority priorityType priority vid = priority + if vid ≠ 0 then 1000 else 0 := by
  have htype : ¬priorityType = priorityIpHandling := by
    unfold priorityIpHandling
    omega
  have hstatic : ¬priorityType > priorityStaticRouting := by
    unfold priorityStaticRouting
    omega
  simp only [shiftPriority, htype, or_false, if_neg hstatic]
  split <;> rfl

theorem routePriority_eq (dstIp : Option Ip) (netmask vid : ℕ) :
    routePriority dstIp netmask vid =
      (if dstIp.isSome then 2 + netmask else 1) + if vid ≠ 0 then 1000 else 0 := by
  unfold routePriority
  split
  · exact shiftPriority_static _ _ _ le_rfl
  · exact shiftPriority_static _ _ _ (by decide)

/-- Flows of routes are in the same place only for the same network, written the same way. -/
theorem routeFlow_place (hr : r.IsNetwork) (hr' : r'.IsNetwork)
    (h : (vr.routeFlow r o).SamePlace (wr.routeFlow r' o')) :
    vr.vlanId = wr.vlanId ∧ r.dstIp = r'.dstIp ∧ r.netmask = r'.netmask := by
  obtain ⟨hp, hf⟩ := h
  have hv : vr.vlanId = wr.vlanId := congrArg RouterMatch.dlVlan hf
  have hdst : matchNet r.dstIp r.netmask = matchNet r'.dstIp r'.netmask :=
    congrArg RouterMatch.nwDst hf
  simp only [routeFlow, routePriority_eq, hv] at hp
  refine ⟨hv, ?_⟩
  cases hd : r.dstIp with
  | none =>
    cases hd' : r'.dstIp with
    | none => exact ⟨rfl, (hr.default hd).trans (hr'.default hd').symm⟩
    | some ip =>
      rw [hd, hd'] at hp
      simp at hp
      omega
  | some ip =>
    cases hd' : r'.dstIp with
    | none =>
      rw [hd, hd'] at hp
      simp at hp
      omega
    | some ip' =>
      rw [hd, hd'] at hp hdst
      have hmask : r.netmask = r'.netmask := by simpa using hp
      refine ⟨congrArg some ?_, hmask⟩
      by_cases h0 : r.netmask = 0
      · have hip := hr.base ip hd
        have hip' := hr'.base ip' hd'
        rw [h0, networkOf_zero] at hip
        rw [← hmask, h0, networkOf_zero] at hip'
        rw [← hip, ← hip']
      · rw [← hmask] at hdst
        simp only [matchNet, Option.bind_some, if_neg h0, Option.some.injEq, Prod.mk.injEq] at hdst
        exact hdst.1

/-- The priorities of the flows of addresses. -/
theorem getPriority_address (vid : ℕ) :
    getPriority priorityMacLearning vid = 2 + (if vid ≠ 0 then 1000 else 0) ∧
    getPriority priorityImplicitRouting vid = 35 + (if vid ≠ 0 then 1000 else 0) ∧
    getPriority priorityL2Switching vid = 36 + (if vid ≠ 0 then 1000 else 0) ∧
    getPriority priorityIpHandling vid = 1037 := by
  by_cases hv : vid = 0
  · subst hv
    decide
  · simp [getPriority, shiftPriority, hv, priorityMacLearning, priorityImplicitRouting,
      priorityL2Switching, priorityIpHandling, priorityVlanShift, priorityNetmaskShift,
      priorityStaticRouting]

/-- The flow of a host is in no place of the flow of a route. -/
theorem host_place {packet : ArpPacket} (hf : FlowMod.add f ∈ vr.learningHostMac packet)
    (hr : r.IsNetwork) : ¬f.SamePlace (wr.routeFlow r o) := by
  intro hp
  unfold learningHostMac at hf
  split at hf
  · cases hf
  · obtain rfl := FlowMod.add.inj (List.mem_singleton.mp hf)
    have hprio := hp.1
    simp only [routeFlow, routePriority_eq] at hprio
    have hle := hr.netmask_le
    have hv : vr.vlanId = wr.vlanId := congrArg RouterMatch.dlVlan hp.2
    have hsize : (if r.dstIp.isSome = true then 2 + r.netmask else 1) ≤ 34 := by
      split <;> omega
    rw [← hv] at hprio
    simp only [(getPriority_address vr.vlanId).2.1] at hprio
    omega

/-- A flow that a router sets is in the place of the flow of a route only if it drops packets in
place of a default route, or is of an address of no bits, or is of a route. -/
theorem VlanRouter.Sets.place (h : vr.Sets f) (hr : r.IsNetwork)
    (hp : f.SamePlace (wr.routeFlow r o)) : vr.vlanId = wr.vlanId ∧
      (f = dropFlow vr.vlanId ∧ r.dstIp = none ∨
        (∃ a ∈ vr.addressData.values, f ∈ vr.addressFlows a ∧ a.netmask = 0) ∨
        ∃ r' ∈ vr.routingTbl.values, ∃ output, f = vr.routeFlow r' output) := by
  have hprio := hp.1
  simp only [routeFlow, routePriority_eq] at hprio
  have hle := hr.netmask_le
  cases h with
  | drop =>
    have hv : vr.vlanId = wr.vlanId := congrArg RouterMatch.dlVlan hp.2
    refine ⟨hv, .inl ⟨rfl, ?_⟩⟩
    rw [← hv] at hprio
    simp only [dropFlow, getPriority, shiftPriority_static priorityDefaultRouting _ _ (by decide)]
      at hprio
    cases hd : r.dstIp with
    | none => rfl
    | some ip =>
      simp [hd, priorityDefaultRouting] at hprio
      omega
  | address a ha hf =>
    simp only [addressFlows, List.mem_cons, List.not_mem_nil, or_false] at hf
    obtain ⟨hmac, -, hl2, hip⟩ := getPriority_address vr.vlanId
    have hsize : (if r.dstIp.isSome = true then 2 + r.netmask else 1) ≤ 34 := by
      split <;> omega
    rcases hf with rfl | rfl | rfl
    · have hv : vr.vlanId = wr.vlanId := congrArg RouterMatch.dlVlan hp.2
      refine ⟨hv, .inr (.inl ⟨a, ha, by simp [addressFlows], ?_⟩)⟩
      rw [← hv] at hprio
      simp only [hmac] at hprio
      have hdst : matchNet (some a.nwAddr) a.netmask = matchNet r.dstIp r.netmask :=
        congrArg RouterMatch.nwDst hp.2
      cases hd : r.dstIp with
      | none =>
        simp [hd] at hprio
      | some ip =>
        have hmask : r.netmask = 0 := by
          rw [hd] at hprio
          simpa using hprio
        rw [hd, hmask] at hdst
        by_contra hne
        simp [matchNet, hne] at hdst
    · have hshift : (if wr.vlanId ≠ 0 then 1000 else 0) ≤ 1000 := by
        split <;> omega
      simp only [hip] at hprio
      omega
    · have hv : vr.vlanId = wr.vlanId := congrArg RouterMatch.dlVlan hp.2
      rw [← hv] at hprio
      simp only [hl2] at hprio
      omega
  | host packet hf => exact absurd hp (host_place hf hr)
  | route r' hr' output =>
    have hv : vr.vlanId = wr.vlanId := congrArg RouterMatch.dlVlan hp.2
    exact ⟨hv, .inr (.inr ⟨r', hr', output, rfl⟩)⟩

end Places

section Tables

variable {aton : Text → Option Ip} {rt rt' : RoutingTable} {r r' : Route} {id : ℕ} {k : Text}

/-- Each route is kept under the key of its network, and the ids are below the next one, which
has not left 16 bits. -/
structure RoutingTable.Sound (rt : RoutingTable) : Prop where
  keyed : ∀ k r, rt.entries.get? k = some r → k = routeKey r.dstIp r.netmask
  network : ∀ r ∈ rt.values, r.IsNetwork
  next_pos : 0 < rt.routeId
  next_le : rt.routeId ≤ 2 ^ 16
  pos : ∀ r ∈ rt.values, 0 < r.routeId
  lt : ∀ r ∈ rt.values, r.routeId < rt.routeId
  unique : ∀ r ∈ rt.values, ∀ r' ∈ rt.values, r.routeId = r'.routeId → r = r'

theorem RoutingTable.Sound.init : RoutingTable.init.Sound where
  keyed _ _ h := by cases h
  network r hr := by cases hr
  next_pos := Nat.one_pos
  next_le := show 1 ≤ 2 ^ 16 by decide
  pos r hr := by cases hr
  lt r hr := by cases hr
  unique r hr := by cases hr

/-- Routes of one table to the same network are the same. -/
theorem RoutingTable.Sound.eq_of_network (h : rt.Sound) (hr : r ∈ rt.values) (hr' : r' ∈ rt.values)
    (hd : r.dstIp = r'.dstIp) (hm : r.netmask = r'.netmask) : r = r' := by
  obtain ⟨k, hk⟩ := mem_routes.1 hr
  obtain ⟨k', hk'⟩ := mem_routes.1 hr'
  have hkk : k = k' := by rw [h.keyed k r hk, h.keyed k' r' hk', hd, hm]
  exact Option.some.inj (hk.symm.trans (hkk ▸ hk'))

/-- A part of a sound table, with the same ids. -/
theorem RoutingTable.Sound.sub (h : rt.Sound) (hid : rt'.routeId = rt.routeId)
    (hsub : ∀ k r, rt'.entries.get? k = some r → rt.entries.get? k = some r) : rt'.Sound := by
  have hmem : ∀ r ∈ rt'.values, r ∈ rt.values := by
    intro r hr
    obtain ⟨k, hk⟩ := mem_routes.1 hr
    exact mem_routes.2 ⟨k, hsub k r hk⟩
  exact ⟨fun k r hk => h.keyed k r (hsub k r hk), fun r hr => h.network r (hmem r hr),
    hid ▸ h.next_pos, hid ▸ h.next_le, fun r hr => h.pos r (hmem r hr),
    fun r hr => hid ▸ h.lt r (hmem r hr),
    fun r hr r' hr' => h.unique r (hmem r hr) r' (hmem r' hr')⟩

/-- A deletion removes the route with the id. -/
theorem RoutingTable.Sound.get?_delete (h : rt.Sound) :
    (rt.delete id).entries.get? k = some r ↔ rt.entries.get? k = some r ∧ r.routeId ≠ id := by
  constructor
  · intro hk
    refine ⟨get?_of_deleteRoute hk, fun hid => ?_⟩
    rcases deleteRoute_cases rt id with ⟨he, hno⟩ | ⟨k', r', hk', hid', he⟩
    · exact hno r (mem_routes.2 ⟨k, he ▸ hk⟩) hid
    · have hkr := get?_of_deleteRoute hk
      obtain rfl := h.unique r (mem_routes.2 ⟨k, hkr⟩) r' (mem_routes.2 ⟨k', hk'⟩)
        (hid.trans hid'.symm)
      rw [he, Dict.get?_erase, h.keyed k r hkr, h.keyed k' r hk', if_pos rfl] at hk
      cases hk
  · rintro ⟨hk, hid⟩
    rcases deleteRoute_cases rt id with ⟨he, -⟩ | ⟨k', r', hk', hid', he⟩
    · rwa [he]
    · rw [he, Dict.get?_erase, if_neg, hk]
      rintro rfl
      obtain rfl := Option.some.inj (hk.symm.trans hk')
      exact hid hid'

theorem routeId_delete : (rt.delete id).routeId = rt.routeId := by
  rcases deleteRoute_cases rt id with ⟨he, -⟩ | ⟨k', r', -, -, he⟩ <;> rw [he]

theorem RoutingTable.Sound.delete (h : rt.Sound) (id : ℕ) : (rt.delete id).Sound :=
  h.sub routeId_delete fun _ _ hk => (h.get?_delete.mp hk).1

/-- What is left when the flows of a list have been deleted. -/
theorem RoutingTable.Sound.deleteRoutes (h : rt.Sound) (stats : List RouterFlow) (ids : List ℕ) :
    (stats.foldl deleteRouteStep (rt, ids)).1.Sound ∧
      ∀ k r, (stats.foldl deleteRouteStep (rt, ids)).1.entries.get? k = some r ↔
        rt.entries.get? k = some r ∧ ∀ f ∈ stats, cookieToRouteId f.cookie ≠ r.routeId := by
  induction stats generalizing rt ids with
  | nil => exact ⟨h, fun k r => ⟨fun hk => ⟨hk, fun f hf => by cases hf⟩, fun hk => hk.1⟩⟩
  | cons f stats ih =>
    obtain ⟨hs, hget⟩ := ih (h.delete (cookieToRouteId f.cookie))
      (if cookieToRouteId f.cookie ∈ ids then ids else ids ++ [cookieToRouteId f.cookie])
    refine ⟨hs, fun k r => (hget k r).trans ?_⟩
    rw [h.get?_delete, List.forall_mem_cons, and_assoc, ne_comm]

/-- A destination is the base of its network. -/
theorem isNetwork_of_destinationOf {dst : Text} (h : destinationOf aton dst = .ok (r.dstIp, r.netmask)) :
    r.IsNetwork := by
  unfold destinationOf at h
  split at h
  · obtain ⟨hd, hm⟩ := Prod.mk.inj (Except.ok.inj h)
    refine ⟨by omega, fun _ => hm.symm, fun ip hip => ?_⟩
    rw [← hd] at hip
    cases hip
  · obtain ⟨n, -, hn⟩ := map_eq_ok.1 h
    obtain ⟨hd, hm⟩ := Prod.mk.inj hn
    refine ⟨hm ▸ n.netmask_le, fun hip => ?_, fun ip hip => ?_⟩
    · rw [← hd] at hip
      cases hip
    obtain rfl := Option.some.inj (hd.trans hip)
    rw [← hm, n.nwAddr_eq, networkOf_networkOf le_rfl]

theorem nextId_of_lt (h : id + 1 < 2 ^ 32) : nextId id = id + 1 := by
  have hmask : (id + 1) &&& uint32Max = (id + 1) % 2 ^ 32 := Nat.and_two_pow_sub_one_eq_mod _ 32
  unfold nextId cookieDefaultId
  simp only [hmask, Nat.mod_eq_of_lt h]
  rw [if_neg (by omega)]

/-- Adding a route to a network that is not there, under an id of 16 bits. -/
theorem RoutingTable.Sound.add (h : rt.Sound) {dst gateway : Text}
    (hadd : rt.add aton dst gateway = .ok (r, rt'))
    (hfree : rt.entries.get? (routeKey r.dstIp r.netmask) = none) (hlt : rt.routeId < 2 ^ 16) :
    rt'.Sound ∧ ∀ r', r' ∈ rt'.values ↔ r' = r ∨ r' ∈ rt.values := by
  obtain ⟨hdst, -, -, hid, -, hrt⟩ := addRoute_eq_ok hadd
  have hnext : rt'.routeId = rt.routeId + 1 := by
    rw [hrt]
    exact nextId_of_lt (by omega)
  have hmem : ∀ r', r' ∈ rt'.values ↔ r' = r ∨ r' ∈ rt.values := by
    intro r'
    rw [mem_routes, mem_routes, hrt]
    constructor
    · rintro ⟨k, hk⟩
      rw [Dict.get?_set] at hk
      split at hk
      · exact .inl (Option.some.inj hk).symm
      · exact .inr ⟨k, hk⟩
    · rintro (rfl | ⟨k, hk⟩)
      · exact ⟨_, Dict.get?_set_self ..⟩
      · refine ⟨k, ?_⟩
        rw [Dict.get?_set, if_neg, hk]
        rintro rfl
        rw [hfree] at hk
        cases hk
  have hpos := h.next_pos
  refine ⟨⟨fun k r' hk => ?_, fun r' hr' => ?_, by omega, by omega, fun r' hr' => ?_,
    fun r' hr' => ?_, fun r₁ h₁ r₂ h₂ he => ?_⟩, hmem⟩
  · rw [hrt, Dict.get?_set] at hk
    split at hk
    · next hkey =>
      obtain rfl := Option.some.inj hk
      exact hkey.symm
    · exact h.keyed k r' hk
  · rcases (hmem r').mp hr' with rfl | hr'
    · exact isNetwork_of_destinationOf hdst
    · exact h.network r' hr'
  · rcases (hmem r').mp hr' with rfl | hr'
    · omega
    · exact h.pos r' hr'
  · rcases (hmem r').mp hr' with rfl | hr'
    · omega
    · have hlt' := h.lt r' hr'
      omega
  · rcases (hmem r₁).mp h₁ with h₁ | h₁
    · rcases (hmem r₂).mp h₂ with h₂ | h₂
      · rw [h₁, h₂]
      · have hlt' := h.lt r₂ h₂
        rw [h₁] at he
        omega
    · rcases (hmem r₂).mp h₂ with h₂ | h₂
      · have hlt' := h.lt r₁ h₁
        rw [h₂] at he
        omega
      · exact h.unique r₁ h₁ r₂ h₂ he

theorem mem_learn {arp : ArpPacket} {vr : VlanRouter} :
    r ∈ (vr.updateRoutingTbl arp).2.1.routingTbl.values ↔
      ∃ r' ∈ vr.routingTbl.values, learn arp r' = r := by
  rw [mem_routes]
  simp only [updateRoutingTbl, Dict.get?_mapValues, Option.map_eq_some_iff]
  constructor
  · rintro ⟨k, r', hr', rfl⟩
    exact ⟨r', mem_routes.2 ⟨k, hr'⟩, rfl⟩
  · rintro ⟨r', hr', rfl⟩
    obtain ⟨k, hk⟩ := mem_routes.1 hr'
    exact ⟨k, r', hk, rfl⟩

theorem RoutingTable.Sound.learn {arp : ArpPacket} {vr : VlanRouter} (h : vr.routingTbl.Sound) :
    (vr.updateRoutingTbl arp).2.1.routingTbl.Sound := by
  have hlearn : ∀ P : Route → Prop, (∀ r ∈ vr.routingTbl.values, P (VlanRouter.learn arp r)) →
      ∀ r ∈ (vr.updateRoutingTbl arp).2.1.routingTbl.values, P r := by
    intro P hP r hr
    obtain ⟨r', hr', rfl⟩ := mem_learn.1 hr
    exact hP r' hr'
  refine ⟨fun k r hk => ?_, hlearn _ fun r hr => ?_, h.next_pos, h.next_le,
    hlearn _ fun r hr => ?_, hlearn _ fun r hr => ?_,
    hlearn _ fun r hr => hlearn _ fun r' hr' he => ?_⟩
  · simp only [updateRoutingTbl, Dict.get?_mapValues, Option.map_eq_some_iff] at hk
    obtain ⟨r', hr', rfl⟩ := hk
    obtain ⟨-, hd, hm, -⟩ := learn_eq arp r'
    rw [hd, hm]
    exact h.keyed k r' hr'
  · obtain ⟨-, hd, hm, -⟩ := learn_eq arp r
    obtain ⟨hle, hdef, hbase⟩ := h.network r hr
    exact ⟨hm ▸ hle, fun hn => hm ▸ hdef (hd ▸ hn), fun ip hip => hm ▸ hbase ip (hd ▸ hip)⟩
  · exact (learn_eq arp r).1 ▸ h.pos r hr
  · exact (learn_eq arp r).1 ▸ h.lt r hr
  · rw [(learn_eq arp r).1, (learn_eq arp r').1] at he
    rw [h.unique r hr r' hr' he]

theorem routeFlow_learn (vr : VlanRouter) (arp : ArpPacket) (r : Route) (o : FlowOutput) :
    (vr.updateRoutingTbl arp).2.1.routeFlow (learn arp r) o = vr.routeFlow r o := by
  obtain ⟨hid, hd, hm, -⟩ := learn_eq arp r
  simp only [routeFlow, hid, hd, hm]
  rfl

end Tables

section Routed

variable {aton : Text → Option Ip} {ver : OfVersion} {s : RouterState} {vr vr' : VlanRouter}
variable {v : ℕ} {f g : RouterFlow} {r : Route} {o : FlowOutput} {mods : List FlowMod}

/-- The tables are sound, each route has its flow, each flow of a route belongs to one of the
table, and no flow of an address has the priority of a default route. -/
structure RouterState.Routed (s : RouterState) : Prop where
  valid : s.Valid
  tables : ∀ v vr, s.vlans.get? v = some vr → vr.routingTbl.Sound
  installed : ∀ v vr, s.vlans.get? v = some vr → ∀ r ∈ vr.routingTbl.values,
    ∃ output, vr.routeFlow r output ∈ s.flows
  owned : ∀ f ∈ s.flows, ∀ id, f.owner = .route id → ∃ vr, s.vlans.get? f.vlan = some vr ∧
    ∃ r ∈ vr.routingTbl.values, ∃ output, f = vr.routeFlow r output
  addressed : ∀ f ∈ s.flows, ∀ a, f.owner = .address a → getPriorityType f.priority f.vlan ≠ 1

theorem VlanRouter.Sets.route_of_owner (h : vr.Sets f) {id : ℕ} (ho : f.owner = .route id) :
    ∃ r ∈ vr.routingTbl.values, ∃ output, f = vr.routeFlow r output := by
  cases h with
  | drop => cases ho
  | address a ha hf =>
    simp only [addressFlows, List.mem_cons, List.not_mem_nil, or_false] at hf
    rcases hf with rfl | rfl | rfl <;> cases ho
  | host packet hf =>
    unfold learningHostMac at hf
    split at hf
    · cases hf
    · obtain rfl := FlowMod.add.inj (List.mem_singleton.mp hf)
      cases ho
  | route r hr output => exact ⟨r, hr, output, rfl⟩

theorem VlanRouter.Sets.addressed (h : vr.Sets f) {a : ℕ} (ho : f.owner = .address a) :
    getPriorityType f.priority f.vlan ≠ 1 := by
  obtain ⟨hmac, hhost, hl2, hip⟩ := getPriority_address vr.vlanId
  have htype : ∀ p, (p = 2 ∨ p = 35 ∨ p = 36) →
      getPriorityType (p + if vr.vlanId ≠ 0 then 1000 else 0) vr.vlanId ≠ 1 := by
    intro p hp
    unfold getPriorityType priorityVlanShift
    split <;> omega
  have htype' : getPriorityType 1037 vr.vlanId ≠ 1 := by
    unfold getPriorityType priorityVlanShift
    split <;> omega
  cases h with
  | drop => cases ho
  | address a ha hf =>
    simp only [addressFlows, List.mem_cons, List.not_mem_nil, or_false] at hf
    rcases hf with rfl | rfl | rfl
    · exact hmac ▸ htype 2 (.inl rfl)
    · exact hip ▸ htype'
    · exact hl2 ▸ htype 36 (.inr (.inr rfl))
  | host packet hf =>
    unfold learningHostMac at hf
    split at hf
    · cases hf
    · obtain rfl := FlowMod.add.inj (List.mem_singleton.mp hf)
      exact hhost ▸ htype 35 (.inr (.inl rfl))
  | route r hr output => cases ho

/-- What has to be shown of an operation of one router: that its routes have their flows, that
the flows of its routes that are left belong to a route that is left, and that the flows of the
routes of other routers are left. -/
theorem RouterState.Routed.set (h : s.Routed) (hv : vr.vlanId = v) (hids : vr.AddressIds)
    (hc : vr.Covered) (hsets : ∀ f, FlowMod.add f ∈ mods → vr.Sets f) (ht : vr.routingTbl.Sound)
    (hinst : ∀ r ∈ vr.routingTbl.values, ∃ o, vr.routeFlow r o ∈ applyMods ver s.flows mods)
    (hown : ∀ f ∈ s.flows, f.vlan = v → ∀ id, f.owner = .route id → ¬Deleted ver mods f →
      ∃ r ∈ vr.routingTbl.values, ∃ o, f = vr.routeFlow r o)
    (hother : ∀ f ∈ s.flows, f.vlan ≠ v → ∀ id, f.owner = .route id → ¬Deleted ver mods f) :
    RouterState.Routed ⟨s.vlans.set v vr, applyMods ver s.flows mods⟩ where
  valid := h.valid.set hv hids hc hsets
  tables w wr hw := by
    rw [Dict.get?_set] at hw
    split at hw
    · obtain rfl := Option.some.inj hw
      exact ht
    · exact h.tables w wr hw
  installed w wr hw r hr := by
    rw [Dict.get?_set] at hw
    split at hw
    · obtain rfl := Option.some.inj hw
      exact hinst r hr
    · next hvw =>
      have hwv := h.valid.vlanId w wr hw
      obtain ⟨o, ho⟩ := h.installed w wr hw r hr
      have hne : (wr.routeFlow r o).vlan ≠ v := fun he => hvw (he.symm.trans hwv)
      refine ⟨o, mem_applyMods ho (hother _ ho hne r.routeId rfl) fun g hg hp => ?_⟩
      obtain ⟨heq, -⟩ := (hsets g hg).place ((h.tables w wr hw).network r hr) hp.symm
      exact hvw (hv.symm.trans (heq.trans hwv))
  owned f hf id ho := by
    rcases mem_of_mem_applyMods hf with hadd | ⟨hf, hd⟩
    · have hfv : f.vlan = v := ((hsets f hadd).owner hids).1.trans hv
      refine ⟨vr, ?_, (hsets f hadd).route_of_owner ho⟩
      rw [hfv]
      exact Dict.get?_set_self ..
    · by_cases hfv : f.vlan = v
      · refine ⟨vr, ?_, hown f hf hfv id ho hd⟩
        rw [hfv]
        exact Dict.get?_set_self ..
      · obtain ⟨wr, hw, hr⟩ := h.owned f hf id ho
        exact ⟨wr, by rw [Dict.get?_set_of_ne (Ne.symm hfv), hw], hr⟩
  addressed f hf a ho := by
    rcases mem_of_mem_applyMods hf with hadd | ⟨hf, -⟩
    · exact (hsets f hadd).addressed ho
    · exact h.addressed f hf a ho

/-- An operation that changes and sends nothing. -/
theorem RouterState.Routed.keep (h : s.Routed) (hv : s.vlans.get? v = some vr) :
    RouterState.Routed ⟨s.vlans.set v vr, applyMods ver s.flows []⟩ := by
  have hb := (h.valid.ids v vr hv).becomes
  refine h.set (h.valid.vlanId v vr hv) hb.ids (h.valid.covered v vr hv) hb.sets (h.tables v vr hv)
    (h.installed v vr hv) (fun f hf hfv id ho _ => ?_) fun f _ _ _ _ ⟨_, hg, _⟩ => by cases hg
  obtain ⟨wr, hw, hr⟩ := h.owned f hf id ho
  obtain rfl := Option.some.inj (hv.symm.trans (hfv ▸ hw))
  exact hr

theorem not_deleted_of_adds {fs : List RouterFlow} : ¬Deleted ver (fs.map .add) f := by
  rintro ⟨g, hg, -⟩
  obtain ⟨_, -, heq⟩ := List.mem_map.mp hg
  cases heq

/-- The ids that are read from the cookie of a route, as long as its id has 16 bits. -/
theorem decode_routeFlow (vr : VlanRouter) (o : FlowOutput) (hr : r.routeId < 2 ^ 16) :
    cookieToVlanId (vr.routeFlow r o).cookie = vr.vlanId ∧
    cookieToAddressId (vr.routeFlow r o).cookie = r.routeId * 2 ^ 16 ∧
    cookieToRouteId (vr.routeFlow r o).cookie = r.routeId := by
  obtain ⟨hv, ha, hid⟩ := decode_route vr.vlanId r.routeId
  rw [Nat.div_eq_of_lt hr, Nat.add_zero] at hv
  rw [Nat.mod_eq_of_lt hr] at ha hid
  exact ⟨hv, ha, hid⟩

theorem RouterState.Routed.lt (h : s.Routed) (hv : s.vlans.get? v = some vr)
    (hr : r ∈ vr.routingTbl.values) : r.routeId < 2 ^ 16 :=
  ((h.tables v vr hv).lt r hr).trans_le (h.tables v vr hv).next_le

theorem RouterState.Routed.setAddress (h : s.Routed) (hv : s.vlans.get? v = some vr) {t : Text}
    {id : ℕ} (hset : vr.setAddressData aton t = .ok (id, vr', mods)) (hb : vr.Becomes vr' mods)
    (hc : vr'.Covered) : RouterState.Routed ⟨s.vlans.set v vr', applyMods ver s.flows mods⟩ := by
  obtain ⟨a, ad, hadd, -, rfl, rfl⟩ := setAddressData_eq_ok hset
  have hvr := h.valid.vlanId v vr hv
  have hcov := h.valid.covered v vr hv
  have hmem := fun b => hcov.sound.mem_add (b := b) hadd
  refine h.set hvr hb.ids hc hb.sets (h.tables v vr hv) (fun r hr => ?_) (fun f hf hfv i ho _ => ?_)
    fun f _ _ _ _ => not_deleted_of_adds
  · obtain ⟨o, ho⟩ := h.installed v vr hv r hr
    refine ⟨o, mem_applyMods ho not_deleted_of_adds fun g hg hp => ?_⟩
    have hg' : g ∈ vr.addressFlows a := by
      obtain ⟨g', hg', heq⟩ := List.mem_map.mp hg
      rwa [← FlowMod.add.inj heq]
    have hgo : g.owner = .address a.addressId := by
      simp only [addressFlows, List.mem_cons, List.not_mem_nil, or_false] at hg'
      rcases hg' with rfl | rfl | rfl <;> rfl
    obtain ⟨-, ⟨rfl, -⟩ | ⟨a', ha', -, hmask⟩ | ⟨r', -, o', rfl⟩⟩ :=
      (hb.sets g hg).place ((h.tables v vr hv).network r hr) hp.symm
    · cases hgo
    · -- An address of no bits contains the gateway, which lies in an address that was there.
      obtain ⟨b, hbmem, hip⟩ := hcov.covered r hr
      have hall : ∀ ip, a'.Contains ip := fun ip => by
        rw [Address.Contains, a'.nwAddr_eq, hmask, networkOf_zero, networkOf_zero]
      have haa : a = a' := hc.sound.apart a ((hmem a).mpr (.inl rfl)) a' ha' a.defaultGw
        (contains_defaultGw a) (hall _)
      exact (add_eq_ok hadd).1 b hbmem r.gatewayIp hip (haa ▸ hall _)
    · cases hgo
  · obtain ⟨wr, hw, hr⟩ := h.owned f hf i ho
    obtain rfl := Option.some.inj (hv.symm.trans (hfv ▸ hw))
    exact hr

theorem RouterState.Routed.setRoute (h : s.Routed) (hv : s.vlans.get? v = some vr)
    {dst gateway : Text} {id : ℕ} (hset : vr.setRoutingData aton dst gateway = .ok (id, vr', mods))
    (hfree : ∀ dstIp netmask, destinationOf aton dst = .ok (dstIp, netmask) →
      vr.routingTbl.entries.get? (routeKey dstIp netmask) = none)
    (hlt : vr.routingTbl.routeId < 2 ^ 16) (hb : vr.Becomes vr' mods) (hc : vr'.Covered) :
    RouterState.Routed ⟨s.vlans.set v vr', applyMods ver s.flows mods⟩ := by
  obtain ⟨r, rt, hadd, -, rfl, rfl, -⟩ := setRoutingData_eq_ok hset
  have hvr := h.valid.vlanId v vr hv
  have ht := h.tables v vr hv
  have hdst := (addRoute_eq_ok hadd).1
  have hkey := hfree _ _ hdst
  obtain ⟨hsound, hmem⟩ := ht.add hadd hkey hlt
  have hnot : ∀ f, ¬Deleted ver ([vr.routeFlow r .controller].map .add) f := fun f =>
    not_deleted_of_adds
  refine h.set hvr hb.ids hc hb.sets hsound (fun r' hr' => ?_) (fun f hf hfv i ho _ => ?_)
    fun f _ _ _ _ => hnot f
  · rcases (hmem r').mp hr' with rfl | hr'
    · have hin : vr.routeFlow r' .controller ∈
          applyMod ver s.flows (.add (vr.routeFlow r' .controller)) := mem_add.2 (.inl rfl)
      exact ⟨.controller, hin⟩
    · obtain ⟨o, ho⟩ := h.installed v vr hv r' hr'
      refine ⟨o, mem_applyMods ho (hnot _) fun g hg hp => ?_⟩
      obtain rfl := FlowMod.add.inj (List.mem_singleton.mp hg)
      obtain ⟨-, hd, hm⟩ := routeFlow_place (ht.network r' hr') (isNetwork_of_destinationOf hdst) hp
      obtain ⟨k, hk⟩ := mem_routes.1 hr'
      rw [ht.keyed k r' hk, hd, hm, hkey] at hk
      cases hk
  · obtain ⟨wr, hw, r', hr', o, hf⟩ := h.owned f hf i ho
    obtain rfl := Option.some.inj (hv.symm.trans (hfv ▸ hw))
    exact ⟨r', (hmem r').mpr (.inr hr'), o, hf⟩

theorem getPriorityType_default {p v : ℕ} {dstIp : Option Ip} {netmask : ℕ}
    (hp : p = routePriority dstIp netmask v) (h : getPriorityType p v = priorityDefaultRouting) :
    dstIp = none := by
  rw [hp, routePriority_eq] at h
  cases dstIp with
  | none => rfl
  | some ip =>
    simp only [getPriorityType, priorityVlanShift, priorityDefaultRouting, Option.isSome_some,
      if_true] at h
    split at h <;> omega

/-- The flow for dropping is set where a flow with the priority of a default route is deleted. -/
theorem dropFlow_of_add {id : RestId} {m : Option ℤ} {stats : List RouterFlow}
    (hm : id.toInt = .ok m) (hg : FlowMod.add g ∈ (vr.deleteRoutingData id stats).mods) :
    g = dropFlow vr.vlanId ∧ ∃ c ∈ stats, vr.SelectsRoute m c ∧
      getPriorityType c.priority vr.vlanId = priorityDefaultRouting := by
  simp only [deleteRoutingData, hm, List.mem_flatMap, deleteRouteMods] at hg
  obtain ⟨c, hc, hg⟩ := hg
  obtain ⟨hcs, hsel⟩ := List.mem_filter.mp hc
  split at hg
  · next htype =>
    have hmem : FlowMod.add g ∈ [FlowMod.add (dropFlow vr.vlanId)] := by simpa using hg
    exact ⟨FlowMod.add.inj (List.mem_singleton.mp hmem), c, hcs, of_decide_eq_true hsel, htype⟩
  · cases List.mem_singleton.mp hg

theorem dropFlow_place {wr : VlanRouter} (hr : r.IsNetwork)
    (hp : (vr.routeFlow r o).SamePlace (dropFlow wr.vlanId)) : r.dstIp = none := by
  have hdrop : wr.Sets (dropFlow wr.vlanId) := .drop
  obtain ⟨-, ⟨-, hd⟩ | ⟨a, -, ha, -⟩ | ⟨r', -, o', hr'⟩⟩ := hdrop.place hr hp.symm
  · exact hd
  · simp only [addressFlows, List.mem_cons, List.not_mem_nil, or_false] at ha
    rcases ha with ha | ha | ha <;> cases congrArg RouterFlow.owner ha
  · cases congrArg RouterFlow.owner hr'

/-- A flow with the priority of a default route that is selected is that of the default route of
the table, unless the id 0 selects a default flow. -/
theorem RouterState.Routed.selected_default (h : s.Routed) (hv : s.vlans.get? v = some vr)
    {m : Option ℤ} (hz : m = some 0 → (∃ r ∈ vr.routingTbl.values, r.dstIp = none) →
      ∀ f ∈ s.flows, f.vlan = vr.vlanId → f.owner ≠ .default)
    (hr : r ∈ vr.routingTbl.values) (hd : r.dstIp = none) (hf : f ∈ s.flows)
    (hsel : vr.SelectsRoute m f) (htype : getPriorityType f.priority vr.vlanId = 1) :
    cookieToRouteId f.cookie = r.routeId := by
  have hvr := h.valid.vlanId v vr hv
  have ht := h.tables v vr hv
  cases ho : f.owner with
  | default =>
    obtain ⟨hfv, -, hid⟩ := decode_default f.vlan
    rw [← ho] at hfv hid
    obtain ⟨hselv, hsel⟩ := hsel
    cases m with
    | none => exact absurd hid hsel
    | some n =>
      have hn : n = 0 := by
        rw [RouterFlow.cookie, hid] at hsel
        exact_mod_cast hsel
      exact absurd ho (hz (congrArg some hn) ⟨r, hr, hd⟩ f hf (hfv.symm.trans hselv))
  | address a =>
    obtain ⟨hfv, -, -⟩ := decode_address (v := f.vlan) (h.valid.flows f hf a ho)
    rw [← ho] at hfv
    have heq : f.vlan = vr.vlanId := hfv.symm.trans hsel.1
    exact absurd (heq ▸ htype) (h.addressed f hf a ho)
  | route i =>
    obtain ⟨wr, hw, r', hr', o', rfl⟩ := h.owned f hf i ho
    obtain ⟨hfv, -, hid⟩ := decode_routeFlow wr o' (h.lt hw hr')
    have heq : wr.vlanId = v := (hfv.symm.trans hsel.1).trans hvr
    have hw' : s.vlans.get? wr.vlanId = some wr := hw
    obtain rfl := Option.some.inj (hv.symm.trans (heq ▸ hw'))
    have hd' := getPriorityType_default rfl htype
    obtain rfl : r = r' := ht.eq_of_network hr hr' (hd.trans hd'.symm)
      (((ht.network r hr).default hd).trans ((ht.network r' hr').default hd').symm)
    exact hid

/-- The routes that are left by a request: those whose ids no selected flow has. -/
theorem RoutingTable.Sound.mem_deleteRoutingData (ht : vr.routingTbl.Sound) {id : RestId}
    {m : Option ℤ} (hm : id.toInt = .ok m) {stats : List RouterFlow} :
    (vr.deleteRoutingData id stats).router.routingTbl.Sound ∧
      ∀ r, r ∈ (vr.deleteRoutingData id stats).router.routingTbl.values ↔
        r ∈ vr.routingTbl.values ∧
          ∀ f ∈ stats, vr.SelectsRoute m f → cookieToRouteId f.cookie ≠ r.routeId := by
  obtain ⟨hsound, hget⟩ := ht.deleteRoutes (stats.filter (vr.SelectsRoute m ·)) []
  have htbl : (vr.deleteRoutingData id stats).router.routingTbl =
      ((stats.filter (vr.SelectsRoute m ·)).foldl deleteRouteStep (vr.routingTbl, [])).1 := by
    rw [deleteRoutingData]
    simp only [hm]
  refine ⟨htbl ▸ hsound, fun r => ?_⟩
  simp only [htbl, mem_routes, hget, List.mem_filter, decide_eq_true_iff, and_imp,
    exists_and_right]

/-- The deletion of a route. The flow for dropping takes the place of that of a default route,
which the id 0 can make it do without deleting that route. -/
theorem RouterState.Routed.deleteRoute (h : s.Routed) (hv : s.vlans.get? v = some vr)
    {id : RestId} {m : Option ℤ} (hm : id.toInt = .ok m)
    (hz : m = some 0 → (∃ r ∈ vr.routingTbl.values, r.dstIp = none) →
      ∀ f ∈ s.flows, f.vlan = vr.vlanId → f.owner ≠ .default) :
    let o := vr.deleteRoutingData id s.flows
    RouterState.Routed ⟨s.vlans.set v o.router, applyMods ver s.flows o.mods⟩ := by
  have hvr := h.valid.vlanId v vr hv
  have hids := h.valid.ids v vr hv
  have ht := h.tables v vr hv
  have hdel : ∀ f ∈ s.flows, (Deleted ver (vr.deleteRoutingData id s.flows).mods f ↔
      vr.SelectsRoute m f) := fun f hf => deletedRoutes_iff h.valid hm hf
  have hb := hids.deleteRoutingData id s.flows
  have hc := (h.valid.covered v vr hv).deleteRoutingData id s.flows
  obtain ⟨hsound, hmem⟩ := ht.mem_deleteRoutingData hm
  have hvlan : (vr.deleteRoutingData id s.flows).router.vlanId = vr.vlanId := hb.vlanId
  have hflow : ∀ r o, (vr.deleteRoutingData id s.flows).router.routeFlow r o =
      vr.routeFlow r o := by
    intro r o
    simp only [routeFlow, hvlan]
  -- A flow of a route is selected by its own id only.
  have hself : ∀ f ∈ s.flows, ∀ r ∈ vr.routingTbl.values, ∀ o, f = vr.routeFlow r o →
      ∀ g ∈ s.flows, vr.SelectsRoute m g → cookieToRouteId g.cookie = r.routeId →
        vr.SelectsRoute m f := by
    rintro f hf r hr o rfl g hg ⟨hgv, hgm⟩ hid
    obtain ⟨hdv, -, hdr⟩ := decode_routeFlow vr o (h.lt hv hr)
    refine ⟨hdv, ?_⟩
    cases m with
    | none => rwa [hdr, ← hid]
    | some n => rw [hdr, ← hid]; exact hgm
  refine h.set (hvlan.trans hvr) hb.ids hc hb.sets hsound (fun r hr => ?_)
    (fun f hf hfv i ho hd => ?_) fun f hf hfv i ho hd => ?_
  · obtain ⟨hr, hnot⟩ := (hmem r).mp hr
    obtain ⟨o, ho⟩ := h.installed v vr hv r hr
    obtain ⟨hdv, -, hdr⟩ := decode_routeFlow vr o (h.lt hv hr)
    refine ⟨o, ?_⟩
    rw [hflow]
    refine mem_applyMods ho (fun hd => hnot _ ho ((hdel _ ho).mp hd) hdr) fun g hg hp => ?_
    obtain ⟨rfl, c, hc, hsel, htype⟩ := dropFlow_of_add hm hg
    exact hnot c hc hsel (h.selected_default hv hz hr (dropFlow_place (ht.network r hr) hp) hc hsel
      htype)
  · obtain ⟨wr, hw, r, hr, o, hfr⟩ := h.owned f hf i ho
    obtain rfl := Option.some.inj (hv.symm.trans (hfv ▸ hw))
    refine ⟨r, (hmem r).mpr ⟨hr, fun g hg hsel hid => ?_⟩, o, hfr.trans (hflow r o).symm⟩
    exact hd ((hdel f hf).mpr (hself f hf r hr o hfr g hg hsel hid))
  · obtain ⟨wr, hw, r, hr, o, rfl⟩ := h.owned f hf i ho
    obtain ⟨hdv, -, -⟩ := decode_routeFlow wr o (h.lt hw hr)
    exact hfv (hdv.symm.trans (((hdel _ hf).mp hd).1.trans hvr))

/-- The deletion of an address whose id is not in the place of that of a route. -/
theorem RouterState.Routed.deleteAddress (h : s.Routed) (hv : s.vlans.get? v = some vr)
    {id : RestId} {m : Option ℤ} (hm : id.toInt = .ok m)
    (hz : ∀ n, m = some n → vr.Related n ∨
      ∀ r ∈ vr.routingTbl.values, n ≠ (r.routeId * 2 ^ 16 : ℕ)) :
    let o := vr.deleteAddressData id s.flows
    RouterState.Routed ⟨s.vlans.set v o.router, applyMods ver s.flows o.mods⟩ := by
  have hvr := h.valid.vlanId v vr hv
  have hb := (h.valid.ids v vr hv).deleteAddressData id s.flows
  have hc := (h.valid.covered v vr hv).deleteAddressData id s.flows
  have htbl : (vr.deleteAddressData id s.flows).router.routingTbl = vr.routingTbl := by
    rw [deleteAddressData]
    simp only [hm]
  have hvlan : (vr.deleteAddressData id s.flows).router.vlanId = vr.vlanId := hb.vlanId
  have hflow : ∀ r o, (vr.deleteAddressData id s.flows).router.routeFlow r o =
      vr.routeFlow r o := by
    intro r o
    simp only [routeFlow, hvlan]
  have hnot : ∀ f ∈ s.flows, ∀ i, f.owner = .route i →
      ¬Deleted ver (vr.deleteAddressData id s.flows).mods f := by
    intro f hf i ho hd
    have hsel := (deletedAddresses_iff h.valid hm hf).mp hd
    obtain ⟨wr, hw, r, hr, o, rfl⟩ := h.owned f hf i ho
    obtain ⟨hfv, hfa, -⟩ := decode_routeFlow wr o (h.lt hw hr)
    have heq : wr.vlanId = v := (hfv.symm.trans hsel.1).trans hvr
    have hw' : s.vlans.get? wr.vlanId = some wr := hw
    obtain rfl := Option.some.inj (hv.symm.trans (heq ▸ hw'))
    cases m with
    | none =>
      have hpos := (h.tables v vr hv).pos r hr
      have hle := hsel.2.2
      rw [hfa] at hle
      unfold cookieDefaultId uint16Max at hle
      omega
    | some n =>
      obtain ⟨-, hrel, hn⟩ := selectsAddress_iff.1 hsel
      rw [hfa] at hn
      rcases hz n rfl with hrel' | hne
      · exact hrel hrel'
      · exact hne r hr hn
  refine h.set (hvlan.trans hvr) hb.ids hc hb.sets (htbl ▸ h.tables v vr hv) (fun r hr => ?_)
    (fun f hf hfv i ho _ => ?_) fun f hf _ i ho => hnot f hf i ho
  · rw [htbl] at hr
    obtain ⟨o, ho⟩ := h.installed v vr hv r hr
    refine ⟨o, ?_⟩
    rw [hflow]
    refine mem_applyMods ho (hnot _ ho r.routeId rfl) fun g hg => ?_
    simp only [deleteAddressData, hm] at hg
    obtain ⟨_, -, hg⟩ := List.mem_map.mp hg
    cases hg
  · obtain ⟨wr, hw, r, hr, o, hfr⟩ := h.owned f hf i ho
    obtain rfl := Option.some.inj (hv.symm.trans (hfv ▸ hw))
    exact ⟨r, htbl ▸ hr, o, hfr.trans (hflow r o).symm⟩

/-- What an ARP packet makes a router set. -/
theorem add_packetinArp {packet : ArpPacket} (hg : FlowMod.add g ∈ (vr.packetinArp packet).2) :
    (∃ r ∈ vr.routingTbl.values, ∃ o, g = vr.routeFlow r o) ∨
      FlowMod.add g ∈ (vr.packetinArp packet).1.learningHostMac packet := by
  unfold packetinArp at hg ⊢
  split at hg
  · cases hg
  · have hupdate : FlowMod.add g ∈ (vr.updateRoutingTbl packet).2.2 →
        ∃ r ∈ vr.routingTbl.values, ∃ o, g = vr.routeFlow r o := by
      intro hg
      obtain ⟨r, hr, heq⟩ := List.mem_map.mp hg
      exact ⟨r, (List.mem_filter.mp hr).1, _, (FlowMod.add.inj heq).symm⟩
    simp only at hg
    split at hg
    · exact .inl (hupdate hg)
    · rcases List.mem_append.mp hg with hg | hg
      · exact .inl (hupdate hg)
      · exact .inr hg

theorem delete_packetinArp (packet : ArpPacket) : FlowMod.delete g ∉ (vr.packetinArp packet).2 := by
  intro hg
  unfold packetinArp at hg
  split at hg
  · cases hg
  · have hupdate : FlowMod.delete g ∉ (vr.updateRoutingTbl packet).2.2 := by
      intro hg
      obtain ⟨_, -, heq⟩ := List.mem_map.mp hg
      cases heq
    simp only at hg
    split at hg
    · exact hupdate hg
    · rcases List.mem_append.mp hg with hg | hg
      · exact hupdate hg
      · unfold learningHostMac at hg
        split at hg
        · cases hg
        · cases List.mem_singleton.mp hg

theorem RouterState.Routed.arp (h : s.Routed) (hv : s.vlans.get? v = some vr)
    (packet : ArpPacket) :
    RouterState.Routed ⟨s.vlans.set v (vr.packetinArp packet).1,
      applyMods ver s.flows (vr.packetinArp packet).2⟩ := by
  have hvr := h.valid.vlanId v vr hv
  have ht := h.tables v vr hv
  have hb := (h.valid.ids v vr hv).packetinArp packet
  have hc := (h.valid.covered v vr hv).packetinArp packet
  have hnot : ∀ f, ¬Deleted ver (vr.packetinArp packet).2 f := fun f ⟨g, hg, _⟩ =>
    delete_packetinArp packet hg
  -- The routes are those that were there, with what was learned.
  have hlearn : (vr.packetinArp packet).1.routingTbl.Sound ∧
      (∀ r ∈ (vr.packetinArp packet).1.routingTbl.values, ∃ r' ∈ vr.routingTbl.values,
        ∀ o, (vr.packetinArp packet).1.routeFlow r o = vr.routeFlow r' o) ∧
      ∀ r' ∈ vr.routingTbl.values, ∃ r ∈ (vr.packetinArp packet).1.routingTbl.values,
        ∀ o, (vr.packetinArp packet).1.routeFlow r o = vr.routeFlow r' o := by
    unfold packetinArp
    split
    · exact ⟨ht, fun r hr => ⟨r, hr, fun _ => rfl⟩, fun r hr => ⟨r, hr, fun _ => rfl⟩⟩
    · refine ⟨ht.learn, fun r hr => ?_, fun r' hr' => ?_⟩
      · obtain ⟨r', hr', rfl⟩ := mem_learn.1 hr
        exact ⟨r', hr', routeFlow_learn vr packet r'⟩
      · exact ⟨learn packet r', mem_learn.2 ⟨r', hr', rfl⟩, routeFlow_learn vr packet r'⟩
  obtain ⟨hsound, hback, hforth⟩ := hlearn
  refine h.set (hb.vlanId.trans hvr) hb.ids hc hb.sets hsound (fun r hr => ?_)
    (fun f hf hfv i ho _ => ?_) fun f _ _ _ _ => hnot f
  · obtain ⟨r', hr', hflow⟩ := hback r hr
    obtain ⟨o, ho⟩ := h.installed v vr hv r' hr'
    by_cases hrep : ∃ g, FlowMod.add g ∈ (vr.packetinArp packet).2 ∧
        (vr.routeFlow r' o).SamePlace g
    · obtain ⟨g, hg, hp⟩ := hrep
      obtain ⟨c, hc, hgc, hmem⟩ : ∃ c, FlowMod.add c ∈ (vr.packetinArp packet).2 ∧
          g.SamePlace c ∧ c ∈ applyMods ver s.flows (vr.packetinArp packet).2 :=
        place_taken hg fun _ => delete_packetinArp packet
      have hpc : (vr.routeFlow r' o).SamePlace c := ⟨hp.1.trans hgc.1, hp.2.trans hgc.2⟩
      rcases add_packetinArp hc with ⟨r'', hr'', o', rfl⟩ | hhost
      · obtain ⟨-, hd, hm⟩ := routeFlow_place (ht.network r' hr') (ht.network r'' hr'') hpc
        obtain rfl := ht.eq_of_network hr' hr'' hd hm
        exact ⟨o', (hflow o').symm ▸ hmem⟩
      · exact absurd hpc.symm (host_place hhost (ht.network r' hr'))
    · refine ⟨o, (hflow o).symm ▸ mem_applyMods ho (hnot _) fun g hg hp => hrep ⟨g, hg, hp⟩⟩
  · obtain ⟨wr, hw, r', hr', o, hfr⟩ := h.owned f hf i ho
    obtain rfl := Option.some.inj (hv.symm.trans (hfv ▸ hw))
    obtain ⟨r, hr, hflow⟩ := hforth r' hr'
    exact ⟨r, hr, o, hfr.trans (hflow o).symm⟩

end Routed

end Ryu.Router
