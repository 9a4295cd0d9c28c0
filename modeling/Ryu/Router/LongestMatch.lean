import Ryu.Router.Routes

/-! # The longest match

The controller looks a destination up by a loop over all routes, a switch by the priorities of
their flows. Both prefer the longer mask; the default route is what is left when no other route
leads to the destination.
-/

namespace Ryu.Router

section Model

/-- The body of the loop of `RoutingTable.get_data`: the route so far and its mask. -/
def longestStep (dstIp : Ip) (st : Option Route × ℕ) (route : Route) : Option Route × ℕ :=
  if some (networkOf route.netmask dstIp) = route.dstIp then
    if st.2 < route.netmask then (some route, route.netmask) else st
  else st

/-- `RoutingTable.get_data`. -/
def RoutingTable.getData (rt : RoutingTable) (gwMac : Option Text) (dstIp : Option Ip) :
    Option Route :=
  match gwMac, dstIp with
  | some gwMac, _ => rt.values.find? fun route => route.gatewayMac = some gwMac
  | none, some dstIp =>
    match (rt.values.foldl (longestStep dstIp) (none, 0)).1 with
    | some route => some route
    | none => rt.entries.get? defaultRoute
  | none, none => none

/-- A call that changes a table. -/
inductive TableOp
  | add (dstNwAddr gatewayIp : Text)
  | delete (routeId : ℕ)

/-- An addition that raises leaves the table as it was. -/
def RoutingTable.step (aton : Text → Option Ip) (rt : RoutingTable) : TableOp → RoutingTable
  | .add dstNwAddr gatewayIp =>
    match rt.add aton dstNwAddr gatewayIp with
    | .ok (_, rt') => rt'
    | .error _ => rt
  | .delete routeId => rt.delete routeId

def RoutingTable.run (aton : Text → Option Ip) (ops : List TableOp) : RoutingTable :=
  ops.foldl (RoutingTable.step aton) .init

/-- What a switch matches of a packet; without a tag the VLAN is 0. -/
structure RouterPacket where
  dlType : ℕ
  dlVlan : ℕ
  nwSrc : Ip
  nwDst : Ip
  deriving DecidableEq

/-- A field that is left out matches any packet, and a network any of its addresses. -/
def RouterMatch.Matches (m : RouterMatch) (p : RouterPacket) : Prop :=
  (m.dlType = 0 ∨ m.dlType = p.dlType) ∧ (m.dlVlan = 0 ∨ m.dlVlan = p.dlVlan) ∧
    (∀ n ∈ m.nwSrc, networkOf n.2 p.nwSrc = networkOf n.2 n.1) ∧
    ∀ n ∈ m.nwDst, networkOf n.2 p.nwDst = networkOf n.2 n.1

instance (m : RouterMatch) (p : RouterPacket) : Decidable (m.Matches p) :=
  inferInstanceAs (Decidable ((_ ∨ _) ∧ (_ ∨ _) ∧ (∀ n ∈ m.nwSrc, _ = _) ∧ ∀ n ∈ m.nwDst, _ = _))

/-- The network of a route has the address; that of the default route has every address. -/
def Route.Contains (r : Route) (ip : Ip) : Prop := networkOf r.netmask ip = r.dstIp.getD 0

/-- The route that is looked up is the longest that leads to the address, and it is what is kept
as the default route exactly if no other route leads there. -/
structure RoutingTable.LongestMatch (rt : RoutingTable) : Prop where
  longest : ∀ ip r, rt.getData none (some ip) = some r →
    r ∈ rt.values ∧ r.Contains ip ∧ ∀ r' ∈ rt.values, r'.Contains ip → r'.netmask ≤ r.netmask
  found : ∀ ip, ∀ r ∈ rt.values, r.Contains ip → rt.getData none (some ip) ≠ none
  fallback : ∀ ip, rt.getData none (some ip) = rt.entries.get? defaultRoute ↔
    ∀ k r, rt.entries.get? k = some r → r.Contains ip → k = defaultRoute

/-- Of the flows of routes that match a packet, that of the route that is looked up has the highest
priority. -/
def VlanRouter.Realises (vr : VlanRouter) : Prop :=
  ∀ p, ∀ r ∈ vr.routingTbl.values, ∀ output, (vr.routeFlow r output).fields.Matches p →
    ∃ r₀, vr.routingTbl.getData none (some p.nwDst) = some r₀ ∧
      ∀ output₀, (vr.routeFlow r₀ output₀).fields.Matches p ∧
        (r = r₀ ∨ (vr.routeFlow r output).priority < (vr.routeFlow r₀ output₀).priority)

/-- Of the flows of two routes that match a packet, in one VLAN the one with the longer mask has the
higher priority, and else the one of a VLAN has. -/
def FlowsOrdered (vr vr' : VlanRouter) : Prop :=
  ∀ p, ∀ r ∈ vr.routingTbl.values, ∀ r' ∈ vr'.routingTbl.values, ∀ output output',
    (vr.routeFlow r output).fields.Matches p → (vr'.routeFlow r' output').fields.Matches p →
      (vr.vlanId = vr'.vlanId ∧ r.netmask < r'.netmask ∨ vr.vlanId = 0 ∧ vr'.vlanId ≠ 0) →
        (vr.routeFlow r output).priority < (vr'.routeFlow r' output').priority

/-- Only the default route has the priority of the ARP handling, and no packet matches the flows of
both. No route has the priority of the other kinds of flows, unless it has no bits and is not written
as the default route. -/
structure VlanRouter.PrioritiesApart (vr : VlanRouter) : Prop where
  arp : ∀ r ∈ vr.routingTbl.values, ∀ output,
    (vr.routeFlow r output).priority = getPriority priorityArpHandling vr.vlanId ↔ r.dstIp = none
  arpFlow : ∀ r ∈ vr.routingTbl.values, ∀ output p,
    (vr.routeFlow r output).fields.Matches p → ¬ arpFlow.fields.Matches p
  other : ∀ r ∈ vr.routingTbl.values, ∀ output, (r.dstIp.isSome → r.netmask ≠ 0) →
    ∀ kind ∈ [priorityMacLearning, priorityImplicitRouting, priorityL2Switching,
      priorityIpHandling], (vr.routeFlow r output).priority ≠ getPriority kind vr.vlanId

end Model

section Lookup

variable {aton : Text → Option Ip} {rt rt' : RoutingTable} {r r' : Route} {ip : Ip} {k : Text}

/-- Each route is kept under the key of its network. -/
structure RoutingTable.Keyed (rt : RoutingTable) : Prop where
  keyed : ∀ k r, rt.entries.get? k = some r → k = routeKey r.dstIp r.netmask
  network : ∀ r ∈ rt.values, r.IsNetwork

theorem RoutingTable.Keyed.init : RoutingTable.init.Keyed where
  keyed _ _ h := by cases h
  network r hr := by cases hr

theorem RoutingTable.Keyed.add {dst gateway : Text} (h : rt.Keyed)
    (hadd : rt.add aton dst gateway = .ok (r, rt')) : rt'.Keyed := by
  obtain ⟨hdst, -, -, -, -, rfl⟩ := addRoute_eq_ok hadd
  have hget : ∀ k r', (rt.entries.set (routeKey r.dstIp r.netmask) r).get? k = some r' →
      routeKey r.dstIp r.netmask = k ∧ r = r' ∨ rt.entries.get? k = some r' := by
    intro k r' hk
    rw [Dict.get?_set] at hk
    split at hk
    · next heq => exact Or.inl ⟨heq, Option.some.inj hk⟩
    · exact Or.inr hk
  constructor
  · intro k r' hk
    rcases hget k r' hk with ⟨rfl, rfl⟩ | hk
    · rfl
    · exact h.keyed k r' hk
  · intro r' hr'
    obtain ⟨k, hk⟩ := mem_routes.1 hr'
    rcases hget k r' hk with ⟨-, rfl⟩ | hk
    · exact isNetwork_of_destinationOf hdst
    · exact h.network r' (mem_routes.2 ⟨k, hk⟩)

theorem RoutingTable.Keyed.delete (h : rt.Keyed) (id : ℕ) : (rt.delete id).Keyed where
  keyed k r hk := h.keyed k r (get?_of_deleteRoute hk)
  network r hr := by
    obtain ⟨k, hk⟩ := mem_routes.1 hr
    exact h.network r (mem_routes.2 ⟨k, get?_of_deleteRoute hk⟩)

theorem RoutingTable.Keyed.step (h : rt.Keyed) (op : TableOp) : (rt.step aton op).Keyed := by
  cases op with
  | add dst gateway =>
    unfold RoutingTable.step
    dsimp only
    split
    · next hadd => exact h.add hadd
    · exact h
  | delete id => exact h.delete id

theorem RoutingTable.Keyed.run (ops : List TableOp) : (RoutingTable.run aton ops).Keyed :=
  (throughout_of_step .init (fun _ op h => h.step op) ops).last

/-- A route leads to an address if it is the default route or has the address in its network. -/
theorem Route.IsNetwork.contains_iff (h : r.IsNetwork) :
    r.Contains ip ↔ r.dstIp = none ∨ some (networkOf r.netmask ip) = r.dstIp := by
  unfold Route.Contains
  cases hd : r.dstIp with
  | none => simp [h.default hd]
  | some d => simp

theorem Route.IsNetwork.dstIp_zero (h : r.IsNetwork) (hm : r.netmask = 0) : r.dstIp.getD 0 = 0 := by
  cases hd : r.dstIp with
  | none => rfl
  | some d =>
    have hbase := h.base d hd
    rw [hm, networkOf_zero] at hbase
    exact hbase.symm

theorem Route.IsNetwork.contains_of_netmask (h : r.IsNetwork) (hm : r.netmask = 0) :
    r.Contains ip := by
  rw [Route.Contains, h.dstIp_zero hm, hm, networkOf_zero]

theorem networkKey_zero : networkKey 0 0 = defaultRoute := by
  decide

/-- The routes without bits are kept as the default route. -/
theorem RoutingTable.Keyed.eq_defaultRoute_iff (h : rt.Keyed) (hk : rt.entries.get? k = some r) :
    k = defaultRoute ↔ r.netmask = 0 := by
  rw [h.keyed k r hk, ← networkKey_zero, routeKey, networkKey_inj]
  constructor
  · exact fun hkey => hkey.2
  · exact fun hm => ⟨(h.network r (mem_routes.2 ⟨k, hk⟩)).dstIp_zero hm, hm⟩

/-- Routes with one network are the same. -/
theorem RoutingTable.Keyed.eq_of_contains (h : rt.Keyed) (hr : r ∈ rt.values) (hr' : r' ∈ rt.values)
    (hip : r.Contains ip) (hip' : r'.Contains ip) (hm : r.netmask = r'.netmask) : r = r' := by
  obtain ⟨k, hk⟩ := mem_routes.1 hr
  obtain ⟨k', hk'⟩ := mem_routes.1 hr'
  have hkk : k = k' := by
    rw [h.keyed k r hk, h.keyed k' r' hk', routeKey, routeKey, ← hip, ← hip', hm]
  subst hkk
  exact Option.some.inj (hk.symm.trans hk')

/-- What the loop has found after a list of routes. -/
theorem longest_spec (ip : Ip) (routes : List Route) (st : Option Route × ℕ) :
    (∀ r ∈ routes, some (networkOf r.netmask ip) = r.dstIp →
        r.netmask ≤ (routes.foldl (longestStep ip) st).2) ∧
      st.2 ≤ (routes.foldl (longestStep ip) st).2 ∧
      (routes.foldl (longestStep ip) st = st ∨
        ∃ r ∈ routes, some (networkOf r.netmask ip) = r.dstIp ∧ st.2 < r.netmask ∧
          routes.foldl (longestStep ip) st = (some r, r.netmask)) := by
  induction routes generalizing st with
  | nil => exact ⟨fun r hr => absurd hr List.not_mem_nil, Nat.le_refl _, Or.inl rfl⟩
  | cons r routes ih =>
    obtain ⟨hall, hle, hres⟩ := ih (longestStep ip st r)
    rw [List.foldl_cons]
    by_cases hc : some (networkOf r.netmask ip) = r.dstIp ∧ st.2 < r.netmask
    · have hstep : longestStep ip st r = (some r, r.netmask) := by
        rw [longestStep, if_pos hc.1, if_pos hc.2]
      rw [hstep] at hall hle hres ⊢
      refine ⟨?_, Nat.le_trans (Nat.le_of_lt hc.2) hle, Or.inr ?_⟩
      · intro r' hr' hip
        rcases List.mem_cons.mp hr' with rfl | hr'
        · exact hle
        · exact hall r' hr' hip
      · rcases hres with hres | ⟨r', hr', hip, hlt, hres⟩
        · exact ⟨r, List.mem_cons_self, hc.1, hc.2, hres⟩
        · exact ⟨r', List.mem_cons_of_mem r hr', hip, Nat.lt_trans hc.2 hlt, hres⟩
    · have hstep : longestStep ip st r = st := by
        rw [longestStep]
        split
        · next hip => exact if_neg fun hlt => hc ⟨hip, hlt⟩
        · rfl
      rw [hstep] at hall hle hres ⊢
      refine ⟨?_, hle, ?_⟩
      · intro r' hr' hip
        rcases List.mem_cons.mp hr' with rfl | hr'
        · exact Nat.le_trans (Nat.le_of_not_lt fun hlt => hc ⟨hip, hlt⟩) hle
        · exact hall r' hr' hip
      · rcases hres with hres | ⟨r', hr', hip, hlt, hres⟩
        · exact Or.inl hres
        · exact Or.inr ⟨r', List.mem_cons_of_mem r hr', hip, hlt, hres⟩

/-- The lookup gives the longest route with bits that leads to the address, or else what is kept
as the default route. -/
theorem RoutingTable.Keyed.getData (h : rt.Keyed) (ip : Ip) :
    (∃ r ∈ rt.values, r.Contains ip ∧ 0 < r.netmask ∧ rt.getData none (some ip) = some r ∧
        ∀ r' ∈ rt.values, r'.Contains ip → r'.netmask ≤ r.netmask) ∨
      (∀ r ∈ rt.values, r.Contains ip → r.netmask = 0) ∧
        rt.getData none (some ip) = rt.entries.get? defaultRoute := by
  obtain ⟨hall, -, hres⟩ := longest_spec ip rt.values (none, 0)
  have hle : ∀ r ∈ rt.values, r.Contains ip →
      r.netmask ≤ (rt.values.foldl (longestStep ip) (none, 0)).2 := by
    intro r hr hip
    rcases (h.network r hr).contains_iff.mp hip with hd | hd
    · rw [(h.network r hr).default hd]
      exact Nat.zero_le _
    · exact hall r hr hd
  unfold RoutingTable.getData
  dsimp only
  rcases hres with hres | ⟨r, hr, hip, hlt, hres⟩
  · rw [hres] at hle ⊢
    exact Or.inr ⟨fun r hr hip => Nat.le_zero.mp (hle r hr hip), rfl⟩
  · rw [hres] at hle ⊢
    exact Or.inl ⟨r, hr, (h.network r hr).contains_iff.mpr (Or.inr hip), hlt, rfl, hle⟩

theorem RoutingTable.Keyed.longestMatch (h : rt.Keyed) : rt.LongestMatch where
  longest ip r hget := by
    rcases h.getData ip with ⟨r', hr', hip, -, hget', hle⟩ | ⟨hzero, hdefault⟩
    · obtain rfl := Option.some.inj (hget'.symm.trans hget)
      exact ⟨hr', hip, hle⟩
    · have hk := hdefault.symm.trans hget
      have hr := mem_routes.2 ⟨_, hk⟩
      have hm := (h.eq_defaultRoute_iff hk).mp rfl
      refine ⟨hr, (h.network r hr).contains_of_netmask hm, fun r' hr' hip => ?_⟩
      rw [hzero r' hr' hip]
      exact Nat.zero_le _
  found ip r hr hip := by
    rcases h.getData ip with ⟨r', -, -, -, hget, -⟩ | ⟨hzero, hdefault⟩
    · rw [hget]
      exact Option.some_ne_none r'
    · obtain ⟨k, hk⟩ := mem_routes.1 hr
      rw [hdefault, ← (h.eq_defaultRoute_iff hk).mpr (hzero r hr hip), hk]
      exact Option.some_ne_none r
  fallback ip := by
    rcases h.getData ip with ⟨r, hr, hip, hlt, hget, -⟩ | ⟨hzero, hdefault⟩
    · obtain ⟨k, hk⟩ := mem_routes.1 hr
      constructor
      · intro hdefault
        rw [hget] at hdefault
        exact absurd ((h.eq_defaultRoute_iff hdefault.symm).mp rfl) hlt.ne'
      · intro hall
        exact absurd ((h.eq_defaultRoute_iff hk).mp (hall k r hk hip)) hlt.ne'
    · refine ⟨fun _ k r hk hip => ?_, fun _ => hdefault⟩
      exact (h.eq_defaultRoute_iff hk).mpr (hzero r (mem_routes.2 ⟨k, hk⟩) hip)

end Lookup

section Flows

variable {aton : Text → Option Ip} {vr vr' : VlanRouter} {r r' : Route} {p : RouterPacket}
  {output output' : FlowOutput}

/-- The flow of a route matches the IP packets of the VLAN that the route leads somewhere. -/
theorem routeFlow_matches (hr : r.IsNetwork) : (vr.routeFlow r output).fields.Matches p ↔
    p.dlType = etherTypeIp ∧ (vr.vlanId = 0 ∨ vr.vlanId = p.dlVlan) ∧ r.Contains p.nwDst := by
  have htype : (etherTypeIp = 0 ∨ etherTypeIp = p.dlType) ↔ p.dlType = etherTypeIp := by
    rw [or_iff_right (by decide), eq_comm]
  have hdst : (∀ n ∈ matchNet r.dstIp r.netmask, networkOf n.2 p.nwDst = networkOf n.2 n.1) ↔
      r.Contains p.nwDst := by
    by_cases hm : r.netmask = 0
    · refine iff_of_true (fun n hn => ?_) (hr.contains_of_netmask hm)
      unfold matchNet at hn
      cases hd : r.dstIp with
      | none => simp [hd] at hn
      | some d => simp [hd, hm] at hn
    · cases hd : r.dstIp with
      | none => exact absurd (hr.default hd) hm
      | some d =>
        unfold matchNet Route.Contains
        simp [hm, hd, hr.base d hd]
  unfold RouterMatch.Matches VlanRouter.routeFlow
  dsimp only
  rw [htype, hdst]
  constructor
  · rintro ⟨hip, hvlan, -, hr⟩
    exact ⟨hip, hvlan, hr⟩
  · rintro ⟨hip, hvlan, hr⟩
    exact ⟨hip, hvlan, by simp, hr⟩

theorem routeFlow_priority (r : Route) (output : FlowOutput) : (vr.routeFlow r output).priority =
    (if r.dstIp.isSome then 2 + r.netmask else 1) + if vr.vlanId ≠ 0 then 1000 else 0 :=
  routePriority_eq _ _ _

/-- The longer mask has the higher priority. -/
theorem routePriority_lt (hr' : r'.IsNetwork) (hm : r.netmask < r'.netmask) :
    (if r.dstIp.isSome then 2 + r.netmask else 1) <
      if r'.dstIp.isSome then 2 + r'.netmask else 1 := by
  cases hd' : r'.dstIp with
  | none =>
    rw [hr'.default hd'] at hm
    exact absurd hm (Nat.not_lt_zero _)
  | some d' =>
    simp only [Option.isSome_some, if_true]
    split <;> omega

theorem priority_le (hr : r.IsNetwork) : (if r.dstIp.isSome then 2 + r.netmask else 1) ≤ 34 := by
  have hle := hr.netmask_le
  split <;> omega

theorem VlanRouter.realises (h : vr.routingTbl.Keyed) : vr.Realises := by
  intro p r hr output hp
  have hmatch := (routeFlow_matches (h.network r hr)).mp hp
  obtain ⟨htype, hvlan, hip⟩ := hmatch
  obtain ⟨r₀, hget⟩ := Option.ne_none_iff_exists'.mp (h.longestMatch.found p.nwDst r hr hip)
  obtain ⟨hr₀, hip₀, hle⟩ := h.longestMatch.longest p.nwDst r₀ hget
  refine ⟨r₀, hget, fun output₀ => ?_⟩
  refine ⟨(routeFlow_matches (h.network r₀ hr₀)).mpr ⟨htype, hvlan, hip₀⟩, ?_⟩
  rcases Nat.lt_or_eq_of_le (hle r hr hip) with hlt | heq
  · right
    rw [routeFlow_priority, routeFlow_priority]
    exact Nat.add_lt_add_right (routePriority_lt (h.network r₀ hr₀) hlt) _
  · exact Or.inl (h.eq_of_contains hr hr₀ hip hip₀ heq)

theorem flowsOrdered (h : vr.routingTbl.Keyed) (h' : vr'.routingTbl.Keyed) :
    FlowsOrdered vr vr' := by
  intro p r hr r' hr' output output' _ _ horder
  rw [routeFlow_priority, routeFlow_priority]
  rcases horder with ⟨hv, hm⟩ | ⟨hv, hv'⟩
  · rw [hv]
    exact Nat.add_lt_add_right (routePriority_lt (h'.network r' hr') hm) _
  · have hle := priority_le (h.network r hr)
    rw [if_neg (not_not_intro hv), if_pos hv']
    omega

theorem VlanRouter.prioritiesApart (h : vr.routingTbl.Keyed) : vr.PrioritiesApart where
  arp r hr output := by
    have harp : getPriority priorityArpHandling vr.vlanId =
        1 + if vr.vlanId ≠ 0 then 1000 else 0 := shiftPriority_static _ _ _ (by decide)
    rw [routeFlow_priority, harp, Nat.add_right_cancel_iff]
    cases hd : r.dstIp with
    | none => simp
    | some d =>
      simp
      omega
  arpFlow r hr output p hp harp := by
    have htype := ((routeFlow_matches (h.network r hr)).mp hp).1
    have harp := harp.1
    rw [htype] at harp
    revert harp
    decide
  other r hr output hm kind hkind := by
    obtain ⟨hmac, himplicit, hl2, hip⟩ := getPriority_address vr.vlanId
    have hle := priority_le (h.network r hr)
    have hne : (if r.dstIp.isSome then 2 + r.netmask else 1) ≠ 2 := by
      split
      · next hd =>
        have hpos := hm hd
        omega
      · decide
    have hshift : (if vr.vlanId ≠ 0 then 1000 else 0) ≤ 1000 := by
      split <;> omega
    rw [routeFlow_priority]
    simp only [List.mem_cons, List.not_mem_nil, or_false] at hkind
    rcases hkind with rfl | rfl | rfl | rfl
    · rw [hmac]
      omega
    · rw [himplicit]
      omega
    · rw [hl2]
      omega
    · rw [hip]
      omega

end Flows

section Claims

/-- The loop of the controller and the priorities on the switch agree on the longest match, for all
tables that come of additions and deletions, whatever the VLANs. -/
theorem longestMatch_run (aton : Text → Option Ip) (vlanId vlanId' : ℕ)
    (addressData addressData' : AddressData) (ops ops' : List TableOp) :
    let vr : VlanRouter := ⟨vlanId, addressData, .run aton ops⟩
    let vr' : VlanRouter := ⟨vlanId', addressData', .run aton ops'⟩
    vr.routingTbl.LongestMatch ∧ vr.Realises ∧ FlowsOrdered vr vr' ∧ vr.PrioritiesApart :=
  have h := RoutingTable.Keyed.run ops
  ⟨h.longestMatch, VlanRouter.realises h, flowsOrdered h (.run ops'), VlanRouter.prioritiesApart h⟩

/-- Without a VLAN, a default route and a route of 24 bits. -/
def plainRouter : VlanRouter :=
  ⟨0, .init, .run dottedAton [.add "0.0.0.0/0".toList "172.16.30.2".toList,
    .add "10.0.0.0/24".toList "172.16.30.2".toList]⟩

/-- In a VLAN, a route of 8 bits to the same addresses. -/
def taggedRouter : VlanRouter :=
  ⟨100, .init, .run dottedAton [.add "10.0.0.0/8".toList "172.16.40.2".toList]⟩

/-- Without a VLAN, the default route has the priority of the ARP flow, and the route of 24 bits has
a lower priority than that of 8 bits in the VLAN. -/
theorem default_arp_alike :
    (∃ r ∈ plainRouter.routingTbl.values,
      (plainRouter.routeFlow r .controller).priority = arpFlow.priority) ∧
    ¬ ∀ p, ∀ r ∈ plainRouter.routingTbl.values, ∀ r' ∈ taggedRouter.routingTbl.values,
      (plainRouter.routeFlow r .controller).fields.Matches p →
      (taggedRouter.routeFlow r' .controller).fields.Matches p → r'.netmask < r.netmask →
      (taggedRouter.routeFlow r' .controller).priority <
        (plainRouter.routeFlow r .controller).priority := by
  refine ⟨by decide +kernel, fun h => ?_⟩
  have hno := h ⟨etherTypeIp, 100, 0, 0x0a000001⟩
  revert hno
  decide +kernel

end Claims

end Ryu.Router
