import Ryu.Router.Switch

/-! # Deletion by id

What a request with an id deletes beside the flows that were installed for the id, and when it
deletes exactly those.
-/

namespace Ryu.Router

open VlanRouter

/-- A gateway of a route lies in the address with the id. -/
def VlanRouter.Related (vr : VlanRouter) (n : ℤ) : Prop := ∃ a ∈ vr.gatewayAddressIds, (a : ℤ) = n

/-- A request for a route deletes the flows that were installed for it, and no others. -/
def DeletesRoute (ver : OfVersion) (s : RouterState) (vr : VlanRouter) (id : RestId) (n : ℤ) :
    Prop :=
  ∀ f ∈ s.flows, Deleted ver (vr.deleteRoutingData id s.flows).mods f ↔
    f.vlan = vr.vlanId ∧ ∃ r : ℕ, n = r ∧ f.owner = .route r

/-- A request for an address deletes the flows that were installed for it, and no others; none
while there is a related route. -/
def DeletesAddress (ver : OfVersion) (s : RouterState) (vr : VlanRouter) (id : RestId) (n : ℤ) :
    Prop :=
  ∀ f ∈ s.flows, Deleted ver (vr.deleteAddressData id s.flows).mods f ↔
    f.vlan = vr.vlanId ∧ ¬vr.Related n ∧ ∃ a : ℕ, n = a ∧ f.owner = .address a

/-- No flow but those of the route has the id in the place of a route, and those have. -/
structure RouteIdClear (s : RouterState) (v : ℕ) (n : ℤ) : Prop where
  default : n = 0 → ∀ f ∈ s.flows, f.vlan = v → f.owner ≠ .default
  address : ∀ f ∈ s.flows, ∀ a, f.vlan = v → f.owner = .address a → n ≠ (a / 2 ^ 16 : ℕ)
  route : ∀ f ∈ s.flows, ∀ r, 2 ^ 16 ≤ r → f.owner = .route r → f.vlan = v → n ≠ r
  carried : ∀ f ∈ s.flows, ∀ r, 2 ^ 16 ≤ r → f.owner = .route r → f.vlan + r / 2 ^ 16 = v →
    n ≠ (r % 2 ^ 16 : ℕ)

/-- No default flow and no flow of a route has the id in the place of an address. -/
structure AddressIdClear (s : RouterState) (v : ℕ) (n : ℤ) : Prop where
  default : n = 0 → ∀ f ∈ s.flows, f.vlan = v → f.owner ≠ .default
  route : ∀ f ∈ s.flows, ∀ r, f.owner = .route r → f.vlan + r / 2 ^ 16 = v →
    n ≠ (r % 2 ^ 16 * 2 ^ 16 : ℕ)

section

variable {aton : Text → Option Ip} {ver : OfVersion} {s : RouterState} {vr : VlanRouter}
variable {id : RestId} {n : ℤ} {f : RouterFlow} {P : RouterFlow → Prop} [DecidablePred P]

/-- Where flows are selected by their cookies, the commands delete the flows selected. -/
theorem deleted_iff (hp : Placed s.flows) (hP : ∀ f g, f.cookie = g.cookie → (P f ↔ P g))
    {mods : List FlowMod} (hm : ∀ g, FlowMod.delete g ∈ mods ↔ g ∈ s.flows.filter (P ·))
    (hf : f ∈ s.flows) : Deleted ver mods f ↔ P f := by
  have hmem : ∀ g, FlowMod.delete g ∈ mods ↔ g ∈ s.flows ∧ P g := by
    intro g
    rw [hm, List.mem_filter, decide_eq_true_iff]
  constructor
  · rintro ⟨g, hg, hrem⟩
    obtain ⟨hgs, hPg⟩ := (hmem g).mp hg
    cases ver with
    | v1_0 => rwa [hp f hf g hgs hrem]
    | v1_2 => exact (hP f g hrem).mpr hPg
    | v1_3 => exact (hP f g hrem).mpr hPg
  · intro hPf
    refine ⟨f, (hmem f).mpr ⟨hf, hPf⟩, ?_⟩
    cases ver with
    | v1_0 => exact ⟨rfl, rfl⟩
    | v1_2 => rfl
    | v1_3 => rfl

theorem deletedRoutes_iff {m : Option ℤ} (hs : s.Valid) (hm : id.toInt = .ok m)
    (hf : f ∈ s.flows) :
    Deleted ver (vr.deleteRoutingData id s.flows).mods f ↔ vr.SelectsRoute m f := by
  refine deleted_iff hs.placed (fun f g hfg => by simp only [SelectsRoute, hfg]) (fun g => ?_) hf
  simp only [deleteRoutingData, hm, List.mem_flatMap, deleteRouteMods]
  constructor
  · rintro ⟨f, hf, hg⟩
    split at hg
    · have heq : g = f := by simpa using hg
      rwa [heq]
    · obtain rfl := FlowMod.delete.inj (List.mem_singleton.mp hg)
      exact hf
  · intro hg
    refine ⟨g, hg, ?_⟩
    split <;> simp

theorem deletedAddresses_iff {m : Option ℤ} (hs : s.Valid) (hm : id.toInt = .ok m)
    (hf : f ∈ s.flows) :
    Deleted ver (vr.deleteAddressData id s.flows).mods f ↔
      vr.SelectsAddress m (chkAddrRelationRoute m vr.gatewayAddressIds []) f := by
  refine deleted_iff hs.placed (fun f g hfg => by simp only [SelectsAddress, hfg]) (fun g => ?_) hf
  simp only [deleteAddressData, hm, List.mem_map]
  constructor
  · rintro ⟨f, hf, heq⟩
    rwa [← FlowMod.delete.inj heq]
  · exact fun hg => ⟨g, hg, rfl⟩

theorem chkAddrRelationRoute_some {ids : List ℕ} {x : ℕ}
    (h : x ∈ chkAddrRelationRoute (some n) ids []) : x ∈ ids ∧ (x : ℤ) = n := by
  induction ids with
  | nil => cases h
  | cons i ids ih =>
    rw [chkAddrRelationRoute] at h
    split at h
    · next hi =>
      obtain rfl := List.mem_singleton.mp h
      exact ⟨List.mem_cons_self, hi⟩
    · exact ⟨List.mem_cons_of_mem _ (ih h).1, (ih h).2⟩

theorem skipped_iff {x : ℕ} (hx : n = x) :
    x ∈ chkAddrRelationRoute (some n) vr.gatewayAddressIds [] ↔ vr.Related n := by
  constructor
  · intro h
    exact ⟨x, chkAddrRelationRoute_some h⟩
  · rintro ⟨a, ha, han⟩
    obtain rfl : a = x := Int.ofNat_inj.mp (han.trans hx)
    exact mem_chkAddrRelationRoute (.inl ha) fun m hm => (Option.some.inj hm) ▸ hx

theorem selectsAddress_iff : vr.SelectsAddress (some n)
    (chkAddrRelationRoute (some n) vr.gatewayAddressIds []) f ↔
      cookieToVlanId f.cookie = vr.vlanId ∧ ¬vr.Related n ∧ n = cookieToAddressId f.cookie := by
  constructor
  · rintro ⟨hv, hskip, hn⟩
    exact ⟨hv, fun hrel => hskip ((skipped_iff hn).mpr hrel), hn⟩
  · rintro ⟨hv, hrel, hn⟩
    exact ⟨hv, fun hskip => hrel ((skipped_iff hn).mp hskip), hn⟩

end

section Exact

variable {aton : Text → Option Ip} {ver : OfVersion} {s : RouterState} {vr : VlanRouter}
variable {id : RestId} {n : ℤ} {f : RouterFlow} {v : ℕ}

theorem deletesRoute_iff (hs : s.Valid) (hv : vr.vlanId = v) (hn : id.toInt = .ok (some n)) :
    DeletesRoute ver s vr id n ↔ RouteIdClear s v n := by
  have hmem : ∀ f ∈ s.flows, (Deleted ver (vr.deleteRoutingData id s.flows).mods f ↔
      cookieToVlanId f.cookie = v ∧ n = cookieToRouteId f.cookie) := fun f hf =>
    hv ▸ deletedRoutes_iff hs hn hf
  unfold DeletesRoute
  rw [hv]
  constructor
  · intro h
    have hsel := fun f hf => (hmem f hf).symm.trans (h f hf)
    refine ⟨fun hn0 f hf hfv ho => ?_, fun f hf a hfv ho hna => ?_, fun f hf r hr ho hfv hnr => ?_,
      fun f hf r hr ho hfv hnr => ?_⟩
    · obtain ⟨hdv, -, hdr⟩ := decode_default f.vlan
      rw [← ho] at hdv hdr
      obtain ⟨-, r, -, ho'⟩ := (hsel f hf).mp ⟨hdv.trans hfv, by rw [hn0]; exact_mod_cast hdr.symm⟩
      exact absurd (ho.symm.trans ho') (by simp)
    · obtain ⟨hdv, -, hdr⟩ := decode_address (v := f.vlan) (hs.flows f hf a ho)
      rw [← ho] at hdv hdr
      obtain ⟨-, r, -, ho'⟩ := (hsel f hf).mp ⟨hdv.trans hfv, by rw [hna]; exact_mod_cast hdr.symm⟩
      exact absurd (ho.symm.trans ho') (by simp)
    · obtain ⟨hdv, -, -⟩ := decode_route f.vlan r
      rw [← ho] at hdv
      have hdel := ((hsel f hf).mpr ⟨hfv, r, hnr, ho⟩).1
      rw [RouterFlow.cookie, hdv, hfv] at hdel
      omega
    · obtain ⟨hdv, -, hdr⟩ := decode_route f.vlan r
      rw [← ho] at hdv hdr
      obtain ⟨hfv', -⟩ := (hsel f hf).mp ⟨hdv.trans hfv, by rw [hnr]; exact_mod_cast hdr.symm⟩
      omega
  · intro h f hf
    rw [hmem f hf]
    cases ho : f.owner with
    | default =>
      obtain ⟨hdv, -, hdr⟩ := decode_default f.vlan
      rw [RouterFlow.cookie, ho, hdv, hdr]
      constructor
      · rintro ⟨hfv, hn0⟩
        exact absurd ho (h.default hn0 f hf hfv)
      · rintro ⟨-, r, -, hr⟩
        cases hr
    | address a =>
      obtain ⟨hdv, -, hdr⟩ := decode_address (v := f.vlan) (hs.flows f hf a ho)
      rw [RouterFlow.cookie, ho, hdv, hdr]
      constructor
      · rintro ⟨hfv, hna⟩
        exact absurd hna (h.address f hf a hfv ho)
      · rintro ⟨-, r, -, hr⟩
        cases hr
    | route r =>
      obtain ⟨hdv, -, hdr⟩ := decode_route f.vlan r
      rw [RouterFlow.cookie, ho, hdv, hdr]
      rcases Nat.lt_or_ge r (2 ^ 16) with hr | hr
      · rw [Nat.div_eq_of_lt hr, Nat.mod_eq_of_lt hr, Nat.add_zero]
        constructor
        · rintro ⟨hfv, hnr⟩
          exact ⟨hfv, r, hnr, rfl⟩
        · rintro ⟨hfv, r', hnr, hrr⟩
          obtain rfl := FlowOwner.route.inj hrr
          exact ⟨hfv, hnr⟩
      · constructor
        · rintro ⟨hfv, hnr⟩
          exact absurd hnr (h.carried f hf r hr ho hfv)
        · rintro ⟨hfv, r', hnr, hrr⟩
          obtain rfl := FlowOwner.route.inj hrr
          exact absurd hnr (h.route f hf r hr ho hfv)

theorem deletesAddress_iff (hs : s.Valid) (hv : vr.vlanId = v) (hn : id.toInt = .ok (some n)) :
    DeletesAddress ver s vr id n ↔ vr.Related n ∨ AddressIdClear s v n := by
  have hmem : ∀ f ∈ s.flows, (Deleted ver (vr.deleteAddressData id s.flows).mods f ↔
      cookieToVlanId f.cookie = v ∧ ¬vr.Related n ∧ n = cookieToAddressId f.cookie) := fun f hf =>
    hv ▸ (deletedAddresses_iff hs hn hf).trans selectsAddress_iff
  unfold DeletesAddress
  rw [hv]
  by_cases hrel : vr.Related n
  · simp only [hrel, not_true, false_and, and_false, true_or, iff_true, iff_false]
    rintro f hf hdel
    exact ((hmem f hf).mp hdel).2.1 hrel
  · simp only [hrel, not_false_iff, true_and, false_or] at hmem ⊢
    constructor
    · intro h
      have hsel := fun f hf => (hmem f hf).symm.trans (h f hf)
      refine ⟨fun hn0 f hf hfv ho => ?_, fun f hf r ho hfv hnr => ?_⟩
      · obtain ⟨hdv, hda, -⟩ := decode_default f.vlan
        rw [← ho] at hdv hda
        obtain ⟨-, a, -, ho'⟩ :=
          (hsel f hf).mp ⟨hdv.trans hfv, by rw [hn0]; exact_mod_cast hda.symm⟩
        exact absurd (ho.symm.trans ho') (by simp)
      · obtain ⟨hdv, hda, -⟩ := decode_route f.vlan r
        rw [← ho] at hdv hda
        obtain ⟨-, a, -, ho'⟩ :=
          (hsel f hf).mp ⟨hdv.trans hfv, by rw [hnr]; exact_mod_cast hda.symm⟩
        exact absurd (ho.symm.trans ho') (by simp)
    · intro h f hf
      rw [hmem f hf]
      cases ho : f.owner with
      | default =>
        obtain ⟨hdv, hda, -⟩ := decode_default f.vlan
        rw [RouterFlow.cookie, ho, hdv, hda]
        constructor
        · rintro ⟨hfv, hn0⟩
          exact absurd ho (h.default hn0 f hf hfv)
        · rintro ⟨-, a, -, ha⟩
          cases ha
      | address a =>
        obtain ⟨hdv, hda, -⟩ := decode_address (v := f.vlan) (hs.flows f hf a ho)
        rw [RouterFlow.cookie, ho, hdv, hda]
        constructor
        · rintro ⟨hfv, hna⟩
          exact ⟨hfv, a, hna, rfl⟩
        · rintro ⟨hfv, a', hna, haa⟩
          obtain rfl := FlowOwner.address.inj haa
          exact ⟨hfv, hna⟩
      | route r =>
        obtain ⟨hdv, hda, -⟩ := decode_route f.vlan r
        rw [RouterFlow.cookie, ho, hdv, hda]
        constructor
        · rintro ⟨hfv, hnr⟩
          exact absurd hnr (h.route f hf r ho hfv)
        · rintro ⟨-, a, -, ha⟩
          cases ha

/-- The id has 16 bits. -/
def FlowOwner.Small : FlowOwner → Prop
  | .default => True
  | .address a => a < 2 ^ 16
  | .route r => r < 2 ^ 16

instance : (o : FlowOwner) → Decidable o.Small
  | .default => inferInstanceAs (Decidable True)
  | .address _ => inferInstanceAs (Decidable (_ < _))
  | .route _ => inferInstanceAs (Decidable (_ < _))

/-- As long as all ids have 16 bits, any id but 0 is clear. -/
theorem idsClear_of_small (h : ∀ f ∈ s.flows, f.owner.Small) (hn : 0 < n) (hlt : n < 2 ^ 16) :
    RouteIdClear s v n ∧ AddressIdClear s v n := by
  have haddress : ∀ f ∈ s.flows, ∀ a, f.owner = .address a → a < 2 ^ 16 := by
    intro f hf a ho
    have hsmall := h f hf
    rwa [ho] at hsmall
  have hroute : ∀ f ∈ s.flows, ∀ r, f.owner = .route r → r < 2 ^ 16 := by
    intro f hf r ho
    have hsmall := h f hf
    rwa [ho] at hsmall
  refine ⟨⟨by omega, ?_, ?_, ?_⟩, by omega, ?_⟩
  · intro f hf a _ ho
    have ha := haddress f hf a ho
    omega
  · intro f hf r hr ho
    have hlt := hroute f hf r ho
    omega
  · intro f hf r hr ho
    have hlt := hroute f hf r ho
    omega
  · intro f hf r ho _
    have hlt := hroute f hf r ho
    omega

/-- In every state that is reached, a request with an id deletes the flows that were installed
for the id and no others, if and only if no other flow of the switch has the id in its place. -/
theorem deletes_exactly_iff (aton : Text → Option Ip) (ver : OfVersion)
    (events : List SwitchEvent) (v : ℕ) (vr : VlanRouter)
    (hv : (RouterState.run aton ver events).vlans.get? v = some vr) (id : RestId) (n : ℤ)
    (hn : id.toInt = .ok (some n)) :
    (DeletesRoute ver (RouterState.run aton ver events) vr id n ↔
      RouteIdClear (RouterState.run aton ver events) v n) ∧
    (DeletesAddress ver (RouterState.run aton ver events) vr id n ↔
      vr.Related n ∨ AddressIdClear (RouterState.run aton ver events) v n) := by
  have hs : (RouterState.run aton ver events).Valid := .run events
  have hvlan := hs.vlanId v vr hv
  exact ⟨deletesRoute_iff hs hvlan hn, deletesAddress_iff hs hvlan hn⟩

/-- `inet_aton` of addresses with all their dots. -/
def dottedAton (t : Text) : Option Ip := (ipv4Format.read t).map (BitVec.ofNat 32)

/-- An address, and a route to another network. -/
def routedEvents : List SwitchEvent :=
  [.request 0 (.set ⟨some "172.16.20.1/24".toList, none, none⟩),
    .request 0 (.set ⟨none, some "172.16.20.2".toList, some "172.16.10.0/24".toList⟩)]

theorem routed_deletes_exactly :
    ∃ vr, (RouterState.run dottedAton .v1_3 routedEvents).vlans.get? 0 = some vr ∧
      DeletesRoute .v1_3 (RouterState.run dottedAton .v1_3 routedEvents) vr (.number 1) 1 := by
  refine ⟨_, rfl, (deletes_exactly_iff dottedAton .v1_3 routedEvents 0 _ rfl (.number 1) 1 rfl).1.mpr
    (idsClear_of_small ?_ (by decide) (by decide)).1⟩
  decide +kernel

/-- The flow of route 1 has the cookie of address 65536, which there is not. -/
theorem route_deleted_for_address :
    ∃ vr, (RouterState.run dottedAton .v1_3 routedEvents).vlans.get? 0 = some vr ∧
      ¬DeletesAddress .v1_3 (RouterState.run dottedAton .v1_3 routedEvents) vr
        (.number 65536) 65536 := by
  let f : RouterFlow :=
    ⟨0, .route 1, 26, ⟨etherTypeIp, 0, none, some (0xac100a00, 24)⟩, .controller, 0⟩
  refine ⟨_, rfl, fun h => ?_⟩
  have hf : f ∈ (RouterState.run dottedAton .v1_3 routedEvents).flows := by decide +kernel
  obtain ⟨-, -, a, -, ho⟩ := (h f hf).mp ⟨f, by decide +kernel, rfl⟩
  cases ho

end Exact

end Ryu.Router
