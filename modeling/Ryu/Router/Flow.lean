import Mathlib.Data.Nat.Bitwise
import Ryu.Router.Address

/-! # The flows of a router

The flows of all routers of a switch are in one table. What a flow was set for is kept in its
cookie, in the upper half the VLAN, in the lower half the id of an address, or that of a route
16 bits further up.
-/

namespace Ryu.Router

def cookieShiftVlanid : ℕ := 32
def cookieShiftRouteid : ℕ := 16
def uint16Max : ℕ := 0xffff
def vlanidNone : ℕ := 0

inductive OfVersion
  | v1_0
  | v1_2
  | v1_3
  deriving DecidableEq, Repr

/-- What a flow is set for. -/
inductive FlowOwner
  | default
  | address (addressId : ℕ)
  | route (routeId : ℕ)
  deriving DecidableEq, Repr

/-- `_id_to_cookie`; the default flows of a VLAN have the cookie of `REST_VLANID`. -/
def idToCookie (vlanId : ℕ) : FlowOwner → ℕ
  | .default => vlanId <<< cookieShiftVlanid
  | .address restId => vlanId <<< cookieShiftVlanid + restId
  | .route restId => vlanId <<< cookieShiftVlanid + restId <<< cookieShiftRouteid

/-- `_cookie_to_id` for `REST_VLANID`. -/
def cookieToVlanId (cookie : ℕ) : ℕ := cookie >>> cookieShiftVlanid

/-- `_cookie_to_id` for `REST_ADDRESSID`. -/
def cookieToAddressId (cookie : ℕ) : ℕ := cookie &&& uint32Max

/-- `_cookie_to_id` for `REST_ROUTEID`. -/
def cookieToRouteId (cookie : ℕ) : ℕ := (cookie &&& uint32Max) >>> cookieShiftRouteid

def priorityVlanShift : ℕ := 1000
def priorityNetmaskShift : ℕ := 32
def priorityNormal : ℕ := 0
def priorityArpHandling : ℕ := 1
def priorityDefaultRouting : ℕ := 1
def priorityMacLearning : ℕ := 2
def priorityStaticRouting : ℕ := 2
def priorityImplicitRouting : ℕ := 3
def priorityL2Switching : ℕ := 4
def priorityIpHandling : ℕ := 5

/-- The end of `get_priority`: what is added to the priority of a type. -/
def shiftPriority (priorityType priority vid : ℕ) : ℕ :=
  let priority :=
    if vid ≠ 0 ∨ priorityType = priorityIpHandling then priority + priorityVlanShift else priority
  if priorityType > priorityStaticRouting then priority + priorityNetmaskShift else priority

/-- `get_priority` for any type but that of routes. -/
def getPriority (priorityType vid : ℕ) : ℕ := shiftPriority priorityType priorityType vid

/-- `get_priority` for a route; the default route has the number 0 in place of an address. -/
def routePriority (dstIp : Option Ip) (netmask vid : ℕ) : ℕ :=
  if dstIp.isSome then shiftPriority priorityStaticRouting (priorityStaticRouting + netmask) vid
  else shiftPriority priorityDefaultRouting priorityDefaultRouting vid

/-- `get_priority_type`. -/
def getPriorityType (priority vid : ℕ) : ℤ :=
  if vid ≠ 0 then (priority : ℤ) - priorityVlanShift else priority

/-- A network in a match. A mask without any bit is as good as no field. -/
def matchNet (ip : Option Ip) (mask : ℕ) : Option (Ip × ℕ) :=
  ip.bind fun ip => if mask = 0 then none else some (ip, mask)

/-- The fields that `set_flow` matches; 0 for what it leaves out. -/
structure RouterMatch where
  dlType : ℕ
  dlVlan : ℕ
  nwSrc : Option (Ip × ℕ)
  nwDst : Option (Ip × ℕ)
  deriving DecidableEq, Repr

def etherTypeIp : ℕ := 0x0800
def etherTypeArp : ℕ := 0x0806

/-- The output of a flow. -/
inductive FlowOutput
  | controller
  | normal
  | drop
  | forward (outPort : ℕ) (srcMac dstMac : Text)
  deriving DecidableEq, Repr

/-- A flow with what it was set for, which the switch keeps as the cookie. -/
structure RouterFlow where
  vlan : ℕ
  owner : FlowOwner
  priority : ℕ
  fields : RouterMatch
  output : FlowOutput
  idleTimeout : ℕ
  deriving DecidableEq, Repr

def RouterFlow.cookie (f : RouterFlow) : ℕ := idToCookie f.vlan f.owner

/-- Flows in the same place of a table: one replaces the other. -/
def RouterFlow.SamePlace (f g : RouterFlow) : Prop := f.priority = g.priority ∧ f.fields = g.fields

instance (f g : RouterFlow) : Decidable (f.SamePlace g) := inferInstanceAs (Decidable (_ ∧ _))

/-- What is sent to the switch; a deletion with the statistics of a flow. -/
inductive FlowMod
  | add (f : RouterFlow)
  | delete (f : RouterFlow)
  deriving DecidableEq, Repr

/-- `delete_flow`: strict in OpenFlow 1.0, by the cookie alone later. -/
def Removes (ver : OfVersion) (g f : RouterFlow) : Prop :=
  match ver with
  | .v1_0 => f.SamePlace g
  | .v1_2 | .v1_3 => f.cookie = g.cookie

instance : (ver : OfVersion) → (g f : RouterFlow) → Decidable (Removes ver g f)
  | .v1_0, _, _ => inferInstanceAs (Decidable (_ ∧ _))
  | .v1_2, _, _ => inferInstanceAs (Decidable (_ = _))
  | .v1_3, _, _ => inferInstanceAs (Decidable (_ = _))

/-- What the switch makes of a command. -/
def applyMod (ver : OfVersion) (table : List RouterFlow) : FlowMod → List RouterFlow
  | .add f => f :: table.filter fun g => ¬g.SamePlace f
  | .delete g => table.filter fun f => ¬Removes ver g f

def applyMods (ver : OfVersion) (table : List RouterFlow) (mods : List FlowMod) :
    List RouterFlow :=
  mods.foldl (applyMod ver) table

/-- Whether one of the commands deletes a flow. -/
def Deleted (ver : OfVersion) (mods : List FlowMod) (f : RouterFlow) : Prop :=
  ∃ g, FlowMod.delete g ∈ mods ∧ Removes ver g f

section Cookie

variable {v a r : ℕ} {f g : RouterFlow} {table : List RouterFlow} {ver : OfVersion}

theorem cookieToVlanId_eq (cookie : ℕ) : cookieToVlanId cookie = cookie / 2 ^ 32 :=
  Nat.shiftRight_eq_div_pow ..

theorem cookieToAddressId_eq (cookie : ℕ) : cookieToAddressId cookie = cookie % 2 ^ 32 :=
  Nat.and_two_pow_sub_one_eq_mod cookie 32

theorem cookieToRouteId_eq (cookie : ℕ) : cookieToRouteId cookie = cookie % 2 ^ 32 / 2 ^ 16 := by
  rw [cookieToRouteId, Nat.shiftRight_eq_div_pow]
  congr 1
  exact Nat.and_two_pow_sub_one_eq_mod cookie 32

theorem cookie_default (v : ℕ) : idToCookie v .default = v * 2 ^ 32 := Nat.shiftLeft_eq ..

theorem cookie_address (v a : ℕ) : idToCookie v (.address a) = v * 2 ^ 32 + a := by
  rw [idToCookie, Nat.shiftLeft_eq]
  rfl

theorem cookie_route (v r : ℕ) : idToCookie v (.route r) = v * 2 ^ 32 + r * 2 ^ 16 := by
  rw [idToCookie, Nat.shiftLeft_eq, Nat.shiftLeft_eq]
  rfl

/-- The ids read from a cookie. -/
theorem decode_default (v : ℕ) : cookieToVlanId (idToCookie v .default) = v ∧
    cookieToAddressId (idToCookie v .default) = 0 ∧
    cookieToRouteId (idToCookie v .default) = 0 := by
  rw [cookieToVlanId_eq, cookieToAddressId_eq, cookieToRouteId_eq, cookie_default]
  omega

theorem decode_address (ha : a < 2 ^ 32) : cookieToVlanId (idToCookie v (.address a)) = v ∧
    cookieToAddressId (idToCookie v (.address a)) = a ∧
    cookieToRouteId (idToCookie v (.address a)) = a / 2 ^ 16 := by
  rw [cookieToVlanId_eq, cookieToAddressId_eq, cookieToRouteId_eq, cookie_address]
  omega

/-- The id of a route leaves the lower half of the cookie at 16 bits. -/
theorem decode_route (v r : ℕ) :
    cookieToVlanId (idToCookie v (.route r)) = v + r / 2 ^ 16 ∧
    cookieToAddressId (idToCookie v (.route r)) = r % 2 ^ 16 * 2 ^ 16 ∧
    cookieToRouteId (idToCookie v (.route r)) = r % 2 ^ 16 := by
  rw [cookieToVlanId_eq, cookieToAddressId_eq, cookieToRouteId_eq, cookie_route]
  omega

end Cookie

section Table

variable {f g h : RouterFlow} {table : List RouterFlow} {ver : OfVersion} {mods : List FlowMod}

/-- No two flows of a table are in the same place. -/
def Placed (table : List RouterFlow) : Prop :=
  ∀ f ∈ table, ∀ g ∈ table, f.SamePlace g → f = g

theorem mem_add : f ∈ applyMod ver table (.add g) ↔ f = g ∨ f ∈ table ∧ ¬f.SamePlace g := by
  simp [applyMod]

theorem mem_delete : f ∈ applyMod ver table (.delete g) ↔ f ∈ table ∧ ¬Removes ver g f := by
  simp [applyMod]

theorem Placed.applyMod (hp : Placed table) (m : FlowMod) : Placed (applyMod ver table m) := by
  intro f hf g hg hfg
  cases m with
  | add c =>
    rcases mem_add.1 hf with hfc | ⟨hf, hfc⟩
    · rcases mem_add.1 hg with hgc | ⟨hg, hgc⟩
      · exact hfc.trans hgc.symm
      · exact absurd ⟨(hfc ▸ hfg.1).symm, (hfc ▸ hfg.2).symm⟩ hgc
    · rcases mem_add.1 hg with hgc | ⟨hg, hgc⟩
      · exact absurd (hgc ▸ hfg) hfc
      · exact hp f hf g hg hfg
  | delete c => exact hp f (mem_delete.1 hf).1 g (mem_delete.1 hg).1 hfg

theorem Placed.applyMods (hp : Placed table) (mods : List FlowMod) :
    Placed (applyMods ver table mods) := by
  induction mods generalizing table with
  | nil => exact hp
  | cons m mods ih => exact ih (hp.applyMod m)

theorem RouterFlow.SamePlace.symm (h : f.SamePlace g) : g.SamePlace f := ⟨h.1.symm, h.2.symm⟩

theorem deleted_cons {m : FlowMod} : Deleted ver (m :: mods) f ↔
    (∃ g, m = .delete g ∧ Removes ver g f) ∨ Deleted ver mods f := by
  constructor
  · rintro ⟨g, hg, hr⟩
    rcases List.mem_cons.mp hg with rfl | hg
    · exact .inl ⟨g, rfl, hr⟩
    · exact .inr ⟨g, hg, hr⟩
  · rintro (⟨g, rfl, hr⟩ | ⟨g, hg, hr⟩)
    · exact ⟨g, List.mem_cons_self, hr⟩
    · exact ⟨g, List.mem_cons_of_mem _ hg, hr⟩

/-- A flow of the table afterwards was set, or was there and has not been deleted. -/
theorem mem_of_mem_applyMods (h : f ∈ applyMods ver table mods) :
    FlowMod.add f ∈ mods ∨ f ∈ table ∧ ¬Deleted ver mods f := by
  induction mods generalizing table with
  | nil => exact .inr ⟨h, fun ⟨_, hg, _⟩ => by cases hg⟩
  | cons m mods ih =>
    rcases ih h with h | ⟨h, hnot⟩
    · exact .inl (List.mem_cons_of_mem _ h)
    · cases m with
      | add g =>
        rcases mem_add.1 h with rfl | ⟨h, -⟩
        · exact .inl List.mem_cons_self
        · refine .inr ⟨h, fun hd => ?_⟩
          rcases deleted_cons.1 hd with ⟨_, hg, -⟩ | hd
          · cases hg
          · exact hnot hd
      | delete g =>
        obtain ⟨h, hrem⟩ := mem_delete.1 h
        refine .inr ⟨h, fun hd => ?_⟩
        rcases deleted_cons.1 hd with ⟨_, hg, hr⟩ | hd
        · exact hrem (FlowMod.delete.inj hg ▸ hr)
        · exact hnot hd

/-- A flow stays that is not deleted and not replaced. -/
theorem mem_applyMods (h : f ∈ table) (hd : ¬Deleted ver mods f)
    (hr : ∀ g, FlowMod.add g ∈ mods → ¬f.SamePlace g) : f ∈ applyMods ver table mods := by
  induction mods generalizing table with
  | nil => exact h
  | cons m mods ih =>
    refine ih ?_ (fun hd' => hd (deleted_cons.2 (.inr hd')))
      fun g hg => hr g (List.mem_cons_of_mem _ hg)
    cases m with
    | add g => exact mem_add.2 (.inr ⟨h, hr g List.mem_cons_self⟩)
    | delete g => exact mem_delete.2 ⟨h, fun hr => hd (deleted_cons.2 (.inl ⟨g, rfl, hr⟩))⟩

/-- Where nothing is deleted, the place of a flow that was set is taken by one that was set. -/
theorem place_taken (hadd : FlowMod.add f ∈ mods) (hd : ∀ g, FlowMod.delete g ∉ mods) :
    ∃ g, FlowMod.add g ∈ mods ∧ f.SamePlace g ∧ g ∈ applyMods ver table mods := by
  induction mods generalizing table f with
  | nil => cases hadd
  | cons m mods ih =>
    have hd' : ∀ g, FlowMod.delete g ∉ mods := fun g hg => hd g (List.mem_cons_of_mem _ hg)
    by_cases hlater : ∃ g, FlowMod.add g ∈ mods ∧ f.SamePlace g
    · obtain ⟨g, hg, hfg⟩ := hlater
      obtain ⟨c, hc, hgc, hmem⟩ : ∃ c, FlowMod.add c ∈ mods ∧ g.SamePlace c ∧
          c ∈ applyMods ver (applyMod ver table m) mods := ih hg hd'
      exact ⟨c, List.mem_cons_of_mem _ hc, ⟨hfg.1.trans hgc.1, hfg.2.trans hgc.2⟩, hmem⟩
    · rcases List.mem_cons.mp hadd with rfl | hadd
      · have hset : f ∈ applyMod ver table (.add f) := mem_add.2 (.inl rfl)
        have hstay : f ∈ applyMods ver (applyMod ver table (.add f)) mods :=
          mem_applyMods hset (fun ⟨g, hg, _⟩ => hd' g hg) fun g hg hfg => hlater ⟨g, hg, hfg⟩
        exact ⟨f, List.mem_cons_self, ⟨rfl, rfl⟩, hstay⟩
      · exact absurd ⟨f, hadd, rfl, rfl⟩ hlater

end Table

end Ryu.Router
