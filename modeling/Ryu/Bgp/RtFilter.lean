import Mathlib.Data.Finset.Union
import Mathlib.Data.List.Sort
import Mathlib.Data.String.Basic
import Ryu.Bgp.RtTable
import Ryu.Lib.Run

/-! # The RT membership routes of a speaker

`RouteTargetManager` announces every import RT of the VRFs for the local AS and the RTC AS of every
neighbor. A change of a VRF is announced at once for the neighbors of the moment. A change of a
neighbor is left to a handler that is spawned: it compares with the AS numbers it remembers, and
announces the import RTs that the last change of a VRF has left.
-/

namespace Ryu.Bgp

/-- The orders in which sets are iterated. -/
structure SetOrder where
  asns : Finset ℕ → List ℕ
  rts : Finset String → List String
  mem_asns : ∀ s a, a ∈ asns s ↔ a ∈ s
  mem_rts : ∀ s rt, rt ∈ rts s ↔ rt ∈ s

/-- The elements of a set in ascending order. -/
def ascending {α : Type*} [LinearOrder α] (s : Finset α) : List α :=
  Quot.liftOn s.val (List.insertionSort (· ≤ ·)) fun _ _ h =>
    (((List.perm_insertionSort _ _).trans h).trans (List.perm_insertionSort _ _).symm).eq_of_pairwise
      (fun _ _ _ _ => le_antisymm) (List.pairwise_insertionSort _ _)
      (List.pairwise_insertionSort _ _)

theorem mem_ascending {α : Type*} [LinearOrder α] (s : Finset α) (a : α) :
    a ∈ ascending s ↔ a ∈ s := by
  obtain ⟨⟨l⟩, hl⟩ := s
  exact (List.perm_insertionSort _ l).mem_iff

def SetOrder.sorted : SetOrder where
  asns := ascending
  rts := ascending
  mem_asns := mem_ascending
  mem_rts := mem_ascending

/-- What is read of a `VrfConf`. -/
structure RtVrfConf where
  id : String
  importRts : Finset String
  deriving DecidableEq

/-- `RouteTargetManager` with the neighbors, the VRFs and the table it works on. `vrfs` is keyed by
route distinguisher and route family. `handlers` counts the calls of `update_rtc_as_set` that are
spawned and have not run. -/
structure RouteTargetManager where
  asn : ℕ
  neighbors : Dict String ℕ
  vrfs : Dict (String × String) RtVrfConf
  allVrfsImportRtsSet : Finset String
  allRtcAsSet : Finset ℕ
  handlers : ℕ
  events : List RtEvent

namespace RouteTargetManager

def init (asn : ℕ) : RouteTargetManager := ⟨asn, Dict.empty, Dict.empty, ∅, ∅, 0, []⟩

/-- `NeighborsConf.rtc_as_set`. -/
def rtcAsSet (m : RouteTargetManager) : Finset ℕ := m.neighbors.values.toFinset

/-- The import RTs of the configured VRFs. -/
def importRts (vrfs : Dict (String × String) RtVrfConf) : Finset String :=
  vrfs.values.toFinset.biUnion RtVrfConf.importRts

/-- `_add_rt_nlri_for_as`, with `learn_path`. -/
def addRtNlriForAs (m : RouteTargetManager) (rtcAs : ℕ) (routeTarget : String)
    (isWithdraw : Bool) : RouteTargetManager :=
  { m with events := m.events ++ [⟨rtcAs, routeTarget, isWithdraw⟩] }

/-- `add_rt_nlri`. -/
def addRtNlri (o : SetOrder) (isWithdraw : Bool) (m : RouteTargetManager) (routeTarget : String) :
    RouteTargetManager :=
  (o.asns (insert m.asn m.rtcAsSet)).foldl
    (fun m rtcAs => m.addRtNlriForAs rtcAs routeTarget isWithdraw) m

/-- One of the two nested loops of `update_rtc_as_set`. -/
def addRtNlrisForAs (o : SetOrder) (isWithdraw : Bool) (m : RouteTargetManager) (rtcAs : ℕ) :
    RouteTargetManager :=
  (o.rts m.allVrfsImportRtsSet).foldl
    (fun m importRt => m.addRtNlriForAs rtcAs importRt isWithdraw) m

/-- `update_rtc_as_set`. -/
def updateRtcAsSet (m : RouteTargetManager) (o : SetOrder) : RouteTargetManager :=
  let curr := insert m.asn m.rtcAsSet
  let removed := m.allRtcAsSet \ curr
  let new := curr \ m.allRtcAsSet
  let m := { m with allRtcAsSet := curr }
  let m := (o.asns new).foldl (addRtNlrisForAs o false) m
  (o.asns removed).foldl (addRtNlrisForAs o true) m

/-- `update_local_rt_nlris`. -/
def updateLocalRtNlris (m : RouteTargetManager) (o : SetOrder) : RouteTargetManager :=
  let current := importRts m.vrfs
  let removed := m.allVrfsImportRtsSet \ current
  let new := current \ m.allVrfsImportRtsSet
  let m := { m with allVrfsImportRtsSet := current }
  let m := (o.rts new).foldl (addRtNlri o false) m
  (o.rts removed).foldl (addRtNlri o true) m

/-- `on_peer_added` and `on_peer_removed`: a handler is spawned unless the AS is the local one. -/
def spawnHandler (m : RouteTargetManager) (rtcAs : ℕ) : RouteTargetManager :=
  if rtcAs ≠ m.asn then { m with handlers := m.handlers + 1 } else m

/-- `add_neighbor_conf`. A known neighbor is refused. -/
def addNeighbor (m : RouteTargetManager) (ip : String) (rtcAs : ℕ) : RouteTargetManager :=
  if ip ∈ m.neighbors.keys then m
  else { m with neighbors := m.neighbors.set ip rtcAs }.spawnHandler rtcAs

/-- `remove_neighbor_conf`. An unknown neighbor is refused. -/
def removeNeighbor (m : RouteTargetManager) (ip : String) : RouteTargetManager :=
  match m.neighbors.get? ip with
  | none => m
  | some rtcAs => { m with neighbors := m.neighbors.erase ip }.spawnHandler rtcAs

/-- `add_vrf_conf`. A known VRF or id is refused. -/
def addVrf (m : RouteTargetManager) (rdRfId : String × String) (conf : RtVrfConf) (o : SetOrder) :
    RouteTargetManager :=
  if rdRfId ∈ m.vrfs.keys ∨ conf.id ∈ m.vrfs.values.map RtVrfConf.id then m
  else { m with vrfs := m.vrfs.set rdRfId conf }.updateLocalRtNlris o

/-- `VrfConf.update` of a VRF and `on_chg_vrf_conf`, which finds nothing to do where the import RTs
are as before. -/
def changeVrf (m : RouteTargetManager) (rdRfId : String × String) (importRts : Finset String)
    (o : SetOrder) : RouteTargetManager :=
  match m.vrfs.get? rdRfId with
  | none => m
  | some conf =>
    { m with vrfs := m.vrfs.set rdRfId { conf with importRts := importRts } }.updateLocalRtNlris o

/-- `SUPPORTED_VRF_RF`. -/
def supportedVrfRf : List String := ["ipv4", "ipv6", "evpn", "ipv4fs", "ipv6fs", "l2vpnfs"]

/-- `remove_vrf_conf` of a route distinguisher: its VRFs are popped first, and the handler of each
runs then. -/
def removeVrf (m : RouteTargetManager) (routeDist : String) (o : SetOrder) : RouteTargetManager :=
  let removed := (supportedVrfRf.map (routeDist, ·)).filter (· ∈ m.vrfs.keys)
  removed.foldl (fun m _ => m.updateLocalRtNlris o)
    { m with vrfs := removed.foldl Dict.erase m.vrfs }

/-- A handler that is spawned runs. -/
def runHandler (m : RouteTargetManager) (o : SetOrder) : RouteTargetManager :=
  if m.handlers = 0 then m else { m with handlers := m.handlers - 1 }.updateRtcAsSet o

inductive Input
  | addNeighbor (ip : String) (rtcAs : ℕ)
  | removeNeighbor (ip : String)
  | addVrf (rdRfId : String × String) (conf : RtVrfConf) (o : SetOrder)
  | changeVrf (rdRfId : String × String) (importRts : Finset String) (o : SetOrder)
  | removeVrf (routeDist : String) (o : SetOrder)
  | runHandler (o : SetOrder)

def step (m : RouteTargetManager) : Input → RouteTargetManager
  | .addNeighbor ip rtcAs => m.addNeighbor ip rtcAs
  | .removeNeighbor ip => m.removeNeighbor ip
  | .addVrf rdRfId conf o => m.addVrf rdRfId conf o
  | .changeVrf rdRfId importRts o => m.changeVrf rdRfId importRts o
  | .removeVrf routeDist o => m.removeVrf routeDist o
  | .runHandler o => m.runHandler o

/-- The AS numbers that are announced for now, and those the handler remembers. -/
def current (m : RouteTargetManager) : Finset ℕ := insert m.asn m.rtcAsSet

def known (m : RouteTargetManager) : Finset ℕ := insert m.asn m.allRtcAsSet

/-- The routes are the pairs of an announced AS and an import RT of a VRF. -/
def RoutesExact (sp : Speaker) (m : RouteTargetManager) : Prop :=
  ∀ as rt, HasRoute sp m.events as rt ↔ as ∈ m.current ∧ rt ∈ importRts m.vrfs

/-- The routes are exact once all handlers have run. -/
def ExactOnceRun (sp : Speaker) (m : RouteTargetManager) : Prop :=
  ∀ os : List SetOrder, os.length = m.handlers → (os.foldl runHandler m).RoutesExact sp

/-- A neighbor brings back no AS that the handler remembers and that lacks a route meanwhile, no AS
leaves with its last neighbor that has routes the handler does not know of, and no import RT goes
while an AS the handler has yet to withdraw has a route of it. -/
def InStep (sp : Speaker) (m : RouteTargetManager) : Input → Prop
  | .addNeighbor ip rtcAs =>
    ip ∉ m.neighbors.keys → rtcAs ∈ m.known → rtcAs ∉ m.current →
      ∀ rt ∈ m.allVrfsImportRtsSet, HasRoute sp m.events rtcAs rt
  | .removeNeighbor ip =>
    ∀ rtcAs, m.neighbors.get? ip = some rtcAs → rtcAs ∉ (m.removeNeighbor ip).current →
      rtcAs ∉ m.known → ∀ rt, ¬ HasRoute sp m.events rtcAs rt
  | .runHandler _ => True
  | i =>
    ∀ as ∈ m.known, as ∉ m.current →
      ∀ rt ∈ m.allVrfsImportRtsSet, rt ∉ importRts (m.step i).vrfs → ¬ HasRoute sp m.events as rt

variable {sp : Speaker} {m : RouteTargetManager} {o : SetOrder} {w : Bool} {as : ℕ} {rt : String}

section Events

/-- Nothing but events is added. -/
theorem foldl_addRtNlriForAs (l : List (ℕ × String)) (w : Bool) (m : RouteTargetManager) :
    l.foldl (fun m p => m.addRtNlriForAs p.1 p.2 w) m =
      { m with events := m.events ++ l.map fun p => ⟨p.1, p.2, w⟩ } := by
  induction l generalizing m with
  | nil => simp
  | cons p l ih =>
    rw [List.foldl_cons, ih]
    simp [addRtNlriForAs]

theorem addRtNlri_eq (o : SetOrder) (w : Bool) (m : RouteTargetManager) (rt : String) :
    addRtNlri o w m rt =
      { m with events := m.events ++ (o.asns m.current).map fun as => ⟨as, rt, w⟩ } := by
  have h := foldl_addRtNlriForAs ((o.asns m.current).map (·, rt)) w m
  rw [List.foldl_map, List.map_map] at h
  exact h

theorem addRtNlrisForAs_eq (o : SetOrder) (w : Bool) (m : RouteTargetManager) (as : ℕ) :
    addRtNlrisForAs o w m as = { m with
      events := m.events ++ (o.rts m.allVrfsImportRtsSet).map fun rt => ⟨as, rt, w⟩ } := by
  have h := foldl_addRtNlriForAs ((o.rts m.allVrfsImportRtsSet).map (as, ·)) w m
  rw [List.foldl_map, List.map_map] at h
  exact h

theorem foldl_addRtNlri (o : SetOrder) (w : Bool) (rts : List String) (m : RouteTargetManager) :
    rts.foldl (addRtNlri o w) m = { m with
      events := m.events ++
        rts.flatMap fun rt => (o.asns m.current).map fun as => ⟨as, rt, w⟩ } := by
  induction rts generalizing m with
  | nil => simp
  | cons rt rts ih =>
    rw [List.foldl_cons, ih, addRtNlri_eq]
    simp [current, rtcAsSet]

theorem foldl_addRtNlrisForAs (o : SetOrder) (w : Bool) (asns : List ℕ) (m : RouteTargetManager) :
    asns.foldl (addRtNlrisForAs o w) m = { m with
      events := m.events ++
        asns.flatMap fun as => (o.rts m.allVrfsImportRtsSet).map fun rt => ⟨as, rt, w⟩ } := by
  induction asns generalizing m with
  | nil => simp
  | cons as asns ih =>
    rw [List.foldl_cons, ih, addRtNlrisForAs_eq]
    simp

/-- The events of two loops, one that announces and one that withdraws. -/
theorem hasRoute_two {events announced withdrawn : List RtEvent} {P Q : ℕ → String → Prop}
    (ha : ∀ e, e ∈ announced ↔ (P e.originAs e.routeTarget) ∧ e.isWithdraw = false)
    (hw : ∀ e, e ∈ withdrawn ↔ (Q e.originAs e.routeTarget) ∧ e.isWithdraw = true) :
    HasRoute sp (events ++ announced ++ withdrawn) as rt ↔
      ¬ Q as rt ∧ (P as rt ∨ HasRoute sp events as rt) := by
  have hex : ∀ (l : List RtEvent) (w : Bool) (R : ℕ → String → Prop),
      (∀ e, e ∈ l ↔ R e.originAs e.routeTarget ∧ e.isWithdraw = w) →
        ((∃ e ∈ l, e.originAs = as ∧ e.routeTarget = rt) ↔ R as rt) := by
    intro l w R hl
    constructor
    · rintro ⟨e, he, rfl, rfl⟩
      exact ((hl e).mp he).1
    · intro hr
      exact ⟨⟨as, rt, w⟩, (hl _).mpr ⟨hr, rfl⟩, rfl, rfl⟩
  rw [hasRoute_append fun e he => ((hw e).mp he).2, hex withdrawn true Q hw,
    hasRoute_append fun e he => ((ha e).mp he).2, hex announced false P ha]
  tauto

/-- A change of a VRF announces the new import RTs for the AS numbers of the moment, and withdraws
the removed ones for them. -/
theorem updateLocalRtNlris_eq (sp : Speaker) (m : RouteTargetManager) (o : SetOrder) :
    ∃ events, m.updateLocalRtNlris o =
        { m with allVrfsImportRtsSet := importRts m.vrfs, events := events } ∧
      ∀ as rt, HasRoute sp events as rt ↔
        ¬ (as ∈ m.current ∧ rt ∈ m.allVrfsImportRtsSet \ importRts m.vrfs) ∧
          (as ∈ m.current ∧ rt ∈ importRts m.vrfs \ m.allVrfsImportRtsSet ∨
            HasRoute sp m.events as rt) := by
  let found : Bool → Finset String → List RtEvent := fun w rts =>
    (o.rts rts).flatMap fun rt => (o.asns m.current).map fun as => ⟨as, rt, w⟩
  have hmem : ∀ w rts e, e ∈ found w rts ↔
      (e.originAs ∈ m.current ∧ e.routeTarget ∈ rts) ∧ e.isWithdraw = w := by
    rintro w rts ⟨as, rt, w'⟩
    simp only [found, List.mem_flatMap, List.mem_map, RtEvent.mk.injEq, o.mem_asns, o.mem_rts]
    constructor
    · rintro ⟨_, hr, _, ha, rfl, rfl, rfl⟩
      exact ⟨⟨ha, hr⟩, rfl⟩
    · rintro ⟨⟨ha, hr⟩, rfl⟩
      exact ⟨rt, hr, as, ha, rfl, rfl, rfl⟩
  refine ⟨m.events ++ found false (importRts m.vrfs \ m.allVrfsImportRtsSet) ++
    found true (m.allVrfsImportRtsSet \ importRts m.vrfs), ?_, fun as rt => ?_⟩
  · dsimp only [updateLocalRtNlris]
    rw [foldl_addRtNlri, foldl_addRtNlri]
    rfl
  · exact hasRoute_two (P := fun as rt => as ∈ m.current ∧ rt ∈ _)
      (Q := fun as rt => as ∈ m.current ∧ rt ∈ _) (hmem false _) (hmem true _)

/-- The handler announces the import RTs for the AS numbers it did not know, and withdraws them for
those that are gone. -/
theorem updateRtcAsSet_eq (sp : Speaker) (m : RouteTargetManager) (o : SetOrder) :
    ∃ events, m.updateRtcAsSet o = { m with allRtcAsSet := m.current, events := events } ∧
      ∀ as rt, HasRoute sp events as rt ↔
        ¬ (as ∈ m.allRtcAsSet \ m.current ∧ rt ∈ m.allVrfsImportRtsSet) ∧
          (as ∈ m.current \ m.allRtcAsSet ∧ rt ∈ m.allVrfsImportRtsSet ∨
            HasRoute sp m.events as rt) := by
  let found : Bool → Finset ℕ → List RtEvent := fun w asns =>
    (o.asns asns).flatMap fun as => (o.rts m.allVrfsImportRtsSet).map fun rt => ⟨as, rt, w⟩
  have hmem : ∀ w asns e, e ∈ found w asns ↔
      (e.originAs ∈ asns ∧ e.routeTarget ∈ m.allVrfsImportRtsSet) ∧ e.isWithdraw = w := by
    rintro w asns ⟨as, rt, w'⟩
    simp only [found, List.mem_flatMap, List.mem_map, RtEvent.mk.injEq, o.mem_asns, o.mem_rts]
    constructor
    · rintro ⟨_, ha, _, hr, rfl, rfl, rfl⟩
      exact ⟨⟨ha, hr⟩, rfl⟩
    · rintro ⟨⟨ha, hr⟩, rfl⟩
      exact ⟨as, ha, rt, hr, rfl, rfl, rfl⟩
  refine ⟨m.events ++ found false (m.current \ m.allRtcAsSet) ++
    found true (m.allRtcAsSet \ m.current), ?_, fun as rt => ?_⟩
  · dsimp only [updateRtcAsSet]
    rw [foldl_addRtNlrisForAs, foldl_addRtNlrisForAs]
    rfl
  · exact hasRoute_two (P := fun as rt => as ∈ _ ∧ rt ∈ m.allVrfsImportRtsSet)
      (Q := fun as rt => as ∈ _ ∧ rt ∈ m.allVrfsImportRtsSet) (hmem false _) (hmem true _)

end Events

section Steps

/-- What every run keeps. -/
structure Kept (sp : Speaker) (m : RouteTargetManager) : Prop where
  rts : m.allVrfsImportRtsSet = importRts m.vrfs
  idle : m.handlers = 0 → m.known = m.current
  own : ∀ rt ∈ m.allVrfsImportRtsSet, HasRoute sp m.events m.asn rt

/-- The routes are those that the handler makes exact. -/
structure Synced (sp : Speaker) (m : RouteTargetManager) : Prop where
  both : ∀ as ∈ m.known, as ∈ m.current →
    ∀ rt ∈ m.allVrfsImportRtsSet, HasRoute sp m.events as rt
  sound : ∀ as rt, HasRoute sp m.events as rt →
    rt ∈ m.allVrfsImportRtsSet ∧ (as ∈ m.known ∨ as ∈ m.current)

theorem asn_mem_current : m.asn ∈ m.current := Finset.mem_insert_self _ _

/-- With every AS known to the handler, the routes are exact. -/
theorem routesExact_iff_synced (hr : m.allVrfsImportRtsSet = importRts m.vrfs)
    (hi : m.known = m.current) : m.RoutesExact sp ↔ m.Synced sp := by
  constructor
  · intro h
    constructor
    · intro as _ ha rt hrt
      exact (h as rt).mpr ⟨ha, hr ▸ hrt⟩
    · intro as rt hroute
      obtain ⟨ha, hrt⟩ := (h as rt).mp hroute
      exact ⟨hr ▸ hrt, Or.inr ha⟩
  · intro h as rt
    constructor
    · intro hroute
      obtain ⟨hrt, ha⟩ := h.sound as rt hroute
      exact ⟨ha.elim (fun h => hi ▸ h) id, hr ▸ hrt⟩
    · rintro ⟨ha, hrt⟩
      exact h.both as (hi ▸ ha) ha rt (hr ▸ hrt)

/-- The handler knows every AS afterwards, and makes the routes exact that can be made so. -/
theorem updateRtcAsSet_spec (hk : ∀ rt ∈ m.allVrfsImportRtsSet, HasRoute sp m.events m.asn rt)
    (o : SetOrder) : (m.updateRtcAsSet o).known = m.current ∧
      (∀ rt ∈ m.allVrfsImportRtsSet, HasRoute sp (m.updateRtcAsSet o).events m.asn rt) ∧
      ((m.updateRtcAsSet o).Synced sp ↔ m.Synced sp) := by
  obtain ⟨events, heq, hroute⟩ := updateRtcAsSet_eq sp m o
  have hknown : insert m.asn m.current = m.current := Finset.insert_eq_of_mem asn_mem_current
  rw [heq]
  refine ⟨hknown, fun rt hrt => ?_, ?_, ?_⟩
  · rw [hroute]
    exact ⟨fun h => (Finset.mem_sdiff.mp h.1).2 asn_mem_current, Or.inr (hk rt hrt)⟩
  · rintro ⟨hboth, hsound⟩
    constructor
    · intro as hkn ha rt hrt
      rcases Finset.mem_insert.mp hkn with rfl | hq
      · exact hk rt hrt
      · obtain ⟨-, h⟩ := (hroute as rt).mp (hboth as (Finset.mem_insert_of_mem ha) ha rt hrt)
        exact h.resolve_left fun hn => (Finset.mem_sdiff.mp hn.1).2 hq
    · intro as rt hr
      by_cases hgone : as ∈ m.allRtcAsSet \ m.current ∧ rt ∈ m.allVrfsImportRtsSet
      · exact ⟨hgone.2, Or.inl (Finset.mem_insert_of_mem (Finset.mem_sdiff.mp hgone.1).1)⟩
      · obtain ⟨hrt, ha⟩ := hsound as rt ((hroute as rt).mpr ⟨hgone, Or.inr hr⟩)
        exact ⟨hrt, Or.inr (ha.elim (fun h => hknown ▸ h) id)⟩
  · rintro ⟨hboth, hsound⟩
    constructor
    · intro as _ ha rt hrt
      refine (hroute as rt).mpr ⟨fun h => (Finset.mem_sdiff.mp h.1).2 ha, ?_⟩
      by_cases hq : as ∈ m.allRtcAsSet
      · exact Or.inr (hboth as (Finset.mem_insert_of_mem hq) ha rt hrt)
      · exact Or.inl ⟨Finset.mem_sdiff.mpr ⟨ha, hq⟩, hrt⟩
    · intro as rt hr
      obtain ⟨hgone, ⟨hnew, hrt⟩ | hr⟩ := (hroute as rt).mp hr
      · exact ⟨hrt, Or.inr (Finset.mem_sdiff.mp hnew).1⟩
      · obtain ⟨hrt, hkn | ha⟩ := hsound as rt hr
        · refine ⟨hrt, Or.inr (by_contra fun ha => ?_)⟩
          -- a remembered AS that is gone has been withdrawn
          rcases Finset.mem_insert.mp hkn with rfl | hq
          · exact ha asn_mem_current
          · exact hgone ⟨Finset.mem_sdiff.mpr ⟨hq, ha⟩, hrt⟩
        · exact ⟨hrt, Or.inr ha⟩

/-- A change of the VRFs keeps the routes in step exactly when no import RT goes of which an AS that
is yet to be withdrawn has a route. -/
theorem updateLocalRtNlris_spec
    (hk : ∀ rt ∈ m.allVrfsImportRtsSet, HasRoute sp m.events m.asn rt) (o : SetOrder) :
    (m.updateLocalRtNlris o).allVrfsImportRtsSet = importRts m.vrfs ∧
      (∀ rt ∈ importRts m.vrfs, HasRoute sp (m.updateLocalRtNlris o).events m.asn rt) ∧
      (m.Synced sp → ((m.updateLocalRtNlris o).Synced sp ↔
        ∀ as ∈ m.known, as ∉ m.current →
          ∀ rt ∈ m.allVrfsImportRtsSet, rt ∉ importRts m.vrfs → ¬ HasRoute sp m.events as rt)) := by
  obtain ⟨events, heq, hroute⟩ := updateLocalRtNlris_eq sp m o
  have hnew : ∀ as ∈ m.current, ∀ rt ∈ importRts m.vrfs,
      (rt ∈ m.allVrfsImportRtsSet → HasRoute sp m.events as rt) → HasRoute sp events as rt := by
    intro as ha rt hrt hr
    refine (hroute as rt).mpr ⟨fun h => (Finset.mem_sdiff.mp h.2).2 hrt, ?_⟩
    by_cases hq : rt ∈ m.allVrfsImportRtsSet
    · exact Or.inr (hr hq)
    · exact Or.inl ⟨ha, Finset.mem_sdiff.mpr ⟨hrt, hq⟩⟩
  rw [heq]
  refine ⟨rfl, fun rt hrt => hnew _ asn_mem_current rt hrt (hk rt), ?_⟩
  rintro ⟨hboth, hsound⟩
  constructor
  · rintro ⟨-, hsound'⟩ as - ha rt - hgone hr
    refine hgone (hsound' as rt ((hroute as rt).mpr ⟨fun h => ha h.1, Or.inr hr⟩)).1
  · intro hg
    constructor
    · exact fun as hkn ha rt hrt => hnew as ha rt hrt (hboth as hkn ha rt)
    · intro as rt hr
      obtain ⟨hgone, ⟨ha, hrt⟩ | hr⟩ := (hroute as rt).mp hr
      · exact ⟨(Finset.mem_sdiff.mp hrt).1, Or.inr ha⟩
      · obtain ⟨hrt, has⟩ := hsound as rt hr
        refine ⟨by_contra fun hn => ?_, has⟩
        by_cases ha : as ∈ m.current
        · exact hgone ⟨ha, Finset.mem_sdiff.mpr ⟨hrt, hn⟩⟩
        · exact hg as (has.resolve_right ha) ha rt hrt hn hr

theorem Kept.runHandler (h : m.Kept sp) (o : SetOrder) : (m.runHandler o).Kept sp ∧
    (m.runHandler o).handlers = m.handlers - 1 ∧
      ((m.runHandler o).Synced sp ↔ m.Synced sp) := by
  unfold RouteTargetManager.runHandler
  split_ifs with h0
  · exact ⟨h, by rw [h0], Iff.rfl⟩
  · let m' := { m with handlers := m.handlers - 1 }
    obtain ⟨hknown, hown, hs⟩ := updateRtcAsSet_spec (m := m') h.own o
    obtain ⟨events, heq, -⟩ := updateRtcAsSet_eq sp m' o
    refine ⟨⟨?_, fun _ => ?_, ?_⟩, ?_, hs.trans ⟨fun h => ⟨h.both, h.sound⟩, fun h => ⟨h.both, h.sound⟩⟩⟩
    · rw [heq]
      exact h.rts
    · rw [hknown, heq]
      rfl
    · rw [heq] at hown ⊢
      exact hown
    · rw [heq]

theorem Kept.foldl_runHandler (h : m.Kept sp) (os : List SetOrder) :
    (os.foldl RouteTargetManager.runHandler m).Kept sp ∧
      (os.foldl RouteTargetManager.runHandler m).handlers = m.handlers - os.length ∧
        ((os.foldl RouteTargetManager.runHandler m).Synced sp ↔ m.Synced sp) := by
  induction os generalizing m with
  | nil => exact ⟨h, rfl, Iff.rfl⟩
  | cons o os ih =>
    obtain ⟨hk, hn, hs⟩ := h.runHandler o
    obtain ⟨hk', hn', hs'⟩ := ih hk
    exact ⟨hk', by rw [List.foldl_cons, hn', hn, List.length_cons]; omega, hs'.trans hs⟩

theorem Kept.exactOnceRun_iff (h : m.Kept sp) : m.ExactOnceRun sp ↔ m.Synced sp := by
  have hrun : ∀ os : List SetOrder, os.length = m.handlers →
      ((os.foldl RouteTargetManager.runHandler m).RoutesExact sp ↔ m.Synced sp) := by
    intro os hl
    obtain ⟨hk, hn, hs⟩ := h.foldl_runHandler os
    rw [hl, Nat.sub_self] at hn
    exact (routesExact_iff_synced hk.rts (hk.idle hn)).trans hs
  constructor
  · intro hex
    have hl : (List.replicate m.handlers SetOrder.sorted).length = m.handlers :=
      List.length_replicate
    exact (hrun _ hl).mp (hex _ hl)
  · exact fun hs os hl => (hrun os hl).mpr hs

/-- A handler is spawned, and nothing else. -/
theorem spawnHandler_eq (m : RouteTargetManager) (rtcAs : ℕ) :
    ∃ n, m.spawnHandler rtcAs = { m with handlers := n } ∧
      (n = 0 → m.handlers = 0 ∧ rtcAs = m.asn) := by
  unfold spawnHandler
  split_ifs with h
  · exact ⟨_, rfl, fun h => absurd h (Nat.succ_ne_zero _)⟩
  · exact ⟨_, rfl, fun h0 => ⟨h0, not_not.mp h⟩⟩

theorem mem_rtcAsSet : as ∈ m.rtcAsSet ↔ ∃ ip, m.neighbors.get? ip = some as := by
  simp only [rtcAsSet, List.mem_toFinset, Dict.values, List.mem_map, Prod.exists]
  constructor
  · rintro ⟨ip, _, he, rfl⟩
    exact ⟨ip, Dict.mem_entries_iff.mp he⟩
  · rintro ⟨ip, he⟩
    exact ⟨ip, as, Dict.mem_entries_iff.mpr he, rfl⟩

theorem mem_current : as ∈ m.current ↔ as = m.asn ∨ as ∈ m.rtcAsSet := Finset.mem_insert

/-- A neighbor joins or leaves, and a handler is spawned where the announced AS numbers change. -/
theorem Kept.neighbors (h : m.Kept sp) {m' : RouteTargetManager} {d : Dict String ℕ} {n : ℕ}
    (hm' : m' = { m with neighbors := d, handlers := n })
    (hn : n = 0 → m.handlers = 0 ∧ m'.current = m.current) : m'.Kept sp := by
  constructor
  · rw [hm']
    exact h.rts
  · intro h0
    rw [hm'] at h0
    obtain ⟨h0, hc⟩ := hn h0
    rw [hc, ← h.idle h0, hm']
    rfl
  · rw [hm']
    exact h.own

theorem mem_current_set {ip : String} (hip : ip ∉ m.neighbors.keys) (rtcAs n as : ℕ) :
    as ∈ ({ m with neighbors := m.neighbors.set ip rtcAs, handlers := n } :
      RouteTargetManager).current ↔ as = rtcAs ∨ as ∈ m.current := by
  have hnone : m.neighbors.get? ip = none := by
    simpa [Dict.mem_keys_iff] using hip
  simp only [mem_current, mem_rtcAsSet, Dict.get?_set]
  constructor
  · rintro (rfl | ⟨ip', h⟩)
    · exact Or.inr (Or.inl rfl)
    · split_ifs at h with he
      · exact Or.inl (Option.some.inj h).symm
      · exact Or.inr (Or.inr ⟨ip', h⟩)
  · rintro (rfl | rfl | ⟨ip', h⟩)
    · exact Or.inr ⟨ip, by simp⟩
    · exact Or.inl rfl
    · refine Or.inr ⟨ip', ?_⟩
      rw [if_neg, h]
      rintro rfl
      cases hnone.symm.trans h

theorem Kept.addNeighbor (h : m.Kept sp) (ip : String) (rtcAs : ℕ) :
    (m.addNeighbor ip rtcAs).Kept sp ∧
      (m.Synced sp → ((m.addNeighbor ip rtcAs).Synced sp ↔ m.InStep sp (.addNeighbor ip rtcAs))) := by
  unfold RouteTargetManager.addNeighbor
  split_ifs with hip
  · exact ⟨h, fun hs => ⟨fun _ hn => absurd hip hn, fun _ => hs⟩⟩
  · obtain ⟨n, heq, hn⟩ :=
      spawnHandler_eq { m with neighbors := m.neighbors.set ip rtcAs } rtcAs
    have hcur := mem_current_set hip rtcAs n
    rw [heq]
    refine ⟨h.neighbors rfl fun h0 => ⟨(hn h0).1, ?_⟩, ?_⟩
    · ext as
      rw [hcur, (hn h0).2]
      exact ⟨fun ha => ha.elim (fun ha => ha ▸ asn_mem_current) id, Or.inr⟩
    · rintro ⟨hboth, hsound⟩
      constructor
      · rintro ⟨hboth', -⟩ - hk -
        exact hboth' rtcAs hk ((hcur _).mpr (Or.inl rfl))
      · intro hg
        constructor
        · intro as hk ha
          by_cases hc : as ∈ m.current
          · exact hboth as hk hc
          · obtain rfl := ((hcur as).mp ha).resolve_right hc
            exact hg hip hk hc
        · intro as rt hr
          obtain ⟨hrt, hk | ha⟩ := hsound as rt hr
          · exact ⟨hrt, Or.inl hk⟩
          · exact ⟨hrt, Or.inr ((hcur as).mpr (Or.inr ha))⟩

theorem mem_current_erase {ip : String} {rtcAs : ℕ} (hip : m.neighbors.get? ip = some rtcAs)
    (n as : ℕ) :
    (as ∈ ({ m with neighbors := m.neighbors.erase ip, handlers := n } :
      RouteTargetManager).current → as ∈ m.current) ∧
    (as ∈ m.current → as ≠ rtcAs → as ∈ ({ m with
      neighbors := m.neighbors.erase ip, handlers := n } : RouteTargetManager).current) := by
  simp only [mem_current, mem_rtcAsSet, Dict.get?_erase]
  constructor
  · rintro (rfl | ⟨ip', h⟩)
    · exact Or.inl rfl
    · split_ifs at h
      exact Or.inr ⟨ip', h⟩
  · rintro (rfl | ⟨ip', h⟩) hne
    · exact Or.inl rfl
    · refine Or.inr ⟨ip', ?_⟩
      rw [if_neg, h]
      rintro rfl
      exact hne (Option.some.inj (h.symm.trans hip))

theorem Kept.removeNeighbor (h : m.Kept sp) (ip : String) : (m.removeNeighbor ip).Kept sp ∧
    (m.Synced sp → ((m.removeNeighbor ip).Synced sp ↔ m.InStep sp (.removeNeighbor ip))) := by
  cases hip : m.neighbors.get? ip with
  | none =>
    have heq : m.removeNeighbor ip = m := by simp [RouteTargetManager.removeNeighbor, hip]
    rw [heq]
    refine ⟨h, fun hs => ⟨fun _ rtcAs hr => ?_, fun _ => hs⟩⟩
    cases hip.symm.trans hr
  | some rtcAs =>
    obtain ⟨n, heq, hn⟩ := spawnHandler_eq { m with neighbors := m.neighbors.erase ip } rtcAs
    have heq : m.removeNeighbor ip =
        { m with neighbors := m.neighbors.erase ip, handlers := n } := by
      simp only [RouteTargetManager.removeNeighbor, hip, heq]
    have hcur := mem_current_erase hip n
    simp only [InStep, hip, Option.some.injEq, forall_eq']
    rw [heq]
    refine ⟨h.neighbors rfl fun h0 => ⟨(hn h0).1, ?_⟩, ?_⟩
    · ext as
      refine ⟨(hcur as).1, fun ha => ?_⟩
      by_cases hne : as = rtcAs
      · rw [hne, (hn h0).2]
        exact asn_mem_current
      · exact (hcur as).2 ha hne
    · rintro ⟨hboth, hsound⟩
      constructor
      · rintro ⟨-, hsound'⟩ hc hk rt hr
        exact (hsound' rtcAs rt hr).2.elim hk hc
      · intro hg
        constructor
        · exact fun as hk ha => hboth as hk ((hcur as).1 ha)
        · intro as rt hr
          obtain ⟨hrt, has⟩ := hsound as rt hr
          refine ⟨hrt, ?_⟩
          by_contra hn
          obtain ⟨hk, hc⟩ := not_or.mp hn
          have hne : as = rtcAs := by
            by_contra hne
            exact hc ((hcur as).2 (has.resolve_left hk) hne)
          subst hne
          exact hg hc hk rt hr

/-- The guard of an input that leaves the VRFs `vrfs`. -/
def KeepsRts (sp : Speaker) (m : RouteTargetManager) (vrfs : Dict (String × String) RtVrfConf) :
    Prop :=
  ∀ as ∈ m.known, as ∉ m.current →
    ∀ rt ∈ m.allVrfsImportRtsSet, rt ∉ importRts vrfs → ¬ HasRoute sp m.events as rt

theorem vrfs_updateLocalRtNlris (m : RouteTargetManager) (o : SetOrder) :
    (m.updateLocalRtNlris o).vrfs = m.vrfs := by
  obtain ⟨events, heq, -⟩ := updateLocalRtNlris_eq ⟨0, fun _ => ⟨0, none⟩⟩ m o
  rw [heq]

theorem Kept.changeVrfs (h : m.Kept sp) (vrfs : Dict (String × String) RtVrfConf) (o : SetOrder) :
    ({ m with vrfs := vrfs }.updateLocalRtNlris o).Kept sp ∧
      (m.Synced sp →
        (({ m with vrfs := vrfs }.updateLocalRtNlris o).Synced sp ↔ m.KeepsRts sp vrfs)) := by
  obtain ⟨hrts, hown, hs⟩ := updateLocalRtNlris_spec (m := { m with vrfs := vrfs }) h.own o
  obtain ⟨events, heq, -⟩ := updateLocalRtNlris_eq sp { m with vrfs := vrfs } o
  refine ⟨⟨?_, ?_, ?_⟩, fun h => hs ⟨h.both, h.sound⟩⟩
  · rw [hrts, vrfs_updateLocalRtNlris]
  · rw [heq]
    exact h.idle
  · rw [heq] at hown ⊢
    exact hown

theorem Kept.keepsRts (h : m.Kept sp) : m.KeepsRts sp m.vrfs := by
  rintro as - - rt hrt hn
  exact absurd (h.rts ▸ hrt) hn

/-- An input that is refused. -/
theorem Kept.refused (h : m.Kept sp) :
    m.Kept sp ∧ (m.Synced sp → (m.Synced sp ↔ m.KeepsRts sp m.vrfs)) :=
  ⟨h, fun hs => iff_of_true hs h.keepsRts⟩

/-- With no change of the VRFs there is nothing to announce. -/
theorem updateLocalRtNlris_of_eq (h : m.allVrfsImportRtsSet = importRts m.vrfs) (o : SetOrder) :
    m.updateLocalRtNlris o = m := by
  have hnil : o.rts ∅ = [] :=
    List.eq_nil_iff_forall_not_mem.mpr fun rt => by simp [o.mem_rts]
  simp [updateLocalRtNlris, ← h, hnil]

theorem Kept.removeVrfs (h : m.Kept sp) {vrfs : Dict (String × String) RtVrfConf}
    {removed : List (String × String)} (hv : removed = [] → vrfs = m.vrfs) (o : SetOrder) :
    (removed.foldl (fun m _ => updateLocalRtNlris m o) { m with vrfs := vrfs }).Kept sp ∧
      (m.Synced sp →
        ((removed.foldl (fun m _ => updateLocalRtNlris m o) { m with vrfs := vrfs }).Synced sp ↔
          m.KeepsRts sp vrfs)) := by
  cases removed with
  | nil =>
    rw [hv rfl]
    exact h.refused
  | cons r removed =>
    clear hv
    have hc := h.changeVrfs vrfs o
    have hlast : removed.foldl (fun m _ => m.updateLocalRtNlris o)
        ({ m with vrfs := vrfs }.updateLocalRtNlris o) =
          { m with vrfs := vrfs }.updateLocalRtNlris o := by
      induction removed with
      | nil => rfl
      | cons r removed ih =>
        rw [List.foldl_cons, updateLocalRtNlris_of_eq hc.1.rts, ih]
    rw [List.foldl_cons, hlast]
    exact hc

theorem vrfs_foldl_updateLocalRtNlris (o : SetOrder) (removed : List (String × String))
    (m : RouteTargetManager) :
    (removed.foldl (fun m _ => m.updateLocalRtNlris o) m).vrfs = m.vrfs := by
  induction removed generalizing m with
  | nil => rfl
  | cons r removed ih => rw [List.foldl_cons, ih, vrfs_updateLocalRtNlris]

/-- What one input does. -/
theorem Kept.step (h : m.Kept sp) (i : Input) :
    (m.step i).Kept sp ∧ (m.Synced sp → ((m.step i).Synced sp ↔ m.InStep sp i)) := by
  cases i with
  | addNeighbor ip rtcAs => exact h.addNeighbor ip rtcAs
  | removeNeighbor ip => exact h.removeNeighbor ip
  | addVrf rdRfId conf o =>
    change (m.addVrf rdRfId conf o).Kept sp ∧
      (_ → ((m.addVrf rdRfId conf o).Synced sp ↔ m.KeepsRts sp (m.addVrf rdRfId conf o).vrfs))
    unfold addVrf
    split_ifs
    · exact h.refused
    · rw [vrfs_updateLocalRtNlris]
      exact h.changeVrfs _ o
  | changeVrf rdRfId importRts o =>
    change (m.changeVrf rdRfId importRts o).Kept sp ∧ (_ →
      ((m.changeVrf rdRfId importRts o).Synced sp ↔
        m.KeepsRts sp (m.changeVrf rdRfId importRts o).vrfs))
    unfold changeVrf
    cases m.vrfs.get? rdRfId with
    | none => exact h.refused
    | some conf =>
      dsimp only
      rw [vrfs_updateLocalRtNlris]
      exact h.changeVrfs _ o
  | removeVrf routeDist o =>
    change (m.removeVrf routeDist o).Kept sp ∧ (_ →
      ((m.removeVrf routeDist o).Synced sp ↔ m.KeepsRts sp (m.removeVrf routeDist o).vrfs))
    dsimp only [removeVrf]
    rw [vrfs_foldl_updateLocalRtNlris]
    apply h.removeVrfs
    intro hr
    rw [hr]
    rfl
  | runHandler o =>
    obtain ⟨hk, -, hs⟩ := h.runHandler o
    exact ⟨hk, fun h => ⟨fun _ => trivial, fun _ => hs.mpr h⟩⟩

end Steps

theorem kept_init (sp : Speaker) (asn : ℕ) : (init asn).Kept sp :=
  ⟨rfl, fun _ => rfl, fun _ hrt => absurd hrt (Finset.notMem_empty _)⟩

theorem synced_init (sp : Speaker) (asn : ℕ) : (init asn).Synced sp :=
  ⟨fun _ _ _ _ hrt => absurd hrt (Finset.notMem_empty _), fun _ _ hr => absurd hr not_hasRoute_nil⟩

end RouteTargetManager

end Ryu.Bgp
