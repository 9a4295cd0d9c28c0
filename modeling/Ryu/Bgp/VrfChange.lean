import Ryu.Bgp.VrfImport

/-! # Changes of a VRF's configuration

A change of the configuration queues paths for a destination of the VRF table: its local paths
again, withdrawals of what is not wanted any more, and imports of what is wanted now. It queues
something for every id for which the known path is not the one wanted. What is queued is resolved
by id when the destination is processed, so a processed destination is right exactly if what it had
queued was.
-/

namespace Ryu.Bgp

/-- `VrfNlriImportMap` and `VrfRtImportMap`. -/
inductive ImportMap
  | nlri (ipPfx : String)
  | rt (target : String)
  deriving DecidableEq, Repr

/-- `match`. -/
def ImportMap.isMatch : ImportMap → VrfPath → Bool
  | .nlri ipPfx, vrfPath => vrfPath.nlri.tableKey = ipPfx
  | .rt target, vrfPath => target ∈ vrfPath.attrs.routeTargets

/-- The settings of a VRF that an update can change, import maps by name. -/
structure VrfSettings where
  importRts : List String
  exportRts : List String
  sooList : List String
  multiExitDisc : Option ℕ
  importMaps : List String
  deriving DecidableEq, Repr

/-- The best path of a VPN destination of a prefix. Attribute objects do not change, so they tell
the route targets, and a path that was received has an ORIGIN and an AS_PATH object at least. -/
structure BestPath (rtsOf : List ℕ → List String) (ip : String) where
  path : VpnPath
  ip_eq : path.nlri.ip = ip
  announced : path.isWithdraw = false
  rts_eq : path.attrs.routeTargets = rtsOf path.attrObjs
  objs_ne : path.attrObjs ≠ []
  received : path.source ≠ .nc → 2 ≤ path.attrObjs.length

theorem BestPath.eq_iff {rtsOf : List ℕ → List String} {ip : String} {a b : BestPath rtsOf ip} :
    a = b ↔ a.path = b.path := by
  constructor
  · rintro rfl
    rfl
  · intro h
    cases a
    cases b
    cases h
    rfl

instance (rtsOf : List ℕ → List String) (ip : String) : DecidableEq (BestPath rtsOf ip) :=
  fun _ _ => decidable_of_iff _ BestPath.eq_iff.symm

/-- A VRF, one prefix of it, and the best paths that VPN destinations of the prefix have, by route
distinguisher. -/
structure VrfRun (rtsOf : List ℕ → List String) (ip : String) where
  settings : VrfSettings
  announced : Bool
  best : Dict String (BestPath rtsOf ip)
  entry : VrfEntry
  made : ℕ
  raised : Bool

/-- A local path is announced or withdrawn, the best path of a VPN destination is replaced or lost,
an update of the settings is successful, and the destination is processed. -/
inductive VrfRunEvent (rtsOf : List ℕ → List String) (ip : String)
  | announce (nexthop : String) (labelList : List ℕ)
  | withdraw
  | newBest (b : BestPath rtsOf ip)
  | lost (routeDist : String)
  | update (settings : VrfSettings)
  | process (sp : Speaker)

/-- The lists do not have the same elements. -/
def differ (l l' : List String) : Bool := l.any (· ∉ l') || l'.any (· ∉ l)

/-- `_update_import_rts`: the import route targets that are new, if any was changed. -/
def VrfSettings.newImpRts (old new : VrfSettings) : Option (List String) :=
  if differ old.importRts new.importRts then some (new.importRts.filter (· ∉ old.importRts))
  else none

def VrfSettings.reExport (old new : VrfSettings) : Bool :=
  differ old.exportRts new.exportRts || differ old.sooList new.sooList ||
    decide (old.multiExitDisc ≠ new.multiExitDisc)

def VrfSettings.reImport (old new : VrfSettings) : Bool := differ old.importMaps new.importMaps

/-- `has_rts_in`: every path has the default route target. -/
def VrfPath.hasRtsIn (p : VrfPath) (interestedRts : List String) : Bool :=
  (p.attrs.routeTargets ++ ["0:0"]).any (· ∈ interestedRts)

/-- `clone(for_withdrawal=True)`. -/
def VrfPath.withdrawal (p : VrfPath) (index : ℕ) : VrfPath :=
  { p with index := index, attrs := noAttrs, attrObjs := [], isWithdraw := true }

/-- Paths are inserted one after the other. -/
def VrfDest.addAll (d : VrfDest) (paths : List VrfPath) : VrfDest := paths.foldl VrfDest.add d

/-- A destination waits when something was inserted. -/
def VrfEntry.addAll (e : VrfEntry) (paths : List VrfPath) : VrfEntry :=
  ⟨e.dest.addAll paths, e.waits || !paths.isEmpty⟩

section Model

variable (v : VrfScope) (importMap : String → ImportMap)

/-- The settings as they bear on imports. -/
def VrfSettings.conf (c : VrfSettings) : VrfConf :=
  ⟨v.routeDist, c.importRts, c.importMaps.map fun name => (importMap name).isMatch⟩

/-- The path of `insert_vrf_path` for a known local path; the next hop has its label. -/
def VrfScope.reinstalled (c : VrfSettings) (p : VrfPath) (index : ℕ) : VrfPath :=
  { v.localPath index c.exportRts c.multiExitDisc "" p.labelList with nexthop := p.nexthop }

variable {rtsOf : List ℕ → List String} {ip : String}

/-- What `on_chg_vrf_conf` inserts, each with the number of the new path object:
`re_install_net_ctrl_paths`, `clean_uninteresting_paths`, `apply_import_maps` and
`import_vpn_paths_from_table`. -/
def VrfRun.onChgVrfConf (s : VrfRun rtsOf ip) (new : VrfSettings) : List (ℕ → VrfPath) :=
  let known := s.entry.dest.knownPathList
  let conf := new.conf v importMap
  let importRts :=
    if s.settings.reImport new then new.importRts
    else (s.settings.newImpRts new).getD new.importRts
  (if s.settings.reExport new then (known.filter VrfPath.isLocal).map (v.reinstalled new) else []) ++
    (known.filter fun p => !p.hasRtsIn new.importRts).map VrfPath.withdrawal ++
    (conf.importMaps.flatMap fun isMatch => known.filter isMatch).map VrfPath.withdrawal ++
    (s.best.values.filter fun b =>
      (b.path.attrs.routeTargets.any (· ∈ importRts)) &&
        !s.entry.dest.alreadyKnown (b.path.toVrf v.routeFamily 0) &&
          !conf.filteredOut (b.path.toVrf v.routeFamily 0)).map
      fun b index => b.path.toVrf v.routeFamily index

/-- `VrfConf.update`, with the handler of the change. -/
def VrfRun.update (s : VrfRun rtsOf ip) (new : VrfSettings) : VrfRun rtsOf ip :=
  if (s.settings.newImpRts new).isSome || s.settings.reExport new || s.settings.reImport new then
    let queued := (s.onChgVrfConf v importMap new).mapIdx fun i path => path (s.made + i)
    { s with
      settings := new
      entry := s.entry.addAll queued
      made := s.made + queued.length }
  else { s with settings := new }

/-- `import_single_vpn_path_to_all_vrfs`, for the VRF. -/
def VrfRun.importSingle (s : VrfRun rtsOf ip) (path : VpnPath) (pathRts : List String) :
    VrfRun rtsOf ip :=
  let conf := s.settings.conf v importMap
  { s with
    entry :=
      if conf.qualifies path pathRts then s.entry.importVpnPath conf v.routeFamily s.made path
      else s.entry
    made := s.made + 1 }

def vrfRunStep (s : VrfRun rtsOf ip) : VrfRunEvent rtsOf ip → VrfRun rtsOf ip
  | .announce nexthop labelList =>
    { s with
      announced := true
      entry := s.entry.addAll [v.localPath s.made s.settings.exportRts s.settings.multiExitDisc
        nexthop labelList]
      made := s.made + 1 }
  | .withdraw =>
    { s with
      announced := false
      entry := s.entry.addAll [v.localWithdrawal s.made]
      made := s.made + 1 }
  | .newBest b =>
    let routeDist := b.path.nlri.routeDist
    if s.raised ∨ s.best.get? routeDist = some b then s
    else
      VrfRun.importSingle v importMap { s with best := s.best.set routeDist b } b.path
        b.path.attrs.routeTargets
  | .lost routeDist =>
    match s.raised, s.best.get? routeDist with
    | false, some old =>
      VrfRun.importSingle v importMap { s with best := s.best.erase routeDist }
        old.path.withdrawal old.path.attrs.routeTargets
    | _, _ => s
  | .update settings => s.update v importMap settings
  | .process sp =>
    if s.raised ∨ s.entry.waits = false then s
    else
      match s.entry.dest.processBest sp with
      | (.error _, d) => { s with entry := ⟨d, false⟩, raised := true }
      | (.ok _, d) => { s with entry := ⟨d.removeEmpty, false⟩ }

def VrfRun.init (settings : VrfSettings) : VrfRun rtsOf ip :=
  ⟨settings, false, .empty, ⟨.init, false⟩, 0, false⟩

/-- The VRF imports the best path: it has a route target in common, no import map matches it, and
it is not the VRF's own export. -/
def VrfSettings.wants (c : VrfSettings) (b : BestPath rtsOf ip) : Bool :=
  (c.conf v importMap).qualifies b.path b.path.attrs.routeTargets &&
    !(c.conf v importMap).filteredOut (b.path.toVrf v.routeFamily 0)

/-- The local path is wanted at a route distinguisher. -/
def VrfRun.localAt (s : VrfRun rtsOf ip) (routeDist : String) : Bool :=
  s.announced && decide (routeDist = v.routeDist)

/-- The copy that is wanted at a route distinguisher. -/
def VrfRun.copyAt (s : VrfRun rtsOf ip) (routeDist : String) : Option VrfPath :=
  ((s.best.get? routeDist).filter (s.settings.wants v importMap)).map
    fun b => b.path.toVrf v.routeFamily 0

end Model

/-- The paths of an id are the local path or the copy that is wanted, and nothing else. -/
def Holds (loc : Bool) (copy : Option VrfPath) : List VrfPath → Prop
  | [] => loc = false ∧ copy = none
  | [p] => if p.isLocal then loc = true ∧ copy = none else loc = false ∧ ∃ c ∈ copy, p.Alike c
  | _ => False

instance (loc : Bool) (copy : Option VrfPath) : (l : List VrfPath) → Decidable (Holds loc copy l)
  | [] => inferInstanceAs (Decidable (_ ∧ _))
  | [p] => inferInstanceAs (Decidable (if p.isLocal then loc = true ∧ copy = none
      else loc = false ∧ ∃ c ∈ copy, p.Alike c))
  | _ :: _ :: _ => isFalse id

/-- No id has two paths, and what is known of an id for which nothing is queued is what is
wanted. -/
structure RightEntry (loc : Bool) (copy : Option VrfPath) (e : VrfEntry) (puid : String) :
    Prop where
  one : (e.ofId puid).length ≤ 1
  right : e.Settled puid → Holds loc copy (e.ofId puid)

/-- What is queued of an id is one path at most, which is the one wanted, or withdrawals where
nothing is wanted. -/
structure QueuedRight (loc : Bool) (copy : Option VrfPath) (e : VrfEntry) (puid : String) :
    Prop where
  one : (e.newOfId puid).length ≤ 1
  new : ∀ p, e.newOfId puid = [p] → Holds loc copy [p]
  withdrawn : e.newOfId puid = [] → e.Withdrawn puid → loc = false ∧ copy = none

section Right

variable (v : VrfScope) (importMap : String → ImportMap) {rtsOf : List ℕ → List String}

/-- The destination has the local path if it is announced, and copies of the best paths that the
VRF imports, as far as it is processed. -/
def VrfRun.Right (s : VrfRun rtsOf v.ip) : Prop :=
  s.raised = false → ∀ routeDist, RightEntry (s.localAt v routeDist)
    (s.copyAt v importMap routeDist) s.entry (createPuid routeDist v.ip)

/-- No new best path that is not wanted replaces one of which a copy is held; no path is held for
the default route target alone; and processing finds queued what is wanted. -/
def VrfRunInTurn (s : VrfRun rtsOf v.ip) : VrfRunEvent rtsOf v.ip → Prop
  | .newBest b => s.raised = false → s.best.get? b.path.nlri.routeDist ≠ some b →
      s.settings.wants v importMap b = false →
        s.entry.Settled (createPuid b.path.nlri.routeDist v.ip) →
          ∀ p ∈ s.entry.ofId (createPuid b.path.nlri.routeDist v.ip), p.isLocal
  | .update settings => s.raised = false → "0:0" ∈ settings.importRts →
      ∀ p ∈ s.entry.dest.knownPathList, p.isLocal = false → s.entry.Settled p.puid →
        p.attrs.routeTargets.any (· ∈ settings.importRts) ∨
          (settings.conf v importMap).filteredOut p
  | .process sp => s.raised = false → s.entry.waits → ∀ L, s.entry.dest.merged = .ok L →
      (selected sp L).isOk → ∀ routeDist, QueuedRight (s.localAt v routeDist)
        (s.copyAt v importMap routeDist) s.entry (createPuid routeDist v.ip)
  | _ => True

end Right

section Queue

variable {d : VrfDest} {e : VrfEntry} {ps : List VrfPath} {q : String} {loc loc' : Bool}
  {copy copy' : Option VrfPath}

theorem addAll_dest (d : VrfDest) (ps : List VrfPath) :
    (d.addAll ps).knownPathList = d.knownPathList ∧
      (d.addAll ps).newPathList = d.newPathList ++ ps.filter (fun p => !p.isWithdraw) ∧
      (d.addAll ps).withdrawList = d.withdrawList ++ ps.filter fun p => p.isWithdraw := by
  unfold VrfDest.addAll
  induction ps generalizing d with
  | nil => simp
  | cons p ps ih =>
    obtain ⟨hk, hn, hw⟩ := ih (d.add p)
    rw [List.foldl_cons, hk, hn, hw]
    unfold VrfDest.add
    cases hp : p.isWithdraw <;> simp [hp]

theorem ofId_addAll (e : VrfEntry) (ps : List VrfPath) (q : String) :
    (e.addAll ps).ofId q = e.ofId q := by
  have hk := (addAll_dest e.dest ps).1
  unfold VrfEntry.ofId VrfEntry.addAll
  dsimp only
  rw [hk]

/-- An id is settled after an insertion if it was before and nothing of it was inserted. -/
theorem settled_addAll (h : (e.addAll ps).Settled q) :
    e.Settled q ∧ ∀ p ∈ ps, p.puid ≠ q := by
  obtain ⟨-, hn, hw⟩ := addAll_dest e.dest ps
  rcases ps with _ | ⟨p, ps⟩
  · refine ⟨?_, by simp⟩
    rcases h with h | h
    · exact Or.inl (by simpa [VrfEntry.addAll] using h)
    · exact Or.inr h
  · rcases h with h | ⟨hnew, hwd⟩
    · simp [VrfEntry.addAll] at h
    · unfold VrfEntry.newOfId VrfEntry.addAll at hnew
      unfold VrfEntry.Withdrawn VrfEntry.addAll at hwd
      rw [hn, ofPuid_append, List.append_eq_nil_iff] at hnew
      rw [hw, List.map_append, List.mem_append, not_or] at hwd
      refine ⟨Or.inr ⟨hnew.1, hwd.1⟩, fun x hx hxq => ?_⟩
      cases hxw : x.isWithdraw with
      | false =>
        have hmem : x ∈ ofPuid ((p :: ps).filter fun p => !p.isWithdraw) q :=
          List.mem_filter.mpr ⟨List.mem_filter.mpr ⟨hx, by simp [hxw]⟩, by simpa using hxq⟩
        rw [hnew.2] at hmem
        cases hmem
      | true =>
        exact hwd.2 (List.mem_map.mpr ⟨x, List.mem_filter.mpr ⟨hx, hxw⟩, hxq⟩)

/-- An insertion leaves right what it leaves settled. -/
theorem RightEntry.addAll (h : RightEntry loc copy e q)
    (hs : e.Settled q → (∀ p ∈ ps, p.puid ≠ q) → Holds loc copy (e.ofId q) →
      Holds loc' copy' (e.ofId q)) : RightEntry loc' copy' (e.addAll ps) q := by
  constructor
  · rw [ofId_addAll]
    exact h.one
  · intro hset
    obtain ⟨he, hne⟩ := settled_addAll hset
    rw [ofId_addAll]
    exact hs he hne (h.right he)

theorem holds_of_local {p : VrfPath} (hp : p.isLocal = true) :
    Holds loc copy [p] ↔ loc = true ∧ copy = none := by
  rw [Holds, if_pos hp]

theorem holds_of_copy {p : VrfPath} (hp : p.isLocal = false) :
    Holds loc copy [p] ↔ loc = false ∧ ∃ c ∈ copy, p.Alike c := by
  rw [Holds, if_neg (by simp [hp])]

/-- A run of the destination leaves an id right exactly if what it had queued was. -/
theorem RightEntry.processed_iff (h : RightEntry loc copy e q) {L : List VrfPath}
    (hm : e.dest.merged = .ok L) (hd : d.knownPathList = L) :
    RightEntry loc copy ⟨d, false⟩ q ↔ QueuedRight loc copy e q := by
  have hofId : (⟨d, false⟩ : VrfEntry).ofId q = ofPuid L q := by
    rw [VrfEntry.ofId, hd]
  have hright : RightEntry loc copy ⟨d, false⟩ q ↔
      (ofPuid L q).length ≤ 1 ∧ Holds loc copy (ofPuid L q) := by
    rw [← hofId]
    exact ⟨fun h' => ⟨h'.one, h'.right (Or.inl rfl)⟩, fun h' => ⟨h'.1, fun _ => h'.2⟩⟩
  have hof := ofPuid_merged hm h.one
  rw [hright]
  rcases hn : e.newOfId q with _ | ⟨x, _ | ⟨y, l⟩⟩
  · have hn' : ofPuid e.dest.newPathList q = [] := hn
    rw [hn', List.length_nil, List.drop_zero, List.append_nil] at hof
    by_cases hw : q ∈ e.dest.withdrawList.map VrfPath.puid
    · rw [if_pos hw] at hof
      rw [hof]
      constructor
      · rintro ⟨-, hh⟩
        exact ⟨by simp [hn], fun p hp => by simp [hn] at hp, fun _ _ => hh⟩
      · intro hq
        exact ⟨Nat.zero_le _, hq.withdrawn hn hw⟩
    · rw [if_neg hw] at hof
      rw [hof]
      refine iff_of_true ⟨h.one, h.right (Or.inr ⟨hn, hw⟩)⟩ ?_
      exact ⟨by simp [hn], fun p hp => by simp [hn] at hp, fun _ hw' => absurd hw' hw⟩
  · have hn' : ofPuid e.dest.newPathList q = [x] := hn
    have hnil : (if q ∈ e.dest.withdrawList.map VrfPath.puid then []
        else ofPuid e.dest.knownPathList q).drop [x].length = [] := by
      rw [List.drop_eq_nil_iff]
      split_ifs
      · exact Nat.zero_le _
      · exact h.one
    rw [hn', hnil, List.nil_append] at hof
    rw [hof]
    constructor
    · rintro ⟨-, hh⟩
      refine ⟨by simp [hn], fun p hp => ?_, fun hx => by simp [hn] at hx⟩
      rw [hn] at hp
      obtain rfl := (List.cons.inj hp).1
      exact hh
    · exact fun hq => ⟨le_rfl, hq.new x hn⟩
  · have hn' : ofPuid e.dest.newPathList q = x :: y :: l := hn
    rw [hn'] at hof
    constructor
    · rintro ⟨h1, -⟩
      rw [hof, List.length_append, List.length_cons, List.length_cons] at h1
      omega
    · intro hq
      have := hq.one
      rw [hn] at this
      simp at this

end Queue

section Wanted

variable {v : VrfScope} {importMap : String → ImportMap} {rtsOf : List ℕ → List String}
  {c : VrfSettings} {b : BestPath rtsOf v.ip} {x y : VrfPath} {k : List VrfPath} {loc : Bool}
  {copy : Option VrfPath}

theorem createPuid_inj {rd rd' ip : String} (h : createPuid rd ip = createPuid rd' ip) :
    rd = rd' := by
  simpa [createPuid] using h

theorem puid_toVrf_best (b : BestPath rtsOf v.ip) (n : ℕ) :
    (b.path.toVrf v.routeFamily n).puid = createPuid b.path.nlri.routeDist v.ip := by
  rw [VpnPath.toVrf, VpnNlri.puid, b.ip_eq]

theorem isLocal_toVrf (path : VpnPath) (rf : RouteFamily) (n : ℕ) :
    (path.toVrf rf n).isLocal = false := by
  unfold VpnPath.toVrf VrfPath.isLocal
  split_ifs with h
  · rfl
  · simpa using h

/-- A path of the VRF table: local paths have the id of the VRF and one number for their attribute
objects, and the objects of a copy tell its route targets. -/
structure OfTable (v : VrfScope) (rtsOf : List ℕ → List String) (p : VrfPath) : Prop where
  tableKey : p.nlri.tableKey = v.ip
  ofLocal : p.isLocal = true → p.puid = v.puid ∧ p.attrObjs.length = 1
  ofCopy : p.isLocal = false → p.attrObjs ≠ [] ∧ p.attrs.routeTargets = rtsOf p.attrObjs

theorem ofTable_toVrf (b : BestPath rtsOf v.ip) (n : ℕ) :
    OfTable v rtsOf (b.path.toVrf v.routeFamily n) := by
  refine ⟨b.ip_eq, fun h => ?_, fun _ => ⟨b.objs_ne, b.rts_eq⟩⟩
  rw [isLocal_toVrf] at h
  cases h

theorem OfTable.attrObjs_ne (h : OfTable v rtsOf x) : x.attrObjs ≠ [] := by
  cases hl : x.isLocal with
  | false => exact (h.ofCopy hl).1
  | true =>
    intro hnil
    have := (h.ofLocal hl).2
    simp [hnil] at this

theorem wants_iff : c.wants v importMap b ↔
    (∃ rt ∈ b.path.attrs.routeTargets, rt ∈ c.importRts) ∧
      (b.path.source ≠ .nc ∨ b.path.nlri.routeDist ≠ v.routeDist) ∧
        ∀ name ∈ c.importMaps, (importMap name).isMatch (b.path.toVrf v.routeFamily 0) = false := by
  unfold VrfSettings.wants VrfConf.qualifies VrfConf.interested VrfConf.filteredOut
    VrfSettings.conf
  simp [and_assoc]

/-- A path like the copy that the VRF wants is no local path. -/
theorem isLocal_of_alike (hx : OfTable v rtsOf x) (hw : c.wants v importMap b)
    (ha : x.Alike (b.path.toVrf v.routeFamily 0)) : x.isLocal = false := by
  by_contra hl
  obtain ⟨hpuid, hlen⟩ := hx.ofLocal (by simpa using hl)
  have hobjs : x.attrObjs = b.path.attrObjs := congrArg (fun c => c.2.2.2.2) ha
  have hrd : b.path.nlri.routeDist = v.routeDist := by
    have hq := ha.puid_eq
    rw [hpuid, puid_toVrf_best] at hq
    exact (createPuid_inj hq).symm
  rcases (wants_iff.1 hw).2.1 with hs | hs
  · have := b.received hs
    rw [← hobjs] at this
    omega
  · exact hs hrd

theorem routeTargets_of_alike (hx : OfTable v rtsOf x) (hl : x.isLocal = false)
    (ha : x.Alike (b.path.toVrf v.routeFamily 0)) :
    x.attrs.routeTargets = b.path.attrs.routeTargets := by
  have hobjs : x.attrObjs = b.path.attrObjs := congrArg (fun c => c.2.2.2.2) ha
  rw [(hx.ofCopy hl).2, hobjs, b.rts_eq]

/-- Import maps do not tell two paths of the prefix with the same route targets apart. -/
theorem isMatch_congr (m : ImportMap) (hk : x.nlri.tableKey = y.nlri.tableKey)
    (hr : x.attrs.routeTargets = y.attrs.routeTargets) : m.isMatch x = m.isMatch y := by
  cases m with
  | nlri ipPfx => rw [ImportMap.isMatch, ImportMap.isMatch, hk]
  | rt target => rw [ImportMap.isMatch, ImportMap.isMatch, hr]

theorem filteredOut_congr (v : VrfScope) (importMap : String → ImportMap) (c : VrfSettings)
    (hk : x.nlri.tableKey = y.nlri.tableKey)
    (hr : x.attrs.routeTargets = y.attrs.routeTargets) :
    (c.conf v importMap).filteredOut x = (c.conf v importMap).filteredOut y := by
  unfold VrfConf.filteredOut VrfSettings.conf
  rw [List.any_map, List.any_map]
  congr 1
  funext name
  exact isMatch_congr (importMap name) hk hr

theorem filteredOut_eq_false (c : VrfSettings) : (c.conf v importMap).filteredOut x = false ↔
    ∀ name ∈ c.importMaps, (importMap name).isMatch x = false := by
  simp [VrfConf.filteredOut, VrfSettings.conf]

/-- A withdrawal is filtered out only with the path. -/
theorem isMatch_withdrawal {m : ImportMap} {n n' : ℕ}
    (h : m.isMatch (b.path.withdrawal.toVrf v.routeFamily n) = true) :
    m.isMatch (b.path.toVrf v.routeFamily n') = true := by
  cases m with
  | nlri ipPfx => exact h
  | rt target => simp [ImportMap.isMatch, VpnPath.toVrf, VpnPath.withdrawal, noAttrs] at h

theorem holds_none_of_local (h : Holds loc copy k) (hl : ∀ p ∈ k, p.isLocal = true) :
    Holds loc none k := by
  rcases k with _ | ⟨x, _ | ⟨y, k⟩⟩
  · exact ⟨h.1, rfl⟩
  · have hx := hl x (by simp)
    rw [holds_of_local hx] at h ⊢
    exact ⟨h.1, rfl⟩
  · exact h.elim

theorem differ_eq_false {l l' : List String} (h : differ l l' = false) (x : String) :
    x ∈ l ↔ x ∈ l' := by
  unfold differ at h
  simp only [Bool.or_eq_false_iff, List.any_eq_false, decide_eq_true_eq, not_not] at h
  exact ⟨h.1 x, h.2 x⟩

end Wanted

section Run

variable {v : VrfScope} {importMap : String → ImportMap} {rtsOf : List ℕ → List String}
  {s : VrfRun rtsOf v.ip} {b : BestPath rtsOf v.ip} {x : VrfPath} {ps : List VrfPath}
  {rd : String}

/-- Best paths are kept by their route distinguisher, and the destination has paths of the table
only. -/
structure RunSound (v : VrfScope) (rtsOf : List ℕ → List String) (s : VrfRun rtsOf v.ip) :
    Prop where
  keys : ∀ rd b, s.best.get? rd = some b → b.path.nlri.routeDist = rd
  paths : s.raised = false →
    ∀ p ∈ s.entry.dest.knownPathList ++ s.entry.dest.newPathList, OfTable v rtsOf p

theorem ofTable_addAll {d : VrfDest} (h : ∀ p ∈ d.knownPathList ++ d.newPathList, OfTable v rtsOf p)
    (hps : ∀ p ∈ ps, p.isWithdraw = false → OfTable v rtsOf p) :
    ∀ p ∈ (d.addAll ps).knownPathList ++ (d.addAll ps).newPathList, OfTable v rtsOf p := by
  obtain ⟨hk, hn, -⟩ := addAll_dest d ps
  rw [hk, hn]
  intro p hp
  rw [← List.append_assoc] at hp
  rcases List.mem_append.mp hp with hp | hp
  · exact h p hp
  · obtain ⟨hp, hw⟩ := List.mem_filter.mp hp
    exact hps p hp (by simpa using hw)

theorem ofTable_localPath (v : VrfScope) (rtsOf : List ℕ → List String) (n : ℕ) (rts : List String)
    (med : Option ℕ) (nexthop : String) (labels : List ℕ) :
    OfTable v rtsOf (v.localPath n rts med nexthop labels) :=
  ⟨rfl, fun _ => ⟨rfl, rfl⟩, fun h => by simp [VrfScope.localPath, VrfPath.isLocal] at h⟩

/-- What `import_single_vpn_path_to_all_vrfs` inserts. -/
def VrfRun.imported (v : VrfScope) (importMap : String → ImportMap) (s : VrfRun rtsOf v.ip)
    (path : VpnPath) (pathRts : List String) : List VrfPath :=
  if (s.settings.conf v importMap).qualifies path pathRts ∧
      ¬ s.entry.dest.alreadyKnown (path.toVrf v.routeFamily s.made) ∧
        ¬ (s.settings.conf v importMap).filteredOut (path.toVrf v.routeFamily s.made)
    then [path.toVrf v.routeFamily s.made] else []

theorem addAll_nil (e : VrfEntry) : e.addAll [] = e := by
  simp [VrfEntry.addAll, VrfDest.addAll]

theorem entry_importSingle (s : VrfRun rtsOf v.ip) (path : VpnPath) (pathRts : List String) :
    (s.importSingle v importMap path pathRts).entry =
      s.entry.addAll (s.imported v importMap path pathRts) := by
  unfold VrfRun.importSingle VrfRun.imported
  dsimp only
  by_cases hq : (s.settings.conf v importMap).qualifies path pathRts
  · rw [if_pos hq]
    rcases importVpnPath_cases (s.settings.conf v importMap) v.routeFamily s.made path s.entry with
      ⟨he, hout⟩ | ⟨he, hk, hf⟩
    · rw [he, if_neg, addAll_nil]
      rintro ⟨-, hk, hf⟩
      exact hout.elim hk hf
    · rw [he, if_pos ⟨hq, hk, hf⟩]
      simp [VrfEntry.addAll, VrfDest.addAll]
  · rw [if_neg hq, if_neg (fun h => hq h.1), addAll_nil]

theorem mem_known_iff {e : VrfEntry} {p : VrfPath} {q : String} :
    p ∈ e.ofId q ↔ p ∈ e.dest.knownPathList ∧ p.puid = q := by
  simp [VrfEntry.ofId, ofPuid]

theorem copyAt_eq (hk : s.best.get? rd = some b) : s.copyAt v importMap rd =
    if s.settings.wants v importMap b then some (b.path.toVrf v.routeFamily 0) else none := by
  unfold VrfRun.copyAt
  rw [hk, Option.filter_some]
  split_ifs <;> rfl

theorem copyAt_none (hk : s.best.get? rd = none) : s.copyAt v importMap rd = none := by
  rw [VrfRun.copyAt, hk]
  rfl

/-- The only path of an id of which a like one is known. -/
theorem ofId_of_known (h1 : (s.entry.ofId (createPuid rd v.ip)).length ≤ 1)
    (hk : s.entry.dest.alreadyKnown x) (hp : x.puid = createPuid rd v.ip) :
    ∃ y ∈ s.entry.dest.knownPathList, s.entry.ofId (createPuid rd v.ip) = [y] ∧ y.Alike x := by
  obtain ⟨y, hy, hyx⟩ := List.any_eq_true.mp hk
  have halike : y.Alike x := by simpa using hyx
  have hmem : y ∈ s.entry.ofId (createPuid rd v.ip) :=
    mem_known_iff.2 ⟨hy, halike.puid_eq.trans hp⟩
  rcases hl : s.entry.ofId (createPuid rd v.ip) with _ | ⟨z, _ | ⟨z', l⟩⟩
  · simp [hl] at hmem
  · rw [hl, List.mem_singleton] at hmem
    exact ⟨y, hy, by rw [hmem], halike⟩
  · simp [hl] at h1

/-- A new best path is right if, where it is not wanted, no copy of an old one is held. -/
theorem right_newBest (hs : RunSound v rtsOf s) (h : s.Right v importMap)
    (hg : VrfRunInTurn v importMap s (.newBest b)) :
    (vrfRunStep v importMap s (.newBest b)).Right v importMap := by
  dsimp only [vrfRunStep]
  split_ifs with hskip
  · exact h
  · rw [not_or] at hskip
    have hr : s.raised = false := by simpa using hskip.1
    intro _ rd
    have hold := h hr rd
    rw [entry_importSingle]
    apply hold.addAll
    intro hset hne hholds
    rcases eq_or_ne b.path.nlri.routeDist rd with rfl | hrd
    · have hcopy : VrfRun.copyAt v importMap (VrfRun.importSingle v importMap
          { s with best := s.best.set b.path.nlri.routeDist b } b.path b.path.attrs.routeTargets)
            b.path.nlri.routeDist =
          if s.settings.wants v importMap b then some (b.path.toVrf v.routeFamily 0) else none :=
        copyAt_eq (Dict.get?_set_self _ _ _)
      rw [hcopy]
      cases hw : s.settings.wants v importMap b with
      | false =>
        exact holds_none_of_local hholds (hg hr hskip.2 hw hset)
      | true =>
        -- the copy is not queued, so it is known
        have hpuid := puid_toVrf_best b s.made
        have hknown : s.entry.dest.alreadyKnown (b.path.toVrf v.routeFamily s.made) := by
          by_contra hk
          unfold VrfSettings.wants at hw
          rw [Bool.and_eq_true, Bool.not_eq_true'] at hw
          apply hne (b.path.toVrf v.routeFamily s.made) _ hpuid
          unfold VrfRun.imported
          have hf : (s.settings.conf v importMap).filteredOut
              (b.path.toVrf v.routeFamily s.made) = _ :=
            filteredOut_congr v importMap s.settings (y := b.path.toVrf v.routeFamily 0) rfl rfl
          rw [if_pos ⟨hw.1, hk, by rw [hf, hw.2]; exact Bool.false_ne_true⟩]
          exact List.mem_singleton_self _
        obtain ⟨y, hy, hone, halike⟩ := ofId_of_known hold.one hknown hpuid
        have hy' := hs.paths hr y (List.mem_append_left _ hy)
        have hyl := isLocal_of_alike hy' hw halike
        rw [hone, holds_of_copy hyl] at hholds ⊢
        exact ⟨hholds.1, _, rfl, halike⟩
    · have hcopy : VrfRun.copyAt v importMap (VrfRun.importSingle v importMap
          { s with best := s.best.set b.path.nlri.routeDist b } b.path b.path.attrs.routeTargets)
            rd = s.copyAt v importMap rd := by
        change ((s.best.set b.path.nlri.routeDist b).get? rd |>.filter _ |>.map _) = _
        rw [Dict.get?_set_of_ne hrd]
        rfl
      rw [hcopy]
      exact hholds

/-- The loss of a best path is right. -/
theorem right_lost (hs : RunSound v rtsOf s) (h : s.Right v importMap) (lostRd : String) :
    (vrfRunStep v importMap s (.lost lostRd)).Right v importMap := by
  dsimp only [vrfRunStep]
  split
  · next old hr hold =>
    intro _ rd
    have hright := h hr rd
    rw [entry_importSingle]
    apply hright.addAll
    intro hset hne hholds
    rcases eq_or_ne lostRd rd with rfl | hrd
    · have hcopy : VrfRun.copyAt v importMap (VrfRun.importSingle v importMap
          { s with best := s.best.erase lostRd } old.path.withdrawal old.path.attrs.routeTargets)
            lostRd = none := by
        apply copyAt_none
        change (s.best.erase lostRd).get? lostRd = none
        rw [Dict.get?_erase, if_pos rfl]
      rw [hcopy]
      rw [copyAt_eq hold] at hholds
      cases hw : s.settings.wants v importMap old with
      | false =>
        rw [hw, if_neg Bool.false_ne_true] at hholds
        exact hholds
      | true =>
        -- the withdrawal is queued
        exfalso
        have hpuid : (old.path.withdrawal.toVrf v.routeFamily s.made).puid =
            createPuid lostRd v.ip := by
          rw [← hs.keys lostRd old hold]
          exact puid_toVrf_best old s.made
        apply hne _ _ hpuid
        unfold VrfRun.imported
        have hq : (s.settings.conf v importMap).qualifies old.path.withdrawal
            old.path.attrs.routeTargets := by
          unfold VrfSettings.wants at hw
          rw [Bool.and_eq_true] at hw
          exact hw.1
        have hk : ¬ s.entry.dest.alreadyKnown
            (old.path.withdrawal.toVrf v.routeFamily s.made) := by
          intro hk
          obtain ⟨y, hy, hyw⟩ := List.any_eq_true.mp hk
          have halike : y.Alike (old.path.withdrawal.toVrf v.routeFamily s.made) := by
            simpa using hyw
          have hobjs : y.attrObjs = [] := congrArg (fun c => c.2.2.2.2) halike
          exact (hs.paths hr y (List.mem_append_left _ hy)).attrObjs_ne hobjs
        have hf : ¬ (s.settings.conf v importMap).filteredOut
            (old.path.withdrawal.toVrf v.routeFamily s.made) := by
          intro hf
          unfold VrfConf.filteredOut VrfSettings.conf at hf
          rw [List.any_map, List.any_eq_true] at hf
          obtain ⟨name, hname, hmatch⟩ := hf
          have := (wants_iff.1 hw).2.2 name hname
          rw [isMatch_withdrawal hmatch] at this
          cases this
        rw [if_pos ⟨hq, hk, hf⟩]
        exact List.mem_singleton_self _
    · have hcopy : VrfRun.copyAt v importMap (VrfRun.importSingle v importMap
          { s with best := s.best.erase lostRd } old.path.withdrawal old.path.attrs.routeTargets)
            rd = s.copyAt v importMap rd := by
        change ((s.best.erase lostRd).get? rd |>.filter _ |>.map _) = _
        rw [Dict.get?_erase, if_neg hrd]
        rfl
      rw [hcopy]
      exact hholds
  · exact h

/-- A local path or its withdrawal is waited for, and other ids have no local path. -/
theorem right_local (h : s.Right v importMap) (announced : Bool) (n : ℕ)
    (hx : x.puid = v.puid) :
    VrfRun.Right v importMap
      { s with announced := announced, entry := s.entry.addAll [x], made := n } := by
  intro hr rd
  apply (h hr rd).addAll
  intro hset hne hholds
  have hrd : rd ≠ v.routeDist := by
    rintro rfl
    exact hne x (by simp) hx
  have hloc : ∀ a : Bool, (a && decide (rd = v.routeDist)) = false := by simp [hrd]
  unfold VrfRun.localAt at hholds ⊢
  rw [hloc] at hholds ⊢
  exact hholds

/-- Processing leaves the destination right if what it has queued is. -/
theorem right_process (h : s.Right v importMap) {sp : Speaker}
    (hg : VrfRunInTurn v importMap s (.process sp)) :
    (vrfRunStep v importMap s (.process sp)).Right v importMap := by
  dsimp only [vrfRunStep]
  split_ifs with hskip
  · exact h
  · rw [not_or] at hskip
    have hr : s.raised = false := by simpa using hskip.1
    have hw : s.entry.waits = true := by simpa using hskip.2
    have hran := processBest_ran sp s.entry.dest
    cases hp : s.entry.dest.processBest sp with
    | mk res d =>
      rw [hp] at hran
      cases res with
      | error e =>
        intro hr'
        cases hr'
      | ok change =>
        obtain ⟨L, hm, hsel, hk, -⟩ := hran.merged_known
        intro _ rd
        have hk' : d.removeEmpty.knownPathList = L := (removeEmpty_known d).trans hk
        exact ((h hr rd).processed_iff hm hk').mpr (hg hr hw L hm hsel rd)

theorem mem_mapIdx_of_mem {fs : List (ℕ → VrfPath)} {f : ℕ → VrfPath} (hf : f ∈ fs) (n : ℕ) :
    ∃ m, f m ∈ fs.mapIdx fun i path => path (n + i) := by
  obtain ⟨i, hi, rfl⟩ := List.mem_iff_getElem.mp hf
  exact ⟨n + i, List.mem_mapIdx.mpr ⟨i, hi, rfl⟩⟩

/-- If nothing is queued of an id, no import map matches its paths, and they have a route target
that the VRF imports. -/
structure Untouched (v : VrfScope) (importMap : String → ImportMap) (s : VrfRun rtsOf v.ip)
    (new : VrfSettings) (q : String) : Prop where
  interesting : ∀ p ∈ s.entry.ofId q, p.hasRtsIn new.importRts = true
  unmatched : ∀ p ∈ s.entry.ofId q, (new.conf v importMap).filteredOut p = false
  imported : ∀ b ∈ s.best.values, createPuid b.path.nlri.routeDist v.ip = q →
    new.wants v importMap b → s.entry.dest.alreadyKnown (b.path.toVrf v.routeFamily 0) = false →
      ∀ rt ∈ b.path.attrs.routeTargets, rt ∈ new.importRts →
        s.settings.reImport new = false ∧ differ s.settings.importRts new.importRts = true ∧
          rt ∈ s.settings.importRts

theorem untouched_of_queued {new : VrfSettings} {q : String} {n : ℕ}
    (h : ∀ p ∈ (s.onChgVrfConf v importMap new).mapIdx (fun i path => path (n + i)), p.puid ≠ q) :
    Untouched v importMap s new q := by
  have hmem : ∀ f ∈ s.onChgVrfConf v importMap new, ∃ m, (f m).puid ≠ q := by
    intro f hf
    obtain ⟨m, hm⟩ := mem_mapIdx_of_mem hf n
    exact ⟨m, h _ hm⟩
  unfold VrfRun.onChgVrfConf at hmem
  simp only [List.forall_mem_append] at hmem
  obtain ⟨⟨⟨-, hclean⟩, hmaps⟩, himport⟩ := hmem
  refine ⟨fun p hp => ?_, fun p hp => ?_, fun b hb hq hw hk rt hrt hnew => ?_⟩
  · obtain ⟨hp, hpq⟩ := mem_known_iff.1 hp
    by_contra hno
    obtain ⟨m, hm⟩ := hclean p.withdrawal
      (List.mem_map.mpr ⟨p, List.mem_filter.mpr ⟨hp, by simpa using hno⟩, rfl⟩)
    exact hm hpq
  · obtain ⟨hp, hpq⟩ := mem_known_iff.1 hp
    by_contra hf
    obtain ⟨isMatch, hi, hmatch⟩ := List.any_eq_true.mp ((Bool.not_eq_false _).mp hf)
    obtain ⟨m, hm⟩ := hmaps p.withdrawal (List.mem_map.mpr ⟨p, List.mem_flatMap.mpr
      ⟨isMatch, hi, List.mem_filter.mpr ⟨hp, hmatch⟩⟩, rfl⟩)
    exact hm hpq
  · have hf : (new.conf v importMap).filteredOut (b.path.toVrf v.routeFamily 0) = false := by
      unfold VrfSettings.wants at hw
      rw [Bool.and_eq_true, Bool.not_eq_true'] at hw
      exact hw.2
    have hno : ¬ (b.path.attrs.routeTargets.any fun rt => rt ∈ if s.settings.reImport new then
        new.importRts else (s.settings.newImpRts new).getD new.importRts) = true := by
      intro hany
      obtain ⟨m, hm⟩ := himport (fun index => b.path.toVrf v.routeFamily index)
        (List.mem_map.mpr ⟨b, List.mem_filter.mpr ⟨hb, by
          rw [hk, hf]
          simpa using hany⟩, rfl⟩)
      exact hm ((puid_toVrf_best b m).trans hq)
    have hout : rt ∉ (if s.settings.reImport new then new.importRts
        else (s.settings.newImpRts new).getD new.importRts) := by
      intro hin
      exact hno (List.any_eq_true.mpr ⟨rt, hrt, by simpa using hin⟩)
    unfold VrfSettings.newImpRts at hout
    split_ifs at hout with hre hd
    · exact absurd hnew hout
    · refine ⟨by simpa using hre, hd, ?_⟩
      by_contra hold
      exact hout (List.mem_filter.mpr ⟨hnew, by simpa using hold⟩)
    · exact absurd hnew hout

/-- What is not wanted, and not imported by the update, is not wanted afterwards. -/
theorem Untouched.not_wants {new : VrfSettings} {q : String} (hu : Untouched v importMap s new q)
    (hb : s.best.get? rd = some b) (hq : createPuid b.path.nlri.routeDist v.ip = q)
    (hk : s.entry.dest.alreadyKnown (b.path.toVrf v.routeFamily 0) = false)
    (hold : s.settings.wants v importMap b = false) : new.wants v importMap b = false := by
  by_contra hnew
  have hnew : new.wants v importMap b := by simpa using hnew
  obtain ⟨⟨rt, hrt, hin⟩, hown, hmaps⟩ := wants_iff.1 hnew
  have hval : b ∈ s.best.values :=
    List.mem_map.mpr ⟨(rd, b), Dict.mem_entries_iff.mpr hb, rfl⟩
  obtain ⟨hre, -, hrtold⟩ := hu.imported b hval hq hnew hk rt hrt hin
  have : s.settings.wants v importMap b = true := by
    refine wants_iff.2 ⟨⟨rt, hrt, hrtold⟩, hown, fun name hname => ?_⟩
    exact hmaps name ((differ_eq_false hre name).mp hname)
  rw [hold] at this
  cases this

/-- A path that the update does not touch is wanted as before. -/
theorem Untouched.wants {new : VrfSettings} {q : String} (hu : Untouched v importMap s new q)
    (hx : x ∈ s.entry.ofId q) (hxt : OfTable v rtsOf x) (hl : x.isLocal = false)
    (ha : x.Alike (b.path.toVrf v.routeFamily 0)) (hold : s.settings.wants v importMap b)
    (hdefault : "0:0" ∈ new.importRts → x.attrs.routeTargets.any (· ∈ new.importRts) ∨
      (new.conf v importMap).filteredOut x) : new.wants v importMap b := by
  have hrts := routeTargets_of_alike hxt hl ha
  have hunmatched := hu.unmatched x hx
  have hrt : ∃ rt ∈ x.attrs.routeTargets, rt ∈ new.importRts := by
    obtain ⟨rt, hrt, hin⟩ := List.any_eq_true.mp (hu.interesting x hx)
    have hin : rt ∈ new.importRts := by simpa using hin
    rcases List.mem_append.mp hrt with hrt | hrt
    · exact ⟨rt, hrt, hin⟩
    · rw [List.mem_singleton.mp hrt] at hin
      rcases hdefault hin with hany | hf
      · simpa using hany
      · rw [hunmatched] at hf
        cases hf
  have hsame := filteredOut_congr v importMap new (x := x) (y := b.path.toVrf v.routeFamily 0)
    (hxt.tableKey.trans b.ip_eq.symm) hrts
  rw [hrts] at hrt
  exact wants_iff.2 ⟨hrt, (wants_iff.1 hold).2.1,
    (filteredOut_eq_false new).mp (hsame.symm.trans hunmatched)⟩

/-- Settings that do not differ want the same. -/
theorem wants_of_same {old new : VrfSettings} (hrts : differ old.importRts new.importRts = false)
    (hmaps : differ old.importMaps new.importMaps = false) :
    new.wants v importMap b = old.wants v importMap b := by
  rw [Bool.eq_iff_iff, wants_iff, wants_iff]
  simp only [← differ_eq_false hrts, ← differ_eq_false hmaps]

/-- What is held of an id that the update does not touch is what is wanted then. -/
theorem Untouched.holds {new : VrfSettings} (hs : RunSound v rtsOf s) (hr : s.raised = false)
    (hone : (s.entry.ofId (createPuid rd v.ip)).length ≤ 1)
    (hset : s.entry.Settled (createPuid rd v.ip)) (hg : VrfRunInTurn v importMap s (.update new))
    (hu : Untouched v importMap s new (createPuid rd v.ip))
    (hholds : Holds loc (s.copyAt v importMap rd) (s.entry.ofId (createPuid rd v.ip))) :
    Holds loc (((s.best.get? rd).filter (new.wants v importMap)).map
      fun b => b.path.toVrf v.routeFamily 0) (s.entry.ofId (createPuid rd v.ip)) := by
  cases hb : s.best.get? rd with
  | none =>
    rw [copyAt_none hb] at hholds
    exact hholds
  | some b =>
    have hq : createPuid b.path.nlri.routeDist v.ip = createPuid rd v.ip := by
      rw [hs.keys rd b hb]
    have hpuid : (b.path.toVrf v.routeFamily 0).puid = createPuid rd v.ip :=
      (puid_toVrf_best b 0).trans hq
    have hknown : ∀ x ∈ s.entry.ofId (createPuid rd v.ip), OfTable v rtsOf x := fun x hx =>
      hs.paths hr x (List.mem_append_left _ (mem_known_iff.1 hx).1)
    rw [copyAt_eq hb] at hholds
    rw [Option.filter_some]
    -- with no copy of it, the best path is not wanted before or after
    have hno : (∀ x ∈ s.entry.ofId (createPuid rd v.ip), x.isLocal = true) →
        s.settings.wants v importMap b = false → new.wants v importMap b = false := by
      intro hlocal hold
      by_contra hw
      have hw : new.wants v importMap b := by simpa using hw
      apply Bool.false_ne_true
      rw [← hu.not_wants hb hq ?_ hold]
      · exact hw
      · by_contra hk
        obtain ⟨y, hy, hl, ha⟩ := ofId_of_known hone (by simpa using hk) hpuid
        have hmem : y ∈ s.entry.ofId (createPuid rd v.ip) := by simp [hl]
        have := isLocal_of_alike (hknown y hmem) hw ha
        rw [hlocal y hmem] at this
        cases this
    rcases hk : s.entry.ofId (createPuid rd v.ip) with _ | ⟨x, _ | ⟨y, l⟩⟩
    · rw [hk] at hholds hno
      obtain ⟨hloc, hcopy⟩ := hholds
      have hold : s.settings.wants v importMap b = false := by
        by_contra hw
        rw [if_pos (by simpa using hw)] at hcopy
        cases hcopy
      rw [hno (by simp) hold]
      exact ⟨hloc, rfl⟩
    · have hx : x ∈ s.entry.ofId (createPuid rd v.ip) := by simp [hk]
      rw [hk] at hholds hno
      cases hl : x.isLocal with
      | true =>
        rw [holds_of_local hl] at hholds ⊢
        have hold : s.settings.wants v importMap b = false := by
          by_contra hw
          rw [if_pos (by simpa using hw)] at hholds
          cases hholds.2
        rw [hno (by simpa using hl) hold]
        exact ⟨hholds.1, rfl⟩
      | false =>
        rw [holds_of_copy hl] at hholds ⊢
        obtain ⟨hloc, c, hc, ha⟩ := hholds
        split_ifs at hc with hw
        · obtain rfl := Option.some.inj hc
          have hnew := hu.wants hx (hknown x hx) hl ha hw fun h0 =>
            hg hr h0 x (mem_known_iff.1 hx).1 hl (by rwa [(mem_known_iff.1 hx).2])
          rw [if_pos hnew]
          exact ⟨hloc, _, rfl, ha⟩
        · cases hc
    · simp [hk] at hone

/-- An update queues something of every id for which the known path is not what is wanted then. -/
theorem right_update (hs : RunSound v rtsOf s) (h : s.Right v importMap) {new : VrfSettings}
    (hg : VrfRunInTurn v importMap s (.update new)) :
    (vrfRunStep v importMap s (.update new)).Right v importMap := by
  dsimp only [vrfRunStep]
  unfold VrfRun.update
  split_ifs with hchanged
  · intro hr rd
    have hold := h hr rd
    apply hold.addAll
    intro hset hne hholds
    exact (untouched_of_queued hne).holds hs hr hold.one hset hg hholds
  · simp only [Bool.or_eq_true, not_or, Bool.not_eq_true] at hchanged
    obtain ⟨⟨hrts, -⟩, hmaps⟩ := hchanged
    have hrts : differ s.settings.importRts new.importRts = false := by
      unfold VrfSettings.newImpRts at hrts
      split_ifs at hrts with hd
      · cases hrts
      · simpa using hd
    have hwants : (new.wants v importMap : BestPath rtsOf v.ip → Bool) =
        s.settings.wants v importMap := funext fun b => wants_of_same hrts hmaps
    intro hr rd
    have hcopy : VrfRun.copyAt v importMap { s with settings := new } rd =
        s.copyAt v importMap rd := by
      unfold VrfRun.copyAt
      dsimp only
      rw [hwants]
    rw [hcopy]
    exact h hr rd

theorem RunSound.addAll (h : RunSound v rtsOf s)
    (hps : ∀ p ∈ ps, p.isWithdraw = false → OfTable v rtsOf p) :
    s.raised = false → ∀ p ∈ (s.entry.addAll ps).dest.knownPathList ++
      (s.entry.addAll ps).dest.newPathList, OfTable v rtsOf p :=
  fun hr => ofTable_addAll (h.paths hr) hps

theorem ofTable_onChgVrfConf (s : VrfRun rtsOf v.ip) (new : VrfSettings) {f : ℕ → VrfPath}
    (hf : f ∈ s.onChgVrfConf v importMap new) (n : ℕ) (hw : (f n).isWithdraw = false) :
    OfTable v rtsOf (f n) := by
  unfold VrfRun.onChgVrfConf at hf
  simp only [List.mem_append] at hf
  rcases hf with ((hf | hf) | hf) | hf
  · split_ifs at hf
    · obtain ⟨p, -, rfl⟩ := List.mem_map.mp hf
      refine ⟨rfl, fun _ => ⟨rfl, rfl⟩, fun hl => ?_⟩
      simp [VrfScope.reinstalled, VrfScope.localPath, VrfPath.isLocal] at hl
    · cases hf
  · obtain ⟨p, -, rfl⟩ := List.mem_map.mp hf
    cases hw
  · obtain ⟨p, -, rfl⟩ := List.mem_map.mp hf
    cases hw
  · obtain ⟨b, -, rfl⟩ := List.mem_map.mp hf
    exact ofTable_toVrf b n

theorem isWithdraw_toVrf (path : VpnPath) (rf : RouteFamily) (n : ℕ) :
    (path.toVrf rf n).isWithdraw = path.isWithdraw := rfl

theorem RunSound.step (h : RunSound v rtsOf s) (e : VrfRunEvent rtsOf v.ip) :
    RunSound v rtsOf (vrfRunStep v importMap s e) := by
  cases e with
  | announce nexthop labelList =>
    refine ⟨h.keys, h.addAll fun p hp _ => ?_⟩
    rw [List.mem_singleton.mp hp]
    exact ofTable_localPath v rtsOf _ _ _ _ _
  | withdraw =>
    refine ⟨h.keys, h.addAll fun p hp hw => ?_⟩
    rw [List.mem_singleton.mp hp] at hw
    cases hw
  | newBest b =>
    dsimp only [vrfRunStep]
    split_ifs with hskip
    · exact h
    · constructor
      · intro rd b' hb'
        change (s.best.set b.path.nlri.routeDist b).get? rd = some b' at hb'
        rw [Dict.get?_set] at hb'
        split_ifs at hb' with hrd
        · rw [← Option.some.inj hb', hrd]
        · exact h.keys rd b' hb'
      · rw [entry_importSingle]
        apply h.addAll
        intro p hp _
        unfold VrfRun.imported at hp
        split_ifs at hp
        · rw [List.mem_singleton.mp hp]
          exact ofTable_toVrf b _
        · cases hp
  | lost lostRd =>
    dsimp only [vrfRunStep]
    split
    · next old hr hold =>
      constructor
      · intro rd b' hb'
        change (s.best.erase lostRd).get? rd = some b' at hb'
        rw [Dict.get?_erase] at hb'
        split_ifs at hb' with hrd
        exact h.keys rd b' hb'
      · rw [entry_importSingle]
        apply h.addAll
        intro p hp hw
        unfold VrfRun.imported at hp
        split_ifs at hp
        · rw [List.mem_singleton.mp hp] at hw
          cases hw
        · cases hp
    · exact h
  | update new =>
    dsimp only [vrfRunStep]
    unfold VrfRun.update
    split_ifs
    · refine ⟨h.keys, h.addAll fun p hp hw => ?_⟩
      obtain ⟨i, hi, rfl⟩ := List.mem_mapIdx.mp hp
      exact ofTable_onChgVrfConf s new (List.getElem_mem hi) _ hw
    · exact ⟨h.keys, h.paths⟩
  | process sp =>
    dsimp only [vrfRunStep]
    split_ifs with hskip
    · exact h
    · rw [not_or] at hskip
      have hr : s.raised = false := by simpa using hskip.1
      have hran := processBest_ran sp s.entry.dest
      cases hp : s.entry.dest.processBest sp with
      | mk res d =>
        rw [hp] at hran
        cases res with
        | error e => exact ⟨h.keys, fun hr' => by cases hr'⟩
        | ok change =>
          refine ⟨h.keys, fun _ p hmem => ?_⟩
          obtain ⟨L, hm, -, hk, hn⟩ := hran.merged_known
          dsimp only at hmem
          rw [removeEmpty_known, removeEmpty_new d hn, List.append_nil, hk] at hmem
          exact h.paths hr p (merged_subset hm hmem)

theorem right_step (hs : RunSound v rtsOf s) (h : s.Right v importMap)
    {e : VrfRunEvent rtsOf v.ip} (hg : VrfRunInTurn v importMap s e) :
    (vrfRunStep v importMap s e).Right v importMap := by
  cases e with
  | announce nexthop labelList => exact right_local h _ _ rfl
  | withdraw => exact right_local h _ _ rfl
  | newBest b => exact right_newBest hs h hg
  | lost lostRd => exact right_lost hs h lostRd
  | update new => exact right_update hs h hg
  | process sp => exact right_process h hg

/-- The withdrawals that a change of the settings queues are of the paths, local ones as well, that
have no route target of interest or that an import map matches. -/
theorem withdrawn_update_iff {new : VrfSettings} {q : String} (hw : ¬ s.entry.Withdrawn q)
    (hchanged : (s.settings.newImpRts new).isSome ∨ s.settings.reExport new ∨
      s.settings.reImport new) :
    (s.update v importMap new).entry.Withdrawn q ↔ ∃ p ∈ s.entry.ofId q,
      p.hasRtsIn new.importRts = false ∨ (new.conf v importMap).filteredOut p = true := by
  have hlist : ∀ ps : List VrfPath, (s.entry.addAll ps).Withdrawn q ↔
      ∃ p ∈ ps, p.isWithdraw = true ∧ p.puid = q := by
    intro ps
    have hadd := (addAll_dest s.entry.dest ps).2.2
    unfold VrfEntry.Withdrawn VrfEntry.addAll at *
    rw [hadd, List.map_append, List.mem_append]
    simp only [hw, false_or, List.mem_map, List.mem_filter, and_assoc]
  unfold VrfRun.update
  rw [if_pos (by simpa [or_assoc] using hchanged), hlist]
  constructor
  · rintro ⟨p, hp, hpw, hpq⟩
    obtain ⟨i, hi, rfl⟩ := List.mem_mapIdx.mp hp
    have hf := List.getElem_mem hi
    generalize (s.onChgVrfConf v importMap new)[i] = f at hf hpw hpq
    unfold VrfRun.onChgVrfConf at hf
    simp only [List.mem_append] at hf
    rcases hf with ((hf | hf) | hf) | hf
    · split_ifs at hf
      · obtain ⟨x, -, rfl⟩ := List.mem_map.mp hf
        cases hpw
      · cases hf
    · obtain ⟨x, hx, rfl⟩ := List.mem_map.mp hf
      obtain ⟨hx, hrts⟩ := List.mem_filter.mp hx
      exact ⟨x, mem_known_iff.2 ⟨hx, hpq⟩, Or.inl (by simpa using hrts)⟩
    · obtain ⟨x, hx, rfl⟩ := List.mem_map.mp hf
      obtain ⟨isMatch, hi, hx⟩ := List.mem_flatMap.mp hx
      obtain ⟨hx, hmatch⟩ := List.mem_filter.mp hx
      exact ⟨x, mem_known_iff.2 ⟨hx, hpq⟩, Or.inr (List.any_eq_true.mpr ⟨isMatch, hi, hmatch⟩)⟩
    · obtain ⟨b, -, rfl⟩ := List.mem_map.mp hf
      rw [isWithdraw_toVrf, b.announced] at hpw
      cases hpw
  · rintro ⟨p, hp, hout⟩
    obtain ⟨hp, hpq⟩ := mem_known_iff.1 hp
    have hmem : p.withdrawal ∈ s.onChgVrfConf v importMap new := by
      unfold VrfRun.onChgVrfConf
      simp only [List.mem_append]
      rcases hout with hrts | hf
      · exact Or.inl (Or.inl (Or.inr (List.mem_map.mpr
          ⟨p, List.mem_filter.mpr ⟨hp, by simpa using hrts⟩, rfl⟩)))
      · obtain ⟨isMatch, hi, hmatch⟩ := List.any_eq_true.mp hf
        exact Or.inl (Or.inr (List.mem_map.mpr ⟨p, List.mem_flatMap.mpr
          ⟨isMatch, hi, List.mem_filter.mpr ⟨hp, hmatch⟩⟩, rfl⟩))
    obtain ⟨m, hm⟩ := mem_mapIdx_of_mem hmem s.made
    exact ⟨_, hm, rfl, hpq⟩

/-- No route target is imported that is exported. -/
def apart : VrfSettings := ⟨["65000:1"], ["65000:9"], [], none, []⟩

def importsMore : VrfSettings := { apart with importRts := ["65000:1", "65000:2"] }

def noMap : String → ImportMap := fun _ => .rt "65000:7"

def noRts : List ℕ → List String := fun _ => []

end Run

end Ryu.Bgp
