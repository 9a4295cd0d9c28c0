import Ryu.Bgp.InFilter
import Ryu.Bgp.Vrf

/-! # Routes that a VRF exports

A local best path of a VRF destination is learned by the global VPN table under the route
distinguisher of the VRF. When the best path is lost the handler withdraws it, when it changes to
an imported path nothing is withdrawn. So the VPN table has the exported path exactly as long as
the best path is local, if no run of the destination leaves it with imported paths instead.
-/

namespace Ryu.Bgp

/-- A destination of a VRF table: the families of the table and of the VPN table, the route
distinguisher, and the prefix. -/
structure VrfScope where
  routeFamily : RouteFamily
  vpnRouteFamily : RouteFamily
  routeDist : String
  ip : String
  deriving DecidableEq, Repr

/-- The id of the local paths, and the key of the exported path in the VPN table. -/
def VrfScope.puid (v : VrfScope) : String := createPuid v.routeDist v.ip

/-- The path of `insert_vrf_path`; a MED of 0 is false. -/
def VrfScope.localPath (v : VrfScope) (index : ℕ) (exportRts : List String) (med : Option ℕ)
    (nexthop : String) (labelList : List ℕ) : VrfPath where
  index := index
  source := .nc
  nlri := ⟨v.routeFamily, v.ip, 0⟩
  attrs := ⟨some 2, some [], none, med.filter (· ≠ 0), none, exportRts, none, none⟩
  isWithdraw := false
  puid := v.puid
  attrObjs := [index]
  nexthop := some nexthop
  labelList := labelList

/-- The withdrawal of `insert_vrf_path`. -/
def VrfScope.localWithdrawal (v : VrfScope) (index : ℕ) : VrfPath where
  index := index
  source := .nc
  nlri := ⟨v.routeFamily, v.ip, 0⟩
  attrs := noAttrs
  isWithdraw := true
  puid := v.puid
  attrObjs := []
  nexthop := none
  labelList := []

/-- `clone_to_vpn`. -/
def VrfPath.cloneToVpn (v : VrfScope) (index : ℕ) (p : VrfPath) (forWithdrawal : Bool) : Path where
  index := index
  source := p.source
  nlri := ⟨v.vpnRouteFamily, createPuid v.routeDist p.nlri.tableKey, 0⟩
  attrs := if forWithdrawal then noAttrs else p.attrs
  isWithdraw := forWithdrawal

/-- A VRF destination, the VPN table beside the events of the key of the exported path, the number
of path objects made, and whether processing has ended in an exception. -/
structure ExportState where
  dest : VrfDest
  vpn : TableState
  made : ℕ
  raised : Bool
  deriving DecidableEq, Repr

/-- Local announcements and withdrawals, paths imported from the VPN table unless an import map
filters them out, paths of other sources in the VPN table, and processing of both destinations. -/
inductive ExportEvent
  | announce (exportRts : List String) (med : Option ℕ) (nexthop : String) (labelList : List ℕ)
  | withdraw
  | importVpn (path : VpnPath) (filtered : Bool)
  | process (sp : Speaker)
  | vpnInsert (path : Path)
  | vpnProcess (sp : Speaker)

section Model

variable (v : VrfScope)

/-- What `_best_path_lost` and `_new_best_path` give to the table manager. -/
def VrfScope.gpath (index : ℕ) (old : Option VrfPath) : VrfChange → Option Path
  | .unchanged => none
  | .lost => (old.filter VrfPath.isLocal).map fun b => b.cloneToVpn v index true
  | .new c => if c.isLocal then some (c.cloneToVpn v index false) else none

/-- `learn_path`. -/
def VrfScope.learn (vpn : TableState) (path : Path) : TableState :=
  { vpn with
    table := (vpn.table.insert path).2
    pending := if vpn.hears v.puid path then vpn.pending ++ [path] else vpn.pending }

def exportStep (s : ExportState) : ExportEvent → ExportState
  | .announce exportRts med nexthop labelList =>
    { s with
      dest := s.dest.add (v.localPath s.made exportRts med nexthop labelList)
      made := s.made + 1 }
  | .withdraw => { s with dest := s.dest.add (v.localWithdrawal s.made), made := s.made + 1 }
  | .importVpn path filtered =>
    let vrfPath := path.toVrf v.routeFamily s.made
    if path.nlri.ip ≠ v.ip ∨ s.dest.alreadyKnown vrfPath ∨ filtered then s
    else { s with dest := s.dest.add vrfPath, made := s.made + 1 }
  | .process sp =>
    if s.raised then s
    else
      match s.dest.processBest sp with
      | (.error _, d) => { s with dest := d, raised := true }
      | (.ok change, d) =>
        { s with
          dest := d.removeEmpty
          vpn := (v.gpath s.made s.dest.bestPath change).elim s.vpn (v.learn s.vpn)
          made := s.made + 1 }
  | .vpnInsert path =>
    if path.source = .nc then s
    else { s with vpn := v.learn s.vpn path }
  | .vpnProcess sp =>
    if s.raised then s
    else
      { s with
        vpn := tableStep sp v.puid s.vpn (.process v.puid)
        raised := !(s.vpn.table.process sp v.puid).1.isOk }

def ExportState.init : ExportState := ⟨.init, ⟨⟨v.vpnRouteFamily, Dict.empty⟩, [], []⟩, 0, false⟩

/-- What the table manager was given last for the key is the local best path, or a withdrawal when
the best path is not local; and what of it was processed is held. -/
structure Exported (s : ExportState) : Prop where
  given : (announced (s.vpn.processed ++ s.vpn.pending) .nc).map Path.attrs =
    (s.dest.bestPath.filter VrfPath.isLocal).map fun b => b.attrs
  held : ofSource (s.vpn.table.known v.puid) .nc = (announced s.vpn.processed .nc).toList

/-- When the destination is processed with a local best path, a local path is left if any is,
unless the selection raises an exception or returns a path like the best path. -/
def LocalStays (s : ExportState) (e : ExportEvent) : Prop :=
  ∀ sp b L, e = .process sp → s.raised = false → s.dest.bestPath = some b → b.isLocal →
    s.dest.merged = .ok L → L ≠ [] →
      (∃ p ∈ L, p.isLocal) ∨ ∀ c, bestKnown sp L = .ok (some c) → b.Alike c

/-- When the VPN destination is processed, no withdrawal is queued after an exported path, nor is
one left over from an earlier run. -/
def VpnInTurn (s : ExportState) (e : ExportEvent) : Prop :=
  ∀ sp, e = .vpnProcess sp → s.raised = false →
    (∀ p ∈ (ofSource s.vpn.pending .nc).dropLast, p.isWithdraw) ∧
      (ofSource s.vpn.pending .nc = [] → announced s.vpn.processed .nc ≠ none →
        .nc ∉ (s.vpn.table.withdraws v.puid).map Path.source)

def ExportInTurn (s : ExportState) (e : ExportEvent) : Prop :=
  LocalStays s e ∧ VpnInTurn v s e

end Model

section Vpn

variable {v : VrfScope} {vpn : TableState} {path : Path} {sp : Speaker}

/-- What was given last for the key by the network controller. -/
def TableState.given (vpn : TableState) : Option Path :=
  announced (vpn.processed ++ vpn.pending) .nc

theorem given_learn (hf : vpn.table.routeFamily = v.vpnRouteFamily) (hs : path.source = .nc)
    (hn : path.nlri = ⟨v.vpnRouteFamily, v.puid, 0⟩) :
    (v.learn vpn path).given = if path.isWithdraw then none else some path := by
  have hh : vpn.hears v.puid path := by
    constructor
    · rw [Path.routeFamily, hn, hf]
    · rw [hn]
  unfold TableState.given VrfScope.learn
  rw [if_pos hh]
  apply announced_append_concat (l := ofSource vpn.pending .nc)
  rw [ofSource_append]
  simp [ofSource, hs]

theorem given_learn_of_ne (hs : path.source ≠ .nc) : (v.learn vpn path).given = vpn.given := by
  have hp : ofSource (v.learn vpn path).pending .nc = ofSource vpn.pending .nc := by
    unfold VrfScope.learn
    dsimp only
    split
    · rw [ofSource_append]
      simp [ofSource, hs]
    · rfl
  unfold TableState.given announced
  rw [ofSource_append, ofSource_append, hp]
  rfl

theorem known_learn (key : String) : (v.learn vpn path).table.known key = vpn.table.known key :=
  known_insert key

theorem learn_family (vpn : TableState) (path : Path) :
    (v.learn vpn path).table.routeFamily = vpn.table.routeFamily :=
  insert_routeFamily _ _

theorem queued_learn (h : Queued v.puid vpn) (path : Path) :
    Queued v.puid (v.learn vpn path) :=
  show Queued v.puid (tableStep threePeers v.puid vpn (.insert path)) from
    h.tableStep (.insert path)

/-- One run merges the paths of a source that has one path at most. -/
theorem ofSource_process_of_le (sp : Speaker) {t : Table} {key : String} {src : Source}
    (h : (ofSource (t.known key) src).length ≤ 1) :
    ofSource ((t.process sp key).2.known key) src =
      (if src ∈ (t.withdraws key).map Path.source ∨ src ∈ (t.newPaths key).map Path.source
        then [] else ofSource (t.known key) src) ++ ofSource (t.newPaths key) src := by
  rw [ofSource_process]
  congr 1
  have hnew : src ∈ (t.newPaths key).map Path.source ↔ ofSource (t.newPaths key) src ≠ [] :=
    mem_map_source
  simp only [hnew]
  rcases hk : ofSource (t.known key) src with _ | ⟨p, _ | ⟨p', l⟩⟩
  · simp
  · rcases hn : ofSource (t.newPaths key) src with _ | ⟨n, ns⟩
    · by_cases hw : src ∈ (t.withdraws key).map Path.source <;> simp [hw]
    · split <;> simp
  · rw [hk] at h
    simp at h

end Vpn

section Run

variable {v : VrfScope} {s : ExportState} {sp : Speaker} {p : VrfPath}

/-- A local path of the destination is as `insert_vrf_path` makes it. -/
def Plain (v : VrfScope) (p : VrfPath) : Prop :=
  p.isLocal → p.attrs.localPref = none ∧ p.nlri.tableKey = v.ip

structure ExportSound (v : VrfScope) (s : ExportState) : Prop where
  family : s.vpn.table.routeFamily = v.vpnRouteFamily
  queued : Queued v.puid s.vpn
  known : ∀ p ∈ s.dest.knownPathList, s.raised = false → Plain v p
  new : ∀ p ∈ s.dest.newPathList, s.raised = false → Plain v p
  best : ∀ b, s.dest.bestPath = some b → Plain v b

theorem plain_localPath (index : ℕ) (exportRts : List String) (med : Option ℕ) (nexthop : String)
    (labelList : List ℕ) : Plain v (v.localPath index exportRts med nexthop labelList) :=
  fun _ => ⟨rfl, rfl⟩

theorem plain_toVrf (path : VpnPath) (index : ℕ) : Plain v (path.toVrf v.routeFamily index) := by
  intro h
  unfold VpnPath.toVrf VrfPath.isLocal at h
  dsimp only at h
  split at h
  · cases h
  · next hs => exact absurd (by simpa using h) hs

theorem add_bestPath (d : VrfDest) (p : VrfPath) : (d.add p).bestPath = d.bestPath := by
  unfold VrfDest.add
  split <;> rfl

theorem ExportSound.add (h : ExportSound v s) (hp : p.isWithdraw = false → Plain v p) (n : ℕ) :
    ExportSound v { s with dest := s.dest.add p, made := n } := by
  refine ⟨h.family, h.queued, ?_, ?_, ?_⟩
  · intro x hx
    unfold VrfDest.add at hx
    split at hx <;> exact h.known x hx
  · intro x hx hr
    unfold VrfDest.add at hx
    split at hx
    · exact h.new x hx hr
    · next hw =>
      rcases List.mem_append.mp hx with hx | hx
      · exact h.new x hx hr
      · rw [List.mem_singleton.mp hx]
        exact hp (by simpa using hw)
  · intro b hb
    exact h.best b (by rwa [add_bestPath] at hb)

theorem removeEmpty_bestPath' (d : VrfDest) : d.removeEmpty.bestPath = d.bestPath := by
  unfold VrfDest.removeEmpty
  split
  · next h => exact h.2.symm
  · rfl

theorem removeEmpty_known (d : VrfDest) : d.removeEmpty.knownPathList = d.knownPathList := by
  unfold VrfDest.removeEmpty
  split
  · next h => exact h.1.symm
  · rfl

theorem removeEmpty_new (d : VrfDest) (h : d.newPathList = []) : d.removeEmpty.newPathList = [] := by
  unfold VrfDest.removeEmpty
  split
  · rfl
  · exact h

theorem Exported.add (h : Exported v s) (p : VrfPath) (n : ℕ) :
    Exported v { s with dest := s.dest.add p, made := n } := by
  constructor
  · rw [add_bestPath]
    exact h.given
  · exact h.held

/-- What is given to the table manager is of the key, and a withdrawal or an announcement. -/
theorem ExportSound.gpath (h : ExportSound v s) {change : VrfChange} {g : Path}
    (hnew : ∀ c, change = .new c → Plain v c)
    (hg : v.gpath s.made s.dest.bestPath change = some g) :
    g.source = .nc ∧ g.nlri = ⟨v.vpnRouteFamily, v.puid, 0⟩ := by
  have hclone : ∀ b : VrfPath, Plain v b → b.isLocal → ∀ w,
      (b.cloneToVpn v s.made w).source = .nc ∧
        (b.cloneToVpn v s.made w).nlri = ⟨v.vpnRouteFamily, v.puid, 0⟩ := by
    intro b hb hl w
    unfold VrfPath.cloneToVpn VrfScope.puid
    rw [(hb hl).2]
    exact ⟨by simpa [VrfPath.isLocal] using hl, rfl⟩
  cases change with
  | unchanged => cases hg
  | lost =>
    obtain ⟨b, hb, rfl⟩ := Option.map_eq_some_iff.mp hg
    obtain ⟨hb, hl⟩ := Option.filter_eq_some_iff.mp hb
    exact hclone b (h.best b hb) hl true
  | new c =>
    dsimp only [VrfScope.gpath] at hg
    split at hg
    · next hl =>
      obtain rfl := Option.some.inj hg
      exact hclone c (hnew c rfl) hl false
    · cases hg

/-- The attributes that the table manager was given last, once the handler of a change is through. -/
def ExportState.attrsGiven (s : ExportState) : VrfChange → Option PathAttrs
  | .unchanged => s.vpn.given.map Path.attrs
  | .lost => if s.dest.bestPath.any VrfPath.isLocal then none else s.vpn.given.map Path.attrs
  | .new c => if c.isLocal then some c.attrs else s.vpn.given.map Path.attrs

theorem ExportSound.given_gpath (h : ExportSound v s) {change : VrfChange}
    (hnew : ∀ c, change = .new c → Plain v c) :
    (((v.gpath s.made s.dest.bestPath change).elim s.vpn (v.learn s.vpn)).given).map Path.attrs =
      s.attrsGiven change := by
  have hg := fun g => h.gpath hnew (g := g)
  unfold ExportState.attrsGiven
  cases change with
  | unchanged => rfl
  | lost =>
    dsimp only [VrfScope.gpath] at hg ⊢
    cases hb : s.dest.bestPath with
    | none => rfl
    | some b =>
      cases hl : b.isLocal with
      | false => simp [Option.filter_some, hl]
      | true =>
        obtain ⟨hs, hn⟩ := hg (b.cloneToVpn v s.made true) (by simp [hb, Option.filter_some, hl])
        simp only [Option.filter_some, hl, if_true, Option.map_some, Option.elim_some,
          given_learn h.family hs hn]
        simp [VrfPath.cloneToVpn, hl]
  | new c =>
    dsimp only [VrfScope.gpath] at hg ⊢
    cases hl : c.isLocal with
    | false => simp
    | true =>
      obtain ⟨hs, hn⟩ := hg (c.cloneToVpn v s.made false) (by simp [hl])
      simp only [if_true, Option.elim_some, given_learn h.family hs hn]
      simp [VrfPath.cloneToVpn]

theorem known_elim_learn (g : Option Path) (vpn : TableState) (key : String) :
    (g.elim vpn (v.learn vpn)).table.known key = vpn.table.known key ∧
      (g.elim vpn (v.learn vpn)).processed = vpn.processed := by
  cases g with
  | none => exact ⟨rfl, rfl⟩
  | some g => exact ⟨known_learn key, rfl⟩

theorem sound_elim_learn {vpn : TableState} (hf : vpn.table.routeFamily = v.vpnRouteFamily)
    (hq : Queued v.puid vpn) (g : Option Path) :
    (g.elim vpn (v.learn vpn)).table.routeFamily = v.vpnRouteFamily ∧
      Queued v.puid (g.elim vpn (v.learn vpn)) := by
  cases g with
  | none => exact ⟨hf, hq⟩
  | some g => exact ⟨(learn_family vpn g).trans hf, queued_learn hq g⟩

theorem ExportSound.merged (h : ExportSound v s) (hr : s.raised = false) {L : List VrfPath}
    (hm : s.dest.merged = .ok L) : ∀ p ∈ L, Plain v p := by
  intro p hp
  rcases List.mem_append.mp (merged_subset hm hp) with hp | hp
  · exact h.known p hp hr
  · exact h.new p hp hr

theorem selected_mem {L : List VrfPath} {c : VrfPath} (h : selected sp L = .ok (some c)) :
    c ∈ L := by
  unfold selected at h
  split at h
  · cases h
  · exact bestKnown_mem h

theorem exportStep_raised (hr : s.raised = true) (sp : Speaker) :
    exportStep v s (.process sp) = s := by
  simp [exportStep, hr]

theorem exportStep_error (hr : s.raised = false) {e : PyError} {d : VrfDest}
    (hp : s.dest.processBest sp = (.error e, d)) :
    exportStep v s (.process sp) = { s with dest := d, raised := true } := by
  simp [exportStep, hr, hp]

theorem exportStep_ok (hr : s.raised = false) {change : VrfChange} {d : VrfDest}
    (hp : s.dest.processBest sp = (.ok change, d)) :
    exportStep v s (.process sp) =
      { s with
        dest := d.removeEmpty
        vpn := (v.gpath s.made s.dest.bestPath change).elim s.vpn (v.learn s.vpn)
        made := s.made + 1 } := by
  simp [exportStep, hr, hp]

/-- After a run without an exception, what is held stays, and the rest is what was given. -/
theorem exported_ok_iff (h : ExportSound v s) (he : Exported v s) (hr : s.raised = false)
    {change : VrfChange} {d : VrfDest} (hp : s.dest.processBest sp = (.ok change, d))
    (hnew : ∀ c, change = .new c → Plain v c) :
    Exported v (exportStep v s (.process sp)) ↔
      s.attrsGiven change = (d.bestPath.filter VrfPath.isLocal).map fun b => b.attrs := by
  rw [exportStep_ok hr hp, ← h.given_gpath hnew, ← removeEmpty_bestPath' d]
  have hk := known_elim_learn (v := v) (v.gpath s.made s.dest.bestPath change) s.vpn v.puid
  constructor
  · exact fun h' => h'.given
  · intro hg
    refine ⟨hg, ?_⟩
    dsimp only
    rw [hk.1, hk.2]
    exact he.held

/-- A run of the destination keeps the export in step unless imported paths are all that is left
of a local best path. -/
theorem exported_process_iff (h : ExportSound v s) (he : Exported v s) (sp : Speaker) :
    Exported v (exportStep v s (.process sp)) ↔ LocalStays s (.process sp) := by
  cases hr : s.raised with
  | true =>
    rw [exportStep_raised hr]
    refine iff_of_true he ?_
    rintro _ b L - hr'
    rw [hr] at hr'
    cases hr'
  | false =>
    have hgiven : s.vpn.given.map Path.attrs =
      (s.dest.bestPath.filter VrfPath.isLocal).map fun b => b.attrs := he.given
    have hran := processBest_ran sp s.dest
    cases hp : s.dest.processBest sp with
    | mk res d =>
      rw [hp] at hran
      dsimp only at hran
      cases hran with
      | raised e hb hsel =>
        rw [exportStep_error hr hp]
        refine iff_of_true ⟨?_, he.held⟩ ?_
        · dsimp only
          rw [hb]
          exact he.given
        · rintro _ b L ⟨⟩ - - - hm hne
          refine Or.inr fun c hc => ?_
          obtain ⟨e', he'⟩ := hsel L hm
          rw [selected, if_neg hne, hc] at he'
          cases he'
      | unchanged L best hm hs hsame hb hk hn =>
        rw [exported_ok_iff h he hr hp (fun c hc => by cases hc), hb]
        refine iff_of_true hgiven ?_
        rintro _ b L' ⟨⟩ - hbest - hm' hne
        refine Or.inr fun c hc => ?_
        obtain rfl := Except.ok.inj (hm.symm.trans hm')
        rw [selected, if_neg hne, hc] at hs
        obtain rfl := Except.ok.inj hs
        rw [hbest] at hsame
        exact hsame
      | lost hm hb hk hn =>
        rw [exported_ok_iff h he hr hp (fun c hc => by cases hc), hb]
        refine iff_of_true ?_ ?_
        · dsimp only [ExportState.attrsGiven]
          rw [hgiven]
          cases hbest : s.dest.bestPath with
          | none => rfl
          | some b => cases hl : b.isLocal <;> simp [Option.filter_some, hl]
        · rintro _ b L' ⟨⟩ - - - hm' hne
          obtain rfl := Except.ok.inj (hm.symm.trans hm')
          exact absurd rfl hne
      | new L c hm hs hne hb hk hn =>
        have hplain := h.merged hr hm
        have hmem := selected_mem hs
        have hLne : L ≠ [] := List.ne_nil_of_mem hmem
        have hsel : bestKnown sp L = .ok (some c) := by
          rwa [selected, if_neg hLne] at hs
        have hlocal := bestKnown_isLocal (fun x hx hl => (hplain x hx hl).1) hsel
        rw [exported_ok_iff h he hr hp (fun c' hc => by cases hc; exact hplain c hmem), hb]
        dsimp only [ExportState.attrsGiven]
        cases hl : c.isLocal with
        | true =>
          refine iff_of_true (by simp [Option.filter_some, hl]) ?_
          rintro _ b L' ⟨⟩ - - - hm' -
          obtain rfl := Except.ok.inj (hm.symm.trans hm')
          exact Or.inl (hlocal.mp hl)
        | false =>
          -- the best path is imported, and nothing is withdrawn
          rw [hgiven]
          constructor
          · intro hnone _ b L' _ _ hbest hbl
            simp [hbest, Option.filter_some, hbl, hl] at hnone
          · intro hg
            cases hbest : s.dest.bestPath with
            | none => simp [Option.filter_some, hl]
            | some b =>
              cases hbl : b.isLocal with
              | false => simp [Option.filter_some, hl, hbl]
              | true =>
                rcases hg sp b L rfl hr hbest hbl hm hLne with hloc | hloc
                · rw [hlocal.mpr hloc] at hl
                  cases hl
                · rw [hbest] at hne
                  exact absurd (hloc c hsel) hne

theorem vpnProcess_eq (hr : s.raised = false) (sp : Speaker) :
    exportStep v s (.vpnProcess sp) =
      { s with
        vpn := ⟨(s.vpn.table.process sp v.puid).2, s.vpn.processed ++ s.vpn.pending, []⟩
        raised := !(s.vpn.table.process sp v.puid).1.isOk } := by
  simp [exportStep, hr, tableStep]

theorem vpnProcess_raised (hr : s.raised = true) (sp : Speaker) :
    exportStep v s (.vpnProcess sp) = s := by
  simp [exportStep, hr]

/-- A run of the VPN destination takes over what was given exactly if that is in turn. -/
theorem exported_vpnProcess_iff (h : ExportSound v s) (he : Exported v s) (sp : Speaker) :
    Exported v (exportStep v s (.vpnProcess sp)) ↔ VpnInTurn v s (.vpnProcess sp) := by
  cases hr : s.raised with
  | true =>
    rw [vpnProcess_raised hr]
    refine iff_of_true he ?_
    rintro _ - hr'
    rw [hr] at hr'
    cases hr'
  | false =>
    have hone : (ofSource (s.vpn.table.known v.puid) .nc).length ≤ 1 := by
      rw [he.held]
      cases announced s.vpn.processed .nc <;> simp
    have hmerge := merge_source_iff h.queued .nc he.held
    rw [← ofSource_process_of_le sp hone] at hmerge
    rw [vpnProcess_eq hr]
    constructor
    · rintro ⟨-, hheld⟩ _ - -
      exact hmerge.mp hheld
    · intro hg
      refine ⟨?_, hmerge.mpr (hg sp rfl hr)⟩
      dsimp only
      rw [List.append_nil]
      exact he.given

theorem exported_step_iff (h : ExportSound v s) (he : Exported v s) (e : ExportEvent) :
    Exported v (exportStep v s e) ↔ ExportInTurn v s e := by
  cases e with
  | announce exportRts med nexthop labelList =>
    exact iff_of_true (he.add _ _) ⟨fun _ _ _ hx => (by cases hx), fun _ hx => (by cases hx)⟩
  | withdraw =>
    exact iff_of_true (he.add _ _) ⟨fun _ _ _ hx => (by cases hx), fun _ hx => (by cases hx)⟩
  | importVpn path filtered =>
    refine iff_of_true ?_ ⟨fun _ _ _ hx => (by cases hx), fun _ hx => (by cases hx)⟩
    dsimp only [exportStep]
    split
    · exact he
    · exact he.add _ _
  | process sp =>
    rw [exported_process_iff h he]
    constructor
    · exact fun hl => ⟨hl, fun _ hx => (by cases hx)⟩
    · exact fun hg => hg.1
  | vpnInsert path =>
    refine iff_of_true ?_ ⟨fun _ _ _ hx => (by cases hx), fun _ hx => (by cases hx)⟩
    dsimp only [exportStep]
    split
    · exact he
    · next hs =>
      constructor
      · change ((v.learn s.vpn path).given).map Path.attrs = _
        rw [given_learn_of_ne hs]
        exact he.given
      · dsimp only
        rw [known_learn]
        exact he.held
  | vpnProcess sp =>
    rw [exported_vpnProcess_iff h he]
    constructor
    · exact fun hl => ⟨fun _ _ _ hx => (by cases hx), hl⟩
    · exact fun hg => hg.2

theorem ExportSound.process (h : ExportSound v s) (sp : Speaker) :
    ExportSound v (exportStep v s (.process sp)) := by
  cases hr : s.raised with
  | true =>
    rw [exportStep_raised hr]
    exact h
  | false =>
    have hran := processBest_ran sp s.dest
    cases hp : s.dest.processBest sp with
    | mk res d =>
      rw [hp] at hran
      cases res with
      | error e =>
        rw [exportStep_error hr hp]
        cases hran with
        | raised _ hb _ =>
          exact ⟨h.family, h.queued, fun _ _ hx => (by cases hx), fun _ _ hx => (by cases hx),
            fun b hbest => h.best b (hb ▸ hbest)⟩
      | ok change =>
        rw [exportStep_ok hr hp]
        have hvpn := sound_elim_learn (v := v) h.family h.queued
          (v.gpath s.made s.dest.bestPath change)
        have hplain := fun L => h.merged hr (L := L)
        have hres : ∃ L, s.dest.merged = .ok L ∧ d.knownPathList = L ∧ d.newPathList = [] ∧
            ∀ b, d.bestPath = some b → Plain v b := by
          cases hran with
          | unchanged L best hm hs hsame hb hk hn =>
            exact ⟨L, hm, hk, hn, fun b hbest => h.best b (hb ▸ hbest)⟩
          | lost hm hb hk hn =>
            exact ⟨[], hm, hk, hn, fun b hbest => by simp_all⟩
          | new L c hm hs hne hb hk hn =>
            refine ⟨L, hm, hk, hn, fun b hbest => ?_⟩
            obtain rfl := Option.some.inj (hb.symm.trans hbest)
            exact hplain L hm c (selected_mem hs)
        obtain ⟨L, hm, hk, hn, hb⟩ := hres
        refine ⟨hvpn.1, hvpn.2, ?_, ?_, ?_⟩
        · intro x hx _
          rw [removeEmpty_known, hk] at hx
          exact hplain L hm x hx
        · intro x hx
          rw [removeEmpty_new d hn] at hx
          cases hx
        · intro b hbest
          rw [removeEmpty_bestPath'] at hbest
          exact hb b hbest

theorem ExportSound.exportStep (h : ExportSound v s) (e : ExportEvent) : ExportSound v (exportStep v s e) := by
  cases e with
  | announce exportRts med nexthop labelList => exact h.add (fun _ => plain_localPath _ _ _ _ _) _
  | withdraw => exact h.add (fun hw => (by cases hw)) _
  | importVpn path filtered =>
    dsimp only [Bgp.exportStep]
    split
    · exact h
    · exact h.add (fun _ => plain_toVrf path _) _
  | process sp => exact h.process sp
  | vpnInsert path =>
    dsimp only [Bgp.exportStep]
    split
    · exact h
    · exact ⟨(learn_family _ _).trans h.family, queued_learn h.queued path, h.known, h.new, h.best⟩
  | vpnProcess sp =>
    cases hr : s.raised with
    | true =>
      rw [vpnProcess_raised hr]
      exact h
    | false =>
      have hq : Queued v.puid (tableStep sp v.puid s.vpn (.process v.puid)) :=
        h.queued.tableStep (.process v.puid)
      rw [vpnProcess_eq hr]
      refine ⟨(process_routeFamily _ _ _).trans h.family, ?_, fun x hx _ => h.known x hx hr,
        fun x hx _ => h.new x hx hr, h.best⟩
      simpa [tableStep] using hq

/-- Over every run of local announcements and withdrawals, imports and import withdrawals, other
paths of the VPN table and processing of both destinations: the VPN table has been given the
exported path exactly while the best path is local, and holds it as far as it is processed,
exactly as long as no run of the VRF destination leaves imported paths instead of a local best
path and no run of the VPN destination finds a withdrawal queued after an exported path. -/
theorem exported_iff_inTurn (v : VrfScope) (es : List ExportEvent) :
    Throughout (exportStep v) (Exported v) (.init v) es ↔
      EveryStep (exportStep v) (ExportInTurn v) (.init v) es := by
  apply throughout_iff_everyStep (I := ExportSound v) (fun _ e h => h.exportStep e)
    (fun _ e h he => exported_step_iff h he e)
  · exact ⟨rfl, ⟨rfl, by simp [ExportState.init]⟩, by simp [ExportState.init, VrfDest.init],
      by simp [ExportState.init, VrfDest.init], by simp [ExportState.init, VrfDest.init]⟩
  · exact ⟨rfl, rfl⟩

def vrfOne : VrfScope := ⟨rfIPv4Uc, ⟨1, 128⟩, "65000:1", "10.0.0.0/24"⟩

/-- A path that peer 3 has for the prefix under another route distinguisher. -/
def peerRoute : VpnPath :=
  ⟨7, .peer 3, ⟨"65003:1", "10.0.0.0/24", [17]⟩, (peerPath 3 1 none).attrs, [70, 71],
    some "192.0.2.3", false⟩

/-- The local path is withdrawn while an imported path is known: the exported path stays. -/
theorem exportedPath_stays :
    ¬ Throughout (exportStep vrfOne) (Exported vrfOne) (.init vrfOne)
      [.announce ["65000:1"] none "192.0.2.1" [16], .process threePeers, .vpnProcess threePeers,
        .importVpn peerRoute false, .process threePeers, .withdraw, .process threePeers] := by
  intro h
  have hg := h.last.given
  revert hg
  decide

end Run

end Ryu.Bgp
