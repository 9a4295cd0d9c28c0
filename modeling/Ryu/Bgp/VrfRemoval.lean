import Ryu.Bgp.RtLinks
import Ryu.Bgp.VrfExport

/-! # Removal of a VRF

The removal of a VRF forgets its table, takes the table out of the links by route target, and
withdraws the exports of the local best paths. Destinations of the table that are queued are
processed all the same, and a local path that becomes best then is exported again. So nothing stays
exported if no local path becomes best after the removal, and until then the exports were in step.
-/

namespace Ryu.Bgp

def VrfScope.table (v : VrfScope) : TableId := ⟨v.routeDist, v.routeFamily⟩

/-- The links of the VRF tables, a destination of one of them with its exports, and whether a call
of the table manager has ended in an exception. -/
structure ManagerState where
  links : RtLinks
  exports : ExportState
  failed : Bool
  deriving DecidableEq

/-- VRFs are configured, get other import route targets, and are removed; an update that raises
after it has set the route targets does not notify its listeners. What else a change of a VRF does
to a destination is an event of the destination. -/
inductive ManagerEvent
  | addVrf (table : TableId) (importRts : List String)
  | setImportRts (table : TableId) (importRts : List String) (notified : Bool)
  | removeVrf (table : TableId)
  | destination (e : ExportEvent)

/-- The table is looked up for the event: it does not happen to a table that is removed. -/
def ExportEvent.needsTable : ExportEvent → Bool
  | .announce .. => true
  | .withdraw => true
  | .importVpn .. => true
  | .process _ => false
  | .vpnInsert _ => false
  | .vpnProcess _ => false

section Model

variable (v : VrfScope)

/-- The best path of the destination is withdrawn from the VPN table if it is local. -/
def ExportState.withdrawBest (s : ExportState) : ExportState :=
  { s with
    vpn := (v.gpath s.made s.dest.bestPath .lost).elim s.vpn (v.learn s.vpn)
    made := s.made + 1 }

/-- The VRF of the destination is configured. -/
def ManagerState.configured (s : ManagerState) : Bool := (s.links.importRts.get? v.table).isSome

/-- A VRF that is configured gets a new table. -/
def ManagerState.addVrf (s : ManagerState) (table : TableId) (importRts : List String) :
    ManagerState :=
  { s with
    links := s.links.addVrf table importRts
    exports :=
      if table = v.table ∧ s.configured v = false then { s.exports with dest := .init }
      else s.exports }

/-- `remove_vrf_by_vrf_conf`. -/
def ManagerState.removeVrf (s : ManagerState) (table : TableId) : ManagerState :=
  match s.links.removeVrf table with
  | (.error _, links) => { s with links := links, failed := true }
  | (.ok (), links) =>
    { s with
      links := links
      exports :=
        if table = v.table ∧ s.configured v then s.exports.withdrawBest v else s.exports }

def managerStep (s : ManagerState) : ManagerEvent → ManagerState
  | .addVrf table importRts => s.addVrf v table importRts
  | .setImportRts table importRts notified =>
    let r := s.links.setImportRts table importRts notified
    { s with links := r.2, failed := s.failed || !r.1.isOk }
  | .removeVrf table => s.removeVrf v table
  | .destination e =>
    if e.needsTable && !s.configured v then s else { s with exports := exportStep v s.exports e }

def ManagerState.init : ManagerState := ⟨.init, .init v, false⟩

/-- No id has more withdrawals queued than there are known paths like the one that they find. -/
def WithdrawnOnce (d : VrfDest) : Prop :=
  ∀ w ∈ d.withdrawList, ∀ m ∈ findPuid d.knownPathList w,
    d.withdrawList.countP (fun w' => w'.puid = w.puid) ≤
      d.knownPathList.countP fun p => p.Alike m

/-- The comparisons of the selection raise no exception. -/
def Compares (sp : Speaker) (L : List Path) : Prop := L = [] ∨ (computeBestKnownPath sp L).isOk

instance : DecidablePred WithdrawnOnce := fun d =>
  inferInstanceAs (Decidable (∀ w ∈ d.withdrawList, ∀ m ∈ findPuid d.knownPathList w, _ ≤ _))

instance (sp : Speaker) : DecidablePred (Compares sp) := fun _ =>
  inferInstanceAs (Decidable (_ ∨ _))

/-- The paths that a run of a VPN destination leaves. -/
def Destination.remaining (d : Destination) : List Path :=
  d.removeWithdrawals.removeOldPaths.knownPathList ++ d.newPathList

/-- Processing raises no exception: no path is withdrawn twice, and the paths that are left can be
compared. -/
def Completes (s : ExportState) : ExportEvent → Prop
  | .process sp =>
    WithdrawnOnce s.dest ∧ ∀ L, s.dest.merged = .ok L → Compares sp (L.map VrfPath.toPath)
  | .vpnProcess sp =>
    ∀ d ∈ s.vpn.table.destinations.get? v.puid, Compares sp d.remaining
  | _ => True

/-- If the destination is processed with a local path, none becomes best. -/
def NoneReturns (s : ExportState) : ExportEvent → Prop
  | .process sp => ∀ L, s.dest.merged = .ok L → (∃ p ∈ L, p.isLocal) →
      ∃ b ∈ s.dest.bestPath, ∀ c, bestKnown sp L = .ok (some c) → b.Alike c
  | _ => True

/-- An update passes on the route targets that it sets. Processing raises no exception, keeps the
export in step while the VRF is configured, and makes no local path best afterwards. -/
def RemovalInTurn (s : ManagerState) : ManagerEvent → Prop
  | .addVrf _ _ => True
  | .setImportRts _ _ notified => notified = true
  | .removeVrf _ => True
  | .destination e =>
    VpnInTurn v s.exports e ∧ Completes v s.exports e ∧
      if s.configured v then LocalStays s.exports e else NoneReturns s.exports e

/-- Nothing is left of the VRF: with nothing queued for the exported path, the VPN table has no
path of the network controller under the route distinguisher, no route target refers to the table,
and no exception was raised. -/
structure Gone (s : ManagerState) : Prop where
  notExported : s.exports.vpn.pending = [] →
    ∀ p ∈ s.exports.vpn.table.known v.puid, p.source ≠ .nc
  unlinked : ∀ key, v.table ∉ s.links.tablesForRt.tables key
  completed : s.failed = false ∧ s.exports.raised = false

end Model

section Complete

variable {sp : Speaker} {d : VrfDest} {known ms : List VrfPath}

theorem map_content_eraseP (known : List VrfPath) (m : VrfPath) :
    (known.eraseP fun p => p.Alike m).map VrfPath.content =
      (known.map VrfPath.content).erase m.content := by
  rw [List.erase_eq_eraseP', List.eraseP_map]
  congr 2
  funext p
  rw [Function.comp_apply, Bool.eq_iff_iff, decide_eq_true_iff, beq_iff_eq]
  exact Iff.rfl

theorem exists_alike_iff {m : VrfPath} :
    (∃ p ∈ known, p.Alike m) ↔ 0 < (known.map VrfPath.content).count m.content := by
  rw [List.count_pos_iff, List.mem_map]
  exact Iff.rfl

theorem removeMatches_cons (known : List VrfPath) (m : VrfPath) (ms : List VrfPath) :
    (removeMatches known (m :: ms)).1 = .ok () ↔ (∃ p ∈ known, p.Alike m) ∧
      (removeMatches (known.eraseP fun p => p.Alike m) ms).1 = .ok () := by
  rw [removeMatches, listRemove]
  split_ifs with h
  · simp [h]
  · simp [h]

/-- Matches can be removed if there are as many paths like each as matches like it. -/
theorem removeMatches_ok_iff : (removeMatches known ms).1 = .ok () ↔
    ∀ m ∈ ms, (ms.map VrfPath.content).count m.content ≤
      (known.map VrfPath.content).count m.content := by
  induction ms generalizing known with
  | nil => simp [removeMatches]
  | cons m ms ih =>
    rw [removeMatches_cons, ih, exists_alike_iff, map_content_eraseP, List.map_cons]
    simp only [List.count_erase, List.count_cons, List.forall_mem_cons, beq_iff_eq, if_true]
    constructor
    · rintro ⟨hpos, h⟩
      constructor
      · by_cases hm : m.content ∈ ms.map VrfPath.content
        · obtain ⟨x, hx, hxm⟩ := List.mem_map.mp hm
          have := h x hx
          rw [hxm, if_pos rfl] at this
          omega
        · rw [List.count_eq_zero_of_not_mem hm]
          omega
      · intro x hx
        have := h x hx
        split_ifs at this ⊢ with he
        · rw [← he] at this ⊢
          omega
        · omega
    · rintro ⟨hm, h⟩
      constructor
      · omega
      · intro x hx
        have := h x hx
        split_ifs at this ⊢ with he
        · omega
        · omega

theorem findPuid_congr {w w' : VrfPath} (h : w.puid = w'.puid) :
    findPuid known w = findPuid known w' := by
  rw [findPuid, findPuid, h]

/-- The matches like one are those of the withdrawals of its id. -/
theorem count_matches (ws : List VrfPath) {w m : VrfPath} (h : findPuid known w = some m) :
    ((ws.filterMap (findPuid known)).map VrfPath.content).count m.content =
      ws.countP fun w' => w'.puid = w.puid := by
  induction ws with
  | nil => rfl
  | cons w' ws ih =>
    by_cases hp : w'.puid = w.puid
    · have hf : findPuid known w' = some m := (findPuid_congr hp).trans h
      rw [List.filterMap_cons_some hf, List.map_cons, List.count_cons_self, ih,
        List.countP_cons_of_pos (by simpa using hp)]
    · rw [List.countP_cons_of_neg (by simpa using hp), ← ih]
      cases hf : findPuid known w' with
      | none => rw [List.filterMap_cons_none hf]
      | some m' =>
        have hne : m'.content ≠ m.content := by
          intro he
          have hpuid : m'.puid = m.puid := VrfPath.Alike.puid_eq he
          rw [findPuid_puid hf, findPuid_puid h] at hpuid
          exact hp hpuid
        rw [List.filterMap_cons_some hf, List.map_cons, List.count_cons_of_ne hne]

theorem count_content_known (known : List VrfPath) (m : VrfPath) :
    (known.map VrfPath.content).count m.content = known.countP fun p => p.Alike m := by
  rw [List.count, List.countP_map]
  apply List.countP_congr
  intro p _
  rw [Function.comp_apply, beq_iff_eq, decide_eq_true_iff]
  exact Iff.rfl

/-- Removing the withdrawals raises no exception exactly if none is made too often. -/
theorem removeWithdrawals_ok_iff : d.removeWithdrawals.1 = .ok () ↔ WithdrawnOnce d := by
  have hmatches : (removeMatches d.knownPathList
      (d.withdrawList.filterMap (findPuid d.knownPathList))).1 = .ok () ↔ WithdrawnOnce d := by
    rw [removeMatches_ok_iff]
    constructor
    · intro h w hw m hm
      have := h m (List.mem_filterMap.mpr ⟨w, hw, hm⟩)
      rwa [count_matches _ hm, count_content_known] at this
    · intro h m hm
      obtain ⟨w, hw, hwm⟩ := List.mem_filterMap.mp hm
      rw [count_matches _ hwm, count_content_known]
      exact h w hw m hwm
  rw [← hmatches]
  unfold VrfDest.removeWithdrawals
  split_ifs with hw hk
  · simp [hw, removeMatches]
  · have hnone : d.withdrawList.filterMap (findPuid d.knownPathList) = [] := by
      rw [hk]
      simp [findPuid]
    simp [hnone, removeMatches]
  · dsimp only
    generalize removeMatches _ _ = r
    obtain ⟨e | u, known⟩ := r <;> simp

theorem selected_isOk {L : List VrfPath} (h : Compares sp (L.map VrfPath.toPath)) :
    (selected sp L).isOk := by
  unfold selected bestKnown
  split_ifs with hL
  · rfl
  · rcases h with h | h
    · exact absurd (List.map_eq_nil_iff.mp h) hL
    · cases hc : computeBestKnownPath sp (L.map VrfPath.toPath) with
      | error e => simp [hc, Except.isOk, Except.toBool] at h
      | ok r => rfl

theorem processBest_isOk (hw : WithdrawnOnce d)
    (hc : ∀ L, d.merged = .ok L → Compares sp (L.map VrfPath.toPath)) :
    ∃ change, (d.processBest sp).1 = .ok change := by
  have hran := processBest_ran sp d
  cases hres : (d.processBest sp).1 with
  | ok change => exact ⟨change, rfl⟩
  | error e =>
    rw [hres] at hran
    cases hran with
    | raised _ _ hsel =>
      have hm : d.merged = .ok _ := merged_eq_ok.2 ⟨removeWithdrawals_ok_iff.2 hw, rfl⟩
      obtain ⟨e', he'⟩ := hsel _ hm
      have := selected_isOk (hc _ hm)
      simp [he', Except.isOk, Except.toBool] at this

/-- Selecting among the paths that are left raises no exception. -/
theorem Destination.processPaths_ok {d : Destination} (h : Compares sp d.remaining) :
    ∃ best d', d.processPaths sp = (.ok best, d') ∧ (best = none → d'.knownPathList = []) := by
  unfold Destination.remaining at h
  rw [← newPathList_removeWithdrawals (d := d)] at h
  unfold Destination.processPaths
  dsimp only
  split
  · next new hk hn => exact ⟨some new, _, rfl, fun h => by cases h⟩
  · split_ifs with hnil
    · exact ⟨none, _, rfl, fun _ => hnil⟩
    · change Compares sp (d.removeWithdrawals.removeOldPaths.knownPathList ++
        d.removeWithdrawals.removeOldPaths.newPathList) at h
      rcases h with h | h
      · exact absurd h hnil
      · cases hc : computeBestKnownPath sp _ with
        | error e => simp [hc, Except.isOk, Except.toBool] at h
        | ok r => exact ⟨some r.1, _, rfl, fun h => by cases h⟩

/-- A VPN destination is processed without an exception if the paths left can be compared. -/
theorem Destination.processBest_isOk {d : Destination} (h : Compares sp d.remaining) :
    (d.processBest sp).1.isOk := by
  obtain ⟨best, d', he, hnone⟩ := Destination.processPaths_ok h
  unfold Destination.processBest
  rw [he]
  dsimp only
  cases best with
  | none =>
    rw [if_pos (hnone rfl)]
    split_ifs <;> rfl
  | some new => split_ifs <;> rfl

theorem Table.process_isOk {t : Table} {key : String}
    (h : ∀ d ∈ t.destinations.get? key, Compares sp d.remaining) :
    (t.process sp key).1.isOk := by
  unfold Table.process
  cases hd : t.destinations.get? key with
  | none => rfl
  | some d =>
    have hok := Destination.processBest_isOk (h d hd)
    dsimp only
    generalize d.processBest sp = r at hok ⊢
    obtain ⟨e | change, d'⟩ := r
    · cases hok
    · dsimp only
      split_ifs <;> rfl

end Complete

section Run

variable {v : VrfScope} {s : ExportState} {sp : Speaker} {m : ManagerState}

/-- The export as it is without a destination. -/
def ExportState.bare (s : ExportState) : ExportState := { s with dest := .init }

theorem ExportSound.bare (h : ExportSound v s) : ExportSound v s.bare :=
  ⟨h.family, h.queued, fun _ hp => (by cases hp), fun _ hp => (by cases hp),
    fun _ hb => (by cases hb)⟩

theorem bare_exportStep (s : ExportState) {e : ExportEvent} (hd : e.needsTable = false)
    (hp : ∀ sp, e ≠ .process sp) : (exportStep v s e).bare = exportStep v s.bare e := by
  cases e with
  | announce => cases hd
  | withdraw => cases hd
  | importVpn => cases hd
  | process sp => exact absurd rfl (hp sp)
  | vpnInsert path =>
    dsimp only [exportStep]
    split_ifs <;> rfl
  | vpnProcess sp =>
    have hb : s.bare.raised = s.raised := rfl
    dsimp only [exportStep]
    rw [hb]
    split_ifs <;> rfl

/-- What a run of the destination gives leaves nothing exported if no local path becomes best. -/
theorem attrsGiven_of_noneReturns (hg : s.vpn.given = none) (hn : NoneReturns s (.process sp))
    {change : VrfChange} {d : VrfDest} (hp : s.dest.processBest sp = (.ok change, d)) :
    s.attrsGiven change = none := by
  have hran := processBest_ran sp s.dest
  rw [hp] at hran
  unfold ExportState.attrsGiven
  rw [hg]
  cases hran with
  | unchanged => rfl
  | lost => simp
  | new L c hm hs hne _ _ _ =>
    have hmem := selected_mem hs
    have hsel : bestKnown sp L = .ok (some c) := by
      rwa [selected, if_neg (List.ne_nil_of_mem hmem)] at hs
    cases hl : c.isLocal with
    | false => simp [hl]
    | true =>
      obtain ⟨b, hb, hsame⟩ := hn L hm ⟨c, hmem, hl⟩
      rw [Option.mem_def.mp hb] at hne
      exact absurd (hsame c hsel) hne

/-- Once the VRF is removed, a run of its destination exports nothing. -/
theorem bare_process (h : ExportSound v s) (hr : s.raised = false) (hb : Exported v s.bare)
    (hn : NoneReturns s (.process sp)) : Exported v (exportStep v s (.process sp)).bare := by
  have hg : s.vpn.given = none := Option.map_eq_none_iff.mp hb.given
  have hran := processBest_ran sp s.dest
  cases hp : s.dest.processBest sp with
  | mk res d =>
    rw [hp] at hran
    cases res with
    | error e =>
      rw [exportStep_error hr hp]
      exact ⟨hb.given, hb.held⟩
    | ok change =>
      have hplain : ∀ c, change = .new c → Plain v c := by
        rintro c rfl
        cases hran with
        | new L _ hm hs _ _ _ _ => exact h.merged hr hm c (selected_mem hs)
      have hgiven := h.given_gpath hplain
      rw [attrsGiven_of_noneReturns hg hn hp] at hgiven
      have hk := known_elim_learn (v := v) (v.gpath s.made s.dest.bestPath change) s.vpn v.puid
      rw [exportStep_ok hr hp]
      refine ⟨hgiven, ?_⟩
      unfold ExportState.bare
      dsimp only
      rw [hk.1, hk.2]
      exact hb.held

/-- Withdrawing the local best path takes back what was given. -/
theorem exported_withdrawBest (h : ExportSound v s) (he : Exported v s) :
    Exported v (s.withdrawBest v).bare := by
  have hnew : ∀ c, VrfChange.lost = .new c → Plain v c := fun c hc => by cases hc
  have hgiven := h.given_gpath hnew
  have hk := known_elim_learn (v := v) (v.gpath s.made s.dest.bestPath .lost) s.vpn v.puid
  unfold ExportState.withdrawBest ExportState.bare
  constructor
  · refine hgiven.trans ?_
    unfold ExportState.attrsGiven
    have hold : s.vpn.given.map Path.attrs = _ := he.given
    rw [hold]
    cases hb : s.dest.bestPath with
    | none => rfl
    | some b => cases hl : b.isLocal <;> simp [Option.filter_some, hl, VrfDest.init]
  · dsimp only
    rw [hk.1, hk.2]
    exact he.held

theorem ExportSound.withdrawBest (h : ExportSound v s) : ExportSound v (s.withdrawBest v) := by
  have hvpn := sound_elim_learn (v := v) h.family h.queued (v.gpath s.made s.dest.bestPath .lost)
  exact ⟨hvpn.1, hvpn.2, h.known, h.new, h.best⟩

/-- Every table is linked, nothing has failed, and the export is in step while the VRF is
configured, and withdrawn otherwise. -/
structure ManagerSound (v : VrfScope) (m : ManagerState) : Prop where
  linked : m.links.Linked
  sound : ExportSound v m.exports
  failed : m.failed = false
  raised : m.exports.raised = false
  exported : m.configured v = true → Exported v m.exports
  withdrawn : m.configured v = false → Exported v m.exports.bare

theorem managerSound_init (v : VrfScope) : ManagerSound v (.init v) := by
  have he : Exported v (ExportState.init v) := ⟨rfl, rfl⟩
  have hs : ExportSound v (ExportState.init v) := ⟨rfl, ⟨rfl, by simp [ExportState.init]⟩,
    by simp [ExportState.init, VrfDest.init], by simp [ExportState.init, VrfDest.init],
    by simp [ExportState.init, VrfDest.init]⟩
  exact ⟨RtLinks.linked_init, hs, rfl, rfl, fun _ => he, fun _ => he⟩

theorem get?_addVrf (s : RtLinks) (table t : TableId) (rts : List String) :
    (s.addVrf table rts).importRts.get? t =
      if table = t ∧ s.importRts.get? t = none then some rts else s.importRts.get? t := by
  unfold RtLinks.addVrf
  cases hc : s.importRts.get? table with
  | some old =>
    rw [if_neg]
    rintro ⟨rfl, hn⟩
    rw [hc] at hn
    cases hn
  | none =>
    dsimp only
    rw [Dict.get?_set]
    split_ifs with ht hn hn
    · rfl
    · exact absurd ⟨ht, ht ▸ hc⟩ hn
    · exact absurd hn.1 ht
    · rfl

theorem isSome_setImportRts (s : RtLinks) (table t : TableId) (rts : List String) (b : Bool) :
    ((s.setImportRts table rts b).2.importRts.get? t).isSome = (s.importRts.get? t).isSome := by
  unfold RtLinks.setImportRts
  cases hc : s.importRts.get? table with
  | none => rfl
  | some old =>
    have hset : ((s.importRts.set table rts).get? t).isSome = (s.importRts.get? t).isSome := by
      rw [Dict.get?_set]
      split_ifs with ht
      · rw [← ht, hc]
        rfl
      · rfl
    dsimp only
    split_ifs <;> exact hset

theorem get?_removeVrf (s : RtLinks) (table t : TableId) :
    (s.removeVrf table).2.importRts.get? t =
      if table = t then none else s.importRts.get? t := by
  unfold RtLinks.removeVrf
  cases hc : s.importRts.get? table with
  | none =>
    split_ifs with ht
    · exact ht ▸ hc
    · rfl
  | some rts => exact Dict.get?_erase _ _ _

theorem ManagerSound.addVrf (h : ManagerSound v m) (table : TableId) (rts : List String) :
    ManagerSound v (m.addVrf v table rts) := by
  have hl := h.linked.addVrf table rts
  have hget := get?_addVrf m.links table v.table rts
  unfold ManagerState.addVrf
  by_cases ht : table = v.table ∧ m.configured v = false
  · have hnone : m.links.importRts.get? v.table = none := by
      simpa [ManagerState.configured] using ht.2
    rw [if_pos ⟨ht.1, hnone⟩] at hget
    rw [if_pos ht]
    refine ⟨hl, h.sound.bare, h.failed, h.raised, fun _ => h.withdrawn ht.2, fun hc => ?_⟩
    exact h.withdrawn ht.2
  · have hsame : m.links.importRts.get? v.table =
        (m.links.addVrf table rts).importRts.get? v.table := by
      rw [hget, if_neg]
      rintro ⟨he, hn⟩
      exact ht ⟨he, by simp [ManagerState.configured, hn]⟩
    rw [if_neg ht]
    refine ⟨hl, h.sound, h.failed, h.raised, fun hc => h.exported ?_, fun hc => h.withdrawn ?_⟩ <;>
      · rw [ManagerState.configured, hsame]
        exact hc

theorem ManagerSound.setImportRts (h : ManagerSound v m) (table : TableId) (rts : List String) :
    ManagerSound v (managerStep v m (.setImportRts table rts true)) := by
  obtain ⟨hok, hl⟩ := h.linked.setImportRts table rts
  have hc := isSome_setImportRts m.links table v.table rts true
  refine ⟨hl, h.sound, ?_, h.raised, fun hx => h.exported (hc.symm.trans hx),
    fun hx => h.withdrawn (hc.symm.trans hx)⟩
  dsimp only [managerStep]
  rw [h.failed, hok]
  rfl

theorem ManagerSound.removeVrf (h : ManagerSound v m) (table : TableId) :
    ManagerSound v (m.removeVrf v table) := by
  obtain ⟨hok, hl⟩ := h.linked.removeVrf table
  have hget := get?_removeVrf m.links table v.table
  unfold ManagerState.removeVrf
  generalize m.links.removeVrf table = r at hok hl hget
  obtain ⟨e | u, links⟩ := r
  · cases hok
  · dsimp only at hl hget ⊢
    by_cases ht : table = v.table
    · rw [if_pos ht] at hget
      have hno : (links.importRts.get? v.table).isSome = false := by rw [hget]; rfl
      cases hc : m.configured v with
      | true =>
        rw [if_pos ⟨ht, rfl⟩]
        refine ⟨hl, h.sound.withdrawBest, h.failed, h.raised, fun hx => ?_, fun _ => ?_⟩
        · cases hno.symm.trans hx
        · exact exported_withdrawBest h.sound (h.exported hc)
      | false =>
        rw [if_neg (fun hx => by cases hx.2)]
        refine ⟨hl, h.sound, h.failed, h.raised, fun hx => ?_, fun _ => h.withdrawn hc⟩
        cases hno.symm.trans hx
    · rw [if_neg ht] at hget
      rw [if_neg (fun hx => ht hx.1)]
      refine ⟨hl, h.sound, h.failed, h.raised, fun hc => h.exported ?_,
        fun hc => h.withdrawn ?_⟩ <;>
      · rw [ManagerState.configured, ← hget]
        exact hc

/-- No exception is raised by a step that completes. -/
theorem raised_exportStep (hr : s.raised = false) {e : ExportEvent} (hc : Completes v s e) :
    (exportStep v s e).raised = false := by
  cases e with
  | announce => exact hr
  | withdraw => exact hr
  | importVpn path filtered =>
    dsimp only [exportStep]
    split_ifs <;> exact hr
  | process sp =>
    obtain ⟨change, hok⟩ := processBest_isOk hc.1 hc.2
    cases hp : s.dest.processBest sp with
    | mk res d =>
      obtain rfl : res = .ok change := by rw [hp] at hok; exact hok
      rw [exportStep_ok hr hp]
      exact hr
  | vpnInsert path =>
    dsimp only [exportStep]
    split_ifs <;> exact hr
  | vpnProcess sp =>
    rw [vpnProcess_eq hr, Table.process_isOk hc]
    rfl

theorem ManagerSound.destination (h : ManagerSound v m) {e : ExportEvent}
    (hg : RemovalInTurn v m (.destination e)) :
    ManagerSound v (managerStep v m (.destination e)) := by
  obtain ⟨hvpn, hdone, hstay⟩ := hg
  dsimp only [managerStep]
  have hr := raised_exportStep h.raised hdone
  have hs := h.sound.exportStep e
  cases hc : m.configured v with
  | true =>
    rw [hc, if_pos rfl] at hstay
    rw [Bool.not_true, Bool.and_false, if_neg Bool.false_ne_true]
    refine ⟨h.linked, hs, h.failed, hr, fun _ => ?_, fun hx => ?_⟩
    · exact (exported_step_iff h.sound (h.exported hc) e).mpr ⟨hstay, hvpn⟩
    · cases hc.symm.trans hx
  | false =>
    rw [hc, if_neg Bool.false_ne_true] at hstay
    rw [Bool.not_false, Bool.and_true]
    split_ifs with hn
    · exact h
    · refine ⟨h.linked, hs, h.failed, hr, fun hx => ?_, fun _ => ?_⟩
      · cases hc.symm.trans hx
      · have hb := h.withdrawn hc
        cases e with
        | process sp => exact bare_process h.sound h.raised hb hstay
        | announce => exact absurd rfl hn
        | withdraw => exact absurd rfl hn
        | importVpn => exact absurd rfl hn
        | vpnInsert path =>
          rw [bare_exportStep m.exports rfl (fun _ => by simp)]
          exact (exported_step_iff h.sound.bare hb _).mpr
            ⟨fun _ _ _ hx => (by cases hx), fun _ hx => (by cases hx)⟩
        | vpnProcess sp =>
          rw [bare_exportStep m.exports rfl (fun _ => by simp)]
          exact (exported_step_iff h.sound.bare hb _).mpr ⟨fun _ _ _ hx => (by cases hx), hvpn⟩

theorem ManagerSound.step (h : ManagerSound v m) {e : ManagerEvent} (hg : RemovalInTurn v m e) :
    ManagerSound v (managerStep v m e) := by
  cases e with
  | addVrf table rts => exact h.addVrf table rts
  | setImportRts table rts notified =>
    obtain rfl : notified = true := hg
    exact h.setImportRts table rts
  | removeVrf table => exact h.removeVrf table
  | destination e => exact h.destination hg

theorem configured_removeVrf (m : ManagerState) : (m.removeVrf v v.table).configured v = false := by
  have hget := get?_removeVrf m.links v.table v.table
  rw [if_pos rfl] at hget
  unfold ManagerState.removeVrf
  generalize m.links.removeVrf v.table = r at hget
  obtain ⟨e | u, links⟩ := r <;>
  · unfold ManagerState.configured
    dsimp only at hget ⊢
    rw [hget]
    rfl

/-- A VRF is configured by an event of its own only. -/
theorem configured_managerStep (hc : m.configured v = false) {e : ManagerEvent}
    (he : ∀ rts, e ≠ .addVrf v.table rts) : (managerStep v m e).configured v = false := by
  have hnone : m.links.importRts.get? v.table = none := by
    simpa [ManagerState.configured] using hc
  cases e with
  | addVrf table rts =>
    have hget := get?_addVrf m.links table v.table rts
    have ht : table ≠ v.table := by
      rintro rfl
      exact he rts rfl
    rw [if_neg (fun hx => ht hx.1), hnone] at hget
    change Option.isSome ((m.links.addVrf table rts).importRts.get? v.table) = false
    rw [hget]
    rfl
  | setImportRts table rts notified =>
    exact (isSome_setImportRts m.links table v.table rts notified).trans hc
  | removeVrf table =>
    have hget := get?_removeVrf m.links table v.table
    rw [hnone, ite_self] at hget
    dsimp only [managerStep]
    unfold ManagerState.removeVrf
    generalize m.links.removeVrf table = r at hget
    obtain ⟨e | u, links⟩ := r <;>
    · unfold ManagerState.configured
      dsimp only at hget ⊢
      rw [hget]
      rfl
  | destination e =>
    dsimp only [managerStep]
    split_ifs <;> exact hc

theorem configured_foldl {es : List ManagerEvent} (hes : ∀ rts, .addVrf v.table rts ∉ es)
    (hc : m.configured v = false) : (es.foldl (managerStep v) m).configured v = false := by
  induction es generalizing m with
  | nil => exact hc
  | cons e es ih =>
    apply ih (fun rts hx => hes rts (List.mem_cons_of_mem _ hx))
    apply configured_managerStep hc
    rintro rts rfl
    exact hes rts List.mem_cons_self

/-- Nothing is left of a VRF that is not configured any more. -/
theorem ManagerSound.gone (h : ManagerSound v m) (hc : m.configured v = false) : Gone v m := by
  have hb := h.withdrawn hc
  refine ⟨fun hp p hmem hs => ?_, fun key hmem => ?_, h.failed, h.raised⟩
  · have hgiven : (announced (m.exports.vpn.processed ++ m.exports.vpn.pending) .nc).map
        Path.attrs = none := hb.given
    rw [hp, List.append_nil, Option.map_eq_none_iff] at hgiven
    have hheld : ofSource (m.exports.vpn.table.known v.puid) .nc =
        (announced m.exports.vpn.processed .nc).toList := hb.held
    rw [hgiven] at hheld
    have : p ∈ ofSource (m.exports.vpn.table.known v.puid) .nc :=
      List.mem_filter.mpr ⟨hmem, by simpa using hs⟩
    rw [hheld] at this
    cases this
  · have himp : m.links.imports v.table = [] := by
      have hnone : m.links.importRts.get? v.table = none := by
        simpa [ManagerState.configured] using hc
      rw [RtLinks.imports, hnone]
      rfl
    have := ((h.linked v.table key).mp hmem).2
    rw [himp] at this
    cases this

/-- A run in which the VRF is configured once, and removed later. -/
def removalRun (v : VrfScope) (importRts : List String) (before during after : List ManagerEvent) :
    List ManagerEvent :=
  before ++ .addVrf v.table importRts :: (during ++ .removeVrf v.table :: after)

/-- Over every run of configured, changed and removed VRFs, local announcements and withdrawals,
imports, other paths of the VPN table and processing of both destinations, whatever is queued when
the VRF is removed: if updates pass on the route targets that they set, processing raises no
exception and keeps the export in step until the removal, and no local path becomes best after it,
nothing is left of the VRF. -/
theorem gone_of_inTurn (v : VrfScope) (importRts : List String)
    (before during after : List ManagerEvent)
    (hone : ∀ rts, .addVrf v.table rts ∉ before ++ during ++ after)
    (h : EveryStep (managerStep v) (RemovalInTurn v) (.init v)
      (removalRun v importRts before during after)) :
    Gone v ((removalRun v importRts before during after).foldl (managerStep v) (.init v)) := by
  have hs := (throughout_of_everyStep (managerSound_init v)
    (fun _ _ hm hg => ManagerSound.step hm hg) h).last
  apply hs.gone
  rw [removalRun, List.foldl_append, List.foldl_cons, List.foldl_append, List.foldl_cons]
  apply configured_foldl
  · intro rts hx
    exact hone rts (List.mem_append_right _ hx)
  · exact configured_removeVrf _

/-- The run of a VRF with one local path that is withdrawn from the VPN table at the removal. -/
def orderlyRun : List ManagerEvent :=
  [.destination (.announce ["65000:1"] none "192.0.2.1" [16]), .destination (.process threePeers),
    .destination (.vpnProcess threePeers)]

theorem gone_orderlyRun :
    Gone vrfOne ((removalRun vrfOne ["65000:1"] [] orderlyRun
      [.destination (.vpnProcess threePeers)]).foldl (managerStep vrfOne) (.init vrfOne)) := by
  apply gone_of_inTurn
  · intro rts
    simp [orderlyRun]
  · refine ⟨trivial, ⟨?_, trivial, ?_⟩, ⟨?_, ⟨by decide, ?_⟩, ?_⟩, ⟨?_, ?_, ?_⟩, trivial,
      ⟨?_, ?_, ?_⟩, trivial⟩
    · rintro _ ⟨⟩
    · rw [if_pos (by decide)]
      rintro _ _ _ ⟨⟩
    · rintro _ ⟨⟩
    · intro L hL
      obtain rfl : _ = L := Except.ok.inj hL
      decide
    · rw [if_pos (by decide)]
      rintro _ b _ - - hb
      cases hb
    · rintro _ ⟨⟩ -
      decide
    · change ∀ d ∈ _, Compares threePeers (Destination.remaining d)
      decide
    · rw [if_pos (by decide)]
      rintro _ _ _ ⟨⟩
    · rintro _ ⟨⟩ -
      decide
    · change ∀ d ∈ _, Compares threePeers (Destination.remaining d)
      decide
    · rw [if_neg (by decide)]
      trivial

/-- The VRF is removed while a local announcement is queued. -/
theorem gone_queuedAnnouncement :
    ¬ Gone vrfOne ((removalRun vrfOne ["65000:1"] []
      [.destination (.announce ["65000:1"] none "192.0.2.1" [16])]
      [.destination (.process threePeers), .destination (.vpnProcess threePeers)]).foldl
        (managerStep vrfOne) (.init vrfOne)) := by
  intro h
  have hn := h.notExported
  revert hn
  decide

end Run

end Ryu.Bgp
