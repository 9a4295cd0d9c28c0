import Mathlib.Data.Finset.Basic
import Ryu.Lib.Python
import Ryu.Rtconf.VrfConf

/-! # Updates of a VRF's configuration

When `update` is right: it either takes all the given settings and tells of the change, or raises
and has changed nothing.
-/

namespace Ryu.Rtconf

namespace VrfConf

/-- A list of texts is given that holds the elements of a set. -/
def GivenTexts (v : Value) (s : Finset Text) : Prop :=
  ∃ l, v = .list l ∧ ∀ x, x ∈ l ↔ ∃ a ∈ s, x = .str a

/-- The settings of `c'` are those given to an update of `c`, those left out by default. -/
structure AsGiven (kw : Kwargs) (c c' : VrfConf) : Prop where
  id : kw.getD "id" .none = .str c'.id
  routeDist : kw.getD "route_dist" .none = .str c'.routeDist
  routeFamily : kw.getD "route_family" .none = (c'.routeFamily.map Value.str).getD .none
  statsLogEnabled : kw.optional "statistics_log_enabled" (.bool false) = .bool c'.statsLogEnabled
  statsTime : kw.optional "statistics_interval" (.int 60) = .int c'.statsTime
  name : kw.optional "name" (.str c.str) = .str c'.name
  description : kw.optional "description" (.str c.str) = .str c'.description
  importRts : GivenTexts (kw.getD "import_rts" .none) c'.importRts
  exportRts : GivenTexts (kw.getD "export_rts" .none) c'.exportRts
  sooList : GivenTexts (kw.getD "site_of_origins" (.list [])) c'.sooList
  multiExitDisc : (kw.getD "multi_exit_disc" .none).eq c'.multiExitDisc
  importMaps : (kw.getD "import_maps" (.list [])).toSet? = c'.importMaps.toSet?

/-- The event that tells of the difference between two configurations, if there is one. -/
def changeEvent (kw : Kwargs) (c c' : VrfConf) : Option VrfChange :=
  let rtsChanged := c'.importRts ≠ c.importRts
  let reExport := c'.exportRts ≠ c.exportRts ∨ c'.sooList ≠ c.sooList ∨
    ¬ c'.multiExitDisc.eq c.multiExitDisc
  let reImport := c'.importMaps.toSet? ≠ c.importMaps.toSet?
  if rtsChanged ∨ reExport ∨ reImport then
    some {
      newImportRts := if rtsChanged then some (c'.importRts \ c.importRts) else none
      oldImportRts := if rtsChanged then some (c.importRts \ c'.importRts) else none
      importMaps := kw.getD "import_maps" (.list [])
      reExport := reExport
      reImport := reImport }
  else none

/-- The `VRF_CHG_EVT` calls of listeners. -/
def vrfChanges (c : VrfConf) : List VrfChange := c.notices.filterMap Notice.vrfChange

/-- An update took the given settings and told of the change once, or raised and did nothing. -/
def UpdateRight (c : VrfConf) (t : Texts) (kw : Kwargs) : Prop :=
  match c.update t kw with
  | (c', none) =>
    AsGiven kw c c' ∧ c'.vrfChanges = c.vrfChanges ++ (changeEvent kw c c').toList
  | (c', some _) => c' = c

/-- No check of `update` fails, and the name and the description are not given empty. -/
def Accepted (c : VrfConf) (t : Texts) (kw : Kwargs) : Prop :=
  (∀ st ∈ Updating.stages t kw, st.refuses (Updating.init c) = none) ∧
    kw.getD "name" .none ≠ .str [] ∧ kw.getD "description" .none ≠ .str []

/-- A check of `update` fails, and what is set before the first that does is set already. -/
def RefusedUnchanged (c : VrfConf) (t : Texts) (kw : Kwargs) : Prop :=
  (∃ st ∈ Updating.stages t kw, st.refuses (Updating.init c) ≠ none) ∧
    ∀ st ∈ Stage.passed (Updating.stages t kw) (Updating.init c), st.changes (Updating.init c) = false

end VrfConf

namespace Updating

variable {t : Texts} {kw : Kwargs}

theorem stages_apart : (stages t kw).Pairwise Stage.Apart := by
  unfold stages
  simp only [List.pairwise_cons, List.forall_mem_cons, List.not_mem_nil, IsEmpty.forall_iff,
    implies_true, and_true, List.Pairwise.nil]
  repeat' constructor
  all_goals intro u; rfl

theorem showsIn_of_changes_false {st : Stage Updating ConfError} (h : ∀ u, st.changes u = false) :
    st.ShowsIn conf := by
  intro u u' hc
  rw [h u] at hc
  cases hc

theorem stages_showIn : ∀ st ∈ stages t kw, st.ShowsIn conf := by
  unfold stages
  simp only [List.forall_mem_cons, List.not_mem_nil, IsEmpty.forall_iff, implies_true, and_true]
  refine ⟨showsIn_of_changes_false fun _ => rfl, ?_, ?_, ?_, ?_,
    showsIn_of_changes_false fun _ => rfl, ?_, ?_, ?_, ?_, ?_⟩
  · exact fun u u' hc hs he =>
      of_decide_eq_true hc (hs.symm.trans (congrArg VrfConf.statsLogEnabled he))
  · exact fun u u' hc hs he =>
      of_decide_eq_true hc (hs.symm.trans (congrArg VrfConf.statsTime he))
  · exact fun u u' hc hs he =>
      of_decide_eq_true hc (hs.symm.trans (congrArg VrfConf.name he))
  · exact fun u u' hc hs he =>
      of_decide_eq_true hc (hs.symm.trans (congrArg VrfConf.description he))
  · exact fun u u' hc hs he =>
      of_decide_eq_true hc ((congrArg Prod.fst hs).symm.trans (congrArg VrfConf.importRts he))
  · exact fun u u' hc hs he =>
      of_decide_eq_true hc ((congrArg Prod.fst hs).symm.trans (congrArg VrfConf.exportRts he))
  · exact fun u u' hc hs he =>
      of_decide_eq_true hc ((congrArg Prod.fst hs).symm.trans (congrArg VrfConf.sooList he))
  · intro u u' hc hs he
    have hm : givenMed kw = u.conf.multiExitDisc :=
      (congrArg Prod.fst hs).symm.trans (congrArg VrfConf.multiExitDisc he)
    exact of_decide_eq_true hc (hm ▸ Value.eq_refl _)
  · intro u u' hc hs he
    have hm : givenImportMaps kw = u.conf.importMaps :=
      (congrArg Prod.fst hs).symm.trans (congrArg VrfConf.importMaps he)
    exact of_decide_eq_true hc (congrArg Value.toSet? hm)

/-- What no stage touches. -/
theorem runAll_unset (c : VrfConf) :
    let c' := (Stage.runAll (stages t kw) (init c)).1.conf
    c'.id = c.id ∧ c'.routeDist = c.routeDist ∧ c'.routeFamily = c.routeFamily ∧
      c'.vrfChanges = c.vrfChanges := by
  apply Stage.runAll_keeps (P := fun u : Updating => u.conf.id = c.id ∧
    u.conf.routeDist = c.routeDist ∧ u.conf.routeFamily = c.routeFamily ∧
    u.conf.vrfChanges = c.vrfChanges) _ ⟨rfl, rfl, rfl, rfl⟩
  unfold stages
  simp only [List.forall_mem_cons, List.not_mem_nil, IsEmpty.forall_iff, implies_true, and_true]
  have hnotice : ∀ (l : List Notice) (n : Notice), n.vrfChange = none →
      (l ++ [n]).filterMap Notice.vrfChange = l.filterMap Notice.vrfChange := by
    intro l n hn
    simp [hn]
  refine ⟨fun u h => h, ?_, ?_, ?_, ?_, fun u h => h, fun u h => h, fun u h => h, fun u h => h,
    fun u h => h, fun u h => h⟩
  all_goals exact fun u h => ⟨h.1, h.2.1, h.2.2.1, (hnotice _ _ rfl).trans h.2.2.2⟩

/-- An update of `c` that no check refused has come to `u`. -/
structure Completed (t : Texts) (kw : Kwargs) (c : VrfConf) (u : Updating) : Prop where
  statsLogEnabled : u.conf.statsLogEnabled = (givenStatsLogEnabled kw).asBool
  statsTime : u.conf.statsTime = (givenStatsTime kw).asInt
  name : u.conf.name = newName t kw c
  description : u.conf.description = newDescription kw c
  importRts : u.conf.importRts = (givenImportRts kw).texts
  newImpRts : u.locals.newImpRts =
    if u.conf.importRts ≠ c.importRts then some (u.conf.importRts \ c.importRts) else none
  oldImpRts : u.locals.oldImpRts =
    if u.conf.importRts ≠ c.importRts then some (c.importRts \ u.conf.importRts) else none
  exportRts : u.conf.exportRts = (givenExportRts kw).texts
  exportRtsChanged : u.locals.exportRtsChanged = decide (u.conf.exportRts ≠ c.exportRts)
  sooList : u.conf.sooList = (givenSooList kw).texts
  soosListChanged : u.locals.soosListChanged = decide (u.conf.sooList ≠ c.sooList)
  multiExitDisc : (givenMed kw).eq u.conf.multiExitDisc
  medChanged : u.locals.medChanged = !u.conf.multiExitDisc.eq c.multiExitDisc
  importMaps : (givenImportMaps kw).toSet? = u.conf.importMaps.toSet?
  reImportNeeded : u.locals.reImportNeeded =
    decide (u.conf.importMaps.toSet? ≠ c.importMaps.toSet?)

/-- A stage that sets a field to what is given if that differs. -/
theorem slot_write_eq {st : Stage Updating ConfError} {a : st.Slot} {u : Updating}
    (hc : st.changes u → st.slot (st.apply u) = a) (hn : st.changes u = false → st.slot u = a) :
    st.slot (st.write u) = a := by
  cases h : st.changes u with
  | true => rw [Stage.write_of_changes h, hc h]
  | false => rw [Stage.write_of_not_changes h, hn h]

theorem slot_statsLogEnabled (u : Updating) :
    (statsLogEnabled kw).slot ((statsLogEnabled kw).write u) = (givenStatsLogEnabled kw).asBool :=
  slot_write_eq (fun _ => rfl) fun h => (not_not.mp (of_decide_eq_false h)).symm

theorem slot_statsTime (u : Updating) :
    (statsTime kw).slot ((statsTime kw).write u) = (givenStatsTime kw).asInt :=
  slot_write_eq (fun _ => rfl) fun h => (not_not.mp (of_decide_eq_false h)).symm

theorem slot_name (u : Updating) :
    (name t kw).slot ((name t kw).write u) = newName t kw u.conf :=
  slot_write_eq (fun _ => rfl) fun h => (not_not.mp (of_decide_eq_false h)).symm

theorem slot_description (u : Updating) :
    (description kw).slot ((description kw).write u) = newDescription kw u.conf :=
  slot_write_eq (fun _ => rfl) fun h => (not_not.mp (of_decide_eq_false h)).symm

theorem slot_updateImportRts (c : VrfConf) :
    (updateImportRts t kw).slot ((updateImportRts t kw).write (init c)) =
      ((givenImportRts kw).texts,
        if (givenImportRts kw).texts ≠ c.importRts then
          some ((givenImportRts kw).texts \ c.importRts) else none,
        if (givenImportRts kw).texts ≠ c.importRts then
          some (c.importRts \ (givenImportRts kw).texts) else none) := by
  apply slot_write_eq
  · intro h
    have hne : (givenImportRts kw).texts ≠ c.importRts := of_decide_eq_true h
    rw [if_pos hne, if_pos hne]
    rfl
  · intro h
    have he : (givenImportRts kw).texts = c.importRts := not_not.mp (of_decide_eq_false h)
    rw [he, if_neg (not_not.mpr rfl)]
    rfl

theorem slot_updateExportRts (c : VrfConf) :
    (updateExportRts t kw).slot ((updateExportRts t kw).write (init c)) =
      ((givenExportRts kw).texts, decide ((givenExportRts kw).texts ≠ c.exportRts)) := by
  apply slot_write_eq
  · intro h
    exact Prod.ext rfl h.symm
  · intro h
    exact Prod.ext (not_not.mp (of_decide_eq_false h)).symm h.symm

theorem slot_updateSooList (c : VrfConf) :
    (updateSooList t kw).slot ((updateSooList t kw).write (init c)) =
      ((givenSooList kw).texts, decide ((givenSooList kw).texts ≠ c.sooList)) := by
  apply slot_write_eq
  · intro h
    exact Prod.ext rfl h.symm
  · intro h
    exact Prod.ext (not_not.mp (of_decide_eq_false h)).symm h.symm

theorem slot_updateMed (c : VrfConf) {u : Updating}
    (hu : (updateMed kw).slot u = (updateMed kw).slot ((updateMed kw).write (init c))) :
    (givenMed kw).eq u.conf.multiExitDisc ∧
      u.locals.medChanged = !u.conf.multiExitDisc.eq c.multiExitDisc := by
  cases h : (updateMed kw).changes (init c) with
  | true =>
    rw [Stage.write_of_changes h] at hu
    have hm : u.conf.multiExitDisc = givenMed kw := congrArg Prod.fst hu
    have hc : u.locals.medChanged = true := congrArg Prod.snd hu
    have hne : ¬ (givenMed kw).eq c.multiExitDisc := of_decide_eq_true h
    rw [hm, hc, Bool.eq_false_iff.mpr hne]
    exact ⟨Value.eq_refl _, rfl⟩
  | false =>
    rw [Stage.write_of_not_changes h] at hu
    have hm : u.conf.multiExitDisc = c.multiExitDisc := congrArg Prod.fst hu
    have hc : u.locals.medChanged = false := congrArg Prod.snd hu
    rw [hm, hc, Value.eq_refl]
    exact ⟨not_not.mp (of_decide_eq_false h), rfl⟩

theorem slot_updateImportmaps (c : VrfConf) {u : Updating}
    (hu : (updateImportmaps kw).slot u =
      (updateImportmaps kw).slot ((updateImportmaps kw).write (init c))) :
    (givenImportMaps kw).toSet? = u.conf.importMaps.toSet? ∧
      u.locals.reImportNeeded = decide (u.conf.importMaps.toSet? ≠ c.importMaps.toSet?) := by
  cases h : (updateImportmaps kw).changes (init c) with
  | true =>
    rw [Stage.write_of_changes h] at hu
    have hm : u.conf.importMaps = givenImportMaps kw := congrArg Prod.fst hu
    have hc : u.locals.reImportNeeded = true := congrArg Prod.snd hu
    rw [hm, hc]
    exact ⟨rfl, h.symm⟩
  | false =>
    rw [Stage.write_of_not_changes h] at hu
    have hm : u.conf.importMaps = c.importMaps := congrArg Prod.fst hu
    have hc : u.locals.reImportNeeded = false := congrArg Prod.snd hu
    rw [hm, hc]
    exact ⟨not_not.mp (of_decide_eq_false h), by simp⟩

theorem completed (c : VrfConf) (hp : ∀ st ∈ stages t kw, st.refuses (init c) = none) :
    Completed t kw c (Stage.runAll (stages t kw) (init c)).1 := by
  have hslot : ∀ st ∈ stages t kw,
      st.slot (Stage.runAll (stages t kw) (init c)).1 = st.slot (st.write (init c)) := by
    intro st hst
    apply Stage.slot_runAll stages_apart
    rw [Stage.passed, List.takeWhile_eq_self_iff.mpr fun st' hst' => by simp [hp st' hst']]
    exact hst
  generalize Stage.runAll (stages t kw) (init c) = r at hslot
  unfold stages at hslot
  simp only [List.forall_mem_cons, List.not_mem_nil, IsEmpty.forall_iff, implies_true,
    and_true] at hslot
  obtain ⟨-, hlog, htime, hname, hdesc, -, himp, hexp, hsoo, hmed, hmaps⟩ := hslot
  have himp' := himp.trans (slot_updateImportRts c)
  have hexp' := hexp.trans (slot_updateExportRts c)
  have hsoo' := hsoo.trans (slot_updateSooList c)
  have hi : r.1.conf.importRts = (givenImportRts kw).texts := congrArg Prod.fst himp'
  have he : r.1.conf.exportRts = (givenExportRts kw).texts := congrArg Prod.fst hexp'
  have hs : r.1.conf.sooList = (givenSooList kw).texts := congrArg Prod.fst hsoo'
  constructor
  · exact hlog.trans (slot_statsLogEnabled _)
  · exact htime.trans (slot_statsTime _)
  · exact hname.trans (slot_name _)
  · exact hdesc.trans (slot_description _)
  · exact hi
  · rw [hi]
    exact congrArg (fun x => x.2.1) himp'
  · rw [hi]
    exact congrArg (fun x => x.2.2) himp'
  · exact he
  · rw [he]
    exact congrArg Prod.snd hexp'
  · exact hs
  · rw [hs]
    exact congrArg Prod.snd hsoo'
  · exact (slot_updateMed c hmed).1
  · exact (slot_updateMed c hmed).2
  · exact (slot_updateImportmaps c hmaps).1
  · exact (slot_updateImportmaps c hmaps).2

/-- `notify` only tells of the update. -/
theorem settings_notify (u : Updating) : u.notify kw = { u.conf with
    notices := (u.notify kw).notices } := by
  unfold notify
  dsimp only
  split_ifs <;> rfl

/-- `notify` tells of the difference that the update made. -/
theorem notices_notify {c : VrfConf} {u : Updating} (h : Completed t kw c u) :
    (u.notify kw).notices =
      u.conf.notices ++ ((VrfConf.changeEvent kw c u.conf).map Notice.vrfChg).toList := by
  have hre : (u.locals.exportRtsChanged || u.locals.soosListChanged || u.locals.medChanged) =
      decide (u.conf.exportRts ≠ c.exportRts ∨ u.conf.sooList ≠ c.sooList ∨
        ¬ u.conf.multiExitDisc.eq c.multiExitDisc) := by
    rw [h.exportRtsChanged, h.soosListChanged, h.medChanged]
    simp [Bool.or_assoc]
  unfold notify VrfConf.changeEvent
  dsimp only
  rw [hre, h.newImpRts, h.oldImpRts, h.reImportNeeded]
  simp only [decide_eq_true_iff]
  by_cases hi : u.conf.importRts = c.importRts
  · simp only [ne_eq, hi, not_true_eq_false, if_false, Option.isSome_none, Bool.false_eq_true,
      false_or]
    split_ifs
    · rfl
    · exact (List.append_nil _).symm
  · simp only [ne_eq, hi, not_false_eq_true, if_true, Option.isSome_some, true_or]
    rfl

theorem vrfChanges_notify {c : VrfConf} {u : Updating} (h : Completed t kw c u)
    (hc : u.conf.vrfChanges = c.vrfChanges) :
    (u.notify kw).vrfChanges =
      c.vrfChanges ++ (VrfConf.changeEvent kw c (u.notify kw)).toList := by
  have he : VrfConf.changeEvent kw c (u.notify kw) = VrfConf.changeEvent kw c u.conf := by
    rw [settings_notify]
    rfl
  rw [he, VrfConf.vrfChanges, notices_notify h, List.filterMap_append, ← hc]
  cases VrfConf.changeEvent kw c u.conf <;> rfl

theorem ne_nil_repr (c : VrfConf) : c.repr t ≠ [] :=
  List.append_ne_nil_of_right_ne_nil _ (by decide)

theorem ne_nil_str (c : VrfConf) : c.str ≠ [] :=
  List.append_ne_nil_of_left_ne_nil (by decide) _

/-- A setting with a default is empty only if it was given so. -/
theorem optional_eq_nil_iff {name : String} {d : Text} (hd : d ≠ []) :
    kw.optional name (.str d) = .str [] ↔ kw.getD name .none = .str [] := by
  unfold Kwargs.optional
  split_ifs with h
  · simp [h, hd]
  · rfl

/-- A text setting is as given unless it was given empty: then its setter takes another text. -/
theorem optional_eq_str_iff {name : String} {d alt new : Text} (hd : d ≠ []) (halt : alt ≠ [])
    (hv : kw.optional name (.str d) = .str (kw.optional name (.str d)).asText)
    (hnew : new = if (kw.optional name (.str d)).asText = [] then alt
      else (kw.optional name (.str d)).asText) :
    kw.optional name (.str d) = .str new ↔ kw.getD name .none ≠ .str [] := by
  rw [Ne, ← optional_eq_nil_iff hd]
  by_cases hz : (kw.optional name (.str d)).asText = []
  · rw [if_pos hz] at hnew
    rw [hz] at hv
    rw [hv, hnew]
    simpa using halt.symm
  · rw [if_neg hz] at hnew
    rw [hnew]
    refine ⟨fun _ he => hz ?_, fun _ => hv⟩
    rw [he]
    rfl

end Updating

namespace VrfConf

variable {t : Texts} {kw : Kwargs} {c : VrfConf}

open Updating

theorem update_of_accepted (hp : ∀ st ∈ stages t kw, st.refuses (Updating.init c) = none) :
    ∃ u, c.update t kw = (u.notify kw, none) ∧ Completed t kw c u ∧
      u.conf.id = c.id ∧ u.conf.routeDist = c.routeDist ∧ u.conf.routeFamily = c.routeFamily ∧
      u.conf.vrfChanges = c.vrfChanges := by
  refine ⟨_, ?_, completed c hp, runAll_unset c⟩
  have hn := (Stage.runAll_snd_eq_none_iff stages_apart (Updating.init c)).mpr hp
  unfold update
  split
  · next he => cases (congrArg Prod.snd he).symm.trans hn
  · next he => rw [he]

theorem asGiven_iff {u : Updating} (hp : ∀ st ∈ stages t kw, st.refuses (Updating.init c) = none)
    (h : Completed t kw c u) (hu : u.conf.id = c.id ∧ u.conf.routeDist = c.routeDist ∧
      u.conf.routeFamily = c.routeFamily) :
    AsGiven kw c (u.notify kw) ↔
      kw.getD "name" .none ≠ .str [] ∧ kw.getD "description" .none ≠ .str [] := by
  unfold stages at hp
  simp only [List.forall_mem_cons, List.not_mem_nil, IsEmpty.forall_iff, implies_true,
    and_true] at hp
  obtain ⟨-, hlog, htime, hname, hdesc, hmatch, himp, hexp, hsoo, -, -⟩ := hp
  have hlog := eq_bool_of_validateStatsLogEnabled hlog
  have htime := eq_int_of_validateStatsTime htime
  have hname := eq_str_of_validateConfName hname
  have hdesc := eq_str_of_validateConfDesc hdesc
  obtain ⟨hid, hrd, hrf⟩ : Matches kw c := by
    by_contra hm
    simp [matched, Updating.init, hm] at hmatch
  have hname' := optional_eq_str_iff (ne_nil_str c) (ne_nil_repr (t := t) c) hname h.name
  have hdesc' := optional_eq_str_iff (ne_nil_str c) (ne_nil_str c) hdesc h.description
  rw [settings_notify]
  constructor
  · exact fun hg => ⟨hname'.mp hg.name, hdesc'.mp hg.description⟩
  · rintro ⟨hn, hd⟩
    constructor
    · exact hid.trans (congrArg Value.str hu.1.symm)
    · exact hrd.trans (congrArg Value.str hu.2.1.symm)
    · rw [hrf, hu.2.2]
    · exact hlog.trans (congrArg Value.bool h.statsLogEnabled.symm)
    · exact htime.trans (congrArg Value.int h.statsTime.symm)
    · exact hname'.mpr hn
    · exact hdesc'.mpr hd
    · rw [h.importRts]
      exact mem_of_validateExtComms himp
    · rw [h.exportRts]
      exact mem_of_validateExtComms hexp
    · rw [h.sooList]
      exact mem_of_validateExtComms hsoo
    · exact h.multiExitDisc
    · exact h.importMaps

/-- A family that is configured is supported. -/
theorem routeFamily_create {uuid f : Text} (h : create t uuid kw = .ok c)
    (hf : c.routeFamily = some f) : supportedVrfRf.contains f := by
  unfold create at h
  simp only [bind_eq_ok] at h
  obtain ⟨_, _, _, _, _, _, _, _, _, _, _, _, _, _, _, _, _, _, _, _, _, _, vrfRf, hrf, hc⟩ := h
  obtain rfl := Except.ok.inj hc
  obtain ⟨v, rfl, rfl⟩ := Option.map_eq_some_iff.mp hf
  unfold ifGiven at hrf
  split at hrf
  · obtain ⟨u, hcheck, hv⟩ := map_eq_ok.1 hrf
    obtain rfl := Option.some.inj hv
    unfold check at hcheck
    split at hcheck
    · cases hcheck
    · next hnone =>
      generalize kw.getD "route_family" (.str "ipv4".toList) = w at hnone
      unfold validateVrfRf at hnone
      split at hnone
      · split at hnone
        · next hmem => exact hmem
        · cases hnone
      · cases hnone
  · cases hrf

/-- The stages of `update` up to the one that takes the import route targets. -/
def rtStages (t : Texts) (kw : Kwargs) : List (Stage Updating ConfError) :=
  [validated kw, Updating.statsLogEnabled kw, Updating.statsTime kw, Updating.name t kw,
    Updating.description kw, matched kw, updateImportRts t kw]

/-- The stages behind it. -/
def laterStages (t : Texts) (kw : Kwargs) : List (Stage Updating ConfError) :=
  [updateExportRts t kw, updateSooList t kw, updateMed kw, updateImportmaps kw]

/-- An update comes to the import route targets, and they are others. -/
def TakesRts (c : VrfConf) (t : Texts) (kw : Kwargs) : Prop :=
  (∀ st ∈ rtStages t kw, st.refuses (Updating.init c) = none) ∧
    (givenImportRts kw).texts ≠ c.importRts

/-- No check behind the import route targets fails. -/
def LaterPass (c : VrfConf) (t : Texts) (kw : Kwargs) : Prop :=
  ∀ st ∈ laterStages t kw, st.refuses (Updating.init c) = none

theorem importRts_changeEvent_none {c' : VrfConf} (h : changeEvent kw c c' = none) :
    c'.importRts = c.importRts := by
  unfold changeEvent at h
  by_contra hne
  simp [hne] at h

/-- The event names the route targets that came and those that went. -/
theorem importRts_changeEvent_some {c' : VrfConf} {e : VrfChange}
    (h : changeEvent kw c c' = some e) :
    e.newImportRts.getD ∅ = c'.importRts \ c.importRts ∧
      e.oldImportRts.getD ∅ = c.importRts \ c'.importRts ∧
      e.importMaps = kw.getD "import_maps" (.list []) := by
  unfold changeEvent at h
  dsimp only at h
  split at h
  · obtain rfl := Option.some.inj h
    by_cases hi : c'.importRts = c.importRts
    · simp [hi]
    · simp [hi]
  · cases h

/-- What names a VRF is not updated. -/
theorem update_unset (c : VrfConf) (t : Texts) (kw : Kwargs) :
    (c.update t kw).1.routeDist = c.routeDist ∧ (c.update t kw).1.routeFamily = c.routeFamily := by
  obtain ⟨-, hrd, hrf, -⟩ := @runAll_unset t kw c
  unfold update
  split
  · next he =>
    rw [he] at hrd hrf
    exact ⟨hrd, hrf⟩
  · next he =>
    rw [he] at hrd hrf
    rw [settings_notify]
    exact ⟨hrd, hrf⟩

theorem stages_eq_append (t : Texts) (kw : Kwargs) :
    stages t kw = rtStages t kw ++ laterStages t kw :=
  rfl

/-- A check before the import route targets are taken keeps them. -/
theorem importRts_runAll_of_refused
    (h : ¬ ∀ st ∈ rtStages t kw, st.refuses (Updating.init c) = none) :
    (Stage.runAll (stages t kw) (Updating.init c)).1.conf.importRts = c.importRts := by
  let before := (rtStages t kw).dropLast
  have hsplit : rtStages t kw = before ++ [updateImportRts t kw] := rfl
  have hkeep : (Stage.runAll before (Updating.init c)).1.conf.importRts = c.importRts := by
    apply Stage.runAll_keeps (P := fun u : Updating => u.conf.importRts = c.importRts) _ rfl
    simp only [before, rtStages, List.dropLast, List.forall_mem_cons, List.not_mem_nil,
      IsEmpty.forall_iff, implies_true, and_true]
    exact ⟨fun _ h => h, fun _ h => h, fun _ h => h, fun _ h => h, fun _ h => h, fun _ h => h⟩
  have hpass : (Stage.runAll before (Updating.init c)).2 = none ↔
      ∀ st ∈ before, st.refuses (Updating.init c) = none :=
    Stage.runAll_snd_eq_none_iff
      (stages_apart.sublist ((List.dropLast_sublist _).trans (List.sublist_append_left _ _))) _
  rw [stages_eq_append, hsplit, List.append_assoc, Stage.runAll_append]
  cases hb : Stage.runAll before (Updating.init c) with
  | mk u r =>
    rw [hb] at hkeep hpass
    cases r with
    | some e => exact hkeep
    | none =>
      have hrefuses : (updateImportRts t kw).refuses u ≠ none := by
        intro hnone
        apply h
        rw [hsplit]
        intro st hst
        rcases List.mem_append.mp hst with hst | hst
        · exact hpass.mp rfl st hst
        · obtain rfl := List.mem_singleton.mp hst
          exact hnone
      obtain ⟨e, he⟩ := Option.ne_none_iff_exists'.mp hrefuses
      dsimp only
      rw [List.singleton_append, Stage.runAll_cons_of_refuses he]
      exact hkeep

/-- What an update that returns leaves. -/
theorem update_returned (h : (c.update t kw).2 = none) :
    (∀ st ∈ stages t kw, st.refuses (Updating.init c) = none) ∧
      (c.update t kw).1.vrfChanges =
        c.vrfChanges ++ (changeEvent kw c (c.update t kw).1).toList := by
  have hp : ∀ st ∈ stages t kw, st.refuses (Updating.init c) = none := by
    apply (Stage.runAll_snd_eq_none_iff stages_apart (Updating.init c)).mp
    unfold update at h
    split at h
    · cases h
    · next he => rw [he]
  obtain ⟨u, hu, hcomp, -, -, -, hv⟩ := update_of_accepted hp
  rw [hu]
  exact ⟨hp, vrfChanges_notify hcomp hv⟩

/-- An update that raises tells of no change, and has taken the import route targets only if a
later check raised. -/
theorem update_raised {e : ConfError} (h : (c.update t kw).2 = some e) :
    (c.update t kw).1.vrfChanges = c.vrfChanges ∧
      ((c.update t kw).1.importRts = c.importRts ∨ c.TakesRts t kw ∧ ¬ c.LaterPass t kw) := by
  have hr : (Stage.runAll (stages t kw) (Updating.init c)).2 = some e ∧
      (c.update t kw).1 = (Stage.runAll (stages t kw) (Updating.init c)).1.conf := by
    unfold update at h ⊢
    split at h
    · next he =>
      rw [he]
      exact ⟨h, rfl⟩
    · cases h
  rw [hr.2]
  refine ⟨(runAll_unset c).2.2.2, ?_⟩
  by_cases hk : ∀ st ∈ rtStages t kw, st.refuses (Updating.init c) = none
  · by_cases hsame : (givenImportRts kw).texts = c.importRts
    · -- what is taken is what was there
      left
      have hmem : updateImportRts t kw ∈ Stage.passed (stages t kw) (Updating.init c) := by
        rw [Stage.passed, stages_eq_append,
          List.takeWhile_append_of_pos fun st hst => by simp [hk st hst]]
        exact List.mem_append_left _ (by simp [rtStages])
      have hslot := Stage.slot_runAll stages_apart (Updating.init c) _ hmem
      exact (congrArg Prod.fst (hslot.trans (slot_updateImportRts c))).trans hsame
    · right
      refine ⟨⟨hk, hsame⟩, fun hlater => ?_⟩
      have hall : ∀ st ∈ stages t kw, st.refuses (Updating.init c) = none := by
        rw [stages_eq_append]
        intro st hst
        exact (List.mem_append.mp hst).elim (hk st) (hlater st)
      have hnone := (Stage.runAll_snd_eq_none_iff stages_apart (Updating.init c)).mpr hall
      rw [hr.1] at hnone
      cases hnone
  · exact Or.inl (importRts_runAll_of_refused hk)

/-- Texts without addresses and quotes. -/
def plainTexts : Texts where
  validIpv4 _ := false
  reprText s := s
  reprTexts _ := []

/-- The arguments for one import and no export route target. -/
def oneRt (rt : String) : Kwargs :=
  (((Dict.empty.set "route_dist" (.str "65000:1".toList)).set "import_rts"
    (.list [.str rt.toList])).set "export_rts" (.list [])).set "id" (.str "vrf".toList)

/-- What is created with them. -/
def oneRtConf : VrfConf where
  id := "vrf".toList
  name := "VrfConf-65000:1".toList
  description := "VrfConf-65000:1".toList
  statsLogEnabled := false
  statsTime := 60
  routeDist := "65000:1".toList
  routeFamily := some "ipv4".toList
  importRts := {"65000:1".toList}
  exportRts := ∅
  sooList := ∅
  multiExitDisc := .none
  importMaps := .list []
  notices := []

/-- Another import route target, and a metric that is not valid. -/
def withBadMed : Kwargs :=
  ((oneRt "65000:2").set "route_family" (.str "ipv4".toList)).set "multi_exit_disc" (.int (-1))

end VrfConf

end Ryu.Rtconf
