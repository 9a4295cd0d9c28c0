import Mathlib.Data.List.Dedup
import Ryu.Bgp.Processor
import Ryu.Lib.Dict
import Ryu.Lib.Run

/-! # Destinations and their known paths

A table keeps a destination for each prefix. Announcements and withdrawals are queued in
two lists and merged into the known paths when the destination is processed. The known
paths are those announced last, source by source, as long as no source has an event after
an announcement that is still queued, and no withdrawal is left over from an earlier run.
-/

namespace Ryu.Bgp

structure Destination where
  nlri : Nlri
  knownPathList : List Path
  newPathList : List Path
  withdrawList : List Path
  bestPath : Option Path
  deriving DecidableEq, Repr

/-- `Destination.__init__`. -/
def Destination.init (nlri : Nlri) : Destination := ⟨nlri, [], [], [], none⟩

/-- The first known path of the same source, if any. -/
def findMatch (known : List Path) (p : Path) : Option Path :=
  known.find? fun path => path.source = p.source

/-- `_remove_withdrawals`. Matches are collected in sets: a path or a withdrawal found twice is
removed once. -/
def Destination.removeWithdrawals (d : Destination) : Destination :=
  if d.withdrawList = [] then d
  else if d.knownPathList = [] then { d with withdrawList := [] }
  else
    let matched := (d.withdrawList.filterMap (findMatch d.knownPathList)).dedup
    let wMatches := (d.withdrawList.filter fun w => (findMatch d.knownPathList w).isSome).dedup
    { d with
      knownPathList := matched.foldl List.erase d.knownPathList
      withdrawList := wMatches.foldl List.erase d.withdrawList }

/-- `_remove_old_paths`: each new path removes the first known path of its source. -/
def Destination.removeOldPaths (d : Destination) : Destination :=
  { d with
    knownPathList := d.newPathList.foldl
      (fun known new => ((findMatch known new).map known.erase).getD known) d.knownPathList }

/-- `_process_paths`. -/
def Destination.processPaths (sp : Speaker) (d : Destination) :
    Except PyError (Option Path) × Destination :=
  let d := d.removeWithdrawals
  match d.knownPathList, d.newPathList with
  | [], [new] => (.ok (some new), { d with knownPathList := [new], newPathList := [] })
  | _, _ =>
    let d := d.removeOldPaths
    let d := { d with knownPathList := d.knownPathList ++ d.newPathList, newPathList := [] }
    if d.knownPathList = [] then (.ok none, d)
    else ((computeBestKnownPath sp d.knownPathList).map fun r => some r.1, d)

/-- Which handler `_process` calls. -/
inductive BestChange
  | unchanged
  | lost
  | new (path : Path)
  deriving DecidableEq, Repr

/-- `_process`, with the assignment of the best path that both handlers start with. -/
def Destination.processBest (sp : Speaker) (d : Destination) :
    Except PyError BestChange × Destination :=
  match d.processPaths sp with
  | (.error e, d) => (.error e, d)
  | (.ok best, d) =>
    if d.bestPath = best then (.ok .unchanged, d)
    else match best with
      | none =>
        if d.knownPathList = [] then (.ok .lost, { d with bestPath := none })
        else (.error .assertionError, d)
      | some new => (.ok (.new new), { d with bestPath := some new })

structure Table where
  routeFamily : RouteFamily
  destinations : Dict String Destination
  deriving DecidableEq, Repr

/-- `_get_or_create_dest`. -/
def Table.getOrCreateDest (t : Table) (nlri : Nlri) : Destination :=
  (t.destinations.get? nlri.tableKey).getD (Destination.init nlri)

/-- `Destination.add_withdraw` and `add_new_path`. -/
def Destination.add (d : Destination) (path : Path) : Destination :=
  if path.isWithdraw then { d with withdrawList := d.withdrawList ++ [path] }
  else { d with newPathList := d.newPathList ++ [path] }

/-- `Table.insert`. -/
def Table.insert (t : Table) (path : Path) : Except PyError Unit × Table :=
  if path.routeFamily ≠ t.routeFamily then
    (.error (.valueError "Invalid path. Expected instance of Vpnv4 route family path"), t)
  else
    let dest := (t.getOrCreateDest path.nlri).add path
    (.ok (), { t with destinations := t.destinations.set path.nlri.tableKey dest })

/-- `Destination.process` on the destination of a key: it leaves the table when it has no path. -/
def Table.process (sp : Speaker) (t : Table) (key : String) :
    Except PyError BestChange × Table :=
  match t.destinations.get? key with
  | none => (.ok .unchanged, t)
  | some dest =>
    match dest.processBest sp with
    | (.error e, dest) => (.error e, { t with destinations := t.destinations.set key dest })
    | (.ok change, dest) =>
      if dest.knownPathList = [] ∧ dest.bestPath = none then
        (.ok change, { t with destinations := t.destinations.erase key })
      else (.ok change, { t with destinations := t.destinations.set key dest })

section Merge

variable {known new : List Path} {s : Source} {p : Path} {sp : Speaker} {d : Destination}

theorem findMatch_eq_some {m : Path} (h : (known.map Path.source).Nodup) :
    findMatch known p = some m ↔ m ∈ known ∧ m.source = p.source := by
  constructor
  · intro hm
    exact ⟨List.mem_of_find?_eq_some hm, by simpa using List.find?_some hm⟩
  · rintro ⟨hm, hs⟩
    cases hf : findMatch known p with
    | none =>
      have := List.find?_eq_none.mp hf m hm
      simp [hs] at this
    | some m' =>
      have hm' := List.mem_of_find?_eq_some hf
      have hs' : m'.source = p.source := by simpa using List.find?_some hf
      rw [List.inj_on_of_nodup_map h hm' hm (hs'.trans hs.symm)]

theorem nodup_filter_source (h : (known.map Path.source).Nodup) (P : Path → Bool) :
    ((known.filter P).map Path.source).Nodup :=
  h.sublist (List.filter_sublist.map _)

/-- With one path a source, a source's path goes when a withdrawal of the source is queued. -/
theorem knownPathList_removeWithdrawals (h : (d.knownPathList.map Path.source).Nodup) :
    d.removeWithdrawals.knownPathList =
      d.knownPathList.filter fun p => p.source ∉ d.withdrawList.map Path.source := by
  unfold Destination.removeWithdrawals
  split
  · next hw => simp [hw]
  · split
    · next hk => simp [hk]
    · dsimp only
      rw [← List.diff_eq_foldl, (h.of_map Path.source).sdiff_eq_filter]
      refine List.filter_congr fun p hp => ?_
      simp only [List.mem_dedup, List.mem_filterMap, findMatch_eq_some h, List.mem_map,
        decide_eq_decide, not_iff_not]
      constructor
      · rintro ⟨w, hw, -, hs⟩
        exact ⟨w, hw, hs.symm⟩
      · rintro ⟨w, hw, hs⟩
        exact ⟨w, hw, hp, hs.symm⟩

theorem removeOld_step (h : (known.map Path.source).Nodup) :
    ((findMatch known p).map known.erase).getD known =
      known.filter fun q => q.source ≠ p.source := by
  cases hf : findMatch known p with
  | none =>
    refine (List.filter_eq_self.mpr fun q hq => ?_).symm
    simpa using List.find?_eq_none.mp hf q hq
  | some m =>
    obtain ⟨hm, hs⟩ := (findMatch_eq_some h).mp hf
    rw [Option.map_some, Option.getD_some, (h.of_map Path.source).erase_eq_filter]
    refine List.filter_congr fun q hq => ?_
    by_cases hqm : q = m
    · simp [hqm, hs]
    · have hne : q.source ≠ p.source := fun he =>
        hqm (List.inj_on_of_nodup_map h hq hm (he.trans hs.symm))
      simp [hqm, hne]

theorem knownPathList_removeOldPaths (h : (d.knownPathList.map Path.source).Nodup) :
    d.removeOldPaths.knownPathList =
      d.knownPathList.filter fun p => p.source ∉ d.newPathList.map Path.source := by
  simp only [Destination.removeOldPaths]
  generalize d.knownPathList = known at h
  induction d.newPathList generalizing known with
  | nil => simp
  | cons new news ih =>
    rw [List.foldl_cons, removeOld_step h, ih _ (nodup_filter_source h _), List.filter_filter]
    refine List.filter_congr fun q _ => ?_
    rw [List.map_cons, Bool.eq_iff_iff]
    simp [and_comm]

/-- What one run leaves as known paths. -/
def merged (d : Destination) : List Path :=
  (d.knownPathList.filter fun p =>
    p.source ∉ d.withdrawList.map Path.source ∧ p.source ∉ d.newPathList.map Path.source) ++
    d.newPathList

theorem newPathList_removeWithdrawals : d.removeWithdrawals.newPathList = d.newPathList := by
  unfold Destination.removeWithdrawals
  split
  · rfl
  · split <;> rfl

theorem processPaths_newPathList (sp : Speaker) (d : Destination) :
    (d.processPaths sp).2.newPathList = [] := by
  dsimp only [Destination.processPaths]
  split
  · rfl
  · split <;> rfl

theorem processPaths_knownPathList (h : (d.knownPathList.map Path.source).Nodup) :
    (d.processPaths sp).2.knownPathList = merged d := by
  have hw := knownPathList_removeWithdrawals h
  have hn := newPathList_removeWithdrawals (d := d)
  have hnd : (d.removeWithdrawals.knownPathList.map Path.source).Nodup := by
    rw [hw]; exact nodup_filter_source h _
  have ho := knownPathList_removeOldPaths hnd
  have hm : merged d =
      d.removeWithdrawals.removeOldPaths.knownPathList ++ d.newPathList := by
    rw [ho, hn, hw, List.filter_filter, merged]
    congr 1
    exact List.filter_congr fun p _ => by rw [Bool.eq_iff_iff]; simp [and_comm]
  dsimp only [Destination.processPaths]
  split
  · next new hk hnew =>
    rw [hm, ho, hk, ← hn, hnew]
    simp
  · have hn' : d.removeWithdrawals.removeOldPaths.newPathList = d.newPathList := hn
    rw [hm, ← hn']
    split <;> rfl

/-- Choosing the best path leaves the path lists as they are. -/
theorem processBest_lists (sp : Speaker) (d : Destination) :
    (d.processBest sp).2.knownPathList = (d.processPaths sp).2.knownPathList ∧
      (d.processBest sp).2.newPathList = (d.processPaths sp).2.newPathList := by
  unfold Destination.processBest
  obtain ⟨e | best, d'⟩ := d.processPaths sp
  · exact ⟨rfl, rfl⟩
  · dsimp only
    split
    · exact ⟨rfl, rfl⟩
    · cases best with
      | none => dsimp only; split <;> exact ⟨rfl, rfl⟩
      | some new => exact ⟨rfl, rfl⟩

theorem removeWithdrawals_subset : d.removeWithdrawals.knownPathList ⊆ d.knownPathList := by
  unfold Destination.removeWithdrawals
  split
  · exact List.Subset.refl _
  · split
    · exact List.Subset.refl _
    · dsimp only
      rw [← List.diff_eq_foldl]
      exact List.diff_subset _ _

theorem removeOldPaths_subset : d.removeOldPaths.knownPathList ⊆ d.knownPathList := by
  simp only [Destination.removeOldPaths]
  generalize d.knownPathList = known
  induction d.newPathList generalizing known with
  | nil => exact List.Subset.refl _
  | cons new news ih =>
    refine List.Subset.trans (ih _) ?_
    dsimp only
    cases findMatch known new with
    | none => exact List.Subset.refl _
    | some m => exact List.erase_subset

/-- A run invents no path. -/
theorem processPaths_subset (sp : Speaker) (d : Destination) :
    (d.processPaths sp).2.knownPathList ⊆ d.knownPathList ++ d.newPathList := by
  have hn := newPathList_removeWithdrawals (d := d)
  have hw : d.removeWithdrawals.removeOldPaths.knownPathList ++ d.removeWithdrawals.newPathList ⊆
      d.knownPathList ++ d.newPathList :=
    List.append_subset.mpr ⟨List.subset_append_of_subset_left _
      (List.Subset.trans removeOldPaths_subset removeWithdrawals_subset),
      hn ▸ List.subset_append_right _ _⟩
  dsimp only [Destination.processPaths]
  split
  · next new hk hnew =>
    rw [← hn, hnew]
    exact List.subset_append_right _ _
  · split <;> exact hw

theorem processPaths_best_mem (sp : Speaker) {d : Destination} {b : Path} (h : (d.processPaths sp).1 = .ok (some b)) :
    b ∈ (d.processPaths sp).2.knownPathList := by
  revert h
  dsimp only [Destination.processPaths]
  split
  · rintro ⟨⟩
    exact List.mem_singleton_self _
  · split
    · rintro ⟨⟩
    · intro h
      generalize hr : computeBestKnownPath sp _ = r at h
      obtain e | r := r
      · cases h
      · cases h
        exact computeBestKnownPath_mem hr

theorem filter_merged (s : Source) :
    (merged d).filter (fun p => p.source = s) =
      (if s ∈ d.withdrawList.map Path.source ∨ s ∈ d.newPathList.map Path.source then []
        else d.knownPathList.filter fun p => p.source = s) ++
        d.newPathList.filter fun p => p.source = s := by
  rw [merged, List.filter_append, List.filter_filter]
  congr 1
  split
  · next hs =>
    refine List.filter_eq_nil_iff.mpr fun p _ => ?_
    rcases hs with hs | hs <;> simp only [Bool.and_eq_true, decide_eq_true_eq] <;>
      rintro ⟨rfl, h₁, h₂⟩
    · exact h₁ hs
    · exact h₂ hs
  · next hs =>
    rw [not_or] at hs
    refine List.filter_congr fun p _ => ?_
    by_cases hp : p.source = s
    · simp [hp, hs.1, hs.2]
    · simp [hp]

end Merge

section Run

/-- The known paths, the queued announcements and the queued withdrawals of a key. -/
def Table.known (t : Table) (key : String) : List Path :=
  ((t.destinations.get? key).map Destination.knownPathList).getD []

def Table.newPaths (t : Table) (key : String) : List Path :=
  ((t.destinations.get? key).map Destination.newPathList).getD []

def Table.withdraws (t : Table) (key : String) : List Path :=
  ((t.destinations.get? key).map Destination.withdrawList).getD []

inductive TableEvent
  | insert (path : Path)
  | process (key : String)
  deriving DecidableEq, Repr

/-- A table beside the events of one key: those before its last run, and those since. -/
structure TableState where
  table : Table
  processed : List Path
  pending : List Path
  deriving DecidableEq, Repr

/-- An inserted path concerns the key of the trace. -/
def TableState.hears (s : TableState) (key : String) (path : Path) : Prop :=
  path.routeFamily = s.table.routeFamily ∧ path.nlri.tableKey = key

instance (s : TableState) (key : String) (path : Path) : Decidable (s.hears key path) :=
  inferInstanceAs (Decidable (_ ∧ _))

def tableStep (sp : Speaker) (key : String) (s : TableState) : TableEvent → TableState
  | .insert path =>
    { s with
      table := (s.table.insert path).2
      pending := if s.hears key path then s.pending ++ [path] else s.pending }
  | .process k =>
    if k = key then ⟨(s.table.process sp k).2, s.processed ++ s.pending, []⟩
    else { s with table := (s.table.process sp k).2 }

/-- The events of a source. -/
def ofSource (evs : List Path) (s : Source) : List Path := evs.filter fun p => p.source = s

/-- The most recent announcement of a source, if its last event is one. -/
def announced (evs : List Path) (s : Source) : Option Path :=
  (ofSource evs s).getLast?.filter fun p => !p.isWithdraw

/-- The known paths are those announced, source by source, when the key was last processed. -/
def KnownAnnounced (key : String) (s : TableState) : Prop :=
  ∀ src, ofSource (s.table.known key) src = (announced s.processed src).toList

/-- When the key is processed, no source has an event after a queued announcement, and no known
path has a withdrawal queued from an earlier run. -/
def InTurn (key : String) (s : TableState) (e : TableEvent) : Prop :=
  e = .process key → ∀ src,
    (∀ p ∈ (ofSource s.pending src).dropLast, p.isWithdraw) ∧
      (ofSource s.pending src = [] → announced s.processed src ≠ none →
        src ∉ (s.table.withdraws key).map Path.source)

/-- What the queues hold of the pending events. -/
structure Queued (key : String) (s : TableState) : Prop where
  newPaths : s.table.newPaths key = s.pending.filter fun p => !p.isWithdraw
  withdraws : ∀ p ∈ s.pending, p.isWithdraw → p ∈ s.table.withdraws key

variable {sp : Speaker} {key : String} {s : TableState} {t : Table} {path : Path} {src : Source}

theorem ofSource_append (l₁ l₂ : List Path) (src : Source) :
    ofSource (l₁ ++ l₂) src = ofSource l₁ src ++ ofSource l₂ src :=
  List.filter_append _ _

theorem announced_append_nil {l₁ l₂ : List Path} (h : ofSource l₂ src = []) :
    announced (l₁ ++ l₂) src = announced l₁ src := by
  rw [announced, ofSource_append, h, List.append_nil, announced]

theorem announced_append_concat {l₁ l₂ l : List Path} {p : Path}
    (h : ofSource l₂ src = l ++ [p]) :
    announced (l₁ ++ l₂) src = if p.isWithdraw then none else some p := by
  rw [announced, ofSource_append, h, ← List.append_assoc, List.getLast?_concat]
  cases hp : p.isWithdraw <;> simp [hp]

theorem insert_destinations (hf : path.routeFamily = t.routeFamily) (k : String) :
    (t.insert path).2.destinations.get? k =
      if path.nlri.tableKey = k then some ((t.getOrCreateDest path.nlri).add path)
      else t.destinations.get? k := by
  simp [Table.insert, hf, Dict.get?_set]

theorem insert_of_ne (h : ¬ s.hears key path) :
    (s.table.insert path).2.destinations.get? key = s.table.destinations.get? key := by
  by_cases hf : path.routeFamily = s.table.routeFamily
  · have hk : path.nlri.tableKey ≠ key := fun hk => h ⟨hf, hk⟩
    simp [insert_destinations hf, hk]
  · simp [Table.insert, hf]

theorem known_insert (key : String) : (t.insert path).2.known key = t.known key := by
  by_cases hf : path.routeFamily = t.routeFamily
  · simp only [Table.known, insert_destinations hf]
    split
    · next hk =>
      subst hk
      unfold Table.getOrCreateDest Destination.add
      cases t.destinations.get? path.nlri.tableKey <;> split <;> rfl
    · rfl
  · simp [Table.insert, hf]

theorem newPaths_insert (h : s.hears key path) :
    (s.table.insert path).2.newPaths key =
      if path.isWithdraw then s.table.newPaths key else s.table.newPaths key ++ [path] := by
  obtain ⟨hf, rfl⟩ := h
  simp only [Table.newPaths, insert_destinations hf, if_true, Option.map_some, Option.getD_some]
  unfold Table.getOrCreateDest Destination.add
  cases s.table.destinations.get? path.nlri.tableKey <;> split <;> rfl

theorem withdraws_insert (h : s.hears key path) :
    (s.table.insert path).2.withdraws key =
      if path.isWithdraw then s.table.withdraws key ++ [path] else s.table.withdraws key := by
  obtain ⟨hf, rfl⟩ := h
  simp only [Table.withdraws, insert_destinations hf, if_true, Option.map_some, Option.getD_some]
  unfold Table.getOrCreateDest Destination.add
  cases s.table.destinations.get? path.nlri.tableKey <;> split <;> rfl

theorem process_of_ne (sp : Speaker) (t : Table) {k : String} (h : k ≠ key) :
    (t.process sp k).2.destinations.get? key = t.destinations.get? key := by
  unfold Table.process
  cases t.destinations.get? k with
  | none => rfl
  | some d =>
    dsimp only
    obtain ⟨e | change, d'⟩ := d.processBest sp
    · simp [Dict.get?_set, h]
    · dsimp only
      split <;> simp [Dict.get?_set, Dict.get?_erase, h]

/-- A run of the key leaves what `processBest` leaves, or no destination and no path. -/
theorem process_cases (sp : Speaker) {d : Destination} (h : t.destinations.get? key = some d) :
    (t.process sp key).2.destinations.get? key = some (d.processBest sp).2 ∨
      (t.process sp key).2.destinations.get? key = none ∧
        (d.processBest sp).2.knownPathList = [] := by
  unfold Table.process
  rw [h]
  dsimp only
  obtain ⟨e | change, d'⟩ := d.processBest sp
  · exact Or.inl (by simp)
  · dsimp only
    split
    · next hd => exact Or.inr ⟨by simp [Dict.get?_erase], hd.1⟩
    · exact Or.inl (by simp)

theorem newPaths_process (sp : Speaker) (t : Table) (key : String) :
    (t.process sp key).2.newPaths key = [] := by
  cases hd : t.destinations.get? key with
  | none => simp [Table.process, Table.newPaths, hd]
  | some d =>
    rcases process_cases sp hd with hp | ⟨hp, -⟩
    · simp [Table.newPaths, hp, processBest_lists, processPaths_newPathList]
    · simp [Table.newPaths, hp]

theorem known_process (h : ((t.known key).map Path.source).Nodup) (src : Source) :
    ofSource ((t.process sp key).2.known key) src =
      (if src ∈ (t.withdraws key).map Path.source ∨ src ∈ (t.newPaths key).map Path.source
        then [] else ofSource (t.known key) src) ++ ofSource (t.newPaths key) src := by
  cases hd : t.destinations.get? key with
  | none =>
    have hp : (t.process sp key).2.destinations.get? key = none := by
      simp [Table.process, hd]
    simp [Table.newPaths, Table.known, Table.withdraws, hd, hp, ofSource]
  | some d =>
    have hd' : ((d.knownPathList).map Path.source).Nodup := by
      simpa [Table.known, hd] using h
    have hk : (d.processBest sp).2.knownPathList = merged d :=
      (processBest_lists sp d).1.trans (processPaths_knownPathList hd')
    have hfm := filter_merged (d := d) src
    rcases process_cases sp hd with hp | ⟨hp, hnil⟩
    · simpa [Table.known, Table.withdraws, Table.newPaths, hp, hd, hk, ofSource] using hfm
    · rw [hk.symm.trans hnil] at hfm
      simpa [Table.known, Table.withdraws, Table.newPaths, hp, hd, ofSource] using hfm

theorem KnownAnnounced.nodup (h : KnownAnnounced key s) :
    ((s.table.known key).map Path.source).Nodup := by
  rw [List.nodup_iff_count_le_one]
  intro src
  have hlen : (ofSource (s.table.known key) src).length ≤ 1 := by
    rw [h src]
    cases announced s.processed src <;> simp
  rw [List.count_eq_countP, List.countP_map, List.countP_eq_length_filter]
  refine le_of_eq_of_le (congrArg _ (List.filter_congr fun p _ => ?_)) hlen
  simp [Bool.beq_eq_decide_eq]

theorem Queued.tableStep (h : Queued key s) (e : TableEvent) :
    Queued key (tableStep sp key s e) := by
  cases e with
  | insert path =>
    by_cases hh : s.hears key path
    · constructor
      · simp only [Bgp.tableStep, hh, if_true, newPaths_insert hh, List.filter_append, h.newPaths]
        cases hw : path.isWithdraw <;> simp [hw]
      · intro p hp hpw
        simp only [Bgp.tableStep, hh, if_true, withdraws_insert hh] at hp ⊢
        rcases List.mem_append.mp hp with hp | hp
        · split
          · exact List.mem_append_left _ (h.withdraws p hp hpw)
          · exact h.withdraws p hp hpw
        · obtain rfl := List.mem_singleton.mp hp
          simp [hpw]
    · have hd := insert_of_ne hh
      constructor
      · simpa [Bgp.tableStep, hh, Table.newPaths, hd] using h.newPaths
      · simpa [Bgp.tableStep, hh, Table.withdraws, hd] using h.withdraws
  | process k =>
    by_cases hk : k = key
    · subst hk
      exact ⟨by simp [Bgp.tableStep, newPaths_process], by simp [Bgp.tableStep]⟩
    · have hd := process_of_ne sp s.table hk
      constructor
      · simpa [Bgp.tableStep, hk, Table.newPaths, hd] using h.newPaths
      · simpa [Bgp.tableStep, hk, Table.withdraws, hd] using h.withdraws

theorem mem_map_source {l : List Path} : src ∈ l.map Path.source ↔ ofSource l src ≠ [] := by
  simp [ofSource, List.filter_eq_nil_iff]

/-- One run merges a source's queue as announced exactly when the source is in turn. -/
theorem merge_source_iff (h : Queued key s) (src : Source)
    (hk : ofSource (s.table.known key) src = (announced s.processed src).toList) :
    (if src ∈ (s.table.withdraws key).map Path.source ∨
        src ∈ (s.table.newPaths key).map Path.source then []
      else ofSource (s.table.known key) src) ++ ofSource (s.table.newPaths key) src =
        (announced (s.processed ++ s.pending) src).toList ↔
      (∀ p ∈ (ofSource s.pending src).dropLast, p.isWithdraw) ∧
        (ofSource s.pending src = [] → announced s.processed src ≠ none →
          src ∉ (s.table.withdraws key).map Path.source) := by
  have hnew : ofSource (s.table.newPaths key) src =
      (ofSource s.pending src).filter fun p => !p.isWithdraw := by
    rw [h.newPaths, ofSource, ofSource, List.filter_filter, List.filter_filter]
    exact List.filter_congr fun p _ => Bool.and_comm _ _
  have hann : src ∈ (s.table.newPaths key).map Path.source ↔
      (ofSource s.pending src).filter (fun p => !p.isWithdraw) ≠ [] := by
    rw [mem_map_source, hnew]
  rw [hnew]
  simp only [hann]
  rcases List.eq_nil_or_concat (ofSource s.pending src) with hP | ⟨l, p, hP⟩
  · -- no event since the last run
    rw [hP, announced_append_nil hP, hk]
    by_cases hw : src ∈ (s.table.withdraws key).map Path.source
    · cases announced s.processed src <;> simp [hw]
    · simp [hw]
  · rw [List.concat_eq_append] at hP
    rw [hP, announced_append_concat hP, List.filter_append, List.dropLast_concat]
    have hl : l.filter (fun p => !p.isWithdraw) = [] ↔ ∀ p ∈ l, p.isWithdraw := by
      simp [List.filter_eq_nil_iff]
    cases hw : p.isWithdraw with
    | true =>
      -- the last event is a withdrawal, which is queued
      have hpm : p ∈ ofSource s.pending src := by simp [hP]
      obtain ⟨hps, hsrc⟩ := List.mem_filter.mp hpm
      have hq : src ∈ (s.table.withdraws key).map Path.source :=
        List.mem_map.mpr ⟨p, h.withdraws p hps hw, by simpa using hsrc⟩
      simp [hw, hq, hl]
    | false =>
      simp [hw, hl]

theorem knownAnnounced_tableStep (h : Queued key s) (hk : KnownAnnounced key s) (e : TableEvent) :
    KnownAnnounced key (tableStep sp key s e) ↔ InTurn key s e := by
  cases e with
  | insert path =>
    simpa [InTurn, KnownAnnounced, tableStep, known_insert] using hk
  | process k =>
    by_cases hkey : k = key
    · subst hkey
      simp only [KnownAnnounced, tableStep, if_true, InTurn, forall_const]
      refine forall_congr' fun src => ?_
      rw [known_process hk.nodup src]
      exact merge_source_iff h src (hk src)
    · have hd := process_of_ne sp s.table hkey
      simpa [InTurn, KnownAnnounced, tableStep, hkey, Table.known, hd] using hk

/-- Over every run of insertions and runs of `process`, for every key: after each run of the key
the known paths are those announced last, source by source, exactly when every run of the key
finds its sources in turn. -/
theorem knownAnnounced_iff (sp : Speaker) (rf : RouteFamily) (key : String)
    (evs : List TableEvent) :
    Throughout (tableStep sp key) (KnownAnnounced key) ⟨⟨rf, Dict.empty⟩, [], []⟩ evs ↔
      EveryStep (tableStep sp key) (InTurn key) ⟨⟨rf, Dict.empty⟩, [], []⟩ evs := by
  apply throughout_iff_everyStep (I := Queued key) (fun s e h => h.tableStep e)
    (fun s e h hk => knownAnnounced_tableStep h hk e)
  · exact ⟨rfl, by simp⟩
  · intro src
    rfl

/-- An announcement withdrawn before the destination is processed stays. -/
theorem withdrawn_path_stays :
    ¬ KnownAnnounced "10.0.0.0/24"
      ([.insert (peerPath 3 1 none), .insert { peerPath 3 1 none with index := 4, isWithdraw := true },
        .process "10.0.0.0/24"].foldl (tableStep threePeers "10.0.0.0/24")
          ⟨⟨rfIPv4Uc, Dict.empty⟩, [], []⟩) := by
  intro h
  have hs := h (.peer 3)
  revert hs
  decide

end Run

section Sources

variable {known : List Path} {s : Source} {p m : Path}

theorem ofSource_erase (known : List Path) (m : Path) (s : Source) :
    ofSource (known.erase m) s = (ofSource known s).erase m :=
  List.erase_filter.symm

theorem findMatch_eq_head? (known : List Path) (p : Path) :
    findMatch known p = (ofSource known p.source).head? := by
  rw [findMatch, ofSource, List.head?_filter]

theorem erase_head {l : List Path} (h : l.head? = some m) : l.erase m = l.tail := by
  cases l with
  | nil => cases h
  | cons a l =>
    obtain rfl := Option.some.inj h
    rw [List.erase_cons_head, List.tail_cons]

theorem source_of_mem_ofSource (h : m ∈ ofSource known s) : m.source = s := by
  simpa using (List.mem_filter.mp h).2

/-- Erasing the first path of a source leaves the other sources' paths alone. -/
theorem ofSource_erase_match (h : findMatch known p = some m) (s : Source) :
    ofSource (known.erase m) s =
      if p.source = s then (ofSource known s).tail else ofSource known s := by
  have hm : (ofSource known p.source).head? = some m := findMatch_eq_head? known p ▸ h
  rw [ofSource_erase]
  split
  · next hs => rw [← hs, erase_head hm]
  · next hs =>
    refine List.erase_of_not_mem fun hmem => hs ?_
    rw [← source_of_mem_ofSource (List.mem_of_head? hm), source_of_mem_ofSource hmem]

/-- Erasing the first paths of several sources takes one path of each. -/
theorem ofSource_foldl_erase {matched : List Path} (hnd : (matched.map Path.source).Nodup)
    (hfirst : ∀ m ∈ matched, findMatch known m = some m) (s : Source) :
    ofSource (matched.foldl List.erase known) s =
      if s ∈ matched.map Path.source then (ofSource known s).tail else ofSource known s := by
  induction matched generalizing known with
  | nil => simp
  | cons m matched ih =>
    obtain ⟨hm, hnd⟩ := List.nodup_cons.mp hnd
    have hstep := ofSource_erase_match (hfirst m List.mem_cons_self)
    have hrest : ∀ m' ∈ matched, findMatch (known.erase m) m' = some m' := by
      intro m' hm'
      have hne : m.source ≠ m'.source := fun he => hm (he ▸ List.mem_map_of_mem hm')
      rw [findMatch_eq_head?, hstep, if_neg hne, ← findMatch_eq_head?]
      exact hfirst m' (List.mem_cons_of_mem _ hm')
    rw [List.foldl_cons, ih hnd hrest, hstep]
    rcases eq_or_ne m.source s with rfl | hs
    · simp [hm]
    · simp [hs, Ne.symm hs]

theorem findMatch_source (h : findMatch known p = some m) : m.source = p.source := by
  simpa using List.find?_some h

theorem findMatch_congr {q : Path} (h : p.source = q.source) :
    findMatch known p = findMatch known q := by
  rw [findMatch_eq_head?, findMatch_eq_head?, h]

/-- However many withdrawals of a source are queued, they remove one path of it. -/
theorem ofSource_removeWithdrawals (d : Destination) (s : Source) :
    ofSource d.removeWithdrawals.knownPathList s =
      if s ∈ d.withdrawList.map Path.source then (ofSource d.knownPathList s).tail
      else ofSource d.knownPathList s := by
  unfold Destination.removeWithdrawals
  split
  · next hw => simp [hw]
  · split
    · next hk => simp [hk, ofSource]
    · dsimp only
      have hfirst : ∀ m ∈ (d.withdrawList.filterMap (findMatch d.knownPathList)).dedup,
          findMatch d.knownPathList m = some m := by
        intro m hm
        obtain ⟨w, -, hw⟩ := List.mem_filterMap.mp (List.mem_dedup.mp hm)
        rw [findMatch_congr (findMatch_source hw), hw]
      have hnd : ((d.withdrawList.filterMap (findMatch d.knownPathList)).dedup.map
          Path.source).Nodup := by
        refine (List.nodup_map_iff_inj_on (List.nodup_dedup _)).mpr fun m hm m' hm' he => ?_
        have hmm := hfirst m hm
        rw [findMatch_congr he, hfirst m' hm'] at hmm
        exact (Option.some.inj hmm).symm
      rw [ofSource_foldl_erase hnd hfirst]
      rcases hk : ofSource d.knownPathList s with _ | ⟨m, l⟩
      · simp
      · have hf : ∀ w : Path, w.source = s → findMatch d.knownPathList w = some m := by
          rintro w rfl
          rw [findMatch_eq_head?, hk, List.head?_cons]
        congr 1
        rw [eq_iff_iff]
        simp only [List.mem_map, List.mem_dedup, List.mem_filterMap]
        constructor
        · rintro ⟨m', ⟨w, hw, hm'⟩, rfl⟩
          exact ⟨w, hw, (findMatch_source hm').symm⟩
        · rintro ⟨w, hw, hs⟩
          exact ⟨m, ⟨w, hw, hf w hs⟩, (findMatch_source (hf w hs)).trans hs⟩

/-- Each new path removes one path of its source. -/
theorem ofSource_removeOldPaths (d : Destination) (s : Source) :
    ofSource d.removeOldPaths.knownPathList s =
      (ofSource d.knownPathList s).drop (ofSource d.newPathList s).length := by
  simp only [Destination.removeOldPaths]
  generalize d.knownPathList = known
  induction d.newPathList generalizing known with
  | nil => rfl
  | cons new news ih =>
    have hstep : ofSource (((findMatch known new).map known.erase).getD known) s =
        if new.source = s then (ofSource known s).tail else ofSource known s := by
      cases hf : findMatch known new with
      | none =>
        split
        · next hs =>
          rw [findMatch_eq_head?, hs, List.head?_eq_none_iff] at hf
          simp [hf]
        · rfl
      | some m => exact ofSource_erase_match hf s
    rw [List.foldl_cons, ih, hstep]
    split
    · next hs => simp [ofSource, hs, Nat.add_comm]
    · next hs => simp [ofSource, hs]

/-- What a run makes of the paths of one source, whatever the other sources have. -/
theorem ofSource_processPaths (sp : Speaker) (d : Destination) (s : Source) :
    ofSource (d.processPaths sp).2.knownPathList s =
      (if s ∈ d.withdrawList.map Path.source then (ofSource d.knownPathList s).tail
        else ofSource d.knownPathList s).drop (ofSource d.newPathList s).length ++
        ofSource d.newPathList s := by
  have hn := newPathList_removeWithdrawals (d := d)
  have ho : ofSource (d.removeWithdrawals.removeOldPaths.knownPathList ++
      d.removeWithdrawals.removeOldPaths.newPathList) s =
        (if s ∈ d.withdrawList.map Path.source then (ofSource d.knownPathList s).tail
          else ofSource d.knownPathList s).drop (ofSource d.newPathList s).length ++
          ofSource d.newPathList s := by
    rw [ofSource_append, ofSource_removeOldPaths, ofSource_removeWithdrawals, hn]
    exact congrArg (_ ++ ofSource · s) hn
  rw [← ho]
  dsimp only [Destination.processPaths]
  split
  · next new hk hnew => simp [Destination.removeOldPaths, hk, hnew, findMatch]
  · split <;> rfl

theorem ofSource_process (sp : Speaker) (t : Table) (key : String) (src : Source) :
    ofSource ((t.process sp key).2.known key) src =
      (if src ∈ (t.withdraws key).map Path.source then (ofSource (t.known key) src).tail
        else ofSource (t.known key) src).drop (ofSource (t.newPaths key) src).length ++
        ofSource (t.newPaths key) src := by
  cases hd : t.destinations.get? key with
  | none =>
    have hp : (t.process sp key).2.destinations.get? key = none := by
      simp [Table.process, hd]
    simp [Table.newPaths, Table.known, Table.withdraws, hd, hp, ofSource]
  | some d =>
    have hps := ofSource_processPaths sp d src
    rw [← (processBest_lists sp d).1] at hps
    rcases process_cases sp hd with hp | ⟨hp, hnil⟩
    · simpa [Table.known, Table.withdraws, Table.newPaths, hp, hd] using hps
    · rw [hnil] at hps
      simpa [Table.known, Table.withdraws, Table.newPaths, hp, hd] using hps

end Sources

end Ryu.Bgp
