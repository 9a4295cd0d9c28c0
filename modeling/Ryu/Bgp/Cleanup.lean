import Mathlib.Data.List.GetD
import Ryu.Bgp.InFilter
import Ryu.Lib.WorkQueue

/-! # Stale paths of a lost session

Each path of a peer carries the version number that the peer had when the path was made. When a
session is lost the number is raised and every table drops the known paths that are older; a
destination that lost paths is queued for processing. Announcements that are not processed yet
are not looked at, so none that is older is processed exactly as long as no old path stays.

The start of a route refresh, which raises the number too and drops older paths only at its end,
is not an event here, and the routes sent to the peer are left out.
-/

namespace Ryu.Bgp

/-- What a peer keeps of the paths it received, and the version numbers of the path objects it
created. -/
structure VersionedRib where
  rib : RibIn
  versions : List ℕ
  versions_length : versions.length = rib.made
  deriving DecidableEq, Repr

/-- `source_version_num` of a path of the peer. -/
def VersionedRib.sourceVersionNum (v : VersionedRib) (p : Path) : ℕ := v.versions.getD p.index 0

/-- `remove_old_paths_from_source`: the paths removed, in reverse order, and the destination. -/
def Destination.removeOldPathsFromSource (old : Path → Bool) (d : Destination) :
    List Path × Destination :=
  (d.knownPathList.reverse.filter old,
    { d with knownPathList := d.knownPathList.filter fun p => !old p })

/-- `cleanup_paths_for_peer`: the keys of the destinations that are signalled, and the table. -/
def Table.cleanupPathsForPeer (old : Path → Bool) (t : Table) : List String × Table :=
  ((t.destinations.entries.filter fun e => (e.2.removeOldPathsFromSource old).1 ≠ []).map Prod.fst,
    { t with destinations :=
        t.destinations.mapValues fun _ d => (d.removeOldPathsFromSource old).2 })

/-- A peer's routes and version number, whether a protocol is bound to it, the global table of a
family, and the keys of the destinations that wait to be processed. `raised` is the key whose
processing ended in an exception: nothing is processed any more. -/
structure SessionState where
  received : VersionedRib
  versionNum : ℕ
  bound : Bool
  table : Table
  destQueue : WorkQueue String
  raised : Option String
  deriving DecidableEq, Repr

def SessionState.sourceVersionNum (s : SessionState) : Path → ℕ := s.received.sourceVersionNum

/-- `learn_path`, and the signal of a changed destination. -/
def SessionState.learnPath (s : SessionState) (path : Path) : SessionState :=
  match s.table.insert path with
  | (.ok _, t) => { s with table := t, destQueue := s.destQueue.enqueue path.nlri.tableKey }
  | (.error _, t) => { s with table := t }

def SessionState.learnPaths (s : SessionState) (paths : List Path) : SessionState :=
  paths.foldl SessionState.learnPath s

/-- A path is of the peer and older than the peer's version number. -/
def SessionState.isOld (peer : ℕ) (s : SessionState) (p : Path) : Bool :=
  p.source = .peer peer && s.sourceVersionNum p < s.versionNum

/-- `clean_stale_routes`. -/
def SessionState.cleanStaleRoutes (peer : ℕ) (s : SessionState) : SessionState :=
  let (changed, t) := s.table.cleanupPathsForPeer (s.isOld peer)
  { s with table := t, destQueue := s.destQueue.enqueueAll changed }

/-- `connection_lost`: nothing is cleaned up unless a protocol is bound. -/
def SessionState.connectionLost (peer : ℕ) (s : SessionState) : SessionState :=
  if s.bound then
    SessionState.cleanStaleRoutes peer { s with bound := false, versionNum := s.versionNum + 1 }
  else s

/-- One turn of `_process_dest`; `sp` is what is known of the peers by now. -/
def SessionState.processDest (sp : Speaker) (s : SessionState) : SessionState :=
  match s.raised, s.destQueue.popFirst with
  | none, some (key, queue) =>
    match s.table.process sp key with
    | (.ok _, t) => { s with table := t, destQueue := queue }
    | (.error _, t) => { s with table := t, destQueue := queue, raised := some key }
  | _, _ => s

section Model

variable (ipNetwork : String → IPNetwork) (peer : ℕ) (rf : RouteFamily)

/-- An announced prefix, and the paths that are learned. -/
def VersionedRib.newPath (v : VersionedRib) (versionNum : ℕ) (key : String) (attrs : PathAttrs) :
    VersionedRib × List Path :=
  (⟨(v.rib.newPath ipNetwork peer (unicast rf key) attrs).1, v.versions ++ [versionNum], by
      simp [RibIn.newPath, v.versions_length]⟩,
    (v.rib.newPath ipNetwork peer (unicast rf key) attrs).2)

/-- A withdrawn prefix. -/
def VersionedRib.withdraw (v : VersionedRib) (versionNum : ℕ) (key : String) :
    VersionedRib × List Path :=
  (⟨(v.rib.withdraw ipNetwork peer (unicast rf key)).1, v.versions ++ [versionNum], by
      simp [RibIn.withdraw, v.versions_length]⟩,
    (v.rib.withdraw ipNetwork peer (unicast rf key)).2)

/-- New in-filters: a clone has the version number of its route's path. -/
def VersionedRib.setInFilters (v : VersionedRib) (filters : List PrefixFilter) :
    VersionedRib × List Path :=
  (⟨(v.rib.setInFilters ipNetwork filters).1,
      v.versions ++ v.rib.adjRibIn.values.map fun route => v.sourceVersionNum route.path, by
      simp [RibIn.setInFilters, RibIn.onUpdateInFilter, v.versions_length, Dict.values]⟩,
    (v.rib.setInFilters ipNetwork filters).2)

def SessionState.receive (s : SessionState) (x : VersionedRib × List Path) : SessionState :=
  SessionState.learnPaths { s with received := x.1 } x.2

/-- A protocol is bound, prefixes are announced and withdrawn over it, it is lost; in-filters
change, other paths come in, among them withdrawals of the peer's paths; and the next
destination is processed. -/
inductive SessionEvent
  | bindProtocol
  | announce (key : String) (attrs : PathAttrs)
  | withdraw (key : String)
  | connectionLost
  | inFilters (filters : List PrefixFilter)
  | other (path : Path)
  | process (sp : Speaker)

def sessionStep (s : SessionState) : SessionEvent → SessionState
  | .bindProtocol => { s with bound := true }
  | .announce key attrs =>
    if s.bound then s.receive (s.received.newPath ipNetwork peer rf s.versionNum key attrs) else s
  | .withdraw key =>
    if s.bound then s.receive (s.received.withdraw ipNetwork peer rf s.versionNum key) else s
  | .connectionLost => s.connectionLost peer
  | .inFilters filters => s.receive (s.received.setInFilters ipNetwork filters)
  | .other path =>
    if path.source = .peer peer ∧ path.isWithdraw = false then s else s.learnPath path
  | .process sp => s.processDest sp

/-- The state of a peer that was never connected; `Source.version_num` starts at 1. -/
def SessionState.init (filters : List PrefixFilter) : SessionState where
  received := ⟨⟨filters, Dict.empty, 0⟩, [], rfl⟩
  versionNum := 1
  bound := false
  table := ⟨rf, Dict.empty⟩
  destQueue := .empty
  raised := none

def Table.best (t : Table) (key : String) : Option Path :=
  (t.destinations.get? key).bind Destination.bestPath

/-- A destination that does not wait to be processed has no known path of the peer from before its
current version; nor has it such a best path, unless its processing has ended in an exception. -/
def NoStale (s : SessionState) : Prop :=
  ∀ key, ¬ s.destQueue.Waits key →
    (∀ p ∈ s.table.known key, p.source = .peer peer → s.versionNum ≤ s.sourceVersionNum p) ∧
    (s.raised ≠ some key → ∀ b, s.table.best key = some b → b.source = .peer peer →
      s.versionNum ≤ s.sourceVersionNum b)

/-- When a destination is processed, no announcement of the peer from before its current version
is queued in it. -/
def NewPathsCurrent (s : SessionState) (e : SessionEvent) : Prop :=
  ∀ sp key queue, e = .process sp → s.raised = none → s.destQueue.popFirst = some (key, queue) →
    ∀ p ∈ s.table.newPaths key, p.source = .peer peer → s.versionNum ≤ s.sourceVersionNum p

end Model

section Table

variable {t : Table} {path : Path} {key k : String} {sp : Speaker} {old : Path → Bool}

theorem best_insert (key : String) : (t.insert path).2.best key = t.best key := by
  rcases eq_or_ne path.routeFamily t.routeFamily with hf | hf
  · unfold Table.best
    rw [insert_destinations hf]
    split
    · next hk =>
      subst hk
      unfold Table.getOrCreateDest Destination.add
      cases t.destinations.get? path.nlri.tableKey <;> split <;> rfl
    · rfl
  · simp [Table.insert, hf]

theorem known_cleanup (t : Table) (old : Path → Bool) (key : String) :
    (t.cleanupPathsForPeer old).2.known key = (t.known key).filter fun p => !old p := by
  unfold Table.known Table.cleanupPathsForPeer
  rw [Dict.get?_mapValues]
  cases t.destinations.get? key <;> rfl

theorem best_cleanup (t : Table) (old : Path → Bool) (key : String) :
    (t.cleanupPathsForPeer old).2.best key = t.best key := by
  unfold Table.best Table.cleanupPathsForPeer
  rw [Dict.get?_mapValues]
  cases t.destinations.get? key <;> rfl

/-- A destination is signalled as soon as one of its paths is old. -/
theorem mem_cleanup : key ∈ (t.cleanupPathsForPeer old).1 ↔ ∃ p ∈ t.known key, old p := by
  unfold Table.cleanupPathsForPeer Table.known
  constructor
  · intro h
    obtain ⟨⟨k, d⟩, hd, rfl⟩ := List.mem_map.mp h
    obtain ⟨hd, hold⟩ := List.mem_filter.mp hd
    rw [Dict.mem_entries_iff.mp hd]
    simpa [Destination.removeOldPathsFromSource] using hold
  · rintro ⟨p, hp, hold⟩
    cases hd : t.destinations.get? key with
    | none => simp [hd] at hp
    | some d =>
      refine List.mem_map.mpr ⟨(key, d), List.mem_filter.mpr ⟨Dict.mem_entries_iff.mpr hd, ?_⟩, rfl⟩
      rw [hd] at hp
      simpa [Destination.removeOldPathsFromSource] using ⟨p, hp, hold⟩

theorem known_process_subset (sp : Speaker) (t : Table) (key : String) :
    (t.process sp key).2.known key ⊆ t.known key ++ t.newPaths key := by
  cases hd : t.destinations.get? key with
  | none =>
    have hp : (t.process sp key).2.destinations.get? key = none := by simp [Table.process, hd]
    simp [Table.known, hp]
  | some d =>
    have hsub := processPaths_subset sp d
    rw [← (processBest_lists sp d).1] at hsub
    rcases process_cases sp hd with hp | ⟨hp, -⟩
    · simpa [Table.known, Table.newPaths, hp, hd] using hsub
    · simp [Table.known, hp]

/-- Every new path becomes known. -/
theorem newPaths_subset_process (sp : Speaker) (t : Table) (key : String) :
    t.newPaths key ⊆ (t.process sp key).2.known key := by
  intro p hp
  have hmem : p ∈ ofSource ((t.process sp key).2.known key) p.source := by
    rw [ofSource_process]
    exact List.mem_append_right _ (List.mem_filter.mpr ⟨hp, by simp⟩)
  exact (List.mem_filter.mp hmem).1

theorem processBest_bestPath_mem {d : Destination} {c : BestChange} {b : Path}
    (h : (d.processBest sp).1 = .ok c) (hb : (d.processBest sp).2.bestPath = some b) :
    b ∈ (d.processBest sp).2.knownPathList := by
  have hm := fun b' => processPaths_best_mem sp (d := d) (b := b')
  rw [(processBest_lists sp d).1]
  unfold Destination.processBest at h hb
  generalize d.processPaths sp = r at h hb hm
  obtain ⟨e | best, d'⟩ := r
  · cases h
  · dsimp only at h hb
    split at hb
    · next hsame =>
      apply hm
      rw [← hsame, hb]
    · next hne =>
      rw [if_neg hne] at h
      cases best with
      | none =>
        dsimp only at h hb
        split at hb
        · cases hb
        · next hknown =>
          rw [if_neg hknown] at h
          cases h
      | some new =>
        cases hb
        exact hm _ rfl

/-- Unless an exception is raised, the best path is known afterwards. -/
theorem process_best_mem {c : BestChange} {b : Path} (h : (t.process sp key).1 = .ok c)
    (hb : (t.process sp key).2.best key = some b) : b ∈ (t.process sp key).2.known key := by
  cases hd : t.destinations.get? key with
  | none =>
    have hp : (t.process sp key).2.destinations.get? key = none := by simp [Table.process, hd]
    simp [Table.best, hp] at hb
  | some d =>
    have hok : ∃ c', (d.processBest sp).1 = .ok c' := by
      simp only [Table.process, hd] at h
      generalize d.processBest sp = r at h
      obtain ⟨e | c', d'⟩ := r
      · cases h
      · exact ⟨c', rfl⟩
    obtain ⟨c', hc⟩ := hok
    rcases process_cases sp hd with hp | ⟨hp, -⟩
    · unfold Table.known
      unfold Table.best at hb
      rw [hp] at hb ⊢
      exact processBest_bestPath_mem hc hb
    · simp [Table.best, hp] at hb

theorem known_process_of_ne (h : k ≠ key) : (t.process sp k).2.known key = t.known key := by
  unfold Table.known
  rw [process_of_ne sp t h]

theorem best_process_of_ne (h : k ≠ key) : (t.process sp k).2.best key = t.best key := by
  unfold Table.best
  rw [process_of_ne sp t h]

end Table

section Run

variable {ipNetwork : String → IPNetwork} {peer : ℕ} {rf : RouteFamily}
  {s s' s'' : SessionState} {x : VersionedRib × List Path}

/-- Nothing was processed or cleaned up: paths are queued, and new objects have version numbers. -/
structure OnlyQueued (s s' : SessionState) : Prop where
  versionNum : s'.versionNum = s.versionNum
  raised : s'.raised = s.raised
  known : ∀ key, s'.table.known key = s.table.known key
  best : ∀ key, s'.table.best key = s.table.best key
  waits : ∀ key, s.destQueue.Waits key → s'.destQueue.Waits key
  sourceVersionNum : ∀ p, s.sourceVersionNum p ≤ s'.sourceVersionNum p

theorem OnlyQueued.refl (s : SessionState) : OnlyQueued s s :=
  ⟨rfl, rfl, fun _ => rfl, fun _ => rfl, fun _ h => h, fun _ => le_rfl⟩

theorem OnlyQueued.trans (h : OnlyQueued s s') (h' : OnlyQueued s' s'') : OnlyQueued s s'' where
  versionNum := h'.versionNum.trans h.versionNum
  raised := h'.raised.trans h.raised
  known key := (h'.known key).trans (h.known key)
  best key := (h'.best key).trans (h.best key)
  waits key hw := h'.waits key (h.waits key hw)
  sourceVersionNum p := (h.sourceVersionNum p).trans (h'.sourceVersionNum p)

theorem onlyQueued_learnPath (s : SessionState) (path : Path) :
    OnlyQueued s (s.learnPath path) := by
  have hk : ∀ key, (s.table.insert path).2.known key = s.table.known key := known_insert
  have hb : ∀ key, (s.table.insert path).2.best key = s.table.best key := best_insert
  unfold SessionState.learnPath
  generalize s.table.insert path = r at hk hb
  obtain ⟨e | u, t⟩ := r
  · exact ⟨rfl, rfl, hk, hb, fun _ h => h, fun _ => le_rfl⟩
  · exact ⟨rfl, rfl, hk, hb, fun _ h => WorkQueue.waits_enqueue.mpr (Or.inl h), fun _ => le_rfl⟩

theorem onlyQueued_learnPaths (s : SessionState) (paths : List Path) :
    OnlyQueued s (s.learnPaths paths) := by
  induction paths generalizing s with
  | nil => exact .refl s
  | cons p paths ih => exact (onlyQueued_learnPath s p).trans (ih (s.learnPath p))

/-- Paths that exist keep their version numbers. -/
theorem getD_le_getD_append (l l' : List ℕ) (i : ℕ) : l.getD i 0 ≤ (l ++ l').getD i 0 := by
  rcases Nat.lt_or_ge i l.length with hi | hi
  · rw [List.getD_append _ _ _ _ hi]
  · rw [List.getD_eq_default _ _ hi]
    exact Nat.zero_le _

theorem onlyQueued_receive {l : List ℕ} (hx : x.1.versions = s.received.versions ++ l) :
    OnlyQueued s (s.receive x) := by
  have h : OnlyQueued s { s with received := x.1 } := by
    refine ⟨rfl, rfl, fun _ => rfl, fun _ => rfl, fun _ h => h, fun p => ?_⟩
    unfold SessionState.sourceVersionNum VersionedRib.sourceVersionNum
    rw [hx]
    exact getD_le_getD_append _ _ _
  exact h.trans (onlyQueued_learnPaths _ _)

/-- No known path of the peer is old, and a best path that was processed is known. -/
structure Current (peer : ℕ) (s : SessionState) : Prop where
  known : ∀ key, ∀ p ∈ s.table.known key, p.source = .peer peer →
    s.versionNum ≤ s.sourceVersionNum p
  best : ∀ key, ¬ s.destQueue.Waits key → s.raised ≠ some key →
    ∀ b, s.table.best key = some b → b ∈ s.table.known key

theorem Current.noStale (h : Current peer s) : NoStale peer s := by
  intro key hw
  exact ⟨h.known key, fun hr b hb => h.known key b (h.best key hw hr b hb)⟩

theorem Current.onlyQueued (h : Current peer s) (hq : OnlyQueued s s') : Current peer s' := by
  constructor
  · intro key p hp hs
    rw [hq.known] at hp
    rw [hq.versionNum]
    exact (h.known key p hp hs).trans (hq.sourceVersionNum p)
  · intro key hw hr b hb
    rw [hq.raised] at hr
    rw [hq.best] at hb
    rw [hq.known]
    exact h.best key (fun hw' => hw (hq.waits key hw')) hr b hb

theorem known_cleanStaleRoutes (key : String) :
    (s.cleanStaleRoutes peer).table.known key =
      (s.table.known key).filter fun p => !s.isOld peer p :=
  known_cleanup _ _ _

theorem best_cleanStaleRoutes (key : String) :
    (s.cleanStaleRoutes peer).table.best key = s.table.best key :=
  best_cleanup _ _ _

theorem waits_cleanStaleRoutes {key : String} :
    (s.cleanStaleRoutes peer).destQueue.Waits key ↔
      s.destQueue.Waits key ∨ ∃ p ∈ s.table.known key, s.isOld peer p :=
  WorkQueue.waits_enqueueAll.trans (or_congr_right mem_cleanup)

/-- What is cleaned up is current, whatever is queued. -/
theorem current_cleanStaleRoutes
    (hb : ∀ key, ¬ s.destQueue.Waits key → s.raised ≠ some key →
      ∀ b, s.table.best key = some b → b ∈ s.table.known key) :
    Current peer (s.cleanStaleRoutes peer) := by
  constructor
  · intro key p hp hs
    rw [known_cleanStaleRoutes, List.mem_filter] at hp
    have hold := hp.2
    rw [SessionState.isOld, hs] at hold
    change s.versionNum ≤ s.sourceVersionNum p
    simpa using hold
  · intro key hw hr b hbest
    rw [waits_cleanStaleRoutes, not_or] at hw
    obtain ⟨hw, hnone⟩ := hw
    rw [best_cleanStaleRoutes] at hbest
    rw [known_cleanStaleRoutes, List.mem_filter]
    have hmem := hb key hw hr b hbest
    refine ⟨hmem, ?_⟩
    cases hold : s.isOld peer b with
    | false => rfl
    | true => exact absurd ⟨b, hmem, hold⟩ hnone

theorem Current.connectionLost (h : Current peer s) : Current peer (s.connectionLost peer) := by
  unfold SessionState.connectionLost
  split
  · apply current_cleanStaleRoutes
    exact h.best
  · exact h

/-- The destination of a key is processed, with or without an exception. -/
structure Processed (sp : Speaker) (s : SessionState) (key : String) (s' : SessionState) :
    Prop where
  versionNum : s'.versionNum = s.versionNum
  sourceVersionNum : s'.sourceVersionNum = s.sourceVersionNum
  table : s'.table = (s.table.process sp key).2
  waits : ∀ k, s'.destQueue.Waits k ↔ s.destQueue.Waits k ∧ k ≠ key
  notRaised : s.raised = none
  raised : s'.raised ≠ some key → ∃ c, (s.table.process sp key).1 = .ok c

theorem processDest_cases (sp : Speaker) (s : SessionState) :
    (s.processDest sp = s ∧ (s.raised = none → s.destQueue.popFirst = none)) ∨
      ∃ key queue, s.destQueue.popFirst = some (key, queue) ∧
        Processed sp s key (s.processDest sp) := by
  unfold SessionState.processDest
  cases hr : s.raised with
  | some k =>
    exact Or.inl ⟨rfl, fun h => (by cases h)⟩
  | none =>
    cases hpop : s.destQueue.popFirst with
    | none => exact Or.inl ⟨rfl, fun _ => rfl⟩
    | some x =>
      obtain ⟨key, queue⟩ := x
      refine Or.inr ⟨key, queue, rfl, ?_⟩
      have hw := fun k => WorkQueue.waits_popFirst (b := k) hpop
      dsimp only
      cases hp : s.table.process sp key with
      | mk r t =>
        cases r with
        | error e => exact ⟨rfl, rfl, by rw [hp], hw, hr, fun h => absurd rfl h⟩
        | ok c => exact ⟨rfl, rfl, by rw [hp], hw, hr, fun _ => ⟨c, by rw [hp]⟩⟩

variable {sp : Speaker} {key : String}

theorem Processed.gone (h : Processed sp s key s') : ¬ s'.destQueue.Waits key :=
  fun hw => ((h.waits key).mp hw).2 rfl

theorem Processed.waits_of_ne (h : Processed sp s key s') {k : String} (hk : k ≠ key)
    (hw : ¬ s'.destQueue.Waits k) : ¬ s.destQueue.Waits k :=
  fun hw' => hw ((h.waits k).mpr ⟨hw', hk⟩)

theorem Processed.best_mem (h : Processed sp s key s') (hr : s'.raised ≠ some key) {b : Path}
    (hb : s'.table.best key = some b) : b ∈ s'.table.known key := by
  obtain ⟨c, hc⟩ := h.raised hr
  rw [h.table] at hb ⊢
  exact process_best_mem hc hb

theorem Processed.known_of_ne (h : Processed sp s key s') {k : String} (hk : k ≠ key) :
    s'.table.known k = s.table.known k := by
  rw [h.table]
  exact known_process_of_ne hk.symm

theorem Processed.best_of_ne (h : Processed sp s key s') {k : String} (hk : k ≠ key) :
    s'.table.best k = s.table.best k := by
  rw [h.table]
  exact best_process_of_ne hk.symm

theorem Processed.known_subset (h : Processed sp s key s') {p : Path}
    (hp : p ∈ s'.table.known key) : p ∈ s.table.known key ∨ p ∈ s.table.newPaths key := by
  rw [h.table] at hp
  exact List.mem_append.mp (known_process_subset sp s.table key hp)

theorem Processed.newPaths_known (h : Processed sp s key s') {p : Path}
    (hp : p ∈ s.table.newPaths key) : p ∈ s'.table.known key := by
  rw [h.table]
  exact newPaths_subset_process sp s.table key hp

/-- As long as the known paths of the processed key are current, so is all the rest. -/
theorem Current.processed (h : Current peer s) (hp : Processed sp s key s')
    (hk : ∀ p ∈ s'.table.known key, p.source = .peer peer →
      s'.versionNum ≤ s'.sourceVersionNum p) : Current peer s' := by
  constructor
  · intro k p hmem hs
    rcases eq_or_ne k key with rfl | hne
    · exact hk p hmem hs
    · rw [hp.known_of_ne hne] at hmem
      rw [hp.versionNum, hp.sourceVersionNum]
      exact h.known k p hmem hs
  · intro k hw hr b hb
    rcases eq_or_ne k key with rfl | hne
    · exact hp.best_mem hr hb
    · rw [hp.best_of_ne hne] at hb
      rw [hp.known_of_ne hne]
      refine h.best k (hp.waits_of_ne hne hw) ?_ b hb
      rw [hp.notRaised]
      exact (Option.some_ne_none k).symm

theorem noStale_processDest_iff (h : Current peer s) (sp : Speaker) :
    NoStale peer (s.processDest sp) ↔ NewPathsCurrent peer s (.process sp) := by
  rcases processDest_cases sp s with ⟨hsame, hnone⟩ | ⟨key, queue, hpop, hp⟩
  · rw [hsame]
    refine iff_of_true h.noStale ?_
    rintro _ key queue - hr hpop
    rw [hnone hr] at hpop
    cases hpop
  · constructor
    · rintro hs _ key' queue' - - hpop' p hmem hsrc
      rw [hpop] at hpop'
      obtain ⟨rfl, -⟩ := Prod.mk.inj (Option.some.inj hpop')
      rw [← hp.versionNum, ← hp.sourceVersionNum]
      exact (hs key hp.gone).1 p (hp.newPaths_known hmem) hsrc
    · intro hg
      apply Current.noStale
      apply h.processed hp
      intro p hmem hsrc
      rw [hp.versionNum, hp.sourceVersionNum]
      rcases hp.known_subset hmem with hmem | hmem
      · exact h.known key p hmem hsrc
      · exact hg sp key queue rfl hp.notRaised hpop p hmem hsrc

theorem current_processDest (h : Current peer s) (hs : NoStale peer (s.processDest sp)) :
    Current peer (s.processDest sp) := by
  rcases processDest_cases sp s with ⟨hsame, -⟩ | ⟨key, queue, -, hp⟩
  · rw [hsame]
    exact h
  · exact h.processed hp (hs key hp.gone).1

/-- Every other event leaves what is known current. -/
theorem Current.sessionStep (h : Current peer s) (e : SessionEvent) (he : ∀ sp, e ≠ .process sp) :
    Current peer (sessionStep ipNetwork peer rf s e) := by
  cases e with
  | bindProtocol => exact ⟨h.known, h.best⟩
  | announce key attrs =>
    simp only [Bgp.sessionStep]
    split
    · exact h.onlyQueued (onlyQueued_receive rfl)
    · exact h
  | withdraw key =>
    simp only [Bgp.sessionStep]
    split
    · exact h.onlyQueued (onlyQueued_receive rfl)
    · exact h
  | connectionLost => exact h.connectionLost
  | inFilters filters => exact h.onlyQueued (onlyQueued_receive rfl)
  | other path =>
    simp only [Bgp.sessionStep]
    split
    · exact h
    · exact h.onlyQueued (onlyQueued_learnPath s path)
  | process sp => exact absurd rfl (he sp)

theorem noStale_sessionStep_iff (h : Current peer s) (e : SessionEvent) :
    NoStale peer (sessionStep ipNetwork peer rf s e) ↔ NewPathsCurrent peer s e := by
  by_cases he : ∃ sp, e = .process sp
  · obtain ⟨sp, rfl⟩ := he
    exact noStale_processDest_iff h sp
  · rw [not_exists] at he
    refine iff_of_true (h.sessionStep e he).noStale ?_
    rintro sp _ _ rfl
    exact absurd rfl (he sp)

theorem current_sessionStep (h : Current peer s) (e : SessionEvent)
    (hs : NoStale peer (sessionStep ipNetwork peer rf s e)) :
    Current peer (sessionStep ipNetwork peer rf s e) := by
  by_cases he : ∃ sp, e = .process sp
  · obtain ⟨sp, rfl⟩ := he
    exact current_processDest h hs
  · rw [not_exists] at he
    exact h.sessionStep e he

theorem current_init (rf : RouteFamily) (filters : List PrefixFilter) :
    Current peer (.init rf filters) := by
  constructor
  · intro key p hp
    simp [SessionState.init, Table.known] at hp
  · intro key _ _ b hb
    simp [SessionState.init, Table.best] at hb

/-- Over every run of a peer's sessions, in whatever order announcements, withdrawals, losses,
filter changes, other paths and processing come: no destination that has been processed keeps a
known path or a best path of the peer from before its current version, exactly as long as no
destination is processed while such an announcement is queued in it. -/
theorem noStale_iff_newPathsCurrent (ipNetwork : String → IPNetwork) (peer : ℕ) (rf : RouteFamily)
    (filters : List PrefixFilter) (es : List SessionEvent) :
    Throughout (sessionStep ipNetwork peer rf) (NoStale peer) (.init rf filters) es ↔
      EveryStep (sessionStep ipNetwork peer rf) (NewPathsCurrent peer) (.init rf filters) es :=
  throughout_iff_everyStep_while (I := Current peer)
    (fun _ e h _ hs => current_sessionStep h e hs)
    (fun _ e h _ => noStale_sessionStep_iff h e) (current_init rf filters)
    (current_init rf filters).noStale es

/-- An announcement that the loss of the session overtakes is processed and becomes the best
path. -/
theorem queuedPath_survives_loss :
    ¬ Throughout (sessionStep (fun _ => ⟨4, 10 * 2 ^ 24, 24⟩) 3 rfIPv4Uc) (NoStale 3)
      (.init rfIPv4Uc []) [.bindProtocol, .announce "10.0.0.0/24" noAttrs, .connectionLost,
        .process threePeers] := by
  intro h
  have hs := ((h.last "10.0.0.0/24" (by decide)).2 (by decide)
    ⟨0, .peer 3, unicast rfIPv4Uc "10.0.0.0/24", noAttrs, false⟩ (by decide)) rfl
  revert hs
  decide

end Run

end Ryu.Bgp
