import Ryu.Bgp.Communicate

/-! # A change of a peer's RT filter

The handler of a change is given the route targets that were added and those that were removed. It
withdraws a path that was sent if every route target of the path was removed, and shares one that
was not sent if the added ones let it through. What the peer has afterwards agrees with the new
filter just in the cases singled out below. A path with a target that never was in the filter is
not withdrawn.
-/

namespace Ryu.Bgp

/-- A filter of a map, which for a peer without an entry is empty. -/
def filterOf (filters : Dict ℕ (Option (List String))) (i : ℕ) : List String :=
  ((filters.get? i).join).getD []

/-- The difference of two sets of route targets. -/
def rtsDiff (rts rts' : List String) : List String := rts.filter (· ∉ rts')

/-- The route targets of the path, with the default one, have one in common with the filter. -/
def Shares (p : Path) (rts : List String) : Prop :=
  ∃ rt ∈ p.attrs.routeTargets ++ [defaultRt], rt ∈ rts

instance (p : Path) (rts : List String) : Decidable (Shares p rts) :=
  inferInstanceAs (Decidable (∃ rt ∈ _, _))

variable (sp : Speaker) (pm : PeerManager)

/-- `withdraw_if_sent_to`. -/
def Advert.withdrawIfSentTo (a : Advert) (i : ℕ) : Advert :=
  match a.sentRoutes.get? i with
  | none => a
  | some path =>
    { a with
      sentRoutes := a.sentRoutes.erase i
      outbox := a.outbox.post i [path.withdrawal] }

/-- The handler for one destination. -/
def Advert.onRtFilterChg (i : ℕ) (newRts oldRts : List String) (a : Advert) :
    Option PyError × Advert :=
  match a.dest.bestPath with
  | none => (none, a)
  | some best =>
    if (a.sentRoutes.get? i).isSome then
      (none, if rtsDiff best.attrs.routeTargets oldRts = [] then a.withdrawIfSentTo i else a)
    else if Shares best newRts then
      let r := communicatePath sp pm i best
      (r.2, { a with outbox := a.outbox.post i r.1 })
    else (none, a)

/-- `on_rt_filter_chg_sync_peer`. An exception ends the loop over the table. -/
def onRtFilterChgSyncPeer (i : ℕ) (newRts oldRts : List String) :
    List Advert → Option PyError × List Advert
  | [] => (none, [])
  | a :: table =>
    match a.onRtFilterChg sp pm i newRts oldRts with
    | (some e, a) => (some e, a :: table)
    | (none, a) =>
      let r := onRtFilterChgSyncPeer i newRts oldRts table
      (r.1, a :: r.2)

/-- The global tables by route family. -/
abbrev GlobalTables := Dict RouteFamily (List Advert)

/-- `_on_update_rt_filter`, with the handlers that it spawns. -/
def onUpdateRtFilter (i : ℕ) (newRts oldRts : List String) (tables : GlobalTables) :
    GlobalTables :=
  tables.mapValues fun rf table =>
    if rf = rfRtcUc then table else (onRtFilterChgSyncPeer sp pm i newRts oldRts table).2

/-- What `update_rtfilters` does for one peer. The handlers run when the new filters are set. -/
def updateRtfilter (pre : Dict ℕ (Option (List String))) (tables : GlobalTables) (i : ℕ) :
    GlobalTables :=
  let preRtFilter := filterOf pre i
  let currRtFilter := filterOf pm.peerToRtfilter i
  let oldRts := rtsDiff preRtFilter currRtFilter
  let newRts := rtsDiff currRtFilter preRtFilter
  if newRts ≠ [] ∨ oldRts ≠ [] then onUpdateRtFilter sp pm i newRts oldRts tables else tables

/-- `update_rtfilters`: `pre` are the filters before, those of `pm` the ones now computed. -/
def updateRtfilters (pre : Dict ℕ (Option (List String))) (tables : GlobalTables) :
    GlobalTables :=
  pm.peers.dedup.foldl (updateRtfilter sp pm pre) tables

/-- Once the queue of the peer has drained, it has a route of the destination. -/
def Advertised (a : Advert) (i : ℕ) : Prop :=
  match (a.outbox.queue i).getLast? with
  | some path => path.isWithdraw = false
  | none => (a.sentRoutes.get? i).isSome

instance (a : Advert) (i : ℕ) : Decidable (Advertised a i) := by
  unfold Advertised
  split <;> infer_instance

variable {sp pm} {i j k : ℕ} {newRts oldRts F F' : List String} {a a' a'' : Advert}
  {b p m : Path} {rf : RouteFamily} {tables tables' : GlobalTables}

/-- What concerns the peer is the same. -/
structure SameFor (i : ℕ) (a a' : Advert) : Prop where
  dest : a'.dest = a.dest
  sent : a'.sentRoutes.get? i = a.sentRoutes.get? i
  queue : a'.outbox.queue i = a.outbox.queue i

theorem SameFor.refl (i : ℕ) (a : Advert) : SameFor i a a := ⟨rfl, rfl, rfl⟩

theorem SameFor.trans (h : SameFor i a a') (h' : SameFor i a' a'') : SameFor i a a'' :=
  ⟨h'.dest.trans h.dest, h'.sent.trans h.sent, h'.queue.trans h.queue⟩

theorem SameFor.advertised (h : SameFor i a a') : Advertised a' i ↔ Advertised a i := by
  unfold Advertised
  rw [h.queue, h.sent]

theorem sameFor_withdraw (hij : j ≠ i) : SameFor i a (a.withdrawIfSentTo j) := by
  unfold Advert.withdrawIfSentTo
  split
  · exact .refl i a
  · exact ⟨rfl, by simp [Dict.get?_erase, hij], by simp [Outbox.queue_post, Ne.symm hij]⟩

theorem SameFor.withdraw (h : SameFor i a a') :
    SameFor i (a.withdrawIfSentTo i) (a'.withdrawIfSentTo i) := by
  unfold Advert.withdrawIfSentTo
  rw [h.sent]
  split
  · exact h
  · exact ⟨h.dest, by simp [Dict.get?_erase], by simp [Outbox.queue_post, h.queue]⟩

/-- The handler of another peer. -/
theorem sameFor_onRtFilterChg (hij : j ≠ i) :
    SameFor i a (a.onRtFilterChg sp pm j newRts oldRts).2 := by
  unfold Advert.onRtFilterChg
  split
  · exact .refl i a
  · split_ifs
    · exact sameFor_withdraw hij
    · exact .refl i a
    · exact ⟨rfl, rfl, by simp [Outbox.queue_post, Ne.symm hij]⟩
    · exact .refl i a

theorem SameFor.onRtFilterChg (h : SameFor i a a') :
    (a'.onRtFilterChg sp pm i newRts oldRts).1 = (a.onRtFilterChg sp pm i newRts oldRts).1 ∧
      SameFor i (a.onRtFilterChg sp pm i newRts oldRts).2
        (a'.onRtFilterChg sp pm i newRts oldRts).2 := by
  unfold Advert.onRtFilterChg
  rw [h.dest, h.sent]
  split
  · exact ⟨rfl, h⟩
  · split_ifs
    · exact ⟨rfl, h.withdraw⟩
    · exact ⟨rfl, h⟩
    · exact ⟨rfl, rfl, h.sent, by simp [Outbox.queue_post, h.queue]⟩
    · exact ⟨rfl, h⟩

/-- A destination of a table, by its place. -/
def GlobalTables.at? (tables : GlobalTables) (rf : RouteFamily) (k : ℕ) : Option Advert :=
  (tables.get? rf).bind (·[k]?)

/-- No destination before the place makes `communicate_path` raise. -/
def NoneRaises (sp : Speaker) (pm : PeerManager) (i : ℕ) (newRts oldRts : List String)
    (table : List Advert) (k : ℕ) : Prop :=
  ∀ k' < k, ∀ a ∈ table[k']?, (a.onRtFilterChg sp pm i newRts oldRts).1 = none

/-- The handler comes to the destination: the table is not that of the RT memberships, and the loop
over it has not ended before. -/
def IsHandled (sp : Speaker) (pm : PeerManager) (i : ℕ) (newRts oldRts : List String)
    (tables : GlobalTables) (rf : RouteFamily) (k : ℕ) : Prop :=
  rf ≠ rfRtcUc ∧ ∀ table ∈ tables.get? rf, NoneRaises sp pm i newRts oldRts table k

theorem noneRaises_cons {table : List Advert} :
    NoneRaises sp pm i newRts oldRts (a :: table) (k + 1) ↔
      (a.onRtFilterChg sp pm i newRts oldRts).1 = none ∧
        NoneRaises sp pm i newRts oldRts table k := by
  constructor
  · intro h
    exact ⟨h 0 (Nat.succ_pos k) a rfl, fun k' hk' => h (k' + 1) (Nat.succ_lt_succ hk')⟩
  · rintro ⟨h0, h⟩ (_ | k') hk'
    · rintro a' ha'
      rwa [← Option.some.inj ha']
    · exact h k' (Nat.lt_of_succ_lt_succ hk')

theorem sync_of_noneRaises {table : List Advert}
    (h : NoneRaises sp pm i newRts oldRts table k) :
    (onRtFilterChgSyncPeer sp pm i newRts oldRts table).2[k]? =
      table[k]?.map fun a => (a.onRtFilterChg sp pm i newRts oldRts).2 := by
  induction table generalizing k with
  | nil => simp [onRtFilterChgSyncPeer]
  | cons a table ih =>
    rw [onRtFilterChgSyncPeer]
    cases k with
    | zero =>
      split <;> next h => simp [h]
    | succ k =>
      obtain ⟨h0, h⟩ := noneRaises_cons.1 h
      split
      · next e a' hr => simp [hr] at h0
      · exact ih h

theorem sync_of_raises {table : List Advert} (h : ¬ NoneRaises sp pm i newRts oldRts table k) :
    (onRtFilterChgSyncPeer sp pm i newRts oldRts table).2[k]? = table[k]? := by
  induction table generalizing k with
  | nil => simp [onRtFilterChgSyncPeer]
  | cons a table ih =>
    rw [onRtFilterChgSyncPeer]
    cases k with
    | zero => exact absurd (fun k' hk' => absurd hk' (Nat.not_lt_zero k')) h
    | succ k =>
      split
      · rfl
      · next a' hr =>
        rw [noneRaises_cons, hr] at h
        exact ih fun h' => h ⟨rfl, h'⟩

theorem at?_of_isHandled (h : IsHandled sp pm i newRts oldRts tables rf k) :
    (onUpdateRtFilter sp pm i newRts oldRts tables).at? rf k =
      (tables.at? rf k).map fun a => (a.onRtFilterChg sp pm i newRts oldRts).2 := by
  unfold GlobalTables.at? onUpdateRtFilter
  rw [Dict.get?_mapValues]
  cases ht : tables.get? rf with
  | none => rfl
  | some table =>
    simp only [Option.map_some, Option.bind_some, if_neg h.1]
    exact sync_of_noneRaises (h.2 table ht)

theorem at?_of_not_isHandled (h : ¬ IsHandled sp pm i newRts oldRts tables rf k) :
    (onUpdateRtFilter sp pm i newRts oldRts tables).at? rf k = tables.at? rf k := by
  unfold GlobalTables.at? onUpdateRtFilter
  rw [Dict.get?_mapValues]
  cases ht : tables.get? rf with
  | none => rfl
  | some table =>
    simp only [Option.map_some, Option.bind_some]
    by_cases hrf : rf = rfRtcUc
    · rw [if_pos hrf]
    · rw [if_neg hrf]
      apply sync_of_raises
      intro hn
      apply h
      refine ⟨hrf, ?_⟩
      intro table' ht'
      obtain rfl := Option.some.inj (ht.symm.trans ht')
      exact hn

/-! ## One peer among the others -/

/-- What concerns the peer is the same in every destination. -/
def AlikeFor (i : ℕ) (tables tables' : GlobalTables) : Prop :=
  ∀ rf k, Option.Rel (SameFor i) (tables.at? rf k) (tables'.at? rf k)

theorem AlikeFor.refl (i : ℕ) (tables : GlobalTables) : AlikeFor i tables tables := by
  intro rf k
  cases tables.at? rf k with
  | none => exact .none
  | some a => exact .some (.refl i a)

theorem AlikeFor.trans {tables'' : GlobalTables} (h : AlikeFor i tables tables')
    (h' : AlikeFor i tables' tables'') : AlikeFor i tables tables'' := by
  intro rf k
  have hab := h rf k
  have hbc := h' rf k
  revert hab hbc
  generalize tables.at? rf k = x, tables'.at? rf k = y, tables''.at? rf k = z
  rintro (⟨hab⟩ | _) hbc
  · obtain ⟨hbc⟩ := hbc
    exact .some (hab.trans hbc)
  · exact hbc

theorem alikeFor_other (hij : j ≠ i) :
    AlikeFor i tables (onUpdateRtFilter sp pm j newRts oldRts tables) := by
  intro rf k
  by_cases hr : IsHandled sp pm j newRts oldRts tables rf k
  · rw [at?_of_isHandled hr]
    cases tables.at? rf k with
    | none => exact .none
    | some a => exact .some (sameFor_onRtFilterChg hij)
  · rw [at?_of_not_isHandled hr]
    exact AlikeFor.refl i tables rf k

theorem isHandled_iff : IsHandled sp pm i newRts oldRts tables rf k ↔ rf ≠ rfRtcUc ∧
    ∀ k' < k, ∀ a ∈ tables.at? rf k', (a.onRtFilterChg sp pm i newRts oldRts).1 = none := by
  unfold IsHandled GlobalTables.at? NoneRaises
  cases tables.get? rf <;> simp

theorem AlikeFor.isHandled (h : AlikeFor i tables tables') :
    IsHandled sp pm i newRts oldRts tables' rf k ↔ IsHandled sp pm i newRts oldRts tables rf k := by
  rw [isHandled_iff, isHandled_iff]
  refine and_congr_right fun _ => forall₂_congr fun k' _ => ?_
  have hrel := h rf k'
  revert hrel
  generalize tables.at? rf k' = x, tables'.at? rf k' = y
  rintro (⟨hab⟩ | _)
  · simp [hab.onRtFilterChg.1]
  · simp

theorem AlikeFor.onUpdateRtFilter (h : AlikeFor i tables tables') :
    AlikeFor i (onUpdateRtFilter sp pm i newRts oldRts tables)
      (onUpdateRtFilter sp pm i newRts oldRts tables') := by
  intro rf k
  by_cases hr : IsHandled sp pm i newRts oldRts tables rf k
  · rw [at?_of_isHandled hr, at?_of_isHandled (h.isHandled.mpr hr)]
    have hrel := h rf k
    revert hrel
    generalize tables.at? rf k = x, tables'.at? rf k = y
    rintro (⟨hab⟩ | _)
    · exact .some hab.onRtFilterChg.2
    · exact .none
  · rw [at?_of_not_isHandled hr, at?_of_not_isHandled (mt h.isHandled.mp hr)]
    exact h rf k

variable {pre : Dict ℕ (Option (List String))}

theorem alikeFor_updateRtfilter_other (hij : j ≠ i) :
    AlikeFor i tables (updateRtfilter sp pm pre tables j) := by
  unfold updateRtfilter
  dsimp only
  split_ifs
  · exact alikeFor_other hij
  · exact .refl i tables

theorem AlikeFor.updateRtfilter (h : AlikeFor i tables tables') :
    AlikeFor i (updateRtfilter sp pm pre tables i) (updateRtfilter sp pm pre tables' i) := by
  unfold Bgp.updateRtfilter
  dsimp only
  split_ifs
  · exact h.onUpdateRtFilter
  · exact h

theorem alikeFor_foldl_other {peers : List ℕ} (hi : i ∉ peers) (tables : GlobalTables) :
    AlikeFor i tables (peers.foldl (updateRtfilter sp pm pre) tables) := by
  induction peers generalizing tables with
  | nil => exact .refl i tables
  | cons j peers ih =>
    have hj : j ≠ i := fun hj => hi (hj ▸ List.mem_cons_self)
    exact (alikeFor_updateRtfilter_other hj).trans
      (ih (fun h => hi (List.mem_cons_of_mem _ h)) _)

/-- Of the turns of all peers that of the peer itself is what matters to it. -/
theorem alikeFor_foldl (sp : Speaker) (pm : PeerManager) (pre : Dict ℕ (Option (List String)))
    {peers : List ℕ} (hn : peers.Nodup) (hi : i ∈ peers)
    (tables : GlobalTables) :
    AlikeFor i (updateRtfilter sp pm pre tables i)
      (peers.foldl (updateRtfilter sp pm pre) tables) := by
  induction peers generalizing tables with
  | nil => exact absurd hi List.not_mem_nil
  | cons j peers ih =>
    obtain ⟨hj, hn⟩ := List.nodup_cons.mp hn
    by_cases hij : j = i
    · subst hij
      exact alikeFor_foldl_other hj _
    · have hi : i ∈ peers := (List.mem_cons.mp hi).resolve_left (Ne.symm hij)
      exact (alikeFor_updateRtfilter_other hij).updateRtfilter.trans (ih hn hi _)

/-! ## What the peer has afterwards -/

theorem mem_rtsDiff {rt : String} : rt ∈ rtsDiff F F' ↔ rt ∈ F ∧ rt ∉ F' := by
  simp [rtsDiff]

theorem rtsDiff_eq_nil : rtsDiff F F' = [] ↔ ∀ rt ∈ F, rt ∈ F' := by
  simp [rtsDiff]

theorem isWithdraw_of_communicated (hm : m ∈ (communicatePath sp pm i p).1) :
    m.isWithdraw = p.isWithdraw := by
  have hmed : (updateMed (pm.conf i) p).isWithdraw = p.isWithdraw := by
    unfold updateMed
    split <;> rfl
  rcases communicatePath_cases sp pm i p with h | ⟨-, h | ⟨h, -⟩⟩
  · simp [h] at hm
  · rw [h] at hm
    split_ifs at hm with hc
    · rw [List.mem_singleton.mp hm]
    · exact absurd hm List.not_mem_nil
  · rw [h] at hm
    rcases List.mem_append.mp hm with hm | hm
    · split_ifs at hm with hc
      · rw [List.mem_singleton.mp hm]
      · exact absurd hm List.not_mem_nil
    · rw [List.mem_singleton.mp hm, hmed]

/-- A path that was sent stays advertised unless every route target of it was removed. -/
theorem advertised_of_sent (hb : a.dest.bestPath = some b) (hs : (a.sentRoutes.get? i).isSome) :
    Advertised (a.onRtFilterChg sp pm i newRts oldRts).2 i ↔
      Advertised a i ∧ ¬ ∀ rt ∈ b.attrs.routeTargets, rt ∈ oldRts := by
  unfold Advert.onRtFilterChg
  rw [hb]
  simp only [hs, if_true, rtsDiff_eq_nil]
  split_ifs with hall
  · obtain ⟨path, hpath⟩ := Option.isSome_iff_exists.mp hs
    have hnot : ¬ Advertised (a.withdrawIfSentTo i) i := by
      unfold Advert.withdrawIfSentTo Advertised
      simp [hpath, Outbox.queue_post, Path.withdrawal]
    constructor
    · exact fun h => absurd h hnot
    · rintro ⟨-, h⟩
      exact absurd hall h
  · simp [hall]

/-- A path that was not sent is advertised from then on if the added route targets let it through
and it qualifies. -/
theorem advertised_of_not_sent (hb : a.dest.bestPath = some b) (hw : b.isWithdraw = false)
    (hs : (a.sentRoutes.get? i).isSome = false) :
    Advertised (a.onRtFilterChg sp pm i newRts oldRts).2 i ↔
      Advertised a i ∨ Shares b newRts ∧ (communicatePath sp pm i b).1 ≠ [] := by
  unfold Advert.onRtFilterChg
  rw [hb]
  simp only [hs, Bool.false_eq_true, if_false]
  split_ifs with hsh
  · cases hl : (communicatePath sp pm i b).1.getLast? with
    | none =>
      have hnil := List.getLast?_eq_none_iff.mp hl
      simp [hnil, Advertised, Outbox.queue_post]
    | some m =>
      have hm : m ∈ (communicatePath sp pm i b).1 := List.mem_of_getLast? hl
      have hmw : m.isWithdraw = false := (isWithdraw_of_communicated hm).trans hw
      have hne : (communicatePath sp pm i b).1 ≠ [] := List.ne_nil_of_mem hm
      simp [Advertised, Outbox.queue_post, hl, hmw, hsh, hne]
  · simp [hsh]

/-- When the change leaves the peer right about a destination with the best path `b`, by what was
sent and what is queued before. A path that was sent must have a route target in the new filter, or
one that was not in the old filter just if the new one has the default target. A path that was not
must be let through by an added route target, if by any, and qualify. -/
def ChangesRight (sp : Speaker) (pm : PeerManager) (i : ℕ) (F F' : List String) (reached : Prop)
    (a : Advert) (b : Path) : Prop :=
  (reached → (a.sentRoutes.get? i).isSome → Advertised a i →
      (∃ rt ∈ b.attrs.routeTargets, rt ∈ F') ∨
        ((∀ rt ∈ b.attrs.routeTargets, rt ∈ F) ↔ defaultRt ∉ F')) ∧
    (reached → (a.sentRoutes.get? i).isSome → ¬ Advertised a i → ¬ Shares b F') ∧
    (reached → ¬ (a.sentRoutes.get? i).isSome → Advertised a i → Shares b F') ∧
    (reached → ¬ (a.sentRoutes.get? i).isSome → ¬ Advertised a i → Shares b F' →
      Shares b (rtsDiff F' F) ∧ (communicatePath sp pm i b).1 ≠ []) ∧
    (¬ reached → (Advertised a i ↔ Shares b F'))

theorem shares_of_added (h : Shares b (rtsDiff F' F)) : Shares b F' := by
  obtain ⟨rt, hrt, hm⟩ := h
  exact ⟨rt, hrt, (mem_rtsDiff.1 hm).1⟩

theorem shares_iff : Shares b F ↔ (∃ rt ∈ b.attrs.routeTargets, rt ∈ F) ∨ defaultRt ∈ F := by
  simp [Shares, or_and_right, exists_or]

/-- A path that was sent is kept just if the new filter lets it through. -/
theorem kept_iff : (Shares b F' ↔ ¬ ∀ rt ∈ b.attrs.routeTargets, rt ∈ rtsDiff F F') ↔
    (∃ rt ∈ b.attrs.routeTargets, rt ∈ F') ∨
      ((∀ rt ∈ b.attrs.routeTargets, rt ∈ F) ↔ defaultRt ∉ F') := by
  rw [shares_iff]
  simp only [mem_rtsDiff]
  by_cases hin : ∃ rt ∈ b.attrs.routeTargets, rt ∈ F'
  · obtain ⟨rt, hrt, hm⟩ := hin
    have hnot : ¬ ∀ rt ∈ b.attrs.routeTargets, rt ∈ F ∧ rt ∉ F' := fun h => (h rt hrt).2 hm
    have hex : ∃ rt ∈ b.attrs.routeTargets, rt ∈ F' := ⟨rt, hrt, hm⟩
    simp only [hex, hnot, true_or, not_false_eq_true]
  · have hall : (∀ rt ∈ b.attrs.routeTargets, rt ∈ F ∧ rt ∉ F') ↔
        ∀ rt ∈ b.attrs.routeTargets, rt ∈ F :=
      ⟨fun h rt hrt => (h rt hrt).1, fun h rt hrt => ⟨h rt hrt, fun hm => hin ⟨rt, hrt, hm⟩⟩⟩
    simp only [hin, false_or, hall]
    tauto

/-- The peer has the path after its filter has changed just if the new filter lets it through,
exactly in the cases that `ChangesRight` says. -/
theorem advertised_updateRtfilters_iff (sp : Speaker) (pm : PeerManager)
    (pre : Dict ℕ (Option (List String))) (tables : GlobalTables) {i : ℕ} (hi : i ∈ pm.peers)
    {F F' : List String} (hF : filterOf pre i = F) (hF' : filterOf pm.peerToRtfilter i = F')
    (hchange : ¬ ∀ rt, rt ∈ F ↔ rt ∈ F') {rf : RouteFamily} {k : ℕ} {a : Advert}
    (ha : tables.at? rf k = some a) {b : Path} (hb : a.dest.bestPath = some b)
    (hw : b.isWithdraw = false) :
    (∃ a' ∈ (updateRtfilters sp pm pre tables).at? rf k, (Advertised a' i ↔ Shares b F')) ↔
      ChangesRight sp pm i F F'
        (IsHandled sp pm i (rtsDiff F' F) (rtsDiff F F') tables rf k) a b := by
  have hne : rtsDiff F' F ≠ [] ∨ rtsDiff F F' ≠ [] := by
    rw [Ne, Ne, rtsDiff_eq_nil, rtsDiff_eq_nil, ← not_and_or]
    rintro ⟨h, h'⟩
    exact hchange fun rt => ⟨h' rt, h rt⟩
  have hupd : updateRtfilter sp pm pre tables i =
      onUpdateRtFilter sp pm i (rtsDiff F' F) (rtsDiff F F') tables := by
    unfold updateRtfilter
    rw [hF, hF']
    exact if_pos hne
  have hrel := alikeFor_foldl sp pm pre pm.peers.nodup_dedup (List.mem_dedup.mpr hi) tables rf k
  rw [hupd] at hrel
  have hlhs : ∀ a₁, (onUpdateRtFilter sp pm i (rtsDiff F' F) (rtsDiff F F') tables).at? rf k =
      some a₁ → ((∃ a' ∈ (updateRtfilters sp pm pre tables).at? rf k,
        (Advertised a' i ↔ Shares b F')) ↔ (Advertised a₁ i ↔ Shares b F')) := by
    intro a₁ ha₁
    rw [ha₁] at hrel
    unfold updateRtfilters
    revert hrel
    generalize (pm.peers.dedup.foldl (updateRtfilter sp pm pre) tables).at? rf k = x
    rintro ⟨hsame⟩
    simp [hsame.advertised]
  unfold ChangesRight
  by_cases hr : IsHandled sp pm i (rtsDiff F' F) (rtsDiff F F') tables rf k
  · have ha₁ := at?_of_isHandled hr
    rw [ha, Option.map_some] at ha₁
    rw [hlhs _ ha₁]
    simp only [hr, forall_const, not_true_eq_false, false_implies, and_true]
    by_cases hs : (a.sentRoutes.get? i).isSome
    · rw [advertised_of_sent hb hs, ← kept_iff]
      by_cases hadv : Advertised a i
      · simp [hs, hadv, iff_comm]
      · simp [hs, hadv]
    · rw [advertised_of_not_sent hb hw (by simpa using hs)]
      by_cases hadv : Advertised a i
      · simp [hs, hadv]
      · have hadded : Shares b (rtsDiff F' F) → Shares b F' := shares_of_added
        simp only [hs, hadv, false_or, Bool.false_eq_true, false_implies, not_false_eq_true,
          forall_const, true_and]
        constructor
        · exact fun h hsh => h.mpr hsh
        · exact fun h => ⟨fun h' => hadded h'.1, h⟩
  · have ha₁ := at?_of_not_isHandled hr
    rw [ha] at ha₁
    rw [hlhs _ ha₁]
    simp [hr]

/-- A path with two route targets. -/
def twoTargets : Path :=
  { peerPath 2 1 none with
    attrs := { (peerPath 2 1 none).attrs with routeTargets := ["65000:1", "65000:2"] } }

/-- A destination with the path, which was sent to the first peer. -/
def sentTwoTargets : Advert where
  dest := { Destination.init twoTargets.nlri with
    knownPathList := [twoTargets], bestPath := some twoTargets }
  sentRoutes := Dict.empty.set 1 twoTargets
  outbox := Outbox.empty

def sentTables : GlobalTables := Dict.empty.set rfIPv4Uc [sentTwoTargets]

/-- The filters of the first peer. -/
def filters (rts : List String) : Dict ℕ (Option (List String)) := Dict.empty.set 1 (some rts)

def threeFiltered (rts : List String) : PeerManager :=
  { threeManaged with peerToRtfilter := filters rts }

/-- Both targets in the filter, and one left. -/
theorem advertised_updateRtfilters_one :
    (∃ a' ∈ (updateRtfilters externalPeers (threeFiltered ["65000:1"])
        (filters ["65000:1", "65000:2"]) sentTables).at? rfIPv4Uc 0,
        (Advertised a' 1 ↔ Shares twoTargets ["65000:1"])) ↔
      ChangesRight externalPeers (threeFiltered ["65000:1"]) 1 ["65000:1", "65000:2"] ["65000:1"]
        (IsHandled externalPeers (threeFiltered ["65000:1"]) 1
          (rtsDiff ["65000:1"] ["65000:1", "65000:2"]) (rtsDiff ["65000:1", "65000:2"] ["65000:1"])
          sentTables rfIPv4Uc 0) sentTwoTargets twoTargets :=
  advertised_updateRtfilters_iff externalPeers (threeFiltered ["65000:1"])
    (filters ["65000:1", "65000:2"]) sentTables (by decide) rfl rfl
    (fun h => absurd ((h "65000:2").mp (by decide)) (by decide)) rfl rfl rfl

/-- The only target that was in the filter is removed, and the path is not withdrawn. -/
theorem kept_without_target :
    ¬ ∀ (sp : Speaker) (pm : PeerManager) (pre : Dict ℕ (Option (List String)))
      (tables : GlobalTables), ∀ i ∈ pm.peers,
      (¬ ∀ rt, rt ∈ filterOf pre i ↔ rt ∈ filterOf pm.peerToRtfilter i) →
      ∀ rf k a, tables.at? rf k = some a → ∀ b, a.dest.bestPath = some b → b.isWithdraw = false →
      ∃ a' ∈ (updateRtfilters sp pm pre tables).at? rf k,
        (Advertised a' i ↔ Shares b (filterOf pm.peerToRtfilter i)) := by
  intro h
  obtain ⟨a', ha', hiff⟩ := h externalPeers (threeFiltered []) (filters ["65000:1"]) sentTables 1
    (by decide) (fun h => absurd ((h "65000:1").mp (by decide)) (by decide)) rfIPv4Uc 0
    sentTwoTargets rfl twoTargets rfl rfl
  obtain rfl : sentTwoTargets = a' := Option.some.inj ha'
  exact absurd (hiff.mp (by decide)) (by decide)

end Ryu.Bgp
