import Ryu.Bgp.Destination

/-! # The table of RT membership routes

The speaker's own RT membership routes are learned one by one: a path is inserted, and its
destination is processed before the next one is. An AS then has a local route of a route target as
long as the last event of the two is an announcement.
-/

namespace Ryu.Bgp

/-- What `_add_rt_nlri_for_as` learns of an AS and a route target. -/
structure RtEvent where
  originAs : ℕ
  routeTarget : String
  isWithdraw : Bool
  deriving DecidableEq, Repr

/-- `RtcTable._table_key`. -/
def rtKey (originAs : ℕ) (routeTarget : String) : String :=
  originAs.repr ++ ":" ++ routeTarget

namespace RtEvent

def key (e : RtEvent) : String := rtKey e.originAs e.routeTarget

/-- `_add_rt_nlri_for_as`: only an announcement has path attributes. -/
def path (e : RtEvent) (index : ℕ) : Path where
  index := index
  source := .nc
  nlri := ⟨rfRtcUc, e.key, e.originAs⟩
  attrs :=
    { origin := if e.isWithdraw then none else some 2
      asPath := if e.isWithdraw then none else some []
      localPref := none
      med := none
      communities := none
      routeTargets := []
      originatorId := none
      clusterList := none }
  isWithdraw := e.isWithdraw

end RtEvent

/-- A path is inserted, and its destination processed. -/
def Table.learn (sp : Speaker) (t : Table) (path : Path) : Table :=
  ((t.insert path).2.process sp path.nlri.tableKey).2

/-- The RT table after its events. -/
def rtTable (sp : Speaker) (events : List RtEvent) : Table :=
  (events.zipIdx.map fun e => e.1.path e.2).foldl (Table.learn sp) ⟨rfRtcUc, Dict.empty⟩

/-- The table knows a local route of the AS and the route target. -/
def HasRoute (sp : Speaker) (events : List RtEvent) (originAs : ℕ) (routeTarget : String) : Prop :=
  ofSource ((rtTable sp events).known (rtKey originAs routeTarget)) .nc ≠ []

instance (sp : Speaker) (events : List RtEvent) (originAs : ℕ) (routeTarget : String) :
    Decidable (HasRoute sp events originAs routeTarget) :=
  inferInstanceAs (Decidable (_ ≠ _))

variable {sp : Speaker} {t : Table} {s : TableState} {p : Path} {key : String}

theorem colon_notMem_repr (n : ℕ) : ':' ∉ n.repr.toList := by
  rw [Nat.toList_repr]
  intro h
  cases Nat.isDigit_of_mem_toDigits (by decide) (by decide) h

theorem repr_injective : Function.Injective Nat.repr := by
  intro m n h
  have hd := congrArg String.toList h
  rw [Nat.toList_repr, Nat.toList_repr] at hd
  rw [← Nat.ofDigitChars_toDigits (n := m) (by decide : 1 < 10) le_rfl, hd,
    Nat.ofDigitChars_toDigits (by decide) le_rfl]

/-- What stands before the first colon of a key. -/
theorem takeWhile_rtKey (as : ℕ) (rt : String) :
    (rtKey as rt).toList.takeWhile (· ≠ ':') = as.repr.toList := by
  have hd : ∀ c ∈ as.repr.toList, decide (c ≠ ':') = true := by
    rintro c hc
    rw [decide_eq_true_iff]
    rintro rfl
    exact colon_notMem_repr as hc
  rw [rtKey, String.toList_append, String.toList_append, List.append_assoc,
    List.takeWhile_append_of_pos hd]
  simp

theorem rtKey_inj {as as' : ℕ} {rt rt' : String} :
    rtKey as rt = rtKey as' rt' ↔ as = as' ∧ rt = rt' := by
  constructor
  · intro h
    have ha : as = as' := by
      apply repr_injective
      rw [← String.toList_inj, ← takeWhile_rtKey as rt, h, takeWhile_rtKey]
    subst ha
    exact ⟨rfl, by simpa [rtKey] using h⟩
  · rintro ⟨rfl, rfl⟩
    rfl

/-- The table beside the local events of a key that were all processed. -/
structure Learned (key : String) (s : TableState) : Prop where
  routeFamily : s.table.routeFamily = rfRtcUc
  queued : Queued key s
  known : KnownAnnounced key s
  pending : s.pending = []
  nc : ∀ p ∈ s.processed, p.source = .nc

theorem announced_eq_none_of_ne {evs : List Path} {src : Source} (h : ∀ p ∈ evs, p.source = .nc)
    (hs : src ≠ .nc) : announced evs src = none := by
  have he : ofSource evs src = [] := by
    rw [ofSource, List.filter_eq_nil_iff]
    rintro p hp
    simpa [h p hp] using hs.symm
  simp [announced, he]

/-- Learning a local path is an insertion and a run of its key. -/
def learnStep (sp : Speaker) (key : String) (s : TableState) (p : Path) : TableState :=
  tableStep sp key (tableStep sp key s (.insert p)) (.process p.nlri.tableKey)

theorem table_learnStep : (learnStep sp key s p).table = s.table.learn sp p := by
  dsimp only [learnStep, tableStep, Table.learn]
  split <;> rfl

theorem routeFamily_learn : (t.learn sp p).routeFamily = t.routeFamily := by
  have hi : (t.insert p).2.routeFamily = t.routeFamily := by
    unfold Table.insert
    split <;> rfl
  have hp : ∀ (t : Table) (k : String), (t.process sp k).2.routeFamily = t.routeFamily := by
    intro t k
    unfold Table.process
    split
    · rfl
    · split
      · rfl
      · split <;> rfl
  exact (hp _ _).trans hi

/-- A local path that is learned is processed at once. -/
theorem processed_learnStep (sp : Speaker) (h : Learned key s) (hf : p.routeFamily = rfRtcUc) :
    (learnStep sp key s p).pending = [] ∧ (learnStep sp key s p).processed =
      if p.nlri.tableKey = key then s.processed ++ [p] else s.processed := by
  have hh : s.hears key p ↔ p.nlri.tableKey = key := by
    simp [TableState.hears, hf, h.routeFamily]
  simp only [learnStep, tableStep, hh, h.pending]
  split <;> simp

theorem Learned.learnStep (h : Learned key s) (sp : Speaker) (hp : p.source = .nc)
    (hf : p.routeFamily = rfRtcUc) : Learned key (learnStep sp key s p) := by
  obtain ⟨hpend, hproc⟩ := processed_learnStep sp h hf
  constructor
  · rw [table_learnStep, routeFamily_learn]
    exact h.routeFamily
  · exact (h.queued.tableStep _).tableStep _
  · rw [Bgp.learnStep, knownAnnounced_tableStep (h.queued.tableStep _)
      ((knownAnnounced_tableStep h.queued h.known _).mpr (by rintro ⟨⟩))]
    -- the path is the only pending event of the key
    intro hk src
    obtain rfl : p.nlri.tableKey = key := TableEvent.process.inj hk
    have hh : s.hears p.nlri.tableKey p := ⟨hf.trans h.routeFamily.symm, rfl⟩
    simp only [tableStep, hh, if_true, h.pending, List.nil_append]
    by_cases hs : src = .nc
    · subst hs
      simp [ofSource, hp]
    · exact ⟨by simp [ofSource, hp, Ne.symm hs],
        fun _ ha => absurd (announced_eq_none_of_ne h.nc hs) ha⟩
  · exact hpend
  · rw [hproc]
    split
    · rintro q hq
      rcases List.mem_append.mp hq with hq | hq
      · exact h.nc q hq
      · rw [List.mem_singleton.mp hq, hp]
    · exact h.nc

theorem rtTable_concat (sp : Speaker) (events : List RtEvent) (e : RtEvent) :
    rtTable sp (events ++ [e]) = (rtTable sp events).learn sp (e.path events.length) := by
  simp [rtTable, List.zipIdx_append]

/-- The table of the events, beside a trace of any key. -/
theorem learned_rtTable (sp : Speaker) (key : String) (events : List RtEvent) :
    ∃ s, Learned key s ∧ s.table = rtTable sp events := by
  induction events using List.reverseRecOn with
  | nil =>
    exact ⟨⟨⟨rfRtcUc, Dict.empty⟩, [], []⟩,
      ⟨rfl, ⟨rfl, by simp⟩, fun _ => rfl, rfl, by simp⟩, rfl⟩
  | append_singleton events e ih =>
    obtain ⟨s, hs, ht⟩ := ih
    refine ⟨learnStep sp key s (e.path events.length), hs.learnStep sp rfl rfl, ?_⟩
    rw [table_learnStep, ht, rtTable_concat]

theorem Learned.route_iff (h : Learned key s) :
    ofSource (s.table.known key) .nc ≠ [] ↔ announced s.processed .nc ≠ none := by
  rw [h.known]
  simp

@[simp] theorem not_hasRoute_nil {originAs : ℕ} {routeTarget : String} :
    ¬ HasRoute sp [] originAs routeTarget := by
  simp [HasRoute, rtTable, Table.known, ofSource]

/-- An event decides whether its AS has a route of its route target, and nothing else. -/
theorem hasRoute_concat {events : List RtEvent} {e : RtEvent} {originAs : ℕ}
    {routeTarget : String} : HasRoute sp (events ++ [e]) originAs routeTarget ↔
      if e.originAs = originAs ∧ e.routeTarget = routeTarget then e.isWithdraw = false
      else HasRoute sp events originAs routeTarget := by
  obtain ⟨s, hs, ht⟩ := learned_rtTable sp (rtKey originAs routeTarget) events
  have hs' := hs.learnStep sp (p := e.path events.length) rfl rfl
  obtain ⟨-, hproc⟩ := processed_learnStep sp (p := e.path events.length) hs rfl
  have hkey : (e.path events.length).nlri.tableKey = rtKey originAs routeTarget ↔
      e.originAs = originAs ∧ e.routeTarget = routeTarget := rtKey_inj
  rw [HasRoute, rtTable_concat, ← ht, ← table_learnStep, hs'.route_iff, hproc]
  simp only [hkey]
  split
  · rw [announced_append_concat (l := []) (p := e.path events.length) rfl]
    have hw : (e.path events.length).isWithdraw = e.isWithdraw := rfl
    rw [hw]
    cases e.isWithdraw <;> simp
  · rw [← hs.route_iff, ht]
    rfl

/-- The same of events that all announce or all withdraw. -/
theorem hasRoute_append {events l : List RtEvent} {w : Bool} (h : ∀ e ∈ l, e.isWithdraw = w)
    {originAs : ℕ} {routeTarget : String} : HasRoute sp (events ++ l) originAs routeTarget ↔
      (∃ e ∈ l, e.originAs = originAs ∧ e.routeTarget = routeTarget) ∧ w = false ∨
        (¬ ∃ e ∈ l, e.originAs = originAs ∧ e.routeTarget = routeTarget) ∧
          HasRoute sp events originAs routeTarget := by
  induction l using List.reverseRecOn with
  | nil => simp
  | append_singleton l e ih =>
    have he : e.isWithdraw = w := h e (by simp)
    rw [← List.append_assoc, hasRoute_concat, ih fun e he => h e (by simp [he]), he]
    by_cases hm : e.originAs = originAs ∧ e.routeTarget = routeTarget
    · have hex : ∃ e' ∈ l ++ [e], e'.originAs = originAs ∧ e'.routeTarget = routeTarget :=
        ⟨e, by simp, hm⟩
      rw [if_pos hm]
      constructor
      · exact fun hw => Or.inl ⟨hex, hw⟩
      · rintro (⟨-, hw⟩ | ⟨hn, -⟩)
        · exact hw
        · exact absurd hex hn
    · simp [hm]

end Ryu.Bgp
