import Mathlib.Algebra.Ring.Nat
import Ryu.Bgp.Advertise

/-! # The Adj-RIB-In and the in-filters of a peer

A peer remembers the routes it received and which of them its in-filters block. Announcements,
withdrawals and new filters each decide for themselves what the table manager is told. Once a
prefix is processed the table has a path of the peer exactly if a route is remembered that the
filters admit, as long as no withdrawal is merged before an announcement queued ahead of it.
-/

namespace Ryu.Bgp

/-- A `netaddr.IPNetwork`: an address with its IP version and a prefix length. -/
structure IPNetwork where
  version : ℕ
  value : ℕ
  prefixlen : ℕ
  deriving DecidableEq, Repr

/-- The bits that are not part of the network. -/
def IPNetwork.shiftwidth (n : IPNetwork) : ℕ := (if n.version = 4 then 32 else 128) - n.prefixlen

/-- `other in self`. -/
def IPNetwork.contains (self other : IPNetwork) : Bool :=
  self.version = other.version && self.prefixlen ≤ other.prefixlen &&
    self.value / 2 ^ self.shiftwidth = other.value / 2 ^ self.shiftwidth

inductive FilterPolicy | deny | permit
  deriving DecidableEq, Repr

structure PrefixFilter where
  routeFamily : RouteFamily
  network : IPNetwork
  policy : FilterPolicy
  ge : Option ℕ
  le : Option ℕ
  deriving DecidableEq, Repr

/-- The matching result of `PrefixFilter.evaluate`; `net` is the network of the path's prefix.
A bound that is 0 is false, and then nothing matches. -/
def PrefixFilter.matchesNet (f : PrefixFilter) (net : IPNetwork) : Bool :=
  f.network.contains net &&
    match f.ge, f.le with
    | none, none => true
    | none, some le => le ≠ 0 && net.prefixlen ≤ le
    | some ge, none => ge ≠ 0 && ge ≤ net.prefixlen
    | some ge, some le => ge ≠ 0 && le ≠ 0 && ge ≤ net.prefixlen && net.prefixlen ≤ le

structure ReceivedRoute where
  path : Path
  filtered : Bool
  deriving DecidableEq, Repr

/-- What a peer keeps of the paths it received; `made` counts the path objects it created. -/
structure RibIn where
  inFilters : List PrefixFilter
  adjRibIn : Dict String ReceivedRoute
  made : ℕ
  deriving DecidableEq, Repr

/-- `formatted_nlri_str` is the text by which the tables know the NLRI too. -/
def Nlri.formattedNlriStr (nlri : Nlri) : String := nlri.tableKey

section Model

variable (ipNetwork : String → IPNetwork)

/-- `PrefixFilter.evaluate`. -/
def PrefixFilter.evaluate (f : PrefixFilter) (path : Path) : FilterPolicy × Bool :=
  (f.policy, f.matchesNet (ipNetwork path.nlri.tableKey))

/-- `_apply_filter`: whether a path is blocked. -/
def applyFilter (path : Path) : List PrefixFilter → Bool
  | [] => false
  | f :: filters =>
    if f.routeFamily ≠ path.routeFamily then applyFilter path filters
    else
      match f.evaluate ipNetwork path with
      | (.permit, true) => false
      | (.deny, true) => true
      | (_, false) => applyFilter path filters

/-- `_apply_in_filter`. -/
def RibIn.applyInFilter (r : RibIn) (path : Path) : Bool :=
  applyFilter ipNetwork path r.inFilters

def noAttrs : PathAttrs := ⟨none, none, none, none, none, [], none, none⟩

/-- One pass of the loop over announced NLRIs: the entry is remembered, and the path learned
unless the filters block it. -/
def RibIn.newPath (peer : ℕ) (r : RibIn) (nlri : Nlri) (attrs : PathAttrs) : RibIn × List Path :=
  let newPath : Path := ⟨r.made, .peer peer, nlri, attrs, false⟩
  let block := r.applyInFilter ipNetwork newPath
  ({ r with
      adjRibIn := r.adjRibIn.set nlri.formattedNlriStr ⟨newPath, block⟩
      made := r.made + 1 },
    if block then [] else [newPath])

/-- One pass of the loop over withdrawn NLRIs. -/
def RibIn.withdraw (peer : ℕ) (r : RibIn) (nlri : Nlri) : RibIn × List Path :=
  let wPath : Path := ⟨r.made, .peer peer, nlri, noAttrs, true⟩
  let block := r.applyInFilter ipNetwork wPath
  ({ r with adjRibIn := r.adjRibIn.erase nlri.formattedNlriStr, made := r.made + 1 },
    if block then [] else [wPath])

/-- What is learned of a route when the filters have changed; `index` numbers a new object. -/
def ReceivedRoute.relearned (r : RibIn) (route : ReceivedRoute) (index : ℕ) : Option Path :=
  let block := r.applyInFilter ipNetwork route.path
  if block = route.filtered then none
  else if block then some { route.path.withdrawal with index := index }
  else some route.path

/-- `on_update_in_filter`. -/
def RibIn.onUpdateInFilter (r : RibIn) : RibIn × List Path :=
  ({ r with
      adjRibIn := r.adjRibIn.mapValues fun _ route =>
        { route with filtered := r.applyInFilter ipNetwork route.path }
      made := r.made + r.adjRibIn.entries.length },
    (r.adjRibIn.entries.zipIdx r.made).filterMap fun x => x.1.2.relearned ipNetwork r x.2)

/-- The setter of `in_filters`. -/
def RibIn.setInFilters (r : RibIn) (filters : List PrefixFilter) : RibIn × List Path :=
  RibIn.onUpdateInFilter ipNetwork { r with inFilters := filters }

/-- A peer's routes, the global table of a family, and the peer's paths that were learned since
their destination was last processed. -/
structure InState where
  rib : RibIn
  table : Table
  pending : List Path
  deriving DecidableEq, Repr

/-- `learn_path`. -/
def InState.learn (s : InState) (path : Path) : InState :=
  { s with table := (s.table.insert path).2, pending := s.pending ++ [path] }

def InState.learnAll (s : InState) (x : RibIn × List Path) : InState :=
  x.2.foldl InState.learn { s with rib := x.1 }

/-- The NLRI of a unicast prefix. -/
def unicast (rf : RouteFamily) (key : String) : Nlri := ⟨rf, key, 0⟩

/-- What a peer receives, new in-filters, paths of other sources, and runs of `process`. -/
inductive InEvent
  | announce (key : String) (attrs : PathAttrs)
  | withdraw (key : String)
  | inFilters (filters : List PrefixFilter)
  | other (path : Path)
  | process (key : String)
  deriving DecidableEq, Repr

def inStep (sp : Speaker) (peer : ℕ) (rf : RouteFamily) (s : InState) : InEvent → InState
  | .announce key attrs => s.learnAll (s.rib.newPath ipNetwork peer (unicast rf key) attrs)
  | .withdraw key => s.learnAll (s.rib.withdraw ipNetwork peer (unicast rf key))
  | .inFilters filters => s.learnAll (s.rib.setInFilters ipNetwork filters)
  | .other path =>
    if path.source = .peer peer then s else { s with table := (s.table.insert path).2 }
  | .process key =>
    { s with
      table := (s.table.process sp key).2
      pending := s.pending.filter fun p => p.nlri.tableKey ≠ key }

/-- A filter is for a path's family and matches its prefix. -/
def PrefixFilter.isFor (f : PrefixFilter) (path : Path) : Bool :=
  f.routeFamily = path.routeFamily && f.matchesNet (ipNetwork path.nlri.tableKey)

/-- The first matching filter denies the path. -/
def Denied (filters : List PrefixFilter) (path : Path) : Prop :=
  (filters.find? fun f => f.isFor ipNetwork path).map PrefixFilter.policy = some .deny

instance (filters : List PrefixFilter) (path : Path) : Decidable (Denied ipNetwork filters path) :=
  inferInstanceAs (Decidable (_ = _))

/-- Every entry is flagged as the filters say, and a prefix without pending paths of the peer has
a path of the peer exactly if there is an entry for it that the filters admit. -/
def KnownAdmitted (peer : ℕ) (s : InState) : Prop :=
  ∀ key,
    (∀ route, s.rib.adjRibIn.get? key = some route →
      (route.filtered ↔ Denied ipNetwork s.rib.inFilters route.path)) ∧
    ((∀ p ∈ s.pending, p.nlri.tableKey ≠ key) →
      ((∃ p ∈ s.table.known key, p.source = .peer peer) ↔
        ∃ route, s.rib.adjRibIn.get? key = some route ∧
          ¬ Denied ipNetwork s.rib.inFilters route.path))

/-- The pending paths for a prefix. -/
def InState.pendingFor (s : InState) (key : String) : List Path :=
  s.pending.filter fun p => p.nlri.tableKey = key

/-- When a prefix is processed: if the last pending path of the peer is a withdrawal, no
announcement is pending before it, and at most one path of the peer is known; and if none is
pending and one path is known, no withdrawal is left over from an earlier run. -/
def WithdrawnInTurn (peer : ℕ) (s : InState) (e : InEvent) : Prop :=
  ∀ key, e = .process key →
    (∀ w, (s.pendingFor key).getLast? = some w → w.isWithdraw →
      (∀ p ∈ s.pendingFor key, p.isWithdraw) ∧
        (ofSource (s.table.known key) (.peer peer)).length ≤ 1) ∧
    (s.pendingFor key = [] → (ofSource (s.table.known key) (.peer peer)).length = 1 →
      .peer peer ∉ (s.table.withdraws key).map Path.source)

end Model

section Filters

variable {ipNetwork : String → IPNetwork} {filters : List PrefixFilter} {p q : Path}

/-- The loop stops at the first filter that is for the path. -/
theorem applyFilter_iff : applyFilter ipNetwork p filters ↔ Denied ipNetwork filters p := by
  induction filters with
  | nil => simp [applyFilter, Denied]
  | cons f filters ih =>
    unfold Denied at ih ⊢
    rw [applyFilter, List.find?_cons]
    rcases eq_or_ne f.routeFamily p.routeFamily with hf | hf
    · have hfor : f.isFor ipNetwork p = f.matchesNet (ipNetwork p.nlri.tableKey) := by
        simp [PrefixFilter.isFor, hf]
      rw [if_neg (not_not.mpr hf), hfor, PrefixFilter.evaluate]
      cases f.matchesNet (ipNetwork p.nlri.tableKey) with
      | false => cases f.policy <;> exact ih
      | true => cases hp : f.policy <;> simp [hp]
    · simpa [PrefixFilter.isFor, hf] using ih

/-- What the filters say of a path depends on its prefix alone. -/
theorem denied_congr (h : p.nlri = q.nlri) :
    Denied ipNetwork filters p ↔ Denied ipNetwork filters q := by
  unfold Denied PrefixFilter.isFor Path.routeFamily
  rw [h]

end Filters

section Told

variable {ipNetwork : String → IPNetwork} {peer : ℕ} {rf : RouteFamily} {r : RibIn} {key : String}

/-- There is an entry that the filters admit. -/
def Admitted (ipNetwork : String → IPNetwork) (r : RibIn) (key : String) : Prop :=
  ∃ route, r.adjRibIn.get? key = some route ∧ ¬ Denied ipNetwork r.inFilters route.path

/-- The entries are announcements of the peer, under their prefix and flagged as the filters
say. -/
def Entered (ipNetwork : String → IPNetwork) (peer : ℕ) (rf : RouteFamily) (r : RibIn) : Prop :=
  ∀ key route, r.adjRibIn.get? key = some route →
    route.path.nlri = unicast rf key ∧ route.path.isWithdraw = false ∧
      route.path.source = .peer peer ∧
      (route.filtered ↔ Denied ipNetwork r.inFilters route.path)

/-- The table manager hears of a prefix exactly what the entries have come to, and nothing where
nothing has changed. -/
structure Told (ipNetwork : String → IPNetwork) (peer : ℕ) (rf : RouteFamily) (r : RibIn)
    (x : RibIn × List Path) : Prop where
  entered : Entered ipNetwork peer rf x.1
  learned : ∀ p ∈ x.2, p.source = .peer peer ∧ p.routeFamily = rf
  told : ∀ key,
    x.2.filter (fun p => p.nlri.tableKey = key) = [] ∧
        (Admitted ipNetwork x.1 key ↔ Admitted ipNetwork r key) ∨
      ∃ p, x.2.filter (fun p => p.nlri.tableKey = key) = [p] ∧
        (p.isWithdraw = false ↔ Admitted ipNetwork x.1 key)

/-- An entry is admitted unless its prefix is denied, which does not depend on the entry. -/
theorem admitted_iff (h : Entered ipNetwork peer rf r) (p : Path) (hp : p.nlri = unicast rf key) :
    Admitted ipNetwork r key ↔
      (r.adjRibIn.get? key).isSome ∧ ¬ Denied ipNetwork r.inFilters p := by
  constructor
  · rintro ⟨route, hr, hd⟩
    exact ⟨by simp [hr], fun hp' => hd ((denied_congr (hp.trans (h key route hr).1.symm)).mp hp')⟩
  · rintro ⟨hs, hd⟩
    obtain ⟨route, hr⟩ := Option.isSome_iff_exists.mp hs
    exact ⟨route, hr, fun hp' => hd ((denied_congr (hp.trans (h key route hr).1.symm)).mpr hp')⟩

/-- One announcement or withdrawal: it is told unless it is blocked, and then it changes nothing. -/
theorem told_of_one {x : RibIn × List Path} {p : Path} (h : Entered ipNetwork peer rf r)
    (hent : Entered ipNetwork peer rf x.1) (hp : p.nlri = unicast rf key)
    (hs : p.source = .peer peer) (hf : x.1.inFilters = r.inFilters)
    (hl : x.2 = if r.applyInFilter ipNetwork p then [] else [p])
    (hget : ∀ k, k ≠ key → x.1.adjRibIn.get? k = r.adjRibIn.get? k)
    (hsome : (x.1.adjRibIn.get? key).isSome = !p.isWithdraw) :
    Told ipNetwork peer rf r x := by
  have hblock : r.applyInFilter ipNetwork p ↔ Denied ipNetwork r.inFilters p := applyFilter_iff
  refine ⟨hent, ?_, fun k => ?_⟩
  · rw [hl]
    split
    · simp
    · simp [hs, Path.routeFamily, hp, unicast]
  · rw [hl]
    rcases eq_or_ne k key with rfl | hk
    · rw [admitted_iff hent p hp, hf, hsome]
      split
      · next hb =>
        refine .inl ⟨rfl, ?_⟩
        rw [admitted_iff h p hp]
        simp [hblock.mp hb]
      · next hb =>
        refine .inr ⟨p, by simp [hp, unicast], ?_⟩
        rw [← hblock]
        simp [hb]
    · refine .inl ⟨?_, ?_⟩
      · split
        · rfl
        · simp [hp, unicast, Ne.symm hk]
      · unfold Admitted
        rw [hf, hget k hk]

theorem newPath_told (h : Entered ipNetwork peer rf r) (key : String) (attrs : PathAttrs) :
    Told ipNetwork peer rf r (r.newPath ipNetwork peer (unicast rf key) attrs) := by
  have hget : ∀ k, (r.newPath ipNetwork peer (unicast rf key) attrs).1.adjRibIn.get? k =
      if key = k then some ⟨⟨r.made, .peer peer, unicast rf key, attrs, false⟩,
        r.applyInFilter ipNetwork ⟨r.made, .peer peer, unicast rf key, attrs, false⟩⟩
      else r.adjRibIn.get? k := by
    intro k
    simp only [RibIn.newPath, Nlri.formattedNlriStr, unicast, Dict.get?_set]
  refine told_of_one (p := ⟨r.made, .peer peer, unicast rf key, attrs, false⟩) h ?_ rfl rfl rfl rfl
    (fun k hk => by rw [hget, if_neg hk.symm]) (by rw [hget, if_pos rfl]; rfl)
  intro k route hr
  rw [hget] at hr
  split at hr
  · next hk =>
    subst hk
    obtain rfl := Option.some.inj hr
    exact ⟨rfl, rfl, rfl, applyFilter_iff⟩
  · exact h k route hr

theorem withdraw_told (h : Entered ipNetwork peer rf r) (key : String) :
    Told ipNetwork peer rf r (r.withdraw ipNetwork peer (unicast rf key)) := by
  have hget : ∀ k, (r.withdraw ipNetwork peer (unicast rf key)).1.adjRibIn.get? k =
      if key = k then none else r.adjRibIn.get? k := by
    intro k
    simp only [RibIn.withdraw, Nlri.formattedNlriStr, unicast, Dict.get?_erase]
  refine told_of_one (p := ⟨r.made, .peer peer, unicast rf key, noAttrs, true⟩) h ?_ rfl rfl rfl rfl
    (fun k hk => by rw [hget, if_neg hk.symm]) (by rw [hget, if_pos rfl]; rfl)
  intro k route hr
  rw [hget] at hr
  split at hr
  · cases hr
  · exact h k route hr

/-- Of the entries, at most one is for a key. -/
theorem filter_zipIdx_key {κ ν : Type} [DecidableEq κ] (d : Dict κ ν) (n : ℕ) (k : κ) :
    d.get? k = none ∧ (d.entries.zipIdx n).filter (fun x => x.1.1 = k) = [] ∨
      ∃ v i, d.get? k = some v ∧ (d.entries.zipIdx n).filter (fun x => x.1.1 = k) = [((k, v), i)] := by
  have hmap : ((d.entries.zipIdx n).filter fun x => x.1.1 = k).map Prod.fst =
      d.entries.filter fun e => e.1 = k := by
    conv_rhs => rw [← List.zipIdx_map_fst n d.entries, List.filter_map]
    rfl
  have hkey := Dict.entries_filter_key d k
  rw [← hmap, List.map_map] at hkey
  cases hk : d.get? k with
  | none =>
    rw [hk] at hkey
    exact .inl ⟨rfl, List.map_eq_nil_iff.mp hkey⟩
  | some v =>
    rw [hk] at hkey
    obtain ⟨⟨⟨k', v'⟩, i⟩, hx, hv⟩ := List.map_eq_singleton_iff.mp hkey
    have hk' : k' = k := by
      have hm : ((k', v'), i) ∈ (d.entries.zipIdx n).filter fun x => x.1.1 = k := by
        rw [hx]
        exact List.mem_singleton_self _
      simpa using (List.mem_filter.mp hm).2
    subst hk'
    obtain rfl : v' = v := hv
    exact .inr ⟨v', i, rfl, hx⟩

theorem setInFilters_told (h : Entered ipNetwork peer rf r) (filters : List PrefixFilter) :
    Told ipNetwork peer rf r (r.setInFilters ipNetwork filters) := by
  set r' : RibIn := { r with inFilters := filters } with hr'
  have hget : ∀ k, (r.setInFilters ipNetwork filters).1.adjRibIn.get? k =
      (r.adjRibIn.get? k).map fun route =>
        { route with filtered := r'.applyInFilter ipNetwork route.path } := by
    intro k
    exact Dict.get?_mapValues _ _ _
  have hent : Entered ipNetwork peer rf (r.setInFilters ipNetwork filters).1 := by
    intro k route hr
    rw [hget] at hr
    obtain ⟨route₀, hr₀, rfl⟩ := Option.map_eq_some_iff.mp hr
    obtain ⟨hn, hw, hs, -⟩ := h k route₀ hr₀
    exact ⟨hn, hw, hs, applyFilter_iff⟩
  have hmem : ∀ y ∈ r'.adjRibIn.entries.zipIdx r'.made, r.adjRibIn.get? y.1.1 = some y.1.2 :=
    fun y hy => Dict.mem_entries_iff.mp (List.fst_mem_of_mem_zipIdx hy)
  have hpath : ∀ y ∈ r'.adjRibIn.entries.zipIdx r'.made, ∀ p,
      y.1.2.relearned ipNetwork r' y.2 = some p →
        p.source = .peer peer ∧ p.nlri = unicast rf y.1.1 := by
    intro y hy p hp
    obtain ⟨hn, -, hs, -⟩ := h y.1.1 y.1.2 (hmem y hy)
    unfold ReceivedRoute.relearned at hp
    dsimp only at hp
    split at hp
    · cases hp
    · split at hp <;> obtain rfl := Option.some.inj hp <;> exact ⟨hs, hn⟩
  have hfilter : ∀ k, (r.setInFilters ipNetwork filters).2.filter (fun p => p.nlri.tableKey = k) =
      ((r'.adjRibIn.entries.zipIdx r'.made).filter fun y => y.1.1 = k).filterMap fun y =>
        y.1.2.relearned ipNetwork r' y.2 := by
    intro k
    change ((r'.adjRibIn.entries.zipIdx r'.made).filterMap fun y =>
      y.1.2.relearned ipNetwork r' y.2).filter _ = _
    rw [List.filter_filterMap, List.filterMap_filter]
    refine List.filterMap_congr fun y hy => ?_
    cases hp : y.1.2.relearned ipNetwork r' y.2 with
    | none => simp
    | some p => simp [(hpath y hy p hp).2, unicast, Option.filter_some]
  refine ⟨hent, ?_, fun k => ?_⟩
  · intro p hp
    obtain ⟨y, hy, hp⟩ := List.mem_filterMap.mp hp
    obtain ⟨hs, hn⟩ := hpath y hy p hp
    exact ⟨hs, by rw [Path.routeFamily, hn]; rfl⟩
  · rw [hfilter]
    rcases filter_zipIdx_key r'.adjRibIn r'.made k with ⟨hk, hl⟩ | ⟨route, i, hk, hl⟩
    · refine .inl ⟨by rw [hl]; rfl, ?_⟩
      unfold Admitted
      rw [hget, show r.adjRibIn.get? k = none from hk]
      simp
    · have hk' : r.adjRibIn.get? k = some route := hk
      obtain ⟨hn, hw, hs, hf⟩ := h k route hk'
      have hblock : r'.applyInFilter ipNetwork route.path ↔ Denied ipNetwork filters route.path :=
        applyFilter_iff
      have hnew : Admitted ipNetwork (r.setInFilters ipNetwork filters).1 k ↔
          ¬ Denied ipNetwork filters route.path := by
        rw [admitted_iff hent route.path hn, hget, hk']
        simp [RibIn.setInFilters, RibIn.onUpdateInFilter]
      have hone : ([((k, route), i)].filterMap fun y => y.1.2.relearned ipNetwork r' y.2) =
          (route.relearned ipNetwork r' i).toList := by
        cases hp : route.relearned ipNetwork r' i <;> simp [hp]
      rw [hl, hone, hnew, admitted_iff h route.path hn, hk', ← hblock, ← hf]
      unfold ReceivedRoute.relearned
      dsimp only
      split
      · next heq => exact .inl ⟨rfl, by rw [heq]; simp⟩
      · split
        · next hb => exact .inr ⟨_, rfl, by simp [hb, Path.withdrawal]⟩
        · next hb => exact .inr ⟨_, rfl, by simp [hb, hw]⟩

end Told

section Run

variable {ipNetwork : String → IPNetwork} {sp : Speaker} {peer : ℕ} {rf : RouteFamily}
  {s : InState} {t : Table} {key : String} {path : Path} {x : RibIn × List Path}

/-- What the destinations have queued of the peer is what is pending. -/
structure Pending (peer : ℕ) (rf : RouteFamily) (s : InState) : Prop where
  family : s.table.routeFamily = rf
  source : ∀ p ∈ s.pending, p.source = .peer peer
  newPaths : ∀ key, ofSource (s.table.newPaths key) (.peer peer) =
    (s.pendingFor key).filter fun p => !p.isWithdraw
  withdraws : ∀ key, ∀ p ∈ s.pendingFor key, p.isWithdraw → p ∈ s.table.withdraws key

/-- The last pending path of a prefix says whether its entry is admitted. -/
def LastPending (ipNetwork : String → IPNetwork) (s : InState) : Prop :=
  ∀ key p, (s.pendingFor key).getLast? = some p →
    (p.isWithdraw = false ↔ Admitted ipNetwork s.rib key)

theorem newPaths_insert_eq (hf : path.routeFamily = t.routeFamily) (key : String) :
    (t.insert path).2.newPaths key =
      if path.nlri.tableKey = key ∧ path.isWithdraw = false then t.newPaths key ++ [path]
      else t.newPaths key := by
  by_cases hk : path.nlri.tableKey = key
  · rw [newPaths_insert (s := ⟨t, [], []⟩) ⟨hf, hk⟩]
    cases path.isWithdraw <;> simp [hk]
  · simp [Table.newPaths, insert_destinations hf, hk]

theorem withdraws_insert_eq (hf : path.routeFamily = t.routeFamily) (key : String) :
    (t.insert path).2.withdraws key =
      if path.nlri.tableKey = key ∧ path.isWithdraw then t.withdraws key ++ [path]
      else t.withdraws key := by
  by_cases hk : path.nlri.tableKey = key
  · rw [withdraws_insert (s := ⟨t, [], []⟩) ⟨hf, hk⟩]
    cases path.isWithdraw <;> simp [hk]
  · simp [Table.withdraws, insert_destinations hf, hk]

theorem insert_routeFamily (t : Table) (path : Path) :
    (t.insert path).2.routeFamily = t.routeFamily := by
  unfold Table.insert
  split <;> rfl

theorem process_routeFamily (sp : Speaker) (t : Table) (key : String) :
    (t.process sp key).2.routeFamily = t.routeFamily := by
  unfold Table.process
  split
  · rfl
  · split
    · rfl
    · split <;> rfl

theorem pendingFor_learn (s : InState) (path : Path) (key : String) :
    (s.learn path).pendingFor key =
      if path.nlri.tableKey = key then s.pendingFor key ++ [path] else s.pendingFor key := by
  unfold InState.pendingFor InState.learn
  rw [List.filter_append]
  split
  · next h => simp [h]
  · next h => simp [h]

theorem Pending.learn (h : Pending peer rf s) (hs : path.source = .peer peer)
    (hf : path.routeFamily = rf) : Pending peer rf (s.learn path) := by
  have hf' := hf.trans h.family.symm
  constructor
  · exact (insert_routeFamily _ _).trans h.family
  · intro p hp
    rcases List.mem_append.mp hp with hp | hp
    · exact h.source p hp
    · rwa [List.mem_singleton.mp hp]
  · intro key
    have hn := h.newPaths key
    rw [pendingFor_learn]
    change ofSource ((s.table.insert path).2.newPaths key) _ = _
    rw [newPaths_insert_eq hf']
    cases hw : path.isWithdraw with
    | false =>
      rcases eq_or_ne path.nlri.tableKey key with hk | hk
      · rw [if_pos ⟨hk, rfl⟩, if_pos hk, ofSource_append, hn, List.filter_append]
        simp [ofSource, hs, hw]
      · simp [hk, hn]
    | true => rcases eq_or_ne path.nlri.tableKey key with hk | hk <;> simp [hk, hw, hn]
  · intro key p hp hw
    rw [pendingFor_learn] at hp
    change p ∈ (s.table.insert path).2.withdraws key
    rw [withdraws_insert_eq hf']
    split at hp
    · next hk =>
      rcases List.mem_append.mp hp with hp | hp
      · split
        · exact List.mem_append_left _ (h.withdraws key p hp hw)
        · exact h.withdraws key p hp hw
      · obtain rfl := List.mem_singleton.mp hp
        simp [hk, hw]
    · next hk => simpa [hk] using h.withdraws key p hp hw

theorem foldl_learn_rib (s : InState) (xs : List Path) :
    (xs.foldl InState.learn s).rib = s.rib := by
  induction xs generalizing s with
  | nil => rfl
  | cons p xs ih => exact ih (s.learn p)

theorem pendingFor_foldl_learn (s : InState) (xs : List Path) (key : String) :
    (xs.foldl InState.learn s).pendingFor key =
      s.pendingFor key ++ xs.filter fun p => p.nlri.tableKey = key := by
  induction xs generalizing s with
  | nil => simp
  | cons p xs ih =>
    rw [List.foldl_cons, ih, pendingFor_learn, List.filter_cons]
    by_cases hk : p.nlri.tableKey = key <;> simp [hk]

theorem known_foldl_learn (s : InState) (xs : List Path) (key : String) :
    (xs.foldl InState.learn s).table.known key = s.table.known key := by
  induction xs generalizing s with
  | nil => rfl
  | cons p xs ih => exact (ih (s.learn p)).trans (known_insert key)

theorem Pending.foldl_learn (h : Pending peer rf s) {xs : List Path}
    (hx : ∀ p ∈ xs, p.source = .peer peer ∧ p.routeFamily = rf) :
    Pending peer rf (xs.foldl InState.learn s) := by
  induction xs generalizing s with
  | nil => exact h
  | cons p xs ih =>
    obtain ⟨hp, hxs⟩ := List.forall_mem_cons.mp hx
    exact ih (h.learn hp.1 hp.2) hxs

theorem Pending.learnAll (h : Pending peer rf s) (hT : Told ipNetwork peer rf s.rib x) :
    Pending peer rf (s.learnAll x) := by
  have h' : Pending peer rf { s with rib := x.1 } := ⟨h.family, h.source, h.newPaths, h.withdraws⟩
  exact h'.foldl_learn hT.learned

theorem pendingFor_learnAll (s : InState) (x : RibIn × List Path) (key : String) :
    (s.learnAll x).pendingFor key =
      s.pendingFor key ++ x.2.filter fun p => p.nlri.tableKey = key :=
  pendingFor_foldl_learn { s with rib := x.1 } x.2 key

theorem rib_learnAll (s : InState) (x : RibIn × List Path) : (s.learnAll x).rib = x.1 :=
  foldl_learn_rib { s with rib := x.1 } x.2

theorem LastPending.learnAll (h : LastPending ipNetwork s)
    (hT : Told ipNetwork peer rf s.rib x) : LastPending ipNetwork (s.learnAll x) := by
  intro key p hp
  rw [pendingFor_learnAll] at hp
  rw [rib_learnAll]
  rcases hT.told key with ⟨hx, hadm⟩ | ⟨q, hx, hadm⟩
  · rw [hx, List.append_nil] at hp
    rw [hadm]
    exact h key p hp
  · rw [hx, List.getLast?_concat] at hp
    rwa [← Option.some.inj hp]

theorem pendingFor_eq_nil : s.pendingFor key = [] ↔ ∀ p ∈ s.pending, p.nlri.tableKey ≠ key := by
  simp [InState.pendingFor, List.filter_eq_nil_iff]

theorem knownAdmitted_iff : KnownAdmitted ipNetwork peer s ↔ ∀ key,
    (∀ route, s.rib.adjRibIn.get? key = some route →
      (route.filtered ↔ Denied ipNetwork s.rib.inFilters route.path)) ∧
    (s.pendingFor key = [] →
      (ofSource (s.table.known key) (.peer peer) ≠ [] ↔ Admitted ipNetwork s.rib key)) := by
  refine forall_congr' fun key => and_congr_right fun _ => ?_
  rw [pendingFor_eq_nil]
  refine imp_congr_right fun _ => ?_
  rw [← mem_map_source, List.mem_map]
  rfl

theorem knownAdmitted_learnAll (h : KnownAdmitted ipNetwork peer s)
    (hT : Told ipNetwork peer rf s.rib x) : KnownAdmitted ipNetwork peer (s.learnAll x) := by
  rw [knownAdmitted_iff] at h ⊢
  intro key
  rw [rib_learnAll, pendingFor_learnAll]
  refine ⟨fun route hr => (hT.entered key route hr).2.2.2, fun hp => ?_⟩
  obtain ⟨hs, hx⟩ := List.append_eq_nil_iff.mp hp
  rw [show (s.learnAll x).table.known key = s.table.known key from known_foldl_learn _ _ _,
    (h key).2 hs]
  rcases hT.told key with ⟨-, hadm⟩ | ⟨q, hx', -⟩
  · exact hadm.symm
  · rw [hx] at hx'
    cases hx'

/-- The peer's side of the state and the queues agree. -/
structure Kept (ipNetwork : String → IPNetwork) (peer : ℕ) (rf : RouteFamily) (s : InState) :
    Prop where
  entered : Entered ipNetwork peer rf s.rib
  pending : Pending peer rf s
  last : LastPending ipNetwork s

theorem Kept.learnAll (h : Kept ipNetwork peer rf s) (hT : Told ipNetwork peer rf s.rib x) :
    Kept ipNetwork peer rf (s.learnAll x) :=
  ⟨by rw [rib_learnAll]; exact hT.entered, h.pending.learnAll hT, h.last.learnAll hT⟩

theorem Kept.other (h : Kept ipNetwork peer rf s) (hs : path.source ≠ .peer peer) :
    Kept ipNetwork peer rf { s with table := (s.table.insert path).2 } := by
  refine ⟨h.entered, ⟨?_, h.pending.source, fun key => ?_, fun key p hp hw => ?_⟩, h.last⟩
  · exact (insert_routeFamily _ _).trans h.pending.family
  · change _ = (s.pendingFor key).filter fun p => !p.isWithdraw
    rw [← h.pending.newPaths key]
    rcases eq_or_ne path.routeFamily s.table.routeFamily with hf | hf
    · dsimp only
      rw [newPaths_insert_eq hf]
      split
      · simp [ofSource, hs]
      · rfl
    · simp [Table.insert, hf]
  · rcases eq_or_ne path.routeFamily s.table.routeFamily with hf | hf
    · dsimp only
      rw [withdraws_insert_eq hf]
      split
      · exact List.mem_append_left _ (h.pending.withdraws key p hp hw)
      · exact h.pending.withdraws key p hp hw
    · simpa [Table.insert, hf] using h.pending.withdraws key p hp hw

theorem pendingFor_process (s : InState) (t : Table) (k key : String) :
    InState.pendingFor ⟨s.rib, t, s.pending.filter fun p => p.nlri.tableKey ≠ k⟩ key =
      if k = key then [] else s.pendingFor key := by
  unfold InState.pendingFor
  rw [List.filter_filter]
  split
  · next hk =>
    refine List.filter_eq_nil_iff.mpr fun p _ => ?_
    simp [hk]
  · next hk =>
    refine List.filter_congr fun p _ => ?_
    rw [Bool.eq_iff_iff]
    simp only [Bool.and_eq_true, decide_eq_true_eq, and_iff_left_iff_imp]
    rintro rfl
    exact Ne.symm hk

theorem Kept.process (h : Kept ipNetwork peer rf s) (sp : Speaker) (k : String) :
    Kept ipNetwork peer rf
      ⟨s.rib, (s.table.process sp k).2, s.pending.filter fun p => p.nlri.tableKey ≠ k⟩ := by
  refine ⟨h.entered, ⟨?_, ?_, fun key => ?_, fun key p hp hw => ?_⟩, fun key p hp => ?_⟩
  · exact (process_routeFamily _ _ _).trans h.pending.family
  · exact fun p hp => h.pending.source p (List.mem_filter.mp hp).1
  · rw [pendingFor_process]
    split
    · next hk => simp [hk, newPaths_process, ofSource]
    · next hk =>
      rw [← h.pending.newPaths key]
      dsimp only
      unfold Table.newPaths
      rw [process_of_ne sp s.table hk]
  · rw [pendingFor_process] at hp
    split at hp
    · cases hp
    · next hk =>
      dsimp only
      unfold Table.withdraws
      rw [process_of_ne sp s.table hk]
      exact h.pending.withdraws key p hp hw
  · rw [pendingFor_process] at hp
    split at hp
    · cases hp
    · exact h.last key p hp

theorem Kept.inStep (h : Kept ipNetwork peer rf s) (e : InEvent) :
    Kept ipNetwork peer rf (inStep ipNetwork sp peer rf s e) := by
  cases e with
  | announce key attrs => exact h.learnAll (newPath_told h.entered key attrs)
  | withdraw key => exact h.learnAll (withdraw_told h.entered key)
  | inFilters filters => exact h.learnAll (setInFilters_told h.entered filters)
  | other path =>
    simp only [Bgp.inStep]
    split
    · exact h
    · next hs => exact h.other hs
  | process key => exact h.process sp key

/-- What a run of a prefix leaves of the peer is admitted exactly if its paths are in turn. -/
theorem process_admitted_iff (h : Kept ipNetwork peer rf s) (hk : KnownAdmitted ipNetwork peer s)
    (key : String) :
    (ofSource ((s.table.process sp key).2.known key) (.peer peer) ≠ [] ↔
        Admitted ipNetwork s.rib key) ↔
      (∀ w, (s.pendingFor key).getLast? = some w → w.isWithdraw →
        (∀ p ∈ s.pendingFor key, p.isWithdraw) ∧
          (ofSource (s.table.known key) (.peer peer)).length ≤ 1) ∧
      (s.pendingFor key = [] → (ofSource (s.table.known key) (.peer peer)).length = 1 →
        .peer peer ∉ (s.table.withdraws key).map Path.source) := by
  rw [ofSource_process, h.pending.newPaths key]
  rcases List.eq_nil_or_concat (s.pendingFor key) with hP | ⟨l, p, hP⟩
  · -- nothing is pending: a withdrawal left over from an earlier run takes one path away
    rw [← ((knownAdmitted_iff.1 hk) key).2 hP, hP]
    rcases ofSource (s.table.known key) (.peer peer) with _ | ⟨a, _ | ⟨b, l⟩⟩
    · simp
    · by_cases hw : Source.peer peer ∈ (s.table.withdraws key).map Path.source <;> simp [hw]
    · by_cases hw : Source.peer peer ∈ (s.table.withdraws key).map Path.source <;> simp [hw]
  · rw [List.concat_eq_append] at hP
    have hlast := h.last key p (by rw [hP, List.getLast?_concat])
    rw [← hlast]
    cases hw : p.isWithdraw with
    | false => simp [hP, hw]
    | true =>
      have hpm : p ∈ s.pendingFor key := by simp [hP]
      have hq : Source.peer peer ∈ (s.table.withdraws key).map Path.source :=
        List.mem_map.mpr ⟨p, h.pending.withdraws key p hpm hw,
          h.pending.source p (List.mem_filter.mp hpm).1⟩
      have hnew : (s.pendingFor key).filter (fun p => !p.isWithdraw) = [] ↔
          ∀ p ∈ s.pendingFor key, p.isWithdraw := by
        simp [List.filter_eq_nil_iff]
      have hone : (ofSource (s.table.known key) (.peer peer)).tail = [] ↔
          (ofSource (s.table.known key) (.peer peer)).length ≤ 1 := by
        rcases ofSource (s.table.known key) (.peer peer) with _ | ⟨a, _ | ⟨b, l⟩⟩ <;> simp
      rw [if_pos hq, ← hnew, ← hone]
      have hne : s.pendingFor key ≠ [] := List.ne_nil_of_mem hpm
      constructor
      · intro hiff
        have h0 := Classical.not_not.mp fun hx => Bool.noConfusion (hiff.mp hx)
        obtain ⟨ht, hn⟩ := List.append_eq_nil_iff.mp h0
        rw [hn] at ht
        exact ⟨fun _ _ _ => ⟨hn, ht⟩, fun hx => absurd hx hne⟩
      · rintro ⟨hG, -⟩
        obtain ⟨hn, ht⟩ := hG p (by rw [hP, List.getLast?_concat]) hw
        simp [hn, ht]

theorem knownAdmitted_inStep (h : Kept ipNetwork peer rf s) (hk : KnownAdmitted ipNetwork peer s)
    (e : InEvent) : KnownAdmitted ipNetwork peer (inStep ipNetwork sp peer rf s e) ↔
      WithdrawnInTurn peer s e := by
  cases e with
  | announce key attrs =>
    exact iff_of_true (knownAdmitted_learnAll hk (newPath_told h.entered key attrs)) nofun
  | withdraw key =>
    exact iff_of_true (knownAdmitted_learnAll hk (withdraw_told h.entered key)) nofun
  | inFilters filters =>
    exact iff_of_true (knownAdmitted_learnAll hk (setInFilters_told h.entered filters)) nofun
  | other path =>
    refine iff_of_true ?_ nofun
    simp only [inStep]
    split
    · exact hk
    · intro key
      rw [known_insert]
      exact hk key
  | process k =>
    rw [knownAdmitted_iff] at hk
    rw [knownAdmitted_iff]
    simp only [inStep, pendingFor_process]
    constructor
    · rintro hP key ⟨⟩
      exact (process_admitted_iff h (knownAdmitted_iff.2 hk) k).mp ((hP k).2 (if_pos rfl))
    · intro hG key
      refine ⟨(hk key).1, fun hp => ?_⟩
      rcases eq_or_ne k key with rfl | hne
      · exact (process_admitted_iff h (knownAdmitted_iff.2 hk) k).mpr (hG k rfl)
      · rw [if_neg hne] at hp
        unfold Table.known
        rw [process_of_ne sp s.table hne]
        exact (hk key).2 hp

/-- Over every run of announcements, withdrawals and filter changes of a peer, of other sources'
paths and of `process`: the table has a path of the peer for a processed prefix exactly if an
entry is remembered for it that the filters admit, and the entries are flagged so, in every state
of the run exactly when every run of a prefix finds the peer's paths in turn. -/
theorem knownAdmitted_iff_inTurn (ipNetwork : String → IPNetwork) (sp : Speaker) (peer : ℕ)
    (rf : RouteFamily) (filters : List PrefixFilter) (evs : List InEvent) :
    Throughout (inStep ipNetwork sp peer rf) (KnownAdmitted ipNetwork peer)
        ⟨⟨filters, Dict.empty, 0⟩, ⟨rf, Dict.empty⟩, []⟩ evs ↔
      EveryStep (inStep ipNetwork sp peer rf) (WithdrawnInTurn peer)
        ⟨⟨filters, Dict.empty, 0⟩, ⟨rf, Dict.empty⟩, []⟩ evs := by
  apply throughout_iff_everyStep (I := Kept ipNetwork peer rf) (fun s e h => h.inStep e)
    (fun s e h hk => knownAdmitted_inStep h hk e)
  · refine ⟨fun key route hr => ?_, ⟨rfl, ?_, fun key => rfl, fun key p hp => ?_⟩, fun key p hp => ?_⟩
    · simp at hr
    · simp
    · simp [InState.pendingFor] at hp
    · simp [InState.pendingFor] at hp
  · intro key
    simp [Table.known]

def noEvents : InState := ⟨⟨[], Dict.empty, 0⟩, ⟨rfIPv4Uc, Dict.empty⟩, []⟩

/-- An announcement withdrawn before its prefix is processed is known and not remembered. -/
theorem withdrawnEntry_path_stays :
    ¬ Throughout (inStep (fun _ => ⟨4, 10 * 2 ^ 24, 24⟩) threePeers 3 rfIPv4Uc)
      (KnownAdmitted (fun _ => ⟨4, 10 * 2 ^ 24, 24⟩) 3) noEvents
      [.announce "10.0.0.0/24" noAttrs, .withdraw "10.0.0.0/24", .process "10.0.0.0/24"] := by
  intro h
  obtain ⟨route, hr, -⟩ := ((h.last "10.0.0.0/24").2 (by decide)).mp (by decide)
  have hn : (List.foldl (inStep (fun _ => ⟨4, 10 * 2 ^ 24, 24⟩) threePeers 3 rfIPv4Uc) noEvents
      [.announce "10.0.0.0/24" noAttrs, .withdraw "10.0.0.0/24",
        .process "10.0.0.0/24"]).rib.adjRibIn.get? "10.0.0.0/24" = none := by decide
  rw [hn] at hr
  cases hr

end Run

end Ryu.Bgp
