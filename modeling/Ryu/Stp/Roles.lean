import Ryu.Stp.Bridge

/-! # The roles of the ports

A bridge that hears of a root better than itself has one root port, the first of those that hear of
the best root in the best way. Each of the other ports is designated or not by its own message
alone. Both are stated on the messages held, without the loops that find them.
-/

namespace Ryu.Stp

/-- The vectors compared along a path: the cost, the bridge and its port. -/
def PathRank := ℤ ×ₗ ℕ ×ₗ ℕ

instance PathRank.linearOrder : LinearOrder PathRank :=
  @Prod.Lex.instLinearOrder ℤ (ℕ ×ₗ ℕ) Int.instLinearOrder
    (@Prod.Lex.instLinearOrder ℕ ℕ Nat.instLinearOrder Nat.instLinearOrder)

/-- The vectors of messages: the root, and what is compared along the path. -/
def RootRank := ℕ ×ₗ PathRank

instance RootRank.linearOrder : LinearOrder RootRank :=
  @Prod.Lex.instLinearOrder ℕ PathRank Nat.instLinearOrder PathRank.linearOrder

def pathRank (pathCost : ℤ) (bridgeId portId : ℕ) : PathRank :=
  toLex (pathCost, toLex (bridgeId, portId))

/-- The vector of a message, that of its root first. -/
def Received.rank (m : Received) : RootRank :=
  toLex (m.rootId.value,
    pathRank m.rootPathCost m.designatedBridgeId.value m.designatedPortId.value)

variable {c c' : ℤ} {b b' n n' : ℕ} {m m' : Received}

theorem cmpValue_eq_superior : cmpValue c c' = .superior ↔ c < c' := by
  unfold cmpValue
  split_ifs <;> simp_all

theorem cmpValue_eq_repeated : cmpValue c c' = .repeated ↔ c = c' := by
  unfold cmpValue
  split_ifs with h
  · simp [h.ne]
  · simp_all
  · simp_all

theorem pathRank_lt :
    pathRank c b n < pathRank c' b' n' ↔ c < c' ∨ c = c' ∧ (b < b' ∨ b = b' ∧ n < n') := by
  have houter : pathRank c b n < pathRank c' b' n' ↔ _ := Prod.Lex.toLex_lt_toLex
  rw [houter, Prod.Lex.toLex_lt_toLex]

theorem compareRootPath_eq_superior :
    compareRootPath c c' b b' n n' = .superior ↔ pathRank c b n < pathRank c' b' n' := by
  rw [pathRank_lt]
  unfold compareRootPath
  split
  · next hc =>
    obtain rfl := cmpValue_eq_repeated.1 hc
    split
    · next hb =>
      have hb : b = b' := by exact_mod_cast cmpValue_eq_repeated.1 hb
      simp [cmpValue_eq_superior, hb]
    · next hb =>
      have hb : b ≠ b' := by
        rintro rfl
        exact hb (cmpValue_eq_repeated.2 rfl)
      simp [cmpValue_eq_superior, hb]
  · next hc =>
    have hc : c ≠ c' := fun he => hc (cmpValue_eq_repeated.2 he)
    simp [cmpValue_eq_superior, hc]

theorem rank_lt : m.rank < m'.rank ↔ m.rootId.value < m'.rootId.value ∨
    m.rootId.value = m'.rootId.value ∧
      pathRank m.rootPathCost m.designatedBridgeId.value m.designatedPortId.value <
        pathRank m'.rootPathCost m'.designatedBridgeId.value m'.designatedPortId.value :=
  Prod.Lex.toLex_lt_toLex

namespace Bridge

variable {br : Bridge} {p : Port}

theorem compareRootMsg_eq_superior :
    compareRootMsg m'.priority m = .superior ↔ m.rank < m'.rank := by
  rw [rank_lt]
  by_cases hlt : m.rootId.value < m'.rootId.value
  · simp [compareRootMsg, Received.priority, hlt]
  · by_cases heq : m.rootId.value = m'.rootId.value
    · simp [compareRootMsg, Received.priority, heq, compareRootPath_eq_superior]
    · simp [compareRootMsg, Received.priority, hlt, heq, Ne.symm heq]

theorem compareRootMsg_own {rootMsg : Priority} (h : rootMsg.designated = none) :
    compareRootMsg rootMsg m = .superior ↔ m.rootId.value < rootMsg.rootId.value := by
  unfold compareRootMsg
  rw [h]
  split_ifs with h <;> simp [h]

/-- A port with its message. -/
def hearing (p : Port) : Option (Port × Received) := p.heard.map (p, ·)

/-- The ports that hear of a better root than the bridge itself. -/
def candidates (br : Bridge) : List (Port × Received) :=
  (br.ports.filterMap hearing).filter fun x => x.2.rootId.value < br.bridgeId.value

/-- The first of the ports with the best message about a better root. -/
def nearest (br : Bridge) : Option (Port × Received) := br.candidates.argmin fun x => x.2.rank

theorem mem_candidates {x : Port × Received} :
    x ∈ br.candidates ↔
      x.1 ∈ br.ports ∧ x.1.heard = some x.2 ∧ x.2.rootId.value < br.bridgeId.value := by
  unfold candidates hearing
  rw [List.mem_filter, List.mem_filterMap]
  simp only [Option.map_eq_some_iff, decide_eq_true_eq]
  constructor
  · rintro ⟨⟨p, hp, m, hm, rfl⟩, h⟩
    exact ⟨hp, hm, h⟩
  · rintro ⟨hp, hm, h⟩
    exact ⟨⟨x.1, hp, x.2, hm, rfl⟩, h⟩

theorem mem_of_nearest {x : Port × Received} (h : br.nearest = some x) : x ∈ br.candidates :=
  List.argmin_mem h

theorem rank_le_of_nearest {x y : Port × Received} (h : br.nearest = some x)
    (hy : y ∈ br.candidates) : x.2.rank ≤ y.2.rank :=
  List.le_of_mem_argmin (f := fun x : Port × Received => x.2.rank) hy h

theorem candidates_of_none (h : br.nearest = none) : br.candidates = [] :=
  List.argmin_eq_none.mp h

/-- What the loop over a part of the ports finds. -/
theorem foldl_considerRoot (hroot : br.rootPriority = ⟨br.bridgeId, 0, none⟩) (l : List Port) :
    l.foldl br.considerRoot none =
      ((l.filterMap hearing).filter fun x => x.2.rootId.value < br.bridgeId.value).argmin
        fun x => x.2.rank := by
  induction l using List.reverseRecOn with
  | nil => rfl
  | append_singleton l p ih =>
    rw [List.foldl_append, ih, List.filterMap_append, List.filter_append]
    set s := (l.filterMap hearing).filter fun x => x.2.rootId.value < br.bridgeId.value with hs
    unfold considerRoot
    simp only [List.foldl_cons, List.foldl_nil]
    cases hm : p.heard with
    | none => simp [hearing, hm]
    | some m =>
      have hp : List.filterMap hearing [p] = [(p, m)] := by simp [hearing, hm]
      rw [hp]
      -- the message counts as a candidate against the root port so far, or against the bridge
      cases hr : s.argmin fun x => x.2.rank with
      | none =>
        obtain hnil : s = [] := List.argmin_eq_none.mp hr
        have hown : compareRootMsg ⟨br.bridgeId, 0, none⟩ m = .superior ↔
            m.rootId.value < br.bridgeId.value := compareRootMsg_own rfl
        simp only [hroot, hown, hnil]
        by_cases hlt : m.rootId.value < br.bridgeId.value <;> simp [hlt]
      | some r =>
        have hbetter : r.2.rootId.value < br.bridgeId.value := by
          simpa using (List.mem_filter.mp (List.argmin_mem hr)).2
        simp only [compareRootMsg_eq_superior]
        by_cases hlt : m.rootId.value < br.bridgeId.value
        · simp [hlt, List.argmin_concat, hr]
        · have hge : ¬ m.rank < r.2.rank := by
            rw [rank_lt]
            omega
          simp [hlt, hge, hr]

theorem selectRootPort_asRoot (br : Bridge) : br.asRoot.selectRootPort = br.nearest :=
  foldl_considerRoot rfl br.ports

/-- The role a calculation gives a port. -/
def role (br : Bridge) (p : Port) : Option Role :=
  br.asRoot.spanningTreeAlgorithm.1.get? p.portNo

/-- The priority a calculation starts the ports with. -/
def rootVector (br : Bridge) : Priority := br.asRoot.spanningTreeAlgorithm.2.1

theorem rootVector_of_none (h : br.nearest = none) : br.rootVector = ⟨br.bridgeId, 0, none⟩ := by
  unfold rootVector spanningTreeAlgorithm
  rw [selectRootPort_asRoot, h]
  rfl

theorem rootVector_of_some {r : Port} (h : br.nearest = some (r, m)) :
    br.rootVector = m.priority := by
  unfold rootVector spanningTreeAlgorithm
  rw [selectRootPort_asRoot, h]

/-- A port is known by its number. -/
theorem portNo_mem_map_filter {P : Port → Prop} [DecidablePred P] (hp : p ∈ br.ports) :
    p.portNo ∈ (br.ports.filter fun q => P q).map Port.portNo ↔ P p := by
  rw [List.mem_map]
  constructor
  · rintro ⟨q, hq, hno⟩
    obtain ⟨hq, hP⟩ := List.mem_filter.mp hq
    obtain rfl : q = p := List.inj_on_of_nodup_map br.nodup hq hp hno
    exact of_decide_eq_true hP
  · intro h
    exact ⟨p, List.mem_filter.mpr ⟨hp, decide_eq_true h⟩, rfl⟩

theorem role_of_none (h : br.nearest = none) (hp : p ∈ br.ports) (he : p.state ≠ .disable) :
    br.role p = some .designatedPort := by
  have hmem : p.portNo ∈ br.enabled := (portNo_mem_map_filter hp).mpr he
  unfold role spanningTreeAlgorithm
  rw [selectRootPort_asRoot, h]
  exact (Dict.get?_foldl_set ..).trans (if_pos hmem)

theorem role_of_some {r : Port} (h : br.nearest = some (r, m)) (hp : p ∈ br.ports)
    (he : p.state ≠ .disable) :
    br.role p = some (if p.portNo = r.portNo then .rootPort
      else if br.isNearer m p then .designatedPort else .nonDesignatedPort) := by
  have hmem : p.portNo ∈ br.enabled := (portNo_mem_map_filter hp).mpr he
  have hdes : p.portNo ∈ br.asRoot.selectDesignatedPort r m ↔
      p.state ≠ .disable ∧ p.portNo ≠ r.portNo ∧ br.asRoot.isNearer m p :=
    portNo_mem_map_filter hp
  have hsame : br.asRoot.isNearer m p ↔ br.isNearer m p := Iff.rfl
  unfold role spanningTreeAlgorithm
  rw [selectRootPort_asRoot, h]
  refine (Dict.get?_foldl_setdefault_const ..).trans ((if_pos hmem).trans ?_)
  rw [Dict.get?_foldl_set, Dict.get?_set]
  by_cases hr : p.portNo = r.portNo
  · have hroot : r.portNo ∉ br.asRoot.selectDesignatedPort r m := hr ▸ fun h => (hdes.mp h).2.1 hr
    simp [hr, hroot]
  · by_cases hn : br.isNearer m p
    · simp [hdes, hr, he, hsame, hn]
    · simp [hdes, hr, Ne.symm hr, hsame, hn]

/-- The port has changed in nothing a calculation reads. -/
structure Alike (p q : Port) : Prop where
  state : p.state = .disable ↔ q.state = .disable
  portId : p.portId = q.portId
  pathCost : p.pathCost = q.pathCost
  received : p.received = q.received

theorem Alike.heard {p q : Port} (h : Alike p q) : p.heard = q.heard := by
  unfold Port.heard
  simp only [h.state, h.received]

theorem Alike.isNearer {p q : Port} (h : Alike p q) : br.isNearer m p ↔ br.isNearer m q := by
  unfold Bridge.isNearer
  rw [h.received, h.pathCost, h.portId]

section MapPorts

variable {f : Port → Port} {hf : ∀ p, (f p).portNo = p.portNo}

theorem foldl_considerRoot_map {l : List Port} (h : ∀ p ∈ l, Alike (f p) p)
    (acc : Option (Port × Received)) :
    (l.map f).foldl br.considerRoot (acc.map fun x => (f x.1, x.2)) =
      (l.foldl br.considerRoot acc).map fun x => (f x.1, x.2) := by
  induction l generalizing acc with
  | nil => rfl
  | cons p l ih =>
    rw [List.map_cons, List.foldl_cons, List.foldl_cons,
      ← ih (fun q hq => h q (List.mem_cons_of_mem _ hq))]
    congr 1
    unfold considerRoot
    rw [(h p List.mem_cons_self).heard]
    cases p.heard with
    | none => rfl
    | some m => cases acc <;> simp only [Option.map_none, Option.map_some] <;> split_ifs <;> rfl

theorem nearest_mapPorts (h : ∀ p ∈ br.ports, Alike (f p) p) :
    (br.mapPorts f hf).nearest = br.nearest.map fun x => (f x.1, x.2) := by
  rw [← selectRootPort_asRoot, ← selectRootPort_asRoot]
  exact foldl_considerRoot_map h none

theorem rootVector_mapPorts (h : ∀ p ∈ br.ports, Alike (f p) p) :
    (br.mapPorts f hf).rootVector = br.rootVector := by
  have hnear : (br.mapPorts f hf).nearest = br.nearest.map fun x => (f x.1, x.2) :=
    nearest_mapPorts h
  cases hn : br.nearest with
  | none =>
    rw [hn] at hnear
    rw [rootVector_of_none hn, rootVector_of_none hnear]
    rfl
  | some x =>
    rw [hn] at hnear
    rw [rootVector_of_some (r := x.1) hn, rootVector_of_some (r := f x.1) hnear]

theorem role_mapPorts (h : ∀ p ∈ br.ports, Alike (f p) p) (hp : p ∈ br.ports)
    (he : p.state ≠ .disable) : (br.mapPorts f hf).role (f p) = br.role p := by
  have hnear : (br.mapPorts f hf).nearest = br.nearest.map fun x => (f x.1, x.2) :=
    nearest_mapPorts h
  have hp' : f p ∈ (br.mapPorts f hf).ports := List.mem_map_of_mem hp
  have he' : (f p).state ≠ .disable := mt (h p hp).state.mp he
  cases hn : br.nearest with
  | none =>
    rw [hn] at hnear
    rw [role_of_none hn hp he, role_of_none hnear hp' he']
  | some x =>
    rw [hn] at hnear
    have hiff : (br.mapPorts f hf).isNearer x.2 (f p) ↔ br.isNearer x.2 p :=
      (h p hp).isNearer
    rw [role_of_some (r := x.1) hn hp he, role_of_some (r := f x.1) hnear hp' he', hf, hf]
    simp only [hiff]

end MapPorts

theorem exists_role (hp : p ∈ br.ports) (he : p.state ≠ .disable) : ∃ v, br.role p = some v := by
  cases hn : br.nearest with
  | none => exact ⟨_, role_of_none hn hp he⟩
  | some x => exact ⟨_, role_of_some (r := x.1) hn hp he⟩

theorem downPort_enabled (init : Bool) (hc : p.state ≠ .disable → p.configEnable = true)
    (he : (downPort init p).state ≠ .disable) : (downPort init p).configEnable = true := by
  by_cases hs : p.state ≠ .disable
  · simp [downPort, Port.down, hs, hc hs]
  · rw [downPort, if_neg hs] at he
    exact absurd he hs

theorem upPort_eq {roles : Dict ℕ Role} {v : Role} (rootPriority : Priority) (rootTimes : Times)
    (hv : roles.get? p.portNo = some v) (he : p.state ≠ .disable) :
    upPort roles rootPriority rootTimes p = p.up v rootPriority rootTimes := by
  unfold upPort
  rw [hv]
  exact if_pos he

theorem upPort_alike {roles : Dict ℕ Role} {rootPriority : Priority} {rootTimes : Times}
    (hc : p.state ≠ .disable → p.configEnable = true) :
    Alike (upPort roles rootPriority rootTimes p) p := by
  unfold upPort
  split
  · exact ⟨Iff.rfl, rfl, rfl, rfl⟩
  · split_ifs with hs
    · refine ⟨?_, rfl, rfl, rfl⟩
      simp [Port.up, hc hs, hs]
    · exact ⟨Iff.rfl, rfl, rfl, rfl⟩

/-- What a calculation leaves in the ports is what a calculation on them finds. -/
theorem recalculateSpanningTree_started
    (hc : ∀ p ∈ br.ports, p.state ≠ .disable → p.configEnable = true) {q : Port}
    (hq : q ∈ (br.recalculateSpanningTree false).ports) (he : q.state ≠ .disable) :
    q.portPriority = (br.recalculateSpanningTree false).rootVector ∧
      (br.recalculateSpanningTree false).role q = some q.role := by
  set down := br.mapPorts (downPort false) (portNo_downPort false) with hdown
  set times := down.asRoot.spanningTreeAlgorithm.2.2
  set mid : Bridge := { down.asRoot with rootPriority := down.rootVector, rootTimes := times }
  set up := upPort down.asRoot.spanningTreeAlgorithm.1 down.rootVector times
  have heq : br.recalculateSpanningTree false = mid.mapPorts up (portNo_upPort _ _ _) := rfl
  have hcfg : ∀ p ∈ mid.ports, p.state ≠ .disable → p.configEnable = true := by
    intro p hp
    obtain ⟨p₀, hp₀, rfl⟩ := List.mem_map.mp hp
    exact downPort_enabled false (hc p₀ hp₀)
  have halike : ∀ p ∈ mid.ports, Alike (up p) p := fun p hp => upPort_alike (hcfg p hp)
  rw [heq] at hq ⊢
  obtain ⟨p, hp, rfl⟩ := List.mem_map.mp hq
  have hen : p.state ≠ .disable := mt (halike p hp).state.mpr he
  obtain ⟨v, hv⟩ := exists_role hp hen
  have hup : up p = p.up v down.rootVector times := upPort_eq _ _ hv hen
  constructor
  · rw [rootVector_mapPorts halike, hup]
    rfl
  · rw [role_mapPorts halike hp hen, hv, hup]
    rfl

/-! ## The root port by its vector -/

/-- No two ports that are not disabled hold messages of the same vector. -/
def DistinctRanks (br : Bridge) : Prop :=
  ∀ p ∈ br.ports, ∀ q ∈ br.ports, ∀ m m', p.heard = some m → q.heard = some m' →
    m.rank = m'.rank → p = q

/-- The port holds a message about a better root than the bridge, and what the other ports that
are not disabled hold has a greater vector. -/
structure IsLeast (br : Bridge) (p : Port) (m : Received) : Prop where
  mem : p ∈ br.ports
  heard : p.heard = some m
  better : m.rootId.value < br.bridgeId.value
  least : ∀ q ∈ br.ports, ∀ m', q.heard = some m' → q ≠ p → m.rank < m'.rank

theorem isLeast_of_nearest (hd : br.DistinctRanks) (h : br.nearest = some (p, m)) :
    br.IsLeast p m := by
  obtain ⟨hp, hm, hbetter⟩ := mem_candidates.1 (mem_of_nearest h)
  refine ⟨hp, hm, hbetter, fun q hq m' hm' hne => ?_⟩
  by_cases hlt : m'.rootId.value < br.bridgeId.value
  · have hle := rank_le_of_nearest (y := (q, m')) h (mem_candidates.2 ⟨hq, hm', hlt⟩)
    exact lt_of_le_of_ne hle fun heq => hne (hd q hq p hp m' m hm' hm heq.symm)
  · exact rank_lt.2 (Or.inl (hbetter.trans_le (not_lt.mp hlt)))

theorem nearest_eq_none_iff : br.nearest = none ↔
    ∀ p ∈ br.ports, ∀ m, p.heard = some m → br.bridgeId.value ≤ m.rootId.value := by
  rw [nearest, List.argmin_eq_none, List.eq_nil_iff_forall_not_mem]
  constructor
  · intro h p hp m hm
    exact not_lt.mp fun hlt => h (p, m) (mem_candidates.2 ⟨hp, hm, hlt⟩)
  · rintro h ⟨p, m⟩ hx
    obtain ⟨hp, hm, hlt⟩ := mem_candidates.1 hx
    exact absurd hlt (not_lt.mpr (h p hp m hm))

theorem nearest_eq_some_iff (hd : br.DistinctRanks) :
    br.nearest = some (p, m) ↔ br.IsLeast p m := by
  refine ⟨isLeast_of_nearest hd, fun h => ?_⟩
  cases hn : br.nearest with
  | none => exact absurd h.better (not_lt.mpr (nearest_eq_none_iff.1 hn p h.mem m h.heard))
  | some x =>
    have hx := isLeast_of_nearest (p := x.1) (m := x.2) hd hn
    have hp : p = x.1 := by
      by_contra hne
      have hlt := h.least x.1 hx.mem x.2 hx.heard (Ne.symm hne)
      exact absurd hlt (hx.least p h.mem m h.heard hne).asymm
    have hm := hx.heard
    rw [← hp, h.heard] at hm
    rw [hp, Option.some.inj hm]

theorem IsLeast.perm {br' : Bridge} (hid : br'.bridgeId = br.bridgeId)
    (hperm : br'.ports.Perm br.ports) : br'.IsLeast p m ↔ br.IsLeast p m := by
  constructor
  · rintro ⟨hp, hm, hbetter, hleast⟩
    rw [hid] at hbetter
    exact ⟨hperm.mem_iff.mp hp, hm, hbetter, fun q hq => hleast q (hperm.mem_iff.mpr hq)⟩
  · rintro ⟨hp, hm, hbetter, hleast⟩
    rw [← hid] at hbetter
    exact ⟨hperm.mem_iff.mpr hp, hm, hbetter, fun q hq => hleast q (hperm.mem_iff.mp hq)⟩

theorem DistinctRanks.perm {br' : Bridge} (hd : br.DistinctRanks)
    (hperm : br'.ports.Perm br.ports) : br'.DistinctRanks :=
  fun p hp q hq => hd p (hperm.mem_iff.mp hp) q (hperm.mem_iff.mp hq)

/-- Of the messages at the ports that are not disabled the root port has the least, as long as it
is about a better root than the bridge, in whatever order the ports are looked at. -/
theorem selectRootPort_least (br : Bridge) (hd : br.DistinctRanks) :
    (br.asRoot.selectRootPort = none ↔
      ∀ p ∈ br.ports, ∀ m, p.heard = some m → br.bridgeId.value ≤ m.rootId.value) ∧
    (∀ p m, br.asRoot.selectRootPort = some (p, m) ↔ br.IsLeast p m) ∧
    ∀ br' : Bridge, br'.bridgeId = br.bridgeId → br'.ports.Perm br.ports →
      br'.asRoot.selectRootPort = br.asRoot.selectRootPort := by
  simp only [selectRootPort_asRoot]
  refine ⟨nearest_eq_none_iff, fun p m => nearest_eq_some_iff hd, fun br' hid hperm => ?_⟩
  refine Option.ext fun x => ?_
  calc br'.nearest = some (x.1, x.2) ↔ br'.IsLeast x.1 x.2 := nearest_eq_some_iff (hd.perm hperm)
    _ ↔ br.IsLeast x.1 x.2 := IsLeast.perm hid hperm
    _ ↔ br.nearest = some (x.1, x.2) := (nearest_eq_some_iff hd).symm

/-- A message of the root `root`, from the port of a bridge. -/
def heardFrom (root : Mac) (portNo : ℕ) : Received :=
  ⟨⟨0x8000, 0, root⟩, 20000, ⟨0x8000, 0, 7⟩, ⟨128, portNo⟩, ⟨256, 5120, 512, 3840⟩⟩

/-- Two ports of a bridge, which hear of different roots. -/
def twoHearing : Bridge where
  bridgeId := ⟨0x8000, 0, 9⟩
  bridgeTimes := ⟨0, 5120, 512, 3840⟩
  rootPriority := ⟨⟨0x8000, 0, 9⟩, 0, none⟩
  rootTimes := ⟨0, 5120, 512, 3840⟩
  ports :=
    [⟨true, ⟨⟨0x8000, 0, 9⟩, 0, none⟩, ⟨0, 5120, 512, 3840⟩, ⟨128, 1⟩, 20000, .block,
        .designatedPort, some (heardFrom 3 1), false⟩,
      ⟨true, ⟨⟨0x8000, 0, 9⟩, 0, none⟩, ⟨0, 5120, 512, 3840⟩, ⟨128, 2⟩, 20000, .block,
        .designatedPort, some (heardFrom 2 1), false⟩]
  nodup := by decide
  portNo_le := by decide

theorem distinctRanks_twoHearing : twoHearing.DistinctRanks := by
  have hroots : ∀ p ∈ twoHearing.ports, ∀ q ∈ twoHearing.ports,
      p.heard.map (fun m => m.rootId.value) = q.heard.map (fun m => m.rootId.value) → p = q := by
    decide
  intro p hp q hq m m' hm hm' hrank
  refine hroots p hp q hq ?_
  rw [hm, hm', Option.map_some, Option.map_some]
  exact congrArg some (congrArg (fun r : ℕ ×ₗ PathRank => (ofLex r).1) hrank)

theorem selectRootPort_least_twoHearing :
    (twoHearing.asRoot.selectRootPort = none ↔
      ∀ p ∈ twoHearing.ports, ∀ m, p.heard = some m →
        twoHearing.bridgeId.value ≤ m.rootId.value) ∧
    (∀ p m, twoHearing.asRoot.selectRootPort = some (p, m) ↔ twoHearing.IsLeast p m) ∧
    ∀ br' : Bridge, br'.bridgeId = twoHearing.bridgeId → br'.ports.Perm twoHearing.ports →
      br'.asRoot.selectRootPort = twoHearing.asRoot.selectRootPort :=
  selectRootPort_least twoHearing distinctRanks_twoHearing

end Bridge

end Ryu.Stp
