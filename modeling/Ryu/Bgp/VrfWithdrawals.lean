import Ryu.Bgp.Vrf

/-! # Repeated withdrawals

A withdrawal names the id of a path and is issued whether or not such a path is known, so a queue
may hold several of one id. `VrfDest` collects the paths its withdrawals match in a list, one entry
a withdrawal, and removes the entries one after the other: an id that is withdrawn twice is
removed twice. -/

namespace Ryu.Bgp

/-- The first withdrawal of every id. -/
def oncePerId : List VrfPath → List VrfPath
  | [] => []
  | w :: ws => w :: (oncePerId ws).filter fun v => v.puid ≠ w.puid

/-- The destination with one withdrawal of every id. -/
def VrfDest.once (d : VrfDest) : VrfDest := { d with withdrawList := oncePerId d.withdrawList }

/-- Destinations that differ in how often an id is withdrawn. -/
structure VrfDest.SameUpToRepeats (d d' : VrfDest) : Prop where
  known : d.knownPathList = d'.knownPathList
  news : d.newPathList = d'.newPathList
  best : d.bestPath = d'.bestPath
  ids : ∀ q, q ∈ d.withdrawList.map VrfPath.puid ↔ q ∈ d'.withdrawList.map VrfPath.puid

/-- Withdrawals are removed without an exception and with the effect that one of every id has, on
the removal and on the whole processing of the destination. -/
structure VrfDest.RepeatsHarmless (d : VrfDest) : Prop where
  removed : d.removeWithdrawals.1 = .ok ()
  once_removed : d.once.removeWithdrawals.1 = .ok ()
  left : d.removeWithdrawals.2.SameUpToRepeats d.once.removeWithdrawals.2
  processed : ∀ sp, (d.processBest sp).1 = (d.once.processBest sp).1 ∧
    (d.processBest sp).2.SameUpToRepeats (d.once.processBest sp).2

/-- No known id is withdrawn more than once. -/
def VrfDest.WithdrawnOnce (d : VrfDest) : Prop :=
  ∀ p ∈ d.knownPathList, (ofPuid d.withdrawList p.puid).length ≤ 1

section Once

variable {known L ms : List VrfPath} {d d' : VrfDest} {w : VrfPath} {q : String}

theorem mem_puid_iff_ofPuid : q ∈ L.map VrfPath.puid ↔ ofPuid L q ≠ [] := by
  simp [ofPuid, List.filter_eq_nil_iff]

theorem ofPuid_filter_ne (L : List VrfPath) (r q : String) :
    ofPuid (L.filter fun v => v.puid ≠ r) q = if q = r then [] else ofPuid L q := by
  unfold ofPuid
  rw [List.filter_filter]
  split
  · next h => simp [h]
  · next h =>
    apply List.filter_congr
    intro v _
    by_cases hv : v.puid = q <;> simp [hv, h]

/-- One withdrawal of every id is kept. -/
theorem ofPuid_oncePerId (L : List VrfPath) (q : String) :
    ofPuid (oncePerId L) q = (ofPuid L q).take 1 := by
  induction L with
  | nil => rfl
  | cons w L ih =>
    have hcons : ∀ L', ofPuid (w :: L') q =
        if w.puid = q then w :: ofPuid L' q else ofPuid L' q := by
      simp [ofPuid, List.filter_cons]
    rw [oncePerId, hcons, hcons, ofPuid_filter_ne]
    by_cases hw : w.puid = q
    · simp [hw]
    · simp [hw, Ne.symm hw, ih]

theorem mem_puid_oncePerId : q ∈ (oncePerId L).map VrfPath.puid ↔ q ∈ L.map VrfPath.puid := by
  rw [mem_puid_iff_ofPuid, mem_puid_iff_ofPuid, ofPuid_oncePerId, Ne, Ne, List.take_eq_nil_iff]
  simp

theorem findPuid_isSome : (findPuid known w).isSome ↔ w.puid ∈ known.map VrfPath.puid := by
  simp [findPuid, List.find?_isSome]

/-- Every withdrawal of a known id is matched by itself. -/
theorem length_ofPuid_matches (known L : List VrfPath) (hq : q ∈ known.map VrfPath.puid) :
    (ofPuid (L.filterMap (findPuid known)) q).length = (ofPuid L q).length := by
  induction L with
  | nil => rfl
  | cons w L ih =>
    cases hf : findPuid known w with
    | none =>
      have hw : w.puid ≠ q := by
        rintro rfl
        simpa [hf] using findPuid_isSome.2 hq
      rw [List.filterMap_cons_none hf, ih]
      simp [ofPuid, hw]
    | some m =>
      have hm := findPuid_puid hf
      rw [List.filterMap_cons_some hf]
      unfold ofPuid at ih ⊢
      by_cases hw : w.puid = q
      · simp [hm, hw, ih]
      · simp [hm, hw, ih]

theorem count_puid (L : List VrfPath) (q : String) :
    (L.map VrfPath.puid).count q = (ofPuid L q).length := by
  rw [List.count, List.countP_map, List.countP_eq_length_filter, ofPuid]
  congr 1

/-- A withdrawal behind another of its id matches nothing, if no known id is withdrawn twice. -/
theorem matches_oncePerId
    (hone : ∀ q ∈ known.map VrfPath.puid, (ofPuid L q).length ≤ 1) :
    (oncePerId L).filterMap (findPuid known) = L.filterMap (findPuid known) := by
  induction L with
  | nil => rfl
  | cons w L ih =>
    have hle : ∀ q, (ofPuid L q).length ≤ (ofPuid (w :: L) q).length := by
      intro q
      rw [ofPuid, ofPuid, List.filter_cons]
      split <;> simp
    have hrest : ∀ v ∈ oncePerId L, v.puid = w.puid → findPuid known v = none := by
      intro v hv hvw
      by_contra hsome
      have hknown := findPuid_isSome.1 (Option.isSome_iff_ne_none.mpr hsome)
      have hL : v.puid ∈ L.map VrfPath.puid :=
        mem_puid_oncePerId.1 (List.mem_map_of_mem hv)
      have hpos := List.length_pos_of_ne_nil (mem_puid_iff_ofPuid.1 hL)
      have hlen := hone _ hknown
      rw [ofPuid, List.filter_cons, if_pos (by simp [hvw]), List.length_cons] at hlen
      rw [ofPuid] at hpos
      omega
    have hfilter : ((oncePerId L).filter fun v => v.puid ≠ w.puid).filterMap (findPuid known) =
        (oncePerId L).filterMap (findPuid known) := by
      rw [List.filterMap_filter]
      apply List.filterMap_congr
      intro v hv
      by_cases hvw : v.puid = w.puid
      · simp [hvw, hrest v hv hvw]
      · simp [hvw]
    have htail := ih fun q hq => Nat.le_trans (hle q) (hone q hq)
    simp only [oncePerId, List.filterMap_cons, hfilter, htail]

/-- Known paths of different ids can be removed in a row. -/
theorem removeMatches_ok (hms : ∀ m ∈ ms, m ∈ known) (hnd : (ms.map VrfPath.puid).Nodup) :
    (removeMatches known ms).1 = .ok () := by
  induction ms generalizing known with
  | nil => rfl
  | cons m ms ih =>
    obtain ⟨hm, hrest⟩ := List.forall_mem_cons.mp hms
    rw [List.map_cons, List.nodup_cons] at hnd
    have hremove : listRemove known m = .ok (known.eraseP fun p => p.Alike m) :=
      if_pos ⟨m, hm, rfl⟩
    rw [removeMatches, hremove]
    refine ih (fun m' hm' => ?_) hnd.2
    rw [List.mem_eraseP_of_neg]
    · exact hrest m' hm'
    · intro halike
      have hpuid := (of_decide_eq_true halike).puid_eq
      exact hnd.1 (List.mem_map.mpr ⟨m', hm', hpuid⟩)

/-- The withdrawals that matched, removed one after the other. -/
def dropMatched (L ms : List VrfPath) : List VrfPath :=
  ms.foldl (fun l w => l.eraseP fun p => p.Alike w) L

theorem length_ofPuid_dropMatched_le (L ms : List VrfPath) (q : String) :
    (ofPuid (dropMatched L ms) q).length ≤ (ofPuid L q).length := by
  unfold dropMatched
  induction ms generalizing L with
  | nil => exact Nat.le_refl _
  | cons m ms ih =>
    refine Nat.le_trans (ih _) ?_
    rw [ofPuid_eraseP]
    split
    · exact List.eraseP_sublist.length_le
    · exact Nat.le_refl _

theorem ofPuid_dropMatched_of_notMem (hq : q ∉ ms.map VrfPath.puid) :
    ofPuid (dropMatched L ms) q = ofPuid L q := by
  unfold dropMatched
  induction ms generalizing L with
  | nil => rfl
  | cons m ms ih =>
    rw [List.map_cons, List.mem_cons, not_or] at hq
    rw [List.foldl_cons, ih hq.2, ofPuid_eraseP, if_neg (Ne.symm hq.1)]

theorem ofPuid_dropMatched_of_mem (hq : q ∈ ms.map VrfPath.puid)
    (hms : ∀ m ∈ ms, m.puid = q → m ∈ L) (hone : (ofPuid L q).length ≤ 1) :
    ofPuid (dropMatched L ms) q = [] := by
  induction ms generalizing L with
  | nil => cases hq
  | cons m ms ih =>
    obtain ⟨hm, hrest⟩ := List.forall_mem_cons.mp hms
    have hcons : dropMatched L (m :: ms) = dropMatched (L.eraseP fun p => p.Alike m) ms := rfl
    rw [hcons]
    by_cases hmq : m.puid = q
    · -- the only withdrawal of the id goes now
      have hmem : m ∈ ofPuid L q := List.mem_filter.mpr ⟨hm hmq, by simpa using hmq⟩
      have hle := length_ofPuid_dropMatched_le (L.eraseP fun p => p.Alike m) ms q
      rw [ofPuid_eraseP, if_pos hmq,
        List.length_eraseP_of_mem hmem (by simp [VrfPath.Alike])] at hle
      exact List.eq_nil_of_length_eq_zero (by omega)
    · have hkeep : ofPuid (L.eraseP fun p => p.Alike m) q = ofPuid L q := by
        rw [ofPuid_eraseP, if_neg hmq]
      refine ih (by simpa [Ne.symm hmq] using hq) (fun m' hm' hq' => ?_) (by rwa [hkeep])
      rw [List.mem_eraseP_of_neg]
      · exact hrest m' hm' hq'
      · intro halike
        exact hmq ((of_decide_eq_true halike).puid_eq.symm.trans hq')

theorem VrfDest.once_withdrawnOnce (d : VrfDest) : d.once.WithdrawnOnce := by
  intro p _
  rw [VrfDest.once, ofPuid_oncePerId]
  exact List.length_take_le _ _

theorem VrfDest.WithdrawnOnce.of_mem (h : d.WithdrawnOnce)
    (hq : q ∈ d.knownPathList.map VrfPath.puid) : (ofPuid d.withdrawList q).length ≤ 1 := by
  obtain ⟨p, hp, rfl⟩ := List.mem_map.mp hq
  exact h p hp

theorem matches_mem (known L : List VrfPath) :
    ∀ m ∈ L.filterMap (findPuid known), m ∈ known := by
  intro m hm
  obtain ⟨w, _, hw⟩ := List.mem_filterMap.mp hm
  exact List.mem_of_find?_eq_some hw

theorem VrfDest.WithdrawnOnce.matches_nodup (h : d.WithdrawnOnce) :
    ((d.withdrawList.filterMap (findPuid d.knownPathList)).map VrfPath.puid).Nodup := by
  rw [List.nodup_iff_count_le_one]
  intro q
  rw [count_puid]
  by_cases hq : q ∈ d.knownPathList.map VrfPath.puid
  · rw [length_ofPuid_matches _ _ hq]
    exact h.of_mem hq
  · rw [List.length_eq_zero_iff.mpr]
    · exact Nat.zero_le _
    · rw [ofPuid, List.filter_eq_nil_iff]
      rintro m hm hmq
      apply hq
      exact List.mem_map.mpr ⟨m, matches_mem _ _ m hm, of_decide_eq_true hmq⟩

/-- What the removal leaves when paths are known. -/
theorem VrfDest.WithdrawnOnce.removeWithdrawals_eq (h : d.WithdrawnOnce)
    (hk : d.knownPathList ≠ []) :
    d.removeWithdrawals = (.ok (), { d with
      knownPathList := (removeMatches d.knownPathList
        (d.withdrawList.filterMap (findPuid d.knownPathList))).2
      withdrawList := dropMatched d.withdrawList
        (d.withdrawList.filter fun w => (findPuid d.knownPathList w).isSome) }) := by
  have hok := removeMatches_ok (matches_mem d.knownPathList d.withdrawList) h.matches_nodup
  unfold VrfDest.removeWithdrawals
  rw [if_neg hk]
  split
  · next hw =>
    obtain ⟨known, news, ws, best⟩ := d
    obtain rfl : ws = [] := hw
    rfl
  · dsimp only
    generalize removeMatches _ _ = r at hok ⊢
    obtain ⟨res, known⟩ := r
    obtain rfl : res = .ok () := hok
    rfl

/-- The ids that stay queued are those that matched nothing. -/
theorem VrfDest.WithdrawnOnce.mem_left (h : d.WithdrawnOnce) :
    q ∈ (dropMatched d.withdrawList (d.withdrawList.filter fun w =>
        (findPuid d.knownPathList w).isSome)).map VrfPath.puid ↔
      q ∈ d.withdrawList.map VrfPath.puid ∧ q ∉ d.knownPathList.map VrfPath.puid := by
  rw [mem_puid_iff_ofPuid]
  have hmatched : q ∈ (d.withdrawList.filter fun w =>
      (findPuid d.knownPathList w).isSome).map VrfPath.puid ↔
        q ∈ d.withdrawList.map VrfPath.puid ∧ q ∈ d.knownPathList.map VrfPath.puid := by
    simp only [List.mem_map, List.mem_filter, findPuid_isSome]
    constructor
    · rintro ⟨w, ⟨hw, hk⟩, rfl⟩
      exact ⟨⟨w, hw, rfl⟩, hk⟩
    · rintro ⟨⟨w, hw, rfl⟩, hk⟩
      exact ⟨w, ⟨hw, hk⟩, rfl⟩
  by_cases hm : q ∈ (d.withdrawList.filter fun w =>
      (findPuid d.knownPathList w).isSome).map VrfPath.puid
  · have hknown := (hmatched.mp hm).2
    rw [ofPuid_dropMatched_of_mem hm (fun m hm' _ => (List.mem_filter.mp hm').1)
      (h.of_mem hknown)]
    simp [hknown]
  · rw [ofPuid_dropMatched_of_notMem hm, ← mem_puid_iff_ofPuid]
    constructor
    · intro hq
      exact ⟨hq, fun hk => hm (hmatched.mpr ⟨hq, hk⟩)⟩
    · exact fun hq => hq.1

/-- A removal in which no known id is withdrawn twice is that of one withdrawal of every id. -/
theorem VrfDest.WithdrawnOnce.removeWithdrawals_once (h : d.WithdrawnOnce) :
    d.removeWithdrawals.1 = .ok () ∧ d.once.removeWithdrawals.1 = .ok () ∧
      d.removeWithdrawals.2.SameUpToRepeats d.once.removeWithdrawals.2 := by
  by_cases hk : d.knownPathList = []
  · -- without known paths the queue is emptied
    obtain ⟨known, news, ws, best⟩ := d
    obtain rfl : known = [] := hk
    cases ws with
    | nil => exact ⟨rfl, rfl, rfl, rfl, rfl, fun _ => Iff.rfl⟩
    | cons w ws => exact ⟨rfl, rfl, rfl, rfl, rfl, fun _ => Iff.rfl⟩
  · have honce := d.once_withdrawnOnce
    have heq := h.removeWithdrawals_eq hk
    have heq' := honce.removeWithdrawals_eq hk
    rw [heq, heq']
    refine ⟨rfl, rfl, ?_, rfl, rfl, fun q => ?_⟩
    · exact congrArg (fun ms => (removeMatches d.knownPathList ms).2)
        (matches_oncePerId fun q hq => h.of_mem hq).symm
    · exact h.mem_left.trans ((and_congr_left fun _ => mem_puid_oncePerId.symm).trans
        honce.mem_left.symm)

/-- How often an id is withdrawn is not read again. -/
theorem processPaths_sameUpToRepeats (sp : Speaker) (hok : d.removeWithdrawals.1 = .ok ())
    (hok' : d'.removeWithdrawals.1 = .ok ())
    (h : d.removeWithdrawals.2.SameUpToRepeats d'.removeWithdrawals.2) :
    (d.processPaths sp).1 = (d'.processPaths sp).1 ∧
      (d.processPaths sp).2.SameUpToRepeats (d'.processPaths sp).2 := by
  unfold VrfDest.processPaths
  generalize d.removeWithdrawals = r at hok h
  generalize d'.removeWithdrawals = r' at hok' h
  obtain ⟨res, known, news, w, best⟩ := r
  obtain ⟨res', known', news', w', best'⟩ := r'
  obtain rfl : res = .ok () := hok
  obtain rfl : res' = .ok () := hok'
  obtain ⟨hk, hn, hb, hids⟩ := h
  dsimp only at hk hn hb hids
  subst hk hn hb
  dsimp only
  split
  · exact ⟨rfl, rfl, rfl, rfl, hids⟩
  · split <;> exact ⟨rfl, rfl, rfl, rfl, hids⟩

theorem processBest_sameUpToRepeats (sp : Speaker) (hok : d.removeWithdrawals.1 = .ok ())
    (hok' : d'.removeWithdrawals.1 = .ok ())
    (h : d.removeWithdrawals.2.SameUpToRepeats d'.removeWithdrawals.2) :
    (d.processBest sp).1 = (d'.processBest sp).1 ∧
      (d.processBest sp).2.SameUpToRepeats (d'.processBest sp).2 := by
  obtain ⟨hres, hleft⟩ := processPaths_sameUpToRepeats sp hok hok' h
  unfold VrfDest.processBest
  generalize d.processPaths sp = r at hres hleft
  generalize d'.processPaths sp = r' at hres hleft
  obtain ⟨res, known, news, w, best⟩ := r
  obtain ⟨res', known', news', w', best'⟩ := r'
  obtain rfl : res = res' := hres
  obtain ⟨hk, hn, hb, hids⟩ := hleft
  dsimp only at hk hn hb hids
  subst hk hn hb
  cases res with
  | error e => exact ⟨rfl, rfl, rfl, rfl, hids⟩
  | ok new =>
    dsimp only
    split
    · exact ⟨rfl, rfl, rfl, rfl, hids⟩
    · cases new with
      | none =>
        dsimp only
        split <;> exact ⟨rfl, rfl, rfl, rfl, hids⟩
      | some c => exact ⟨rfl, rfl, rfl, rfl, hids⟩

theorem VrfDest.WithdrawnOnce.repeatsHarmless (h : d.WithdrawnOnce) : d.RepeatsHarmless := by
  obtain ⟨hok, hok', hleft⟩ := h.removeWithdrawals_once
  exact ⟨hok, hok', hleft, fun sp => processBest_sameUpToRepeats sp hok hok' hleft⟩

/-- A removal takes as many paths of a known id as withdrawals of it are queued. -/
theorem length_ofPuid_removeWithdrawals (hok : d.removeWithdrawals.1 = .ok ())
    (hq : q ∈ d.knownPathList.map VrfPath.puid) :
    (ofPuid d.removeWithdrawals.2.knownPathList q).length + (ofPuid d.withdrawList q).length =
      (ofPuid d.knownPathList q).length := by
  have hlen := length_ofPuid_removeMatches d.knownPathList
    (d.withdrawList.filterMap (findPuid d.knownPathList)) q
  rw [length_ofPuid_matches _ _ hq] at hlen
  unfold VrfDest.removeWithdrawals at hok ⊢
  split
  · next hw => simp [hw, ofPuid]
  · next hw =>
    have hk : d.knownPathList ≠ [] := by
      intro hk
      simp [hk] at hq
    rw [if_neg hw, if_neg hk] at hok
    rw [if_neg hk]
    dsimp only at hok ⊢
    generalize removeMatches _ _ = r at hok hlen ⊢
    obtain ⟨e | u, known⟩ := r
    · cases hok
    · exact hlen rfl

theorem VrfDest.RepeatsHarmless.withdrawnOnce (h : d.RepeatsHarmless) : d.WithdrawnOnce := by
  intro p hp
  have hq : p.puid ∈ d.knownPathList.map VrfPath.puid := List.mem_map_of_mem hp
  have hd := length_ofPuid_removeWithdrawals h.removed hq
  have honce := length_ofPuid_removeWithdrawals h.once_removed (d := d.once) hq
  have hle := d.once_withdrawnOnce p hp
  rw [← h.left.known] at honce
  have hsame : (ofPuid d.withdrawList p.puid).length =
      (ofPuid d.once.withdrawList p.puid).length :=
    Nat.add_left_cancel (hd.trans honce.symm)
  rw [hsame]
  exact hle

end Once

/-- Repeated withdrawals are harmless exactly if no known path is withdrawn more than once. -/
theorem repeatsHarmless_iff (d : VrfDest) : d.RepeatsHarmless ↔ d.WithdrawnOnce :=
  ⟨fun h => h.withdrawnOnce, fun h => h.repeatsHarmless⟩

/-- A prefix of the network controller, installed or withdrawn. -/
def ncPath (index : ℕ) (isWithdraw : Bool) : VrfPath where
  index := index
  source := .nc
  nlri := ⟨⟨1, 1⟩, "10.0.0.0/8", 0⟩
  attrs := ⟨none, none, none, none, none, [], none, none⟩
  isWithdraw := isWithdraw
  puid := createPuid "65000:1" "10.0.0.0/8"
  attrObjs := if isWithdraw then [] else [index]
  nexthop := none
  labelList := []

/-- The second withdrawal of an installed prefix raises. -/
theorem not_repeatsHarmless_twice :
    (⟨[ncPath 0 false], [], [ncPath 1 true, ncPath 2 true], some (ncPath 0 false)⟩ :
        VrfDest).removeWithdrawals.1 = .error (.valueError "list.remove(x): x not in list") ∧
      ¬ (⟨[ncPath 0 false], [], [ncPath 1 true, ncPath 2 true], some (ncPath 0 false)⟩ :
        VrfDest).RepeatsHarmless := by
  have herror : (⟨[ncPath 0 false], [], [ncPath 1 true, ncPath 2 true],
      some (ncPath 0 false)⟩ : VrfDest).removeWithdrawals.1 =
        .error (.valueError "list.remove(x): x not in list") := by decide
  refine ⟨herror, fun h => ?_⟩
  have hok := h.removed
  rw [herror] at hok
  cases hok

end Ryu.Bgp
