import Ryu.Bgp.Destination

/-! # VRF destinations

A VRF destination holds paths that are local and paths imported from VPN destinations. A path is
known by its id, made of the route distinguisher and the prefix it has as a VPN path; withdrawals
and new versions find their path by the id, and paths are compared by what they say, not by their
source. Merging treats every id by itself, and a local path is best as soon as one is known.
-/

namespace Ryu.Bgp

/-- The parts of a VPN NLRI that are read; `ip` is the network with its length. -/
structure VpnNlri where
  routeDist : String
  ip : String
  labelList : List ℕ
  deriving DecidableEq, Repr

/-- A `VpnPath`. Attribute objects have no equality of their own: `attrObjs` tells which objects
the attribute map holds, and is empty for a withdrawal. -/
structure VpnPath where
  index : ℕ
  source : Source
  nlri : VpnNlri
  attrs : PathAttrs
  attrObjs : List ℕ
  nexthop : Option String
  isWithdraw : Bool
  deriving DecidableEq, Repr

/-- A `VrfPath`, with what it adds to a path. -/
structure VrfPath extends Path where
  puid : String
  attrObjs : List ℕ
  nexthop : Option String
  labelList : List ℕ
  deriving DecidableEq, Repr

/-- `create_puid`; it is also `VpnTable._table_key`. -/
def createPuid (routeDist ipPfx : String) : String := routeDist ++ ":" ++ ipPfx

def VpnNlri.puid (nlri : VpnNlri) : String := createPuid nlri.routeDist nlri.ip

/-- What `VrfPath.__eq__` compares. -/
def VrfPath.content (p : VrfPath) : RouteFamily × String × List ℕ × Option String × List ℕ :=
  (p.routeFamily, p.puid, p.labelList, p.nexthop, p.attrObjs)

/-- `p == q`. -/
def VrfPath.Alike (p q : VrfPath) : Prop := p.content = q.content

instance (p q : VrfPath) : Decidable (p.Alike q) := inferInstanceAs (Decidable (_ = _))

/-- `source is None`. -/
def VrfPath.isLocal (p : VrfPath) : Bool := p.source = .nc

structure VrfDest where
  knownPathList : List VrfPath
  newPathList : List VrfPath
  withdrawList : List VrfPath
  bestPath : Option VrfPath
  deriving DecidableEq, Repr

def VrfDest.init : VrfDest := ⟨[], [], [], none⟩

/-- `known.remove(m)`. -/
def listRemove (known : List VrfPath) (m : VrfPath) : Except PyError (List VrfPath) :=
  if ∃ p ∈ known, p.Alike m then .ok (known.eraseP fun p => p.Alike m)
  else .error (.valueError "list.remove(x): x not in list")

/-- The loop that removes matches; what was removed before an exception stays removed. -/
def removeMatches : List VrfPath → List VrfPath → Except PyError Unit × List VrfPath
  | known, [] => (.ok (), known)
  | known, m :: ms =>
    match listRemove known m with
    | .error e => (.error e, known)
    | .ok known => removeMatches known ms

/-- The first known path of the same id. -/
def findPuid (known : List VrfPath) (p : VrfPath) : Option VrfPath :=
  known.find? fun path => path.puid = p.puid

/-- `VrfDest._remove_withdrawals`. Matches are collected in lists, so two withdrawals of a path
remove it twice. -/
def VrfDest.removeWithdrawals (d : VrfDest) : Except PyError Unit × VrfDest :=
  if d.withdrawList = [] then (.ok (), d)
  else if d.knownPathList = [] then (.ok (), { d with withdrawList := [] })
  else
    let wMatches := d.withdrawList.filter fun w => (findPuid d.knownPathList w).isSome
    match removeMatches d.knownPathList (d.withdrawList.filterMap (findPuid d.knownPathList)) with
    | (.error e, known) => (.error e, { d with knownPathList := known })
    | (.ok (), known) =>
      (.ok (), { d with
        knownPathList := known
        withdrawList := wMatches.foldl (fun l w => l.eraseP fun p => p.Alike w) d.withdrawList })

/-- `VrfDest._remove_old_paths`: each new path removes the first known path of its id. -/
def removeOld (known : List VrfPath) (news : List VrfPath) : List VrfPath :=
  news.foldl (fun known new =>
    ((findPuid known new).map fun m => known.eraseP fun p => p.Alike m).getD known) known

section Model

variable (sp : Speaker)

/-- `_compute_best_known_path`. -/
def bestKnown (known : List VrfPath) : Except PyError (Option VrfPath) :=
  match computeBestKnownPath sp (known.map VrfPath.toPath) with
  | .error e => .error e
  | .ok r => .ok (known.find? fun p => p.toPath = r.1)

/-- `_process_paths`. -/
def VrfDest.processPaths (d : VrfDest) : Except PyError (Option VrfPath) × VrfDest :=
  match d.removeWithdrawals with
  | (.error e, d) => (.error e, d)
  | (.ok (), d) =>
    match d.knownPathList, d.newPathList with
    | [], [new] => (.ok (some new), { d with knownPathList := [new], newPathList := [] })
    | known, news =>
      let known := removeOld known news ++ news
      let d := { d with knownPathList := known, newPathList := [] }
      if known = [] then (.ok none, d) else (bestKnown sp known, d)

/-- `best == new_best`. -/
def SameBest : Option VrfPath → Option VrfPath → Prop
  | none, none => True
  | some p, some q => p.Alike q
  | _, _ => False

instance : (p q : Option VrfPath) → Decidable (SameBest p q)
  | none, none => inferInstanceAs (Decidable True)
  | some p, some q => inferInstanceAs (Decidable (p.Alike q))
  | none, some _ => inferInstanceAs (Decidable False)
  | some _, none => inferInstanceAs (Decidable False)

/-- The handler that `_process` calls. -/
inductive VrfChange
  | unchanged
  | lost
  | new (path : VrfPath)
  deriving DecidableEq, Repr

/-- `_process`, with the assignment of the best path that both handlers start with. -/
def VrfDest.processBest (d : VrfDest) : Except PyError VrfChange × VrfDest :=
  match d.processPaths sp with
  | (.error e, d) => (.error e, d)
  | (.ok best, d) =>
    if SameBest d.bestPath best then (.ok .unchanged, d)
    else match best with
      | none =>
        if d.knownPathList = [] then (.ok .lost, { d with bestPath := none })
        else (.error .assertionError, d)
      | some new => (.ok (.new new), { d with bestPath := some new })

end Model

/-- A destination without a path leaves the table; the next insertion creates it anew. -/
def VrfDest.removeEmpty (d : VrfDest) : VrfDest :=
  if d.knownPathList = [] ∧ d.bestPath = none then .init else d

/-- `add_withdraw` and `add_new_path`. -/
def VrfDest.add (d : VrfDest) (path : VrfPath) : VrfDest :=
  if path.isWithdraw then { d with withdrawList := d.withdrawList ++ [path] }
  else { d with newPathList := d.newPathList ++ [path] }

/-- The VRF path that `import_vpn_path` makes; a path of the network controller is known to come
from another VRF. -/
def VpnPath.toVrf (rf : RouteFamily) (index : ℕ) (p : VpnPath) : VrfPath where
  index := index
  source := if p.source = .nc then .vrfTable else p.source
  nlri := ⟨rf, p.nlri.ip, 0⟩
  attrs := p.attrs
  isWithdraw := p.isWithdraw
  puid := p.nlri.puid
  attrObjs := p.attrObjs
  nexthop := p.nexthop
  labelList := p.nlri.labelList

/-- `_is_vrf_path_already_in_table`. -/
def VrfDest.alreadyKnown (d : VrfDest) (path : VrfPath) : Bool :=
  d.knownPathList.any fun p => p.Alike path

/-- The known paths after a run, as far as withdrawals can be removed. -/
def VrfDest.merged (d : VrfDest) : Except PyError (List VrfPath) :=
  match d.removeWithdrawals with
  | (.error e, _) => .error e
  | (.ok (), d) => .ok (removeOld d.knownPathList d.newPathList ++ d.newPathList)

section Merge

variable {known known' news L : List VrfPath} {d : VrfDest} {p m : VrfPath} {q : String}

/-- The paths of an id. -/
def ofPuid (L : List VrfPath) (q : String) : List VrfPath := L.filter fun p => p.puid = q

theorem ofPuid_append (L L' : List VrfPath) (q : String) :
    ofPuid (L ++ L') q = ofPuid L q ++ ofPuid L' q :=
  List.filter_append _ _

theorem VrfPath.Alike.puid_eq (h : p.Alike m) : p.puid = m.puid :=
  congrArg (fun c => c.2.1) h

/-- To erase a path leaves the other ids alone. -/
theorem ofPuid_eraseP (L : List VrfPath) (m : VrfPath) (q : String) :
    ofPuid (L.eraseP fun p => p.Alike m) q =
      if m.puid = q then (ofPuid L q).eraseP fun p => p.Alike m else ofPuid L q := by
  unfold ofPuid
  induction L with
  | nil => simp
  | cons a L ih =>
    by_cases ha : a.Alike m
    · have hpuid := ha.puid_eq
      rw [List.eraseP_cons_of_pos (by simpa using ha), List.filter_cons]
      rcases eq_or_ne m.puid q with hq | hq
      · simp [hpuid, hq, ha]
      · simp [hpuid, hq]
    · rw [List.eraseP_cons_of_neg (by simpa using ha), List.filter_cons, List.filter_cons, ih]
      rcases eq_or_ne m.puid q with hq | hq
      · rcases eq_or_ne a.puid q with haq | haq <;> simp [hq, haq, ha]
      · simp [hq]

theorem findPuid_eq_head? (known : List VrfPath) (p : VrfPath) :
    findPuid known p = (ofPuid known p.puid).head? := by
  rw [findPuid, ofPuid, List.head?_filter]

theorem findPuid_puid (h : findPuid known p = some m) : m.puid = p.puid := by
  simpa using List.find?_some h

/-- The path found is the one that `remove` takes. -/
theorem ofPuid_erase_found (h : findPuid known p = some m) (q : String) :
    ofPuid (known.eraseP fun x => x.Alike m) q =
      if p.puid = q then (ofPuid known q).tail else ofPuid known q := by
  rw [ofPuid_eraseP, findPuid_puid h]
  split
  · next hq =>
    subst hq
    rw [findPuid_eq_head?] at h
    cases hl : ofPuid known p.puid with
    | nil => simp [hl] at h
    | cons a l =>
      rw [hl] at h
      obtain rfl := Option.some.inj h
      rw [List.eraseP_cons_of_pos (by simp [VrfPath.Alike]), List.tail_cons]
  · rfl

theorem listRemove_ok (h : listRemove known m = .ok known') :
    known' = known.eraseP (fun p => p.Alike m) ∧ ∃ p ∈ known, p.Alike m := by
  unfold listRemove at h
  split at h
  · next hm => exact ⟨(Except.ok.inj h).symm, hm⟩
  · cases h

/-- Every match takes one path of its id. -/
theorem length_ofPuid_removeMatches (known ms : List VrfPath) (q : String)
    (h : (removeMatches known ms).1 = .ok ()) :
    (ofPuid (removeMatches known ms).2 q).length + (ofPuid ms q).length =
      (ofPuid known q).length := by
  induction ms generalizing known with
  | nil => rfl
  | cons m ms ih =>
    unfold removeMatches at h ⊢
    cases hr : listRemove known m with
    | error e => simp [hr] at h
    | ok known' =>
      simp only [hr] at h ⊢
      obtain ⟨rfl, p, hp, hpm⟩ := listRemove_ok hr
      have hlen := ih _ h
      rw [ofPuid_eraseP] at hlen
      have hm : ofPuid (m :: ms) q = if m.puid = q then m :: ofPuid ms q else ofPuid ms q := by
        simp [ofPuid, List.filter_cons]
      rw [hm]
      split at hlen
      · next hq =>
        rw [if_pos hq, List.length_cons]
        have hmem : p ∈ ofPuid known q :=
          List.mem_filter.mpr ⟨hp, by simpa using hpm.puid_eq.trans hq⟩
        have hpos := List.length_pos_of_mem hmem
        rw [List.length_eraseP_of_mem hmem (by simpa using hpm)] at hlen
        omega
      · next hq =>
        rw [if_neg hq]
        exact hlen

theorem ofPuid_removeMatches_of_notMem (known ms : List VrfPath) (q : String)
    (hq : q ∉ ms.map VrfPath.puid) :
    ofPuid (removeMatches known ms).2 q = ofPuid known q := by
  induction ms generalizing known with
  | nil => rfl
  | cons m ms ih =>
    rw [List.map_cons, List.mem_cons, not_or] at hq
    unfold removeMatches
    cases hr : listRemove known m with
    | error e => rfl
    | ok known' =>
      obtain ⟨rfl, -⟩ := listRemove_ok hr
      exact (ih _ hq.2).trans (by rw [ofPuid_eraseP, if_neg (Ne.symm hq.1)])

theorem removeMatches_subset (known ms : List VrfPath) : (removeMatches known ms).2 ⊆ known := by
  induction ms generalizing known with
  | nil => exact List.Subset.refl _
  | cons m ms ih =>
    unfold removeMatches
    cases hr : listRemove known m with
    | error e => exact List.Subset.refl _
    | ok known' =>
      obtain ⟨rfl, -⟩ := listRemove_ok hr
      exact List.Subset.trans (ih _) List.eraseP_subset

theorem newPathList_removeWithdrawals' (d : VrfDest) :
    d.removeWithdrawals.2.newPathList = d.newPathList ∧
      d.removeWithdrawals.2.bestPath = d.bestPath := by
  unfold VrfDest.removeWithdrawals
  split
  · exact ⟨rfl, rfl⟩
  · split
    · exact ⟨rfl, rfl⟩
    · dsimp only
      split <;> exact ⟨rfl, rfl⟩

theorem removeWithdrawals_subset' (d : VrfDest) :
    d.removeWithdrawals.2.knownPathList ⊆ d.knownPathList := by
  have hsub := removeMatches_subset d.knownPathList
    (d.withdrawList.filterMap (findPuid d.knownPathList))
  unfold VrfDest.removeWithdrawals
  split
  · exact List.Subset.refl _
  · split
    · exact List.Subset.refl _
    · dsimp only
      generalize removeMatches _ _ = r at hsub
      obtain ⟨e | u, known⟩ := r <;> exact hsub

/-- A known path goes when a withdrawal of its id is queued. -/
theorem ofPuid_removeWithdrawals (hok : d.removeWithdrawals.1 = .ok ())
    (hone : (ofPuid d.knownPathList q).length ≤ 1) :
    ofPuid d.removeWithdrawals.2.knownPathList q =
      if q ∈ d.withdrawList.map VrfPath.puid then [] else ofPuid d.knownPathList q := by
  have hmatches : ∀ m ∈ d.withdrawList.filterMap (findPuid d.knownPathList),
      m.puid ∈ d.withdrawList.map VrfPath.puid := by
    intro m hm
    obtain ⟨w, hw, hwm⟩ := List.mem_filterMap.mp hm
    exact List.mem_map.mpr ⟨w, hw, (findPuid_puid hwm).symm⟩
  have hlen := length_ofPuid_removeMatches d.knownPathList
    (d.withdrawList.filterMap (findPuid d.knownPathList)) q
  have hnot := ofPuid_removeMatches_of_notMem d.knownPathList
    (d.withdrawList.filterMap (findPuid d.knownPathList)) q
  unfold VrfDest.removeWithdrawals at hok ⊢
  split
  · next hw => simp [hw]
  · next hw =>
    rw [if_neg hw] at hok
    split
    · next hk => simp [hk, ofPuid]
    · next hk =>
      rw [if_neg hk] at hok
      dsimp only at hok ⊢
      generalize hr : removeMatches _ _ = r at hok hlen hnot
      obtain ⟨e | u, known⟩ := r
      · cases hok
      · dsimp only at hlen hnot ⊢
        split
        · next hq =>
          obtain ⟨w, hw, rfl⟩ := List.mem_map.mp hq
          cases hK : ofPuid d.knownPathList w.puid with
          | nil =>
            rw [hK, List.length_nil] at hlen
            exact List.eq_nil_of_length_eq_zero (by have := hlen rfl; omega)
          | cons m l =>
            have hm : m ∈ ofPuid (d.withdrawList.filterMap (findPuid d.knownPathList)) w.puid := by
              refine List.mem_filter.mpr ⟨List.mem_filterMap.mpr ⟨w, hw, ?_⟩, ?_⟩
              · rw [findPuid_eq_head?, hK, List.head?_cons]
              · have : m ∈ ofPuid d.knownPathList w.puid := by simp [hK]
                exact (List.mem_filter.mp this).2
            have hpos := List.length_pos_of_mem hm
            have := hlen rfl
            exact List.eq_nil_of_length_eq_zero (by omega)
        · next hq =>
          apply hnot
          intro hmem
          obtain ⟨m, hm, rfl⟩ := List.mem_map.mp hmem
          exact hq (hmatches m hm)

/-- Each new path removes one path of its id. -/
theorem ofPuid_removeOld (known news : List VrfPath) (q : String) :
    ofPuid (removeOld known news) q = (ofPuid known q).drop (ofPuid news q).length := by
  unfold removeOld
  induction news generalizing known with
  | nil => rfl
  | cons new news ih =>
    have hstep : ofPuid (((findPuid known new).map fun m =>
        known.eraseP fun p => p.Alike m).getD known) q =
          if new.puid = q then (ofPuid known q).tail else ofPuid known q := by
      cases hf : findPuid known new with
      | none =>
        split
        · next hq =>
          rw [findPuid_eq_head?, hq, List.head?_eq_none_iff] at hf
          simp [hf]
        · rfl
      | some m => exact ofPuid_erase_found hf q
    rw [List.foldl_cons, ih, hstep]
    split
    · next hq => simp [ofPuid, hq, Nat.add_comm]
    · next hq => simp [ofPuid, hq]

theorem removeOld_subset (known news : List VrfPath) : removeOld known news ⊆ known := by
  unfold removeOld
  induction news generalizing known with
  | nil => exact List.Subset.refl _
  | cons new news ih =>
    refine List.Subset.trans (ih _) ?_
    dsimp only
    cases findPuid known new with
    | none => exact List.Subset.refl _
    | some m => exact List.eraseP_subset

theorem merged_eq_ok : d.merged = .ok L ↔ d.removeWithdrawals.1 = .ok () ∧
    removeOld d.removeWithdrawals.2.knownPathList d.newPathList ++ d.newPathList = L := by
  have hn := (newPathList_removeWithdrawals' d).1
  unfold VrfDest.merged
  generalize d.removeWithdrawals = r at hn
  obtain ⟨e | u, d'⟩ := r
  · simp
  · simp [← hn]

/-- Merging treats every id by itself. -/
theorem ofPuid_merged (h : d.merged = .ok L) (hone : (ofPuid d.knownPathList q).length ≤ 1) :
    ofPuid L q = (if q ∈ d.withdrawList.map VrfPath.puid then []
      else ofPuid d.knownPathList q).drop (ofPuid d.newPathList q).length ++
        ofPuid d.newPathList q := by
  obtain ⟨hok, rfl⟩ := merged_eq_ok.1 h
  rw [ofPuid_append, ofPuid_removeOld, ofPuid_removeWithdrawals hok hone]

theorem merged_subset (h : d.merged = .ok L) : L ⊆ d.knownPathList ++ d.newPathList := by
  obtain ⟨-, rfl⟩ := merged_eq_ok.1 h
  exact List.append_subset.mpr ⟨List.subset_append_of_subset_left _
    (List.Subset.trans (removeOld_subset _ _) (removeWithdrawals_subset' d)),
    List.subset_append_right _ _⟩

end Merge

section Select

variable {sp : Speaker} {p q b : Path} {reason : Reason} {known L : List VrfPath}
  {d : VrfDest} {c : VrfPath}

/-- Of two paths a local one is preferred, if none of them has a local preference that says
otherwise. -/
theorem computeBestPath_nc {r : Option Path × Reason}
    (hp : p.source = .nc → p.attrs.localPref = none)
    (hq : q.source = .nc → q.attrs.localPref = none) (h : computeBestPath sp p q = .ok r) :
    (r.1.getD p).source = .nc ↔ p.source = .nc ∨ q.source = .nc := by
  have hmem : ∀ c, r.1 = some c → c = p ∨ c = q := by
    rintro c hc
    obtain ⟨b, r⟩ := r
    obtain rfl : b = some c := hc
    exact computeBestPath_mem h
  rcases eq_or_ne p.source .nc with hpn | hpn <;> rcases eq_or_ne q.source .nc with hqn | hqn
  · cases hr : r.1 with
    | none => simp [hpn]
    | some c => rcases hmem c hr with rfl | rfl <;> simp [hpn, hqn]
  · have hl : cmpByLocalPref p q = none := by simp [cmpByLocalPref, hp hpn]
    have ho : cmpByLocalOrigin p q = some p := by simp [cmpByLocalOrigin, hpn, Ne.symm hqn]
    simp only [computeBestPath, steps, hl, ho, firstDecision] at h
    obtain rfl := Except.ok.inj h
    simp [hpn]
  · have hl : cmpByLocalPref p q = none := by
      unfold cmpByLocalPref
      rw [hq hqn]
      cases p.attrs.localPref <;> rfl
    have ho : cmpByLocalOrigin p q = some q := by simp [cmpByLocalOrigin, hpn, hqn]
    simp only [computeBestPath, steps, hl, ho, firstDecision] at h
    obtain rfl := Except.ok.inj h
    simp [hqn]
  · cases hr : r.1 with
    | none => simp [hpn, hqn]
    | some c => rcases hmem c hr with rfl | rfl <;> simp [hpn, hqn]

theorem selectBest_nc {rest : List Path} {r : Path × Reason}
    (hl : ∀ x ∈ p :: rest, x.source = .nc → x.attrs.localPref = none)
    (h : selectBest sp p reason rest = .ok r) :
    r.1.source = .nc ↔ ∃ x ∈ p :: rest, x.source = .nc := by
  induction rest generalizing p reason with
  | nil =>
    obtain rfl := Except.ok.inj h
    simp
  | cons next rest ih =>
    unfold selectBest at h
    cases hc : computeBestPath sp p next with
    | error e => simp [hc] at h
    | ok x =>
      obtain ⟨best, reason'⟩ := x
      rw [hc] at h
      have hstep := computeBestPath_nc (hl p (by simp)) (hl next (by simp)) hc
      have hbest : best.getD p = p ∨ best.getD p = next := by
        cases best with
        | none => exact Or.inl rfl
        | some b => exact computeBestPath_mem hc
      rw [ih ?_ h]
      · simp only [List.mem_cons, exists_eq_or_imp, hstep, or_assoc]
      · intro x hx
        rcases List.mem_cons.mp hx with rfl | hx
        · rcases hbest with hb | hb <;> rw [hb] <;> exact hl _ (by simp)
        · exact hl x (by simp [hx])

/-- The selected path is known. -/
theorem bestKnown_mem (h : bestKnown sp known = .ok (some c)) : c ∈ known := by
  unfold bestKnown at h
  split at h
  · cases h
  · exact List.mem_of_find?_eq_some (Except.ok.inj h)

/-- A path is selected, unless an exception is raised. -/
theorem bestKnown_ne_none : bestKnown sp known ≠ .ok none := by
  intro h
  unfold bestKnown at h
  split at h
  · cases h
  · next r hr =>
    obtain ⟨x, hx, hxr⟩ := List.mem_map.mp (computeBestKnownPath_mem hr)
    have := List.find?_eq_none.mp (Except.ok.inj h) x hx
    simp [hxr] at this

theorem bestKnown_isLocal (hl : ∀ x ∈ known, x.isLocal → x.attrs.localPref = none)
    (h : bestKnown sp known = .ok (some c)) : c.isLocal ↔ ∃ x ∈ known, x.isLocal := by
  unfold bestKnown at h
  split at h
  · cases h
  · next r hr =>
    have hc : c.toPath = r.1 := by simpa using List.find?_some (Except.ok.inj h)
    have hnc : r.1.source = .nc ↔ ∃ x ∈ known.map VrfPath.toPath, x.source = .nc := by
      cases known with
      | nil => cases hr
      | cons a known =>
        refine selectBest_nc ?_ hr
        intro x hx hs
        obtain ⟨y, hy, rfl⟩ := List.mem_map.mp (List.map_cons ▸ hx)
        exact hl y hy (by simpa [VrfPath.isLocal] using hs)
    rw [← hc] at hnc
    simpa [VrfPath.isLocal] using hnc

/-- The selection among the merged paths. -/
def selected (sp : Speaker) (L : List VrfPath) : Except PyError (Option VrfPath) :=
  if L = [] then .ok none else bestKnown sp L

theorem bestKnown_singleton (new : VrfPath) : bestKnown sp [new] = .ok (some new) := by
  simp [bestKnown, computeBestKnownPath, selectBest]

/-- What `_process_paths` returns and leaves. -/
theorem processPaths_cases (sp : Speaker) (d : VrfDest) :
    (∃ e, d.merged = .error e ∧ (d.processPaths sp).1 = .error e ∧
        (d.processPaths sp).2 = d.removeWithdrawals.2) ∨
      ∃ L, d.merged = .ok L ∧ (d.processPaths sp).1 = selected sp L ∧
        (d.processPaths sp).2 =
          { d.removeWithdrawals.2 with knownPathList := L, newPathList := [] } := by
  unfold VrfDest.merged VrfDest.processPaths selected
  obtain ⟨e | u, d'⟩ := d.removeWithdrawals
  · exact Or.inl ⟨e, rfl, rfl, rfl⟩
  · refine Or.inr ⟨_, rfl, ?_⟩
    dsimp only
    split
    · next new hk hn =>
      rw [hk, hn]
      simp [removeOld, findPuid, bestKnown_singleton]
    · split
      · next hnil => exact ⟨rfl, by rw [hnil]⟩
      · next hne => exact ⟨rfl, rfl⟩

/-- What a run of `_process` does. -/
inductive Ran (sp : Speaker) (d d' : VrfDest) : Except PyError VrfChange → Prop
  | raised (e : PyError) : d'.bestPath = d.bestPath →
      (∀ L, d.merged = .ok L → ∃ e', selected sp L = .error e') → Ran sp d d' (.error e)
  | unchanged (L : List VrfPath) (best : Option VrfPath) : d.merged = .ok L →
      selected sp L = .ok best → SameBest d.bestPath best → d'.bestPath = d.bestPath →
      d'.knownPathList = L → d'.newPathList = [] → Ran sp d d' (.ok .unchanged)
  | lost : d.merged = .ok [] → d'.bestPath = none → d'.knownPathList = [] →
      d'.newPathList = [] → Ran sp d d' (.ok .lost)
  | new (L : List VrfPath) (c : VrfPath) : d.merged = .ok L → selected sp L = .ok (some c) →
      ¬ SameBest d.bestPath (some c) → d'.bestPath = some c → d'.knownPathList = L →
      d'.newPathList = [] → Ran sp d d' (.ok (.new c))

theorem selected_none (h : selected sp L = .ok none) : L = [] := by
  unfold selected at h
  split at h
  · next hL => exact hL
  · exact absurd h bestKnown_ne_none

/-- A run that raises nothing keeps the merged paths, and one can be selected of them. -/
theorem Ran.merged_known {d d' : VrfDest} {change : VrfChange} (h : Ran sp d d' (.ok change)) :
    ∃ L, d.merged = .ok L ∧ (selected sp L).isOk ∧ d'.knownPathList = L ∧ d'.newPathList = [] := by
  cases h with
  | unchanged L best hm hs _ _ hk hn => exact ⟨L, hm, by rw [hs]; rfl, hk, hn⟩
  | lost hm _ hk hn => exact ⟨[], hm, rfl, hk, hn⟩
  | new L c hm hs _ _ hk hn => exact ⟨L, hm, by rw [hs]; rfl, hk, hn⟩

theorem processBest_ran (sp : Speaker) (d : VrfDest) :
    Ran sp d (d.processBest sp).2 (d.processBest sp).1 := by
  have hbest := (newPathList_removeWithdrawals' d).2
  have hcases := processPaths_cases sp d
  unfold VrfDest.processBest
  generalize d.processPaths sp = r at hcases
  obtain ⟨res, d'⟩ := r
  rcases hcases with ⟨e, hm, hres, hd⟩ | ⟨L, hm, hres, hd⟩
  · obtain rfl : res = .error e := hres
    obtain rfl : d' = d.removeWithdrawals.2 := hd
    exact .raised e hbest fun L hL => by rw [hm] at hL; cases hL
  · obtain rfl : d' = _ := hd
    obtain rfl : res = selected sp L := hres
    cases hs : selected sp L with
    | error e =>
      refine .raised e hbest fun L' hL' => ?_
      rw [hm] at hL'
      obtain rfl := Except.ok.inj hL'
      exact ⟨e, hs⟩
    | ok best =>
      dsimp only
      rw [hbest]
      split
      · next hsame => exact .unchanged L best hm hs hsame rfl rfl rfl
      · next hsame =>
        cases best with
        | none =>
          obtain rfl := selected_none hs
          dsimp only
          rw [if_pos rfl]
          exact .lost hm rfl rfl rfl
        | some c => exact .new L c hm hs hsame rfl rfl rfl

end Select

end Ryu.Bgp
