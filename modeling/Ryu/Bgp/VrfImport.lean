import Ryu.Bgp.VrfExport

/-! # Paths that VRFs import

When the best path of a VPN destination changes, the new one is imported into the VRFs that import
one of its route targets; when it is lost, the old one is withdrawn from the VRFs that import one
of its own. A new best path withdraws nothing. So a VRF holds a copy of the best path exactly when
it imports it, as long as no change of the best path turns a VRF away that holds a path, and what
a VRF has queued when it is processed is still the best path.
-/

namespace Ryu.Bgp

/-- A VRF table; an import map that matches a path keeps it out. -/
structure VrfConf where
  routeDist : String
  importRts : List String
  importMaps : List (VrfPath → Bool)

/-- A path of the VPN destination of a route distinguisher and a prefix that is no withdrawal;
`Path.__init__` demands attributes of it. -/
structure VpnRoute (routeDist ip : String) where
  path : VpnPath
  routeDist_eq : path.nlri.routeDist = routeDist
  ip_eq : path.nlri.ip = ip
  announced : path.isWithdraw = false
  attrObjs_ne : path.attrObjs ≠ []
  deriving DecidableEq

/-- A destination of a VRF table, and whether it waits to be processed. -/
structure VrfEntry where
  dest : VrfDest
  waits : Bool
  deriving DecidableEq, Repr

/-- The best path of a VPN destination, the destination of its prefix in each VRF, the number of
path objects made, and the VRF whose processing ended in an exception: nothing is processed any
more. -/
structure ImportState (ι : Type) (routeDist ip : String) where
  best : Option (VpnRoute routeDist ip)
  vrf : ι → VrfEntry
  made : ℕ
  raised : Option ι

/-- The best path is replaced or lost, another path or withdrawal is inserted into a VRF, and a
VRF destination is processed. -/
inductive ImportEvent (ι : Type) (routeDist ip : String)
  | newBest (route : VpnRoute routeDist ip)
  | lost
  | other (v : ι) (path : VrfPath)
  | process (sp : Speaker) (v : ι)

/-- A VRF imports one of the route targets. -/
def VrfConf.interested (c : VrfConf) (rts : List String) : Bool := rts.any fun rt => rt ∈ c.importRts

/-- A path with the route targets is imported into the VRF, which does not get its own. -/
def VrfConf.qualifies (c : VrfConf) (path : VpnPath) (rts : List String) : Bool :=
  c.interested rts && (path.source ≠ .nc || path.nlri.routeDist ≠ c.routeDist)

def VrfConf.filteredOut (c : VrfConf) (path : VrfPath) : Bool := c.importMaps.any fun m => m path

/-- `import_vpn_path`. -/
def VrfEntry.importVpnPath (c : VrfConf) (rf : RouteFamily) (index : ℕ) (path : VpnPath)
    (e : VrfEntry) : VrfEntry :=
  let vrfPath := path.toVrf rf index
  if e.dest.alreadyKnown vrfPath then e
  else if c.filteredOut vrfPath then e
  else ⟨e.dest.add vrfPath, true⟩

/-- `clone(for_withdrawal=True)`. -/
def VpnPath.withdrawal (p : VpnPath) : VpnPath :=
  { p with attrs := noAttrs, attrObjs := [], isWithdraw := true }

section Model

variable {ι : Type} [DecidableEq ι] {routeDist ip : String} (rf : RouteFamily) (vrfs : ι → VrfConf)

/-- `import_single_vpn_path_to_all_vrfs`. -/
def ImportState.importToAllVrfs (s : ImportState ι routeDist ip) (path : VpnPath)
    (rts : List String) : ImportState ι routeDist ip :=
  { s with
    vrf := fun v =>
      if (vrfs v).qualifies path rts then (s.vrf v).importVpnPath (vrfs v) rf s.made path
      else s.vrf v
    made := s.made + 1 }

/-- An inserted path is not an import from the destination: it has another id, or is a local path
of a VRF of the same route distinguisher. -/
def Foreign (routeDist ip : String) (c : VrfConf) (path : VrfPath) : Prop :=
  path.puid ≠ createPuid routeDist ip ∨ path.isLocal ∧ c.routeDist = routeDist

instance (c : VrfConf) (path : VrfPath) : Decidable (Foreign routeDist ip c path) :=
  inferInstanceAs (Decidable (_ ∨ _))

def ImportState.setEntry (s : ImportState ι routeDist ip) (v : ι) (e : VrfEntry) :
    ImportState ι routeDist ip :=
  { s with vrf := Function.update s.vrf v e }

def importStep (s : ImportState ι routeDist ip) :
    ImportEvent ι routeDist ip → ImportState ι routeDist ip
  | .newBest route =>
    if s.raised ≠ none ∨ s.best = some route then s
    else
      ImportState.importToAllVrfs rf vrfs { s with best := some route } route.path
        route.path.attrs.routeTargets
  | .lost =>
    match s.raised, s.best with
    | none, some old =>
      ImportState.importToAllVrfs rf vrfs { s with best := none } old.path.withdrawal
        old.path.attrs.routeTargets
    | _, _ => s
  | .other v path =>
    if Foreign routeDist ip (vrfs v) path then s.setEntry v ⟨(s.vrf v).dest.add path, true⟩ else s
  | .process sp v =>
    if s.raised ≠ none ∨ (s.vrf v).waits = false then s
    else
      match (s.vrf v).dest.processBest sp with
      | (.error _, d) => { s.setEntry v ⟨d, false⟩ with raised := some v }
      | (.ok _, d) => s.setEntry v ⟨d.removeEmpty, false⟩

def ImportState.init (ι : Type) (routeDist ip : String) : ImportState ι routeDist ip :=
  ⟨none, fun _ => ⟨.init, false⟩, 0, none⟩

/-- The known paths of an id, and what is queued of them. -/
def VrfEntry.ofId (e : VrfEntry) (puid : String) : List VrfPath := ofPuid e.dest.knownPathList puid

def VrfEntry.newOfId (e : VrfEntry) (puid : String) : List VrfPath := ofPuid e.dest.newPathList puid

def VrfEntry.Withdrawn (e : VrfEntry) (puid : String) : Prop :=
  puid ∈ e.dest.withdrawList.map VrfPath.puid

/-- The destination does not wait, or not for a path of the id. -/
def VrfEntry.Settled (e : VrfEntry) (puid : String) : Prop :=
  e.waits = false ∨ e.newOfId puid = [] ∧ ¬ e.Withdrawn puid

/-- The VRF has a local path of the id. -/
def VrfEntry.HasLocal (e : VrfEntry) (puid : String) : Prop := ∃ p ∈ e.ofId puid, p.isLocal

/-- The best path is one that the VRF itself exported. -/
def OwnBest (c : VrfConf) (best : Option (VpnRoute routeDist ip)) : Prop :=
  ∃ b, best = some b ∧ b.path.source = .nc ∧ c.routeDist = routeDist

/-- The paths are a copy of the best path if the VRF imports one of its route targets, and none
otherwise. -/
def Copies (c : VrfConf) (best : Option (VpnRoute routeDist ip)) : List VrfPath → Prop
  | [] => ∀ b, best = some b → ¬ c.interested b.path.attrs.routeTargets
  | [p] => ∃ b, best = some b ∧ c.interested b.path.attrs.routeTargets ∧
      p.Alike (b.path.toVrf rf 0)
  | _ => False

instance (e : VrfEntry) (puid : String) : Decidable (e.HasLocal puid) :=
  inferInstanceAs (Decidable (∃ p ∈ e.ofId puid, p.isLocal))

instance (c : VrfConf) : (best : Option (VpnRoute routeDist ip)) → Decidable (OwnBest c best)
  | none => isFalse fun ⟨_, h, _⟩ => (Option.some_ne_none _).symm h
  | some b => decidable_of_iff (b.path.source = .nc ∧ c.routeDist = routeDist)
      ⟨fun h => ⟨b, rfl, h⟩, fun ⟨_, hb, h⟩ => Option.some.inj hb ▸ h⟩

instance (c : VrfConf) : (best : Option (VpnRoute routeDist ip)) → (l : List VrfPath) →
    Decidable (Copies rf c best l)
  | none, [] => isTrue fun _ h => absurd h (Option.some_ne_none _).symm
  | some b, [] => decidable_of_iff (¬ c.interested b.path.attrs.routeTargets)
      ⟨fun h _ hb => Option.some.inj hb ▸ h, fun h => h b rfl⟩
  | none, [_] => isFalse fun ⟨_, h, _⟩ => (Option.some_ne_none _).symm h
  | some b, [p] => decidable_of_iff
      (c.interested b.path.attrs.routeTargets ∧ p.Alike (b.path.toVrf rf 0))
      ⟨fun h => ⟨b, rfl, h⟩, fun ⟨_, hb, h⟩ => Option.some.inj hb ▸ h⟩
  | _, _ :: _ :: _ => isFalse id

/-- At most one path of the id is known, and when it is settled that is the copy of the best path
that the VRF imports, unless the route is the VRF's own. -/
structure RightAt (c : VrfConf) (best : Option (VpnRoute routeDist ip)) (e : VrfEntry) : Prop where
  one : (e.ofId (createPuid routeDist ip)).length ≤ 1
  copies : e.Settled (createPuid routeDist ip) → ¬ OwnBest c best →
    ¬ e.HasLocal (createPuid routeDist ip) → Copies rf c best (e.ofId (createPuid routeDist ip))

def ImportsBest (s : ImportState ι routeDist ip) : Prop :=
  ∀ v, s.raised ≠ some v → RightAt rf (vrfs v) s.best (s.vrf v)

/-- When the best path changes, no settled VRF that has a path is turned away, and no import map
keeps the new path out. -/
structure TakesNew (c : VrfConf) (route : VpnRoute routeDist ip) (index : ℕ) (e : VrfEntry) :
    Prop where
  admitted : c.qualifies route.path route.path.attrs.routeTargets →
    c.filteredOut (route.path.toVrf rf index) → e.dest.alreadyKnown (route.path.toVrf rf index)
  notTurnedAway : ¬ c.interested route.path.attrs.routeTargets → ¬ OwnBest c (some route) →
    e.ofId (createPuid routeDist ip) = []

/-- When the best path is lost, no import map keeps the withdrawal out, and a VRF that exported it
holds no other path of the id. -/
structure TakesLoss (c : VrfConf) (old : VpnRoute routeDist ip) (index : ℕ) (e : VrfEntry) :
    Prop where
  admitted : c.qualifies old.path old.path.attrs.routeTargets →
    ¬ c.filteredOut (old.path.withdrawal.toVrf rf index)
  own : OwnBest c (some old) → e.ofId (createPuid routeDist ip) = []

/-- What is queued for a VRF is no more than one announcement, which is a local path or a copy of
the best path; and withdrawals alone only if the VRF does not import the best path. -/
structure QueuedBest (c : VrfConf) (best : Option (VpnRoute routeDist ip)) (e : VrfEntry) :
    Prop where
  one : (e.newOfId (createPuid routeDist ip)).length ≤ 1
  copy : ∀ n, e.newOfId (createPuid routeDist ip) = [n] → ¬ n.isLocal → OwnBest c best ∨
    ∃ b, best = some b ∧ c.interested b.path.attrs.routeTargets ∧ n.Alike (b.path.toVrf rf 0)
  withdrawn : e.newOfId (createPuid routeDist ip) = [] → e.Withdrawn (createPuid routeDist ip) →
    OwnBest c best ∨ ∀ b, best = some b → ¬ c.interested b.path.attrs.routeTargets

/-- The best path changes for settled VRFs as they can follow, and a VRF is processed when what it
has queued is the best path, unless an exception is raised. -/
def ImportInTurn (s : ImportState ι routeDist ip) : ImportEvent ι routeDist ip → Prop
  | .newBest route => s.raised = none → s.best ≠ some route → ∀ v,
      (s.vrf v).Settled (createPuid routeDist ip) → ¬ (s.vrf v).HasLocal (createPuid routeDist ip) →
        TakesNew rf (vrfs v) route s.made (s.vrf v)
  | .lost => s.raised = none → ∀ old, s.best = some old → ∀ v,
      (s.vrf v).Settled (createPuid routeDist ip) → ¬ (s.vrf v).HasLocal (createPuid routeDist ip) →
        TakesLoss rf (vrfs v) old s.made (s.vrf v)
  | .other _ _ => True
  | .process sp v => s.raised = none → (s.vrf v).waits → ∀ L, (s.vrf v).dest.merged = .ok L →
      (selected sp L).isOk → QueuedBest rf (vrfs v) s.best (s.vrf v)

end Model

section Entry

variable {routeDist ip : String} {rf : RouteFamily} {c : VrfConf} {e : VrfEntry}
  {best : Option (VpnRoute routeDist ip)} {route : VpnRoute routeDist ip} {p : VrfPath} {n : ℕ}

theorem puid_toVrf (rf : RouteFamily) (route : VpnRoute routeDist ip) (n : ℕ) :
    (route.path.toVrf rf n).puid = createPuid routeDist ip := by
  rw [VpnPath.toVrf, VpnNlri.puid, route.routeDist_eq, route.ip_eq]

theorem puid_withdrawal (rf : RouteFamily) (route : VpnRoute routeDist ip) (n : ℕ) :
    (route.path.withdrawal.toVrf rf n).puid = createPuid routeDist ip :=
  puid_toVrf rf route n

theorem alike_toVrf (path : VpnPath) (m : ℕ) :
    p.Alike (path.toVrf rf n) ↔ p.Alike (path.toVrf rf m) :=
  Iff.rfl

theorem qualifies_iff (route : VpnRoute routeDist ip) (rts : List String) :
    c.qualifies route.path rts ↔ c.interested rts ∧ ¬ OwnBest c (some route) := by
  unfold VrfConf.qualifies OwnBest
  rw [route.routeDist_eq]
  simp only [Bool.and_eq_true, Bool.or_eq_true, decide_eq_true_eq, Option.some.injEq,
    exists_eq_left']
  refine and_congr_right fun _ => ?_
  rw [not_and_or]
  exact or_congr_right (not_congr eq_comm)

theorem withdrawal_qualifies (path : VpnPath) (rts : List String) :
    c.qualifies path.withdrawal rts = c.qualifies path rts := rfl

theorem importVpnPath_cases (c : VrfConf) (rf : RouteFamily) (n : ℕ) (path : VpnPath)
    (e : VrfEntry) :
    (e.importVpnPath c rf n path = e ∧
        (e.dest.alreadyKnown (path.toVrf rf n) ∨ c.filteredOut (path.toVrf rf n))) ∨
      (e.importVpnPath c rf n path = ⟨e.dest.add (path.toVrf rf n), true⟩ ∧
        ¬ e.dest.alreadyKnown (path.toVrf rf n) ∧ ¬ c.filteredOut (path.toVrf rf n)) := by
  unfold VrfEntry.importVpnPath
  dsimp only
  split
  · next h => exact Or.inl ⟨rfl, Or.inl h⟩
  · next h =>
    split
    · next h' => exact Or.inl ⟨rfl, Or.inr h'⟩
    · next h' => exact Or.inr ⟨rfl, h, h'⟩

theorem ofId_add (e : VrfEntry) (p : VrfPath) (w : Bool) (puid : String) :
    (⟨e.dest.add p, w⟩ : VrfEntry).ofId puid = e.ofId puid := by
  unfold VrfEntry.ofId VrfDest.add
  dsimp only
  split <;> rfl

/-- An inserted path is waited for. -/
theorem not_settled_add (e : VrfEntry) (p : VrfPath) :
    ¬ (⟨e.dest.add p, true⟩ : VrfEntry).Settled p.puid := by
  unfold VrfEntry.Settled VrfEntry.newOfId VrfEntry.Withdrawn VrfDest.add
  rintro (h | ⟨hn, hw⟩)
  · cases h
  · split at hn
    · next hp =>
      apply hw
      simp [hp]
    · next hp =>
      rw [ofPuid_append] at hn
      simp [ofPuid] at hn

theorem RightAt.add_waited (h : RightAt rf c best e) {best' : Option (VpnRoute routeDist ip)}
    (hp : p.puid = createPuid routeDist ip) : RightAt rf c best' ⟨e.dest.add p, true⟩ := by
  constructor
  · rw [ofId_add]
    exact h.one
  · intro hs
    rw [← hp] at hs
    exact absurd hs (not_settled_add e p)

/-- A path that is known already is all there is of its id. -/
theorem RightAt.known_alike (h : RightAt rf c best e) (hp : p.puid = createPuid routeDist ip)
    (hk : e.dest.alreadyKnown p) :
    ∃ x, e.ofId (createPuid routeDist ip) = [x] ∧ x.Alike p := by
  obtain ⟨x, hx, hxp⟩ := List.any_eq_true.mp hk
  have halike : x.Alike p := by simpa using hxp
  have hmem : x ∈ e.ofId (createPuid routeDist ip) :=
    List.mem_filter.mpr ⟨hx, by simpa using halike.puid_eq.trans hp⟩
  have hone := h.one
  rcases hl : e.ofId (createPuid routeDist ip) with _ | ⟨y, _ | ⟨z, l⟩⟩
  · simp [hl] at hmem
  · rw [hl, List.mem_singleton] at hmem
    exact ⟨y, rfl, hmem ▸ halike⟩
  · simp [hl] at hone

theorem copies_none {l : List VrfPath} :
    Copies rf c (none : Option (VpnRoute routeDist ip)) l ↔ l = [] := by
  rcases l with _ | ⟨p, _ | ⟨p', l⟩⟩ <;> simp [Copies]

/-- Without interest in the best path there is no path to have. -/
theorem copies_of_not_interested {l : List VrfPath}
    (hi : ¬ c.interested route.path.attrs.routeTargets) :
    Copies rf c (some route) l ↔ l = [] := by
  rcases l with _ | ⟨p, _ | ⟨p', l⟩⟩
  · simpa [Copies] using hi
  · simp [Copies, hi]
  · simp [Copies]

theorem copies_of_interested {l : List VrfPath}
    (hi : c.interested route.path.attrs.routeTargets) :
    Copies rf c (some route) l ↔ ∃ p, l = [p] ∧ p.Alike (route.path.toVrf rf n) := by
  rcases l with _ | ⟨p, _ | ⟨p', l⟩⟩
  · simpa [Copies] using hi
  · simp [Copies, hi, alike_toVrf (n := 0) route.path n]
  · simp [Copies]

theorem RightAt.unchanged_iff (h : RightAt rf c best e)
    (best' : Option (VpnRoute routeDist ip)) :
    RightAt rf c best' e ↔ (e.Settled (createPuid routeDist ip) →
      ¬ e.HasLocal (createPuid routeDist ip) → ¬ OwnBest c best' →
        Copies rf c best' (e.ofId (createPuid routeDist ip))) := by
  constructor
  · exact fun h' hs hl ho => h'.copies hs ho hl
  · exact fun h' => ⟨h.one, fun hs ho hl => h' hs hl ho⟩

/-- A new best path leaves an entry right exactly if the entry can follow. -/
theorem RightAt.newBest_iff (h : RightAt rf c best e) (route : VpnRoute routeDist ip) (n : ℕ) :
    RightAt rf c (some route) (if c.qualifies route.path route.path.attrs.routeTargets
        then e.importVpnPath c rf n route.path else e) ↔
      (e.Settled (createPuid routeDist ip) → ¬ e.HasLocal (createPuid routeDist ip) →
        TakesNew rf c route n e) := by
  have hpuid := puid_toVrf rf route n
  split
  · next hq =>
    obtain ⟨hi, hown⟩ := (qualifies_iff route _).mp hq
    rcases importVpnPath_cases c rf n route.path e with ⟨he, hout⟩ | ⟨he, -, hf⟩
    · rw [he, h.unchanged_iff]
      refine forall_congr' fun hs => forall_congr' fun hl => ?_
      rw [copies_of_interested (n := n) hi]
      constructor
      · intro hc
        obtain ⟨p, hp, hpa⟩ := hc hown
        refine ⟨fun _ _ => ?_, fun hni => absurd hi hni⟩
        have hmem : p ∈ e.ofId (createPuid routeDist ip) := by simp [hp]
        exact List.any_eq_true.mpr ⟨p, (List.mem_filter.mp hmem).1, by simpa using hpa⟩
      · intro ht _
        apply h.known_alike hpuid
        rcases hout with hk | hf
        · exact hk
        · exact ht.admitted hq hf
    · rw [he]
      refine iff_of_true (h.add_waited hpuid) fun _ _ => ?_
      exact ⟨fun _ hf' => absurd hf' hf, fun hni => absurd hi hni⟩
  · next hq =>
    rw [h.unchanged_iff]
    refine forall_congr' fun hs => forall_congr' fun hl => ?_
    have hni : ¬ OwnBest c (some route) → ¬ c.interested route.path.attrs.routeTargets :=
      fun ho hi => hq ((qualifies_iff route _).mpr ⟨hi, ho⟩)
    constructor
    · intro hc
      exact ⟨fun hq' => absurd hq' hq,
        fun hi ho => (copies_of_not_interested hi).mp (hc ho)⟩
    · intro ht ho
      exact (copies_of_not_interested (hni ho)).mpr (ht.notTurnedAway (hni ho) ho)

/-- The loss of the best path leaves an entry right exactly if the entry can follow. -/
theorem RightAt.lost_iff {old : VpnRoute routeDist ip} (h : RightAt rf c (some old) e) (n : ℕ) :
    RightAt rf c (none : Option (VpnRoute routeDist ip))
        (if c.qualifies old.path.withdrawal old.path.attrs.routeTargets
          then e.importVpnPath c rf n old.path.withdrawal else e) ↔
      (e.Settled (createPuid routeDist ip) → ¬ e.HasLocal (createPuid routeDist ip) →
        TakesLoss rf c old n e) := by
  have hpuid := puid_withdrawal rf old n
  have hnone : ¬ OwnBest c (none : Option (VpnRoute routeDist ip)) := by
    rintro ⟨b, hb, -⟩
    cases hb
  rw [withdrawal_qualifies]
  split
  · next hq =>
    obtain ⟨hi, hown⟩ := (qualifies_iff old _).mp hq
    rcases importVpnPath_cases c rf n old.path.withdrawal e with ⟨he, hout⟩ | ⟨he, -, hf⟩
    · rw [he, h.unchanged_iff]
      refine forall_congr' fun hs => forall_congr' fun hl => ?_
      -- the copy of the old best path is known, and it is not like a withdrawal
      obtain ⟨p, hp, hpa⟩ := (copies_of_interested (n := n) hi).mp (h.copies hs hown hl)
      have hfiltered : c.filteredOut (old.path.withdrawal.toVrf rf n) := by
        rcases hout with hk | hf
        · obtain ⟨x, hx, hxa⟩ := h.known_alike hpuid hk
          rw [hp] at hx
          obtain rfl := (List.cons.inj hx).1
          have hobj : old.path.attrObjs = [] := by
            have := congrArg (fun c => c.2.2.2.2) (hpa.symm.trans hxa)
            exact this
          exact absurd hobj old.attrObjs_ne
        · exact hf
      rw [copies_none, hp]
      constructor
      · intro hc
        cases hc hnone
      · exact fun ht => absurd hfiltered (ht.admitted hq)
    · rw [he]
      refine iff_of_true (h.add_waited hpuid) fun _ _ => ?_
      exact ⟨fun _ => hf, fun ho => absurd ho hown⟩
  · next hq =>
    rw [h.unchanged_iff]
    refine forall_congr' fun hs => forall_congr' fun hl => ?_
    rw [copies_none]
    constructor
    · exact fun hc => ⟨fun hq' => absurd hq' hq, fun _ => hc hnone⟩
    · intro ht _
      by_cases ho : OwnBest c (some old)
      · exact ht.own ho
      · have hni : ¬ c.interested old.path.attrs.routeTargets :=
          fun hi => hq ((qualifies_iff old _).mpr ⟨hi, ho⟩)
        exact (copies_of_not_interested hni).mp (h.copies hs ho hl)

/-- Other paths of the id, and paths of other ids, leave an entry right. -/
theorem RightAt.other (h : RightAt rf c best e) (p : VrfPath) :
    RightAt rf c best ⟨e.dest.add p, true⟩ := by
  rcases eq_or_ne p.puid (createPuid routeDist ip) with hp | hp
  · exact h.add_waited hp
  · constructor
    · rw [ofId_add]
      exact h.one
    · intro hs ho hl
      unfold VrfEntry.HasLocal at hl
      rw [ofId_add] at hl ⊢
      refine h.copies ?_ ho hl
      rcases hs with hs | ⟨hn, hw⟩
      · cases hs
      · refine Or.inr ⟨?_, ?_⟩
        · unfold VrfEntry.newOfId VrfDest.add at hn
          dsimp only at hn
          split at hn
          · exact hn
          · rw [ofPuid_append] at hn
            exact (List.append_eq_nil_iff.mp hn).1
        · intro hw'
          apply hw
          unfold VrfEntry.Withdrawn VrfDest.add
          dsimp only
          split
          · rw [List.map_append]
            exact List.mem_append_left _ hw'
          · exact hw'

/-- What a run leaves of an id whose known paths are one at most. -/
theorem RightAt.merged_cases (h : RightAt rf c best e) {L : List VrfPath}
    (hm : e.dest.merged = .ok L) :
    (2 ≤ (e.newOfId (createPuid routeDist ip)).length ∧
        2 ≤ (ofPuid L (createPuid routeDist ip)).length) ∨
      (∃ x, e.newOfId (createPuid routeDist ip) = [x] ∧ ofPuid L (createPuid routeDist ip) = [x]) ∨
      (e.newOfId (createPuid routeDist ip) = [] ∧ e.Withdrawn (createPuid routeDist ip) ∧
        ofPuid L (createPuid routeDist ip) = []) ∨
      (e.newOfId (createPuid routeDist ip) = [] ∧ ¬ e.Withdrawn (createPuid routeDist ip) ∧
        ofPuid L (createPuid routeDist ip) = e.ofId (createPuid routeDist ip)) := by
  have hof := ofPuid_merged hm h.one
  have hone := h.one
  unfold VrfEntry.newOfId VrfEntry.Withdrawn VrfEntry.ofId at *
  rcases hn : ofPuid e.dest.newPathList (createPuid routeDist ip) with _ | ⟨x, _ | ⟨y, l⟩⟩
  · rw [hn] at hof
    by_cases hw : createPuid routeDist ip ∈ e.dest.withdrawList.map VrfPath.puid
    · exact Or.inr (Or.inr (Or.inl ⟨rfl, hw, by simpa [hw] using hof⟩))
    · exact Or.inr (Or.inr (Or.inr ⟨rfl, hw, by simpa [hw] using hof⟩))
  · rw [hn] at hof
    refine Or.inr (Or.inl ⟨x, rfl, ?_⟩)
    rw [hof]
    have hnil : (if createPuid routeDist ip ∈ e.dest.withdrawList.map VrfPath.puid then []
        else ofPuid e.dest.knownPathList (createPuid routeDist ip)).drop [x].length = [] := by
      rw [List.drop_eq_nil_iff]
      split
      · exact Nat.zero_le _
      · exact hone
    rw [hnil, List.nil_append]
  · rw [hn] at hof
    refine Or.inl ⟨by simp, ?_⟩
    rw [hof, List.length_append, List.length_cons, List.length_cons]
    omega

/-- A run of the destination leaves an entry right exactly if what is queued is the best path. -/
theorem RightAt.processed_iff (h : RightAt rf c best e) {L : List VrfPath}
    (hm : e.dest.merged = .ok L) {d : VrfDest} (hd : d.knownPathList = L) :
    RightAt rf c best ⟨d, false⟩ ↔ QueuedBest rf c best e := by
  have hofId : (⟨d, false⟩ : VrfEntry).ofId (createPuid routeDist ip) =
      ofPuid L (createPuid routeDist ip) := by
    rw [VrfEntry.ofId, hd]
  have hright : RightAt rf c best ⟨d, false⟩ ↔
      (ofPuid L (createPuid routeDist ip)).length ≤ 1 ∧ (¬ OwnBest c best →
        ¬ (∃ p ∈ ofPuid L (createPuid routeDist ip), p.isLocal) →
          Copies rf c best (ofPuid L (createPuid routeDist ip))) := by
    rw [← hofId]
    constructor
    · exact fun h' => ⟨h'.one, h'.copies (Or.inl rfl)⟩
    · exact fun h' => ⟨h'.1, fun _ => h'.2⟩
  rw [hright]
  rcases h.merged_cases hm with ⟨hn, hL⟩ | ⟨x, hn, hL⟩ | ⟨hn, hw, hL⟩ | ⟨hn, hw, hL⟩
  · constructor
    · intro h'
      have := h'.1
      omega
    · intro h'
      have := h'.one
      omega
  · rw [hL]
    constructor
    · rintro ⟨-, hc⟩
      refine ⟨by rw [hn]; rfl, ?_, fun hnil => by rw [hn] at hnil; cases hnil⟩
      intro y hy hl
      rw [hn] at hy
      obtain rfl := (List.cons.inj hy).1
      by_cases ho : OwnBest c best
      · exact Or.inl ho
      · exact Or.inr (hc ho (by simpa using hl))
    · intro hq
      refine ⟨le_rfl, fun ho hl => ?_⟩
      exact (hq.copy x hn (by simpa using hl)).resolve_left ho
  · rw [hL]
    constructor
    · rintro ⟨-, hc⟩
      refine ⟨by rw [hn]; exact Nat.zero_le _, fun y hy => (by rw [hn] at hy; cases hy), ?_⟩
      intro _ _
      by_cases ho : OwnBest c best
      · exact Or.inl ho
      · exact Or.inr (hc ho (by simp))
    · intro hq
      exact ⟨Nat.zero_le _, fun ho _ => (hq.withdrawn hn hw).resolve_left ho⟩
  · rw [hL]
    refine iff_of_true ⟨h.one, fun ho hl => h.copies (Or.inr ⟨hn, hw⟩) ho hl⟩ ?_
    exact ⟨by rw [hn]; exact Nat.zero_le _, fun y hy => (by rw [hn] at hy; cases hy),
      fun _ hw' => absurd hw' hw⟩

end Entry

section Run

variable {ι : Type} [DecidableEq ι] {routeDist ip : String} {rf : RouteFamily}
  {vrfs : ι → VrfConf} {s : ImportState ι routeDist ip}

omit [DecidableEq ι] in
/-- While nothing has been raised, a statement of all VRFs is one of each. -/
theorem importsBest_iff_of_none (hr : s.raised = none) :
    ImportsBest rf vrfs s ↔ ∀ v, RightAt rf (vrfs v) s.best (s.vrf v) := by
  unfold ImportsBest
  rw [hr]
  exact forall_congr' fun v => ⟨fun h => h (Option.some_ne_none v).symm, fun h _ => h⟩

theorem importsBest_newBest_iff (h : ImportsBest rf vrfs s) (route : VpnRoute routeDist ip) :
    ImportsBest rf vrfs (importStep rf vrfs s (.newBest route)) ↔
      ImportInTurn rf vrfs s (.newBest route) := by
  unfold importStep
  dsimp only
  split
  · next hskip =>
    refine iff_of_true h fun hr hb => ?_
    rcases hskip with hr' | hb'
    · exact absurd hr hr'
    · exact absurd hb' hb
  · next hgo =>
    rw [not_or, not_not] at hgo
    obtain ⟨hr, hb⟩ := hgo
    have hall := (importsBest_iff_of_none hr).mp h
    have hstep := forall_congr' fun v => (hall v).newBest_iff route s.made
    refine (importsBest_iff_of_none (s := ImportState.importToAllVrfs rf vrfs
      { s with best := some route } route.path route.path.attrs.routeTargets) hr).trans
        (hstep.trans ?_)
    exact ⟨fun h' _ _ => h', fun h' => h' hr hb⟩

theorem importsBest_lost_iff (h : ImportsBest rf vrfs s) :
    ImportsBest rf vrfs (importStep rf vrfs s .lost) ↔ ImportInTurn rf vrfs s .lost := by
  unfold importStep
  dsimp only
  split
  · next old hr hb =>
    have hall := (importsBest_iff_of_none hr).mp h
    rw [hb] at hall
    have hstep := forall_congr' fun v => (hall v).lost_iff s.made
    refine (importsBest_iff_of_none (s := ImportState.importToAllVrfs rf vrfs
      { s with best := none } old.path.withdrawal old.path.attrs.routeTargets) hr).trans
        (hstep.trans ?_)
    constructor
    · rintro h' - old' hold
      obtain rfl := Option.some.inj (hb.symm.trans hold)
      exact h'
    · exact fun h' => h' hr old hb
  · next hno =>
    refine iff_of_true h fun hr old hb => ?_
    exact absurd hb (hno old hr)

theorem vrf_setEntry_self (v : ι) (e : VrfEntry) : (s.setEntry v e).vrf v = e :=
  Function.update_self ..

theorem vrf_setEntry_of_ne {v w : ι} (h : w ≠ v) (e : VrfEntry) :
    (s.setEntry v e).vrf w = s.vrf w :=
  Function.update_of_ne h ..

/-- One entry is set, and the others stay right. -/
theorem importsBest_setEntry_iff (h : ImportsBest rf vrfs s) (v : ι) (e : VrfEntry) :
    ImportsBest rf vrfs (s.setEntry v e) ↔
      (s.raised ≠ some v → RightAt rf (vrfs v) s.best e) := by
  constructor
  · intro h' hr
    have hv := h' v hr
    rwa [vrf_setEntry_self] at hv
  · intro h' w hr
    rcases eq_or_ne w v with rfl | hne
    · rw [vrf_setEntry_self]
      exact h' hr
    · rw [vrf_setEntry_of_ne hne]
      exact h w hr

theorem importsBest_other (h : ImportsBest rf vrfs s) (v : ι) (path : VrfPath) :
    ImportsBest rf vrfs (importStep rf vrfs s (.other v path)) := by
  unfold importStep
  dsimp only
  split
  · rw [importsBest_setEntry_iff h]
    exact fun hr => (h v hr).other path
  · exact h

theorem importsBest_process_iff (h : ImportsBest rf vrfs s) (sp : Speaker) (v : ι) :
    ImportsBest rf vrfs (importStep rf vrfs s (.process sp v)) ↔
      ImportInTurn rf vrfs s (.process sp v) := by
  unfold importStep
  dsimp only
  split
  · next hskip =>
    refine iff_of_true h fun hr hw => ?_
    rcases hskip with hr' | hw'
    · exact absurd hr hr'
    · rw [hw] at hw'
      cases hw'
  · next hgo =>
    rw [not_or, not_not] at hgo
    obtain ⟨hr, hw⟩ := hgo
    have hw : (s.vrf v).waits := by simpa using hw
    have hv := (importsBest_iff_of_none hr).mp h v
    have hran := processBest_ran sp (s.vrf v).dest
    cases hp : (s.vrf v).dest.processBest sp with
    | mk res d =>
      rw [hp] at hran
      dsimp only at hran
      cases res with
      | error e =>
        refine iff_of_true ?_ ?_
        · intro w hne
          have hwv : w ≠ v := fun he => hne (he ▸ rfl)
          change RightAt rf (vrfs w) s.best ((s.setEntry v ⟨d, false⟩).vrf w)
          rw [vrf_setEntry_of_ne hwv]
          exact (importsBest_iff_of_none hr).mp h w
        · intro _ _ L hm hok
          cases hran with
          | raised _ _ hsel =>
            obtain ⟨e', he'⟩ := hsel L hm
            rw [he'] at hok
            cases hok
      | ok change =>
        obtain ⟨L, hm, hsel, hk, -⟩ := hran.merged_known
        have hk' : d.removeEmpty.knownPathList = L := (removeEmpty_known d).trans hk
        dsimp only
        rw [importsBest_setEntry_iff h, hr]
        constructor
        · intro h' _ _ L' hm' _
          exact (hv.processed_iff hm hk').mp (h' (Option.some_ne_none v).symm)
        · exact fun hq _ => (hv.processed_iff hm hk').mpr (hq hr hw L hm hsel)

theorem importsBest_step_iff (h : ImportsBest rf vrfs s) (e : ImportEvent ι routeDist ip) :
    ImportsBest rf vrfs (importStep rf vrfs s e) ↔ ImportInTurn rf vrfs s e := by
  cases e with
  | newBest route => exact importsBest_newBest_iff h route
  | lost => exact importsBest_lost_iff h
  | other v path => exact iff_of_true (importsBest_other h v path) trivial
  | process sp v => exact importsBest_process_iff h sp v

omit [DecidableEq ι] in
theorem importsBest_init (rf : RouteFamily) (vrfs : ι → VrfConf) :
    ImportsBest rf vrfs (.init ι routeDist ip) := by
  intro v _
  refine ⟨Nat.zero_le _, fun _ _ _ => ?_⟩
  rintro b ⟨⟩

/-- For every set of VRFs and every run of changes of the best path, of other paths of the VRFs
and of processing: a VRF that has processed its destination has a copy of the best path if it
imports it and no path of its id otherwise, its own routes excepted, exactly as long as no change
of the best path turns a VRF away that has a path, no import map stands between, and what a VRF
has queued when it is processed is the best path. -/
theorem importsBest_iff_inTurn (routeDist ip : String) (rf : RouteFamily) (vrfs : ι → VrfConf)
    (es : List (ImportEvent ι routeDist ip)) :
    Throughout (importStep rf vrfs) (ImportsBest rf vrfs) (.init ι routeDist ip) es ↔
      EveryStep (importStep rf vrfs) (ImportInTurn rf vrfs) (.init ι routeDist ip) es :=
  throughout_iff_everyStep (P := ImportsBest rf vrfs) (I := fun _ => True) (fun _ _ _ => trivial)
    (fun _ e _ h => importsBest_step_iff h e) trivial (importsBest_init rf vrfs) es

def vrfOfOne : Unit → VrfConf := fun _ => ⟨"65000:1", ["65000:1"], []⟩

/-- A path of peer `i` for 65003:1:10.0.0.0/24 with one route target. -/
def routeOf (i : ℕ) (rt : String) : VpnRoute "65003:1" "10.0.0.0/24" where
  path := ⟨i, .peer i, ⟨"65003:1", "10.0.0.0/24", [16 + i]⟩,
    { (peerPath i 1 none).attrs with routeTargets := [rt] }, [i], some "192.0.2.3", false⟩
  routeDist_eq := rfl
  ip_eq := rfl
  announced := rfl
  attrObjs_ne := List.cons_ne_nil _ _

/-- The new best path has another route target: the copy of the old one stays in the VRF. -/
theorem staleImport_stays :
    ¬ Throughout (importStep rfIPv4Uc vrfOfOne) (ImportsBest rfIPv4Uc vrfOfOne)
      (.init Unit "65003:1" "10.0.0.0/24")
      [.newBest (routeOf 3 "65000:1"), .process threePeers (), .newBest (routeOf 1 "65000:2")] := by
  intro h
  have hcopies := (h.last () (by decide)).copies (Or.inl (by decide)) (by decide) (by decide)
  revert hcopies
  decide

end Run

end Ryu.Bgp
