import Mathlib.Data.List.Lex
import Mathlib.Data.List.Pairwise
import Ryu.Bgp.Path
import Ryu.Lib.Selection

/-! # Best path selection

`compute_best_path` compares two paths in steps and the best known path is selected by
comparing the known paths one after the other. The steps after the local preference rank
the paths; the local preference is compared only where both paths carry one, so the
selection is independent of the order of the paths exactly when these two never clash.
-/

namespace Ryu.Bgp

/-- Why a path was chosen, `BPR_*`. -/
inductive Reason
  | unknown | onlyPath | localPref | localOrigin | asPath | origin | med | asn | routerId
  | clusterList
  deriving DecidableEq, Repr

/-- `get_as_path_len`: a set counts as one. -/
def getAsPathLen : List AsPathSegment → ℕ
  | [] => 0
  | .seq l :: segs => l.length + getAsPathLen segs
  | .set _ :: segs => 1 + getAsPathLen segs

/-- `_cmp_by_local_pref`. -/
def cmpByLocalPref (p₁ p₂ : Path) : Option Path :=
  match p₁.attrs.localPref, p₂.attrs.localPref with
  | some l₁, some l₂ => if l₁ > l₂ then some p₁ else if l₂ > l₁ then some p₂ else none
  | _, _ => none

/-- `_cmp_by_local_origin`. -/
def cmpByLocalOrigin (p₁ p₂ : Path) : Option Path :=
  if p₁.source = p₂.source then none
  else if p₁.source = .nc then some p₁
  else if p₂.source = .nc then some p₂
  else none

/-- `_cmp_by_aspath`. -/
def cmpByAspath (p₁ p₂ : Path) : Except PyError (Option Path) :=
  match p₁.attrs.asPath, p₂.attrs.asPath with
  | some a₁, some a₂ =>
    if getAsPathLen a₁ > getAsPathLen a₂ then .ok (some p₂)
    else if getAsPathLen a₂ > getAsPathLen a₁ then .ok (some p₁)
    else .ok none
  | _, _ => .error .assertionError

/-- IGP over EGP over INCOMPLETE over anything else. -/
def getOriginPref (origin : ℕ) : ℕ :=
  if origin = 0 then 3 else if origin = 1 then 2 else if origin = 2 then 1 else 0

/-- `_cmp_by_origin`. -/
def cmpByOrigin (p₁ p₂ : Path) : Except PyError (Option Path) :=
  match p₁.attrs.origin, p₂.attrs.origin with
  | some o₁, some o₂ =>
    if o₁ = o₂ then .ok none
    else if getOriginPref o₁ = getOriginPref o₂ then .ok none
    else if getOriginPref o₁ > getOriginPref o₂ then .ok (some p₁)
    else .ok (some p₂)
  | _, _ => .error .assertionError

def getPathMed (p : Path) : ℕ := p.attrs.med.getD 0

/-- `_cmp_by_med`. -/
def cmpByMed (p₁ p₂ : Path) : Option Path :=
  if getPathMed p₁ = getPathMed p₂ then none
  else if getPathMed p₁ < getPathMed p₂ then some p₁
  else some p₂

variable (sp : Speaker)

/-- The AS a path comes from; a string has no `remote_as`. -/
def getPathSourceAsn (p : Path) : Except PyError ℕ :=
  match p.source with
  | .nc => .ok sp.asn
  | .vrfTable => .ok sp.asn
  | .peer i => .ok (sp.peer i).remoteAs
  | .vpnTable => .error (.attributeError "remote_as")

/-- `_cmp_by_asn`. -/
def cmpByAsn (p₁ p₂ : Path) : Except PyError (Option Path) :=
  match getPathSourceAsn sp p₁, getPathSourceAsn sp p₂ with
  | .ok a₁, .ok a₂ =>
    if a₁ = sp.asn ∧ a₂ ≠ sp.asn then .ok (some p₂)
    else if a₂ = sp.asn ∧ a₁ ≠ sp.asn then .ok (some p₁)
    else .ok none
  | .error e, _ => .error e
  | _, .error e => .error e

/-- `get_asn` of `_cmp_by_router_id`, which knows no `VRF_TABLE`. -/
def getAsn : Source → Except PyError ℕ
  | .nc => .ok sp.asn
  | .peer i => .ok (sp.peer i).remoteAs
  | .vrfTable => .error (.attributeError "remote_as")
  | .vpnTable => .error (.attributeError "remote_as")

/-- `path_source.protocol.sent_open_msg.bgp_identifier`. -/
def sentOpenId : Source → Except PyError ℕ
  | .peer i =>
    match (sp.peer i).protocol with
    | none => .error (.attributeError "sent_open_msg")
    | some protocol =>
      match protocol.sentOpenMsg with
      | none => .error (.attributeError "bgp_identifier")
      | some id => .ok id
  | _ => .error (.attributeError "protocol")

/-- `get_router_id` of a path that is not from the network controller. -/
def peerRouterId (p : Path) : Except PyError ℕ :=
  match p.attrs.originatorId with
  | some id => .ok id
  | none =>
    match p.source with
    | .peer i =>
      match (sp.peer i).protocol with
      | none => .error (.attributeError "recv_open_msg")
      | some protocol =>
        match protocol.recvOpenMsg with
        | none => .error (.attributeError "bgp_identifier")
        | some id => .ok id
    | _ => .error (.attributeError "protocol")

def getRouterId (p : Path) (localBgpId : ℕ) : Except PyError ℕ :=
  if p.source = .nc then .ok localBgpId else peerRouterId sp p

/-- `_cmp_by_router_id`; identifiers are compared as 32-bit numbers. -/
def cmpByRouterId (p₁ p₂ : Path) : Except PyError (Option Path) :=
  if p₁.source = .nc ∧ p₂.source = .nc then .ok none
  else match getAsn sp p₁.source, getAsn sp p₂.source with
    | .error e, _ => .error e
    | .ok _, .error e => .error e
    | .ok asn₁, .ok asn₂ =>
      if asn₁ ≠ sp.asn ∧ asn₂ ≠ sp.asn then .ok none
      else if asn₁ ≠ sp.asn ∨ asn₂ ≠ sp.asn then
        .error (.valueError "This method does not support comparing ebgp with ibgp path")
      else match sentOpenId sp (if p₁.source ≠ .nc then p₁.source else p₂.source) with
        | .error e => .error e
        | .ok localBgpId =>
          match getRouterId sp p₁ localBgpId, getRouterId sp p₂ localBgpId with
          | .error e, _ => .error e
          | .ok _, .error e => .error e
          | .ok id₁, .ok id₂ =>
            if id₁ = id₂ then .ok none
            else if id₁ < id₂ then .ok (some p₁)
            else .ok (some p₂)

def getClusterListLen (p : Path) : ℕ := (p.attrs.clusterList.map List.length).getD 0

/-- `_cmp_by_cluster_list`. -/
def cmpByClusterList (p₁ p₂ : Path) : Option Path :=
  if getClusterListLen p₁ < getClusterListLen p₂ then some p₁
  else if getClusterListLen p₁ > getClusterListLen p₂ then some p₂
  else none

/-- The steps in order, each with its reason. Reachable next hop, weight and IGP cost are not
implemented and never decide. -/
def steps (p₁ p₂ : Path) : List (Reason × Except PyError (Option Path)) :=
  [(.localPref, .ok (cmpByLocalPref p₁ p₂)), (.localOrigin, .ok (cmpByLocalOrigin p₁ p₂)),
    (.asPath, cmpByAspath p₁ p₂), (.origin, cmpByOrigin p₁ p₂), (.med, .ok (cmpByMed p₁ p₂)),
    (.asn, cmpByAsn sp p₁ p₂), (.routerId, cmpByRouterId sp p₁ p₂),
    (.clusterList, .ok (cmpByClusterList p₁ p₂))]

/-- The first step that decides, or raises. -/
def firstDecision : List (Reason × Except PyError (Option Path)) →
    Except PyError (Option Path × Reason)
  | [] => .ok (none, .unknown)
  | (reason, .ok (some p)) :: _ => .ok (some p, reason)
  | (_, .ok none) :: rest => firstDecision rest
  | (_, .error e) :: _ => .error e

/-- `compute_best_path`. -/
def computeBestPath (p₁ p₂ : Path) : Except PyError (Option Path × Reason) :=
  firstDecision (steps sp p₁ p₂)

/-- The loop of `_compute_best_known_path`. -/
def selectBest (current : Path) (reason : Reason) :
    List Path → Except PyError (Path × Reason)
  | [] => .ok (current, reason)
  | next :: rest =>
    match computeBestPath sp current next with
    | .error e => .error e
    | .ok (best, reason) => selectBest (best.getD current) reason rest

/-- `Destination._compute_best_known_path`. -/
def computeBestKnownPath : List Path → Except PyError (Path × Reason)
  | [] => .error (.other "Need at-least one known path to compute best path")
  | p :: rest => selectBest sp p .onlyPath rest

section Keys

/-- Every step after the local preference prefers the path of lower key. -/
def byKey (k : Path → ℕ) (p q : Path) : Option Path :=
  if k p < k q then some p else if k q < k p then some q else none

def localOriginKey (p : Path) : ℕ := if p.source = .nc then 0 else 1

def asPathKey (p : Path) : ℕ := getAsPathLen (p.attrs.asPath.getD [])

def originKey (p : Path) : ℕ := 3 - getOriginPref (p.attrs.origin.getD 3)

/-- The path is from this AS: eBGP is preferred. -/
def Internal (p : Path) : Prop :=
  match p.source with
  | .peer i => (sp.peer i).remoteAs = sp.asn
  | _ => True

instance : DecidablePred (Internal sp) := fun p => by
  unfold Internal
  split <;> infer_instance

def asnKey (p : Path) : ℕ := if Internal sp p then 1 else 0

/-- Router identifiers are compared for iBGP paths only. -/
def routerIdKey (p : Path) : ℕ :=
  if p.source = .nc ∨ ¬ Internal sp p then 0
  else match peerRouterId sp p with
    | .ok id => id
    | .error _ => 0

def keys : List (Path → ℕ) :=
  [localOriginKey, asPathKey, originKey, getPathMed, asnKey sp, routerIdKey sp, getClusterListLen]

/-- The rank of a path by the steps after the local preference, the lowest preferred. -/
def rank (p : Path) : List ℕ := (keys sp).map fun k => k p

def Path.localPref (p : Path) : Option ℕ := p.attrs.localPref

/-- The preference of one path over another. -/
abbrev Preferred : Path → Path → Prop := Beats Path.localPref (rank sp)

/-- `ORIGIN` and `AS_PATH` are mandatory. -/
structure Carries (p : Path) : Prop where
  origin : p.attrs.origin.isSome
  asPath : p.attrs.asPath.isSome

/-- The steps down to the MED do not decide between the two paths. -/
structure TiedToMed (p q : Path) : Prop where
  localPref : ∀ v ∈ p.attrs.localPref, ∀ w ∈ q.attrs.localPref, v = w
  localOrigin : localOriginKey p = localOriginKey q
  asPath : asPathKey p = asPathKey q
  origin : originKey p = originKey q
  med : getPathMed p = getPathMed q

/-- The session of the source has seen the OPEN messages a router identifier is read from. -/
def RouterIdKnown (p : Path) : Prop :=
  (sentOpenId sp p.source).toBool ∧ (peerRouterId sp p).toBool

/-- What the steps after the MED read of the two paths is there: an AS for each, and for two
iBGP paths the router identifiers. -/
def Comparable (p q : Path) : Prop :=
  TiedToMed p q → p.source ≠ .vpnTable ∧ q.source ≠ .vpnTable ∧
    ((Internal sp p ↔ Internal sp q) → p.source = .nc ∨
      p.source ≠ .vrfTable ∧ q.source ≠ .vrfTable ∧
        (Internal sp p → RouterIdKnown sp p ∧ (peerRouterId sp q).toBool))

variable {sp} {p q : Path}

theorem cmpByLocalOrigin_eq : cmpByLocalOrigin p q = byKey localOriginKey p q := by
  unfold cmpByLocalOrigin byKey localOriginKey
  by_cases hp : p.source = .nc
  · by_cases hq : q.source = .nc
    · simp [hp, hq]
    · simp [hp, hq, Ne.symm hq]
  · by_cases hq : q.source = .nc <;> simp [hp, hq]

theorem cmpByAspath_eq (hp : Carries p) (hq : Carries q) :
    cmpByAspath p q = .ok (byKey asPathKey p q) := by
  obtain ⟨a, ha⟩ := Option.isSome_iff_exists.mp hp.asPath
  obtain ⟨b, hb⟩ := Option.isSome_iff_exists.mp hq.asPath
  simp only [cmpByAspath, ha, hb, byKey, asPathKey, Option.getD_some]
  rcases Nat.lt_trichotomy (getAsPathLen a) (getAsPathLen b) with h | h | h
  · simp [h, Nat.lt_asymm h]
  · simp [h]
  · simp [h, Nat.lt_asymm h]

theorem getOriginPref_le (o : ℕ) : getOriginPref o ≤ 3 := by
  unfold getOriginPref
  split
  · exact Nat.le_refl 3
  · split
    · decide
    · split <;> decide

theorem cmpByOrigin_eq (hp : Carries p) (hq : Carries q) :
    cmpByOrigin p q = .ok (byKey originKey p q) := by
  obtain ⟨a, ha⟩ := Option.isSome_iff_exists.mp hp.origin
  obtain ⟨b, hb⟩ := Option.isSome_iff_exists.mp hq.origin
  have hla := getOriginPref_le a
  have hlb := getOriginPref_le b
  simp only [cmpByOrigin, ha, hb, byKey, originKey, Option.getD_some]
  by_cases hab : a = b
  · simp [hab]
  · simp only [hab, if_false]
    split_ifs <;> first | rfl | omega

theorem cmpByMed_eq : cmpByMed p q = byKey getPathMed p q := by
  unfold cmpByMed byKey
  split_ifs <;> first | rfl | omega

theorem getPathSourceAsn_of_ne (sp : Speaker) (hp : p.source ≠ .vpnTable) :
    ∃ a, getPathSourceAsn sp p = .ok a ∧ (a = sp.asn ↔ Internal sp p) := by
  unfold getPathSourceAsn Internal
  cases hs : p.source with
  | vpnTable => exact absurd hs hp
  | _ => simp

theorem cmpByAsn_eq (hp : p.source ≠ .vpnTable) (hq : q.source ≠ .vpnTable) :
    cmpByAsn sp p q = .ok (byKey (asnKey sp) p q) := by
  obtain ⟨a, ha, hia⟩ := getPathSourceAsn_of_ne sp hp
  obtain ⟨b, hb, hib⟩ := getPathSourceAsn_of_ne sp hq
  simp only [cmpByAsn, ha, hb, byKey, asnKey, ne_eq, hia, hib]
  by_cases h₁ : Internal sp p <;> by_cases h₂ : Internal sp q <;> simp [h₁, h₂]

theorem localOriginKey_eq_iff :
    localOriginKey p = localOriginKey q ↔ (p.source = .nc ↔ q.source = .nc) := by
  unfold localOriginKey
  by_cases hp : p.source = .nc <;> by_cases hq : q.source = .nc <;> simp [hp, hq]

theorem asnKey_eq_iff : asnKey sp p = asnKey sp q ↔ (Internal sp p ↔ Internal sp q) := by
  unfold asnKey
  by_cases hp : Internal sp p <;> by_cases hq : Internal sp q <;> simp [hp, hq]

theorem toBool_iff {α : Type*} {x : Except PyError α} : x.toBool ↔ ∃ a, x = .ok a := by
  cases x <;> simp [Except.toBool]

theorem getAsn_of_ne (sp : Speaker) (hv : p.source ≠ .vpnTable) (hr : p.source ≠ .vrfTable) :
    ∃ a, getAsn sp p.source = .ok a ∧ (a = sp.asn ↔ Internal sp p) := by
  unfold getAsn Internal
  cases hs : p.source with
  | vpnTable => exact absurd hs hv
  | vrfTable => exact absurd hs hr
  | _ => simp

theorem getRouterId_of_ne (hn : p.source ≠ .nc) (id : ℕ) :
    getRouterId sp p id = peerRouterId sp p := by
  simp [getRouterId, hn]

theorem cmpByRouterId_nc (hp : p.source = .nc) (hq : q.source = .nc) :
    cmpByRouterId sp p q = .ok (byKey (routerIdKey sp) p q) := by
  simp [cmpByRouterId, hp, hq, byKey, routerIdKey]

/-- Two paths of peers, both internal or both external. -/
theorem cmpByRouterId_eq (hp : p.source ≠ .nc) (hpv : p.source ≠ .vpnTable)
    (hpr : p.source ≠ .vrfTable) (hq : q.source ≠ .nc) (hqv : q.source ≠ .vpnTable)
    (hqr : q.source ≠ .vrfTable) (hi : Internal sp p ↔ Internal sp q)
    (hk : Internal sp p → RouterIdKnown sp p ∧ (peerRouterId sp q).toBool) :
    cmpByRouterId sp p q = .ok (byKey (routerIdKey sp) p q) := by
  obtain ⟨a, ha, hia⟩ := getAsn_of_ne sp hpv hpr
  obtain ⟨b, hb, hib⟩ := getAsn_of_ne sp hqv hqr
  by_cases hint : Internal sp p
  · obtain ⟨⟨hs, hrp⟩, hrq⟩ := hk hint
    obtain ⟨s, hs⟩ := toBool_iff.1 hs
    obtain ⟨x, hx⟩ := toBool_iff.1 hrp
    obtain ⟨y, hy⟩ := toBool_iff.1 hrq
    have hintq := hi.mp hint
    simp only [cmpByRouterId, hp, hq, ha, hb, hia.mpr hint, hib.mpr hintq, hs, hx, hy,
      getRouterId_of_ne, ne_eq, not_false_eq_true, not_true_eq_false, and_self, or_self, if_true,
      if_false, byKey, routerIdKey, hint, hintq]
    split_ifs <;> first | rfl | omega
  · have hintq := mt hi.mpr hint
    simp [cmpByRouterId, hp, ha, hb, mt hia.mp hint, mt hib.mp hintq, byKey, routerIdKey, hint,
      hintq]

/-- Internal paths of peers whose identifiers cannot be read, or a `VRF_TABLE` path. -/
theorem cmpByRouterId_error (hn : p.source ≠ .nc) (hnq : q.source ≠ .nc)
    (hi : Internal sp p ↔ Internal sp q)
    (h : ¬ (p.source ≠ .vrfTable ∧ q.source ≠ .vrfTable ∧
      (Internal sp p → RouterIdKnown sp p ∧ (peerRouterId sp q).toBool)))
    (hpv : p.source ≠ .vpnTable) (hqv : q.source ≠ .vpnTable) :
    ∃ e, cmpByRouterId sp p q = .error e := by
  by_cases hpr : p.source = .vrfTable
  · exact ⟨_, by simp only [cmpByRouterId, hpr, getAsn]; rfl⟩
  obtain ⟨a, ha, hia⟩ := getAsn_of_ne sp hpv hpr
  by_cases hqr : q.source = .vrfTable
  · exact ⟨_, by simp only [cmpByRouterId, hn, hqr, ha]; simp [getAsn]; rfl⟩
  obtain ⟨b, hb, hib⟩ := getAsn_of_ne sp hqv hqr
  have hint : Internal sp p := by
    by_contra hc
    exact h ⟨hpr, hqr, fun hi => absurd hi hc⟩
  have hintq := hi.mp hint
  have hunk : ¬ (RouterIdKnown sp p ∧ (peerRouterId sp q).toBool) := fun hk =>
    h ⟨hpr, hqr, fun _ => hk⟩
  simp only [cmpByRouterId, hn, hnq, ha, hb, hia.mpr hint, hib.mpr hintq, getRouterId_of_ne,
    ne_eq, not_false_eq_true, not_true_eq_false, and_self, or_self, if_true, if_false]
  cases hs : sentOpenId sp p.source with
  | error e => exact ⟨e, rfl⟩
  | ok s =>
    cases hx : peerRouterId sp p with
    | error e => exact ⟨e, rfl⟩
    | ok x =>
      cases hy : peerRouterId sp q with
      | error e => exact ⟨e, rfl⟩
      | ok y => exact absurd ⟨⟨by simp [hs, Except.toBool], by simp [hx, Except.toBool]⟩,
          by simp [hy, Except.toBool]⟩ hunk

end Keys

section Compare

variable {sp} {p q : Path}

/-- The steps go by the keys as far as these tie. -/
def Follows (p q : Path) : List (Reason × Except PyError (Option Path)) → List (Path → ℕ) → Prop
  | [], [] => True
  | s :: ss, k :: ks => s.2 = .ok (byKey k p q) ∧ (k p = k q → Follows p q ss ks)
  | _, _ => False

/-- Steps that go by keys decide by the lexicographic order of these. -/
theorem firstDecision_of_follows {ss : List (Reason × Except PyError (Option Path))}
    {ks : List (Path → ℕ)} (h : Follows p q ss ks) :
    (firstDecision ss).map Prod.fst = .ok
      (if ks.map (fun k => k p) < ks.map (fun k => k q) then some p
      else if ks.map (fun k => k q) < ks.map (fun k => k p) then some q else none) := by
  induction ss generalizing ks with
  | nil =>
    cases ks with
    | nil => rfl
    | cons => exact h.elim
  | cons s ss ih =>
    cases ks with
    | nil => exact h.elim
    | cons k ks =>
      obtain ⟨r, x⟩ := s
      obtain ⟨rfl, h⟩ := h
      simp only [List.map_cons, List.cons_lt_cons_iff]
      rcases Nat.lt_trichotomy (k p) (k q) with hk | hk | hk
      · simp [byKey, hk, firstDecision, Except.map]
      · have hb : byKey k p q = none := by simp [byKey, hk]
        rw [hb, firstDecision, ih (h hk)]
        simp [hk]
      · simp [byKey, hk, Nat.lt_asymm hk, Nat.ne_of_gt hk, firstDecision, Except.map]

theorem cmpByLocalPref_none (h : ∀ v ∈ p.attrs.localPref, ∀ w ∈ q.attrs.localPref, v = w) :
    cmpByLocalPref p q = none := by
  unfold cmpByLocalPref
  cases hp : p.attrs.localPref with
  | none => rfl
  | some v =>
    cases hq : q.attrs.localPref with
    | none => rfl
    | some w => simp [h v hp w hq]

theorem preferred_iff (h : ∀ v ∈ p.attrs.localPref, ∀ w ∈ q.attrs.localPref, v = w) :
    Preferred sp p q ↔ rank sp p < rank sp q := by
  cases hp : p.attrs.localPref with
  | none => exact beats_of_left hp
  | some v =>
    cases hq : q.attrs.localPref with
    | none => exact beats_of_right hq
    | some w =>
      obtain rfl := h v hp w hq
      exact (beats_of_some (g := Path.localPref) hp hq).trans (by simp)

theorem firstDecision_none {r : Reason} {ss : List (Reason × Except PyError (Option Path))} :
    firstDecision ((r, .ok none) :: ss) = firstDecision ss := rfl

/-- The path the comparison prefers. -/
def preference (sp : Speaker) (p q : Path) : Option Path :=
  if Preferred sp p q then some p else if Preferred sp q p then some q else none

theorem computeBestPath_ok (hp : Carries p) (hq : Carries q) (hc : Comparable sp p q) :
    (computeBestPath sp p q).map Prod.fst = .ok (preference sp p q) := by
  by_cases hlp : ∀ v ∈ p.attrs.localPref, ∀ w ∈ q.attrs.localPref, v = w
  · have hlp' : ∀ v ∈ q.attrs.localPref, ∀ w ∈ p.attrs.localPref, v = w :=
      fun v hv w hw => (hlp w hw v hv).symm
    simp only [preference, preferred_iff hlp, preferred_iff hlp']
    simp only [computeBestPath, steps, cmpByLocalPref_none hlp, firstDecision_none]
    apply firstDecision_of_follows
    refine ⟨congrArg _ cmpByLocalOrigin_eq, fun h₁ => ⟨cmpByAspath_eq hp hq, fun h₂ =>
      ⟨cmpByOrigin_eq hp hq, fun h₃ => ⟨congrArg _ cmpByMed_eq, fun h₄ => ?_⟩⟩⟩⟩
    obtain ⟨hpv, hqv, hrest⟩ := hc ⟨hlp, h₁, h₂, h₃, h₄⟩
    refine ⟨cmpByAsn_eq hpv hqv, fun h₅ => ⟨?_, fun _ => ⟨rfl, fun _ => trivial⟩⟩⟩
    have hi := asnKey_eq_iff.1 h₅
    have hnc := localOriginKey_eq_iff.1 h₁
    by_cases hn : p.source = .nc
    · exact cmpByRouterId_nc hn (hnc.mp hn)
    · obtain ⟨hpr, hqr, hk⟩ := (hrest hi).resolve_left hn
      exact cmpByRouterId_eq hn hpv hpr (mt hnc.mpr hn) hqv hqr hi hk
  · simp only [Option.mem_def, not_forall] at hlp
    obtain ⟨v, hv, w, hw, hne⟩ := hlp
    have hpq : Preferred sp p q ↔ w < v :=
      (beats_of_some (g := Path.localPref) hv hw).trans (by simp [hne])
    have hqp : Preferred sp q p ↔ v < w :=
      (beats_of_some (g := Path.localPref) hw hv).trans (by simp [Ne.symm hne])
    simp only [preference, hpq, hqp, computeBestPath, steps, cmpByLocalPref, hv, hw]
    rcases Nat.lt_or_gt_of_ne hne with h | h
    · simp [h, Nat.lt_asymm h, firstDecision, Except.map]
    · simp [h, firstDecision, Except.map]

theorem byKey_of_eq {k : Path → ℕ} (h : k p = k q) : byKey k p q = none := by
  simp [byKey, h]

theorem computeBestPath_error (hp : Carries p) (hq : Carries q) (hc : ¬ Comparable sp p q) :
    ∃ e, computeBestPath sp p q = .error e := by
  obtain ⟨⟨hlp, h₁, h₂, h₃, h₄⟩, hsrc⟩ := Classical.not_imp.mp hc
  simp only [computeBestPath, steps, cmpByLocalPref_none hlp, cmpByLocalOrigin_eq, byKey_of_eq h₁,
    cmpByAspath_eq hp hq, byKey_of_eq h₂, cmpByOrigin_eq hp hq, byKey_of_eq h₃, cmpByMed_eq,
    byKey_of_eq h₄, firstDecision_none]
  by_cases hpv : p.source = .vpnTable
  · exact ⟨_, by simp only [cmpByAsn, getPathSourceAsn, hpv, firstDecision]; rfl⟩
  by_cases hqv : q.source = .vpnTable
  · obtain ⟨a, ha, -⟩ := getPathSourceAsn_of_ne sp hpv
    exact ⟨_, by simp only [cmpByAsn, ha]; simp only [getPathSourceAsn, hqv, firstDecision]; rfl⟩
  have hrest := fun h => hsrc ⟨hpv, hqv, h⟩
  obtain ⟨hi, hno⟩ := Classical.not_imp.mp hrest
  rw [not_or] at hno
  have hnc := localOriginKey_eq_iff.1 h₁
  obtain ⟨e, he⟩ := cmpByRouterId_error hno.1 (mt hnc.mpr hno.1) hi hno.2 hpv hqv
  refine ⟨e, ?_⟩
  rw [cmpByAsn_eq hpv hqv, byKey_of_eq (asnKey_eq_iff.2 hi), firstDecision_none, he]
  rfl

end Compare

section Selection

variable {sp} {p q b c : Path} {L : List Path}

/-- Two paths that can be compared either way round. -/
def MutuallyComparable (sp : Speaker) (p q : Path) : Prop :=
  Comparable sp p q ∧ Comparable sp q p

instance (sp : Speaker) : Std.Symm (MutuallyComparable sp) := ⟨fun _ _ h => ⟨h.2, h.1⟩⟩

/-- The comparison chooses `q` over `b`, whichever comes first. -/
def Chosen (sp : Speaker) (q b : Path) : Prop :=
  (computeBestPath sp b q).map Prod.fst = .ok (some q) ∨
    (computeBestPath sp q b).map Prod.fst = .ok (some q)

/-- Every order of the list selects, without an exception, a path of the list that no other path
of it is chosen over; two orders select the same path or paths that tie. -/
def SelectsBest (sp : Speaker) (L : List Path) : Prop :=
  ∀ L', L'.Perm L → ∃ b, (computeBestKnownPath sp L').map Prod.fst = .ok b ∧ b ∈ L ∧
    (∀ q ∈ L, q ≠ b → ¬ Chosen sp q b) ∧
    ∀ L'' b', L''.Perm L → (computeBestKnownPath sp L'').map Prod.fst = .ok b' →
      b' = b ∨ (computeBestPath sp b b').map Prod.fst = .ok none

theorem firstDecision_mem {r : Reason} {ss : List (Reason × Except PyError (Option Path))}
    (h : firstDecision ss = .ok (some c, r)) : (r, .ok (some c)) ∈ ss := by
  induction ss with
  | nil => cases h
  | cons s ss ih =>
    obtain ⟨r', e | _ | c'⟩ := s
    · cases h
    · exact List.mem_cons_of_mem _ (ih h)
    · cases h
      exact List.mem_cons_self

/-- A comparison chooses one of its two paths. -/
theorem computeBestPath_mem {r : Reason} (h : computeBestPath sp p q = .ok (some c, r)) :
    c = p ∨ c = q := by
  have hs := firstDecision_mem h
  simp only [steps, List.mem_cons, Prod.mk.injEq, List.not_mem_nil, or_false] at hs
  rcases hs with ⟨-, h⟩ | ⟨-, h⟩ | ⟨-, h⟩ | ⟨-, h⟩ | ⟨-, h⟩ | ⟨-, h⟩ | ⟨-, h⟩ | ⟨-, h⟩
  · revert h; unfold cmpByLocalPref; grind
  · revert h; unfold cmpByLocalOrigin; grind
  · revert h; unfold cmpByAspath; grind
  · revert h; unfold cmpByOrigin; grind
  · revert h; unfold cmpByMed; grind
  · revert h; unfold cmpByAsn; grind
  · revert h; unfold cmpByRouterId; grind
  · revert h; unfold cmpByClusterList; grind

theorem selectBest_mem {current : Path} {reason : Reason} {rest : List Path} {r : Path × Reason}
    (h : selectBest sp current reason rest = .ok r) : r.1 ∈ current :: rest := by
  induction rest generalizing current reason with
  | nil =>
    cases h
    exact List.mem_singleton_self _
  | cons next rest ih =>
    unfold selectBest at h
    cases hc : computeBestPath sp current next with
    | error e => simp [hc] at h
    | ok x =>
      obtain ⟨best, reason⟩ := x
      rw [hc] at h
      have hb : best.getD current = current ∨ best.getD current = next := by
        cases best with
        | none => exact Or.inl rfl
        | some b => exact computeBestPath_mem hc
      rcases List.mem_cons.mp (ih h) with hr | hr
      · rw [hr]
        rcases hb with hb | hb <;> simp [hb]
      · simp [hr]

theorem computeBestKnownPath_mem {L : List Path} {r : Path × Reason}
    (h : computeBestKnownPath sp L = .ok r) : r.1 ∈ L := by
  cases L with
  | nil => cases h
  | cons p rest => exact selectBest_mem h

theorem selectBest_ok {reason : Reason} {rest : List Path}
    (hL : ∀ p ∈ b :: rest, Carries p) (hc : (b :: rest).Pairwise (MutuallyComparable sp)) :
    (selectBest sp b reason rest).map Prod.fst = .ok (choose (Preferred sp) b rest) := by
  induction rest generalizing b reason with
  | nil => rfl
  | cons n rest ih =>
    obtain ⟨hb, hnr⟩ := List.pairwise_cons.mp hc
    have hn := computeBestPath_ok (hL b (by simp)) (hL n (by simp)) (hb n (by simp)).1
    cases hcmp : computeBestPath sp b n with
    | error e => rw [hcmp] at hn; cases hn
    | ok x =>
      obtain ⟨best, reason'⟩ := x
      have hbest : best = preference sp b n := by simpa [hcmp, Except.map] using hn
      have hnext : best.getD b = if Preferred sp n b then n else b := by
        rw [hbest, preference]
        by_cases h : Preferred sp b n
        · simp [h, beats_asymm h]
        · by_cases h' : Preferred sp n b <;> simp [h, h']
      rw [selectBest, hcmp]
      simp only [hnext, choose_cons]
      apply ih
      · intro p hp
        rcases List.mem_cons.mp hp with rfl | hp
        · split <;> exact hL _ (by simp)
        · exact hL p (by simp [hp])
      · split
        · exact hnr
        · exact hc.sublist (by simp)

theorem computeBestKnownPath_ok (hL : ∀ p ∈ b :: L, Carries p)
    (hc : (b :: L).Pairwise (MutuallyComparable sp)) :
    (computeBestKnownPath sp (b :: L)).map Prod.fst = .ok (choose (Preferred sp) b L) :=
  selectBest_ok hL hc

theorem comparable_of_ok (hp : Carries p) (hq : Carries q)
    (h : (computeBestKnownPath sp (p :: q :: L)).map Prod.fst = .ok b) : Comparable sp p q := by
  by_contra hc
  obtain ⟨e, he⟩ := computeBestPath_error hp hq hc
  simp [computeBestKnownPath, selectBest, he, Except.map] at h

theorem preference_eq_some (sp : Speaker) (hne : q ≠ b) :
    (preference sp b q = some q ↔ Preferred sp q b) ∧
      (preference sp q b = some q ↔ Preferred sp q b) := by
  unfold preference
  constructor
  · by_cases h : Preferred sp b q
    · simp [h, beats_asymm h, Ne.symm hne]
    · by_cases h' : Preferred sp q b <;> simp [h, h']
  · by_cases h : Preferred sp q b
    · simp [h]
    · by_cases h' : Preferred sp b q <;> simp [h, h', Ne.symm hne]

theorem chosen_iff (hq : Carries q) (hb : Carries b) (hc : MutuallyComparable sp q b)
    (hne : q ≠ b) : Chosen sp q b ↔ Preferred sp q b := by
  obtain ⟨h₁, h₂⟩ := preference_eq_some sp hne
  rw [Chosen, computeBestPath_ok hb hq hc.2, computeBestPath_ok hq hb hc.1, Except.ok.injEq,
    Except.ok.injEq, h₁, h₂, or_self]

theorem unbeaten_iff (hL : ∀ p ∈ L, Carries p) (hc : L.Pairwise (MutuallyComparable sp))
    (hb : b ∈ L) :
    (∀ q ∈ L, q ≠ b → ¬ Chosen sp q b) ↔ Unbeaten (Preferred sp) L b := by
  refine forall₂_congr fun q hq => ?_
  by_cases hne : q = b
  · subst hne
    simpa using fun h => beats_asymm h h
  · simp [hne, chosen_iff (hL q hq) (hL b hb) (hc.forall hq hb hne) hne]

/-- The selection is right for every order of the known paths exactly when any two of them can
be compared and local preferences do not clash with the later steps. -/
theorem selectsBest_iff (sp : Speaker) (L : List Path) (hne : L ≠ [])
    (hL : ∀ p ∈ L, Carries p) :
    SelectsBest sp L ↔
      L.Pairwise (MutuallyComparable sp) ∧ ¬ Clash Path.localPref (rank sp) L := by
  -- a permutation of the list starts with some path and selects by preference
  have hsel : L.Pairwise (MutuallyComparable sp) → ∀ c l, (c :: l).Perm L →
      (computeBestKnownPath sp (c :: l)).map Prod.fst = .ok (choose (Preferred sp) c l) :=
    fun hc c l hp => computeBestKnownPath_ok (fun p h => hL p (hp.subset h))
      ((hp.pairwise_iff fun h => ⟨h.2, h.1⟩).mpr hc)
  constructor
  · intro h
    have hc : L.Pairwise (MutuallyComparable sp) := by
      refine List.pairwise_iff_forall_sublist.mpr fun {p q} hs => ?_
      obtain ⟨l, hl⟩ := hs.exists_perm_append
      have hp : Carries p := hL p (hl.mem_iff.mpr (by simp))
      have hq : Carries q := hL q (hl.mem_iff.mpr (by simp))
      obtain ⟨b, hb, -⟩ := h (p :: q :: l) hl.symm
      obtain ⟨b', hb', -⟩ := h (q :: p :: l) ((List.Perm.swap p q l).trans hl.symm)
      exact ⟨comparable_of_ok hp hq hb, comparable_of_ok hq hp hb'⟩
    refine ⟨hc, choose_unbeaten_iff.1 fun c l hp => ?_⟩
    obtain ⟨b, hb, hbL, hu, -⟩ := h (c :: l) hp
    rw [hsel hc c l hp, Except.ok.injEq] at hb
    subst hb
    exact (unbeaten_iff hL hc hbL).mp hu
  · rintro ⟨hc, hclash⟩ L' hp
    have hunb := choose_unbeaten_iff.2 hclash
    have hcons : ∀ L'', L''.Perm L → ∃ c l, L'' = c :: l := fun L'' hp =>
      List.exists_cons_of_ne_nil fun hn => hne (hp.symm.trans (hn ▸ List.Perm.refl _)).eq_nil
    obtain ⟨c, l, rfl⟩ := hcons L' hp
    have hmem : ∀ c l, (c :: l).Perm L → choose (Preferred sp) c l ∈ L := fun c l hp =>
      hp.subset (choose_mem c l)
    refine ⟨_, hsel hc c l hp, hmem c l hp,
      (unbeaten_iff hL hc (hmem c l hp)).mpr (hunb c l hp), fun L'' b' hp' hb' => ?_⟩
    obtain ⟨c', l', rfl⟩ := hcons L'' hp'
    rw [hsel hc c' l' hp', Except.ok.injEq] at hb'
    subst hb'
    refine or_iff_not_imp_left.mpr fun hdiff => ?_
    have hm := hmem c l hp
    have hm' := hmem c' l' hp'
    rw [computeBestPath_ok (hL _ hm) (hL _ hm') (hc.forall hm hm' (Ne.symm hdiff)).1, preference,
      if_neg (hunb c' l' hp' _ hm), if_neg (hunb c l hp _ hm')]

/-- Peers 1 and 2 are internal, peer 3 is not. -/
def threePeers : Speaker := ⟨65000, fun i => ⟨if i = 3 then 65003 else 65000, none⟩⟩

/-- A path of peer `i` with an AS path of length `n`. -/
def peerPath (i n : ℕ) (localPref : Option ℕ) : Path :=
  ⟨i, .peer i, ⟨rfIPv4Uc, "10.0.0.0/24", 0⟩,
    ⟨some 0, some [.seq (List.replicate n 65010)], localPref, none, none, [], none, none⟩, false⟩

theorem selectsBest_threePeers :
    SelectsBest threePeers [peerPath 1 3 (some 200), peerPath 3 2 none] ↔
      [peerPath 1 3 (some 200), peerPath 3 2 none].Pairwise (MutuallyComparable threePeers) ∧
        ¬ Clash Path.localPref (rank threePeers) [peerPath 1 3 (some 200), peerPath 3 2 none] :=
  selectsBest_iff threePeers _ (by decide) (by
    intro p hp
    simp only [List.mem_cons, List.not_mem_nil, or_false] at hp
    rcases hp with rfl | rfl <;> exact ⟨rfl, rfl⟩)

/-- The higher local preference beats the lower, the shorter AS path without one beats the higher
and is selected, and the still shorter one with the lower preference is chosen over it. -/
theorem localPref_cycle :
    ¬ SelectsBest threePeers
      [peerPath 1 3 (some 200), peerPath 2 1 (some 100), peerPath 3 2 none] := by
  intro h
  obtain ⟨b, hb, -, hu, -⟩ := h _ (List.Perm.refl _)
  have hsel : (computeBestKnownPath threePeers
      [peerPath 1 3 (some 200), peerPath 2 1 (some 100), peerPath 3 2 none]).map Prod.fst =
        .ok (peerPath 3 2 none) := rfl
  rw [hsel, Except.ok.injEq] at hb
  subst hb
  exact hu (peerPath 2 1 (some 100)) (by simp) (by decide) (Or.inl rfl)

end Selection

end Ryu.Bgp
