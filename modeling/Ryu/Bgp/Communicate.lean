import Ryu.Bgp.Advertise

/-! # One path for one peer

A peer that is not a route server client is sent at most one route for a path, and none that its
source, its communities or the reflection rule keep from it. The communities are not looked at on a
path of the speaker's own. A route server client is sent the path before these tests, and again by
them.
-/

namespace Ryu.Bgp

variable {sp : Speaker} {pm : PeerManager} {i : ℕ} {p : Path}

/-- The path is from elsewhere, and its communities keep it from the peer. -/
def CommunityStops (sp : Speaker) (i : ℕ) (p : Path) : Prop :=
  p.source ≠ .nc ∧ (p.hasCommAttr noAdvertise ∨
    (p.hasCommAttr noExport ∨ p.hasCommAttr noExportSubconfed) ∧ (sp.peer i).remoteAs ≠ sp.asn)

/-- The path is from an internal peer, the receiver is an internal peer, and neither is a client of
the route reflector. -/
def ReflectionStops (sp : Speaker) (pm : PeerManager) (i : ℕ) (p : Path) : Prop :=
  ∃ j, p.source = .peer j ∧ (sp.peer j).remoteAs = sp.asn ∧ (sp.peer i).remoteAs = sp.asn ∧
    (pm.conf j).isRouteReflectorClient = false ∧ (pm.conf i).isRouteReflectorClient = false

/-- What keeps a path from a peer that is not a route server client. -/
def Stopped (sp : Speaker) (pm : PeerManager) (i : ℕ) (p : Path) : Prop :=
  (pm.conf i).inEstablished = false ∨ p.source = .peer i ∨ CommunityStops sp i p ∨
    ReflectionStops sp pm i p

@[simp] theorem source_updateMed (conf : PeerConf) (p : Path) :
    (updateMed conf p).source = p.source := by
  unfold updateMed
  split <;> rfl

@[simp] theorem hasCommAttr_updateMed (conf : PeerConf) (p : Path) (comm : ℕ) :
    (updateMed conf p).hasCommAttr comm = p.hasCommAttr comm := by
  unfold updateMed
  split <;> rfl

/-- What the tests let through is not stopped. -/
theorem not_stops_of_shares (h : sharesPeerPath sp pm i p = .ok true) :
    ¬ CommunityStops sp i p ∧ ¬ ReflectionStops sp pm i p := by
  unfold sharesPeerPath at h
  dsimp only at h
  split at h
  · cases h
  · cases h
  · next hibgp =>
    split_ifs at h with hadvertise hexport
    · cases h
    · cases h
    constructor
    · rintro ⟨-, ha | ⟨he, hne⟩⟩
      · exact hadvertise ha
      · exact hexport ⟨he.symm, hne⟩
    · rintro ⟨j, hsource, hj, hi, hcj, hci⟩
      rw [if_neg (not_not.mpr hi), hsource] at hibgp
      simp [hi, hj, hcj, hci] at hibgp

/-- What is queued for a peer: for a route server client the path as it is, then the path with the
peer's MED if it is the speaker's own or passes the tests. -/
theorem communicatePath_cases (sp : Speaker) (pm : PeerManager) (i : ℕ) (p : Path) :
    (communicatePath sp pm i p).1 = [] ∨
      (pm.conf i).inEstablished = true ∧
        ((communicatePath sp pm i p).1 = (if (pm.conf i).isRouteServerClient then [p] else []) ∨
          (communicatePath sp pm i p).1 =
              (if (pm.conf i).isRouteServerClient then [p] else []) ++ [updateMed (pm.conf i) p] ∧
            (p.source = .nc ∨ p.source ≠ .peer i ∧
              sharesPeerPath sp pm i (updateMed (pm.conf i) p) = .ok true)) := by
  unfold communicatePath
  dsimp only
  split
  · left; rfl
  next hest =>
  split
  · left; rfl
  split
  · left; rfl
  split
  · left; rfl
  · left; rfl
  right
  constructor
  · simpa using hest
  rw [source_updateMed]
  split
  · next hnc =>
    right
    exact ⟨rfl, Or.inl hnc⟩
  split_ifs with hself hclient
  · left; rfl
  · left; rfl
  all_goals
    split
    · left; rfl
    · next hshares =>
      right
      exact ⟨rfl, Or.inr ⟨hself, hshares⟩⟩
    · left; rfl

theorem communityStops_updateMed (conf : PeerConf) :
    CommunityStops sp i (updateMed conf p) ↔ CommunityStops sp i p := by
  simp [CommunityStops]

theorem reflectionStops_updateMed (conf : PeerConf) :
    ReflectionStops sp pm i (updateMed conf p) ↔ ReflectionStops sp pm i p := by
  simp [ReflectionStops]

/-- A stopped path is not queued for a peer that is not a route server client. -/
theorem communicatePath_of_stopped (hc : (pm.conf i).isRouteServerClient = false)
    (hs : Stopped sp pm i p) : (communicatePath sp pm i p).1 = [] := by
  rcases communicatePath_cases sp pm i p with h | ⟨hest, h | ⟨-, hsource⟩⟩
  · exact h
  · simpa [hc] using h
  · exfalso
    rcases hsource with hnc | ⟨hself, hshares⟩
    · rcases hs with hs | hs | hs | ⟨j, hs, -⟩
      · simp [hest] at hs
      · simp [hnc] at hs
      · exact hs.1 hnc
      · simp [hnc] at hs
    · obtain ⟨hcomm, hrefl⟩ := not_stops_of_shares hshares
      rw [communityStops_updateMed] at hcomm
      rw [reflectionStops_updateMed] at hrefl
      rcases hs with hs | hs | hs | hs
      · simp [hest] at hs
      · exact hself hs
      · exact hcomm hs
      · exact hrefl hs

/-- A peer that is not a route server client is queued at most one route for a path, and none that
is stopped. -/
theorem communicated_at_most_once (sp : Speaker) (pm : PeerManager) (i : ℕ) (p : Path)
    (hc : (pm.conf i).isRouteServerClient = false) :
    (communicatePath sp pm i p).1.length ≤ 1 ∧
      (Stopped sp pm i p → (communicatePath sp pm i p).1 = []) := by
  constructor
  · rcases communicatePath_cases sp pm i p with h | ⟨-, h | ⟨h, -⟩⟩
    · simp [h]
    · simp [h, hc]
    · simp [h, hc]
  · exact communicatePath_of_stopped hc

/-- The first peer is a route server client, the second one is not. -/
def oneServerClient : PeerManager where
  peers := [1, 2]
  conf := fun i => ⟨true, [rfIPv4Uc], i = 1, false, none, 0⟩
  peerToRtfilter := Dict.empty
  outFilter := fun _ _ => false

/-- A path of the speaker's own that is not to be exported. -/
def localNoExport : Path :=
  { peerPath 1 2 none with
    source := .nc
    attrs := { (peerPath 1 2 none).attrs with communities := some [noExport] } }

theorem communicated_at_most_once_peerPath :
    (communicatePath externalPeers oneServerClient 2 (peerPath 1 2 none)).1.length ≤ 1 ∧
      (Stopped externalPeers oneServerClient 2 (peerPath 1 2 none) →
        (communicatePath externalPeers oneServerClient 2 (peerPath 1 2 none)).1 = []) :=
  communicated_at_most_once externalPeers oneServerClient 2 (peerPath 1 2 none) rfl

/-- A route server client is queued a path twice, and an external peer a path of the speaker's own
that is not to be exported. -/
theorem twice_and_exported :
    ¬ (∀ sp pm i p, (communicatePath sp pm i p).1.length ≤ 1) ∧
      ¬ (∀ (sp : Speaker) (pm : PeerManager) i p, (pm.conf i).isRouteServerClient = false →
        p.hasCommAttr noExport = true → (sp.peer i).remoteAs ≠ sp.asn →
        (communicatePath sp pm i p).1 = []) := by
  constructor
  · intro h
    exact absurd (h externalPeers oneServerClient 1 localNoExport) (by decide)
  · intro h
    exact absurd (h externalPeers oneServerClient 2 localNoExport rfl (by decide) (by decide))
      (by decide)

end Ryu.Bgp
