import Ryu.Bgp.Destination
import Ryu.Lib.Outbox

/-! # Advertising the best path

When the best path of a global destination changes, the new one is queued for the peers
that qualify and withdrawals are queued for the peers the old one was sent to, as far as
their own loops have sent it by then. What a peer hears last is what it is owed, as long
as none of these withdrawals follows the new path and none is missed.
-/

namespace Ryu.Bgp

/-- What is read of a peer when a path is communicated to it. -/
structure PeerConf where
  inEstablished : Bool
  mpbgpCaps : List RouteFamily
  isRouteServerClient : Bool
  isRouteReflectorClient : Bool
  multiExitDisc : Option ℕ
  rtcAs : ℕ
  deriving DecidableEq, Repr

/-- `PeerManager`: the peers, their settings, the RT filters and the peers' out filters
(`_apply_out_filter`, true where a path is blocked). -/
structure PeerManager where
  peers : List ℕ
  conf : ℕ → PeerConf
  peerToRtfilter : Dict ℕ (Option (List String))
  outFilter : ℕ → Path → Bool

/-- `RouteTargetMembershipNLRI.DEFAULT_RT`. -/
def defaultRt : String := "0:0"

def noExport : ℕ := 0xffffff01
def noAdvertise : ℕ := 0xffffff02
def noExportSubconfed : ℕ := 0xffffff03

def Path.hasCommAttr (p : Path) (comm : ℕ) : Bool :=
  match p.attrs.communities with
  | none => false
  | some comms => comm ∈ comms

/-- `has_matching_leftmost`. A set has no first element: indexing a non-empty one raises. -/
def hasMatchingLeftmost (remoteAs : ℕ) : List AsPathSegment → Except PyError Bool
  | [] => .ok false
  | seg :: _ =>
    if remoteAs = 0 then .ok false
    else match seg with
      | .seq l => .ok (l.head? = some remoteAs)
      | .set [] => .ok false
      | .set (_ :: _) => .error (.typeError "'set' object is not subscriptable")

variable (sp : Speaker) (pm : PeerManager)

/-- `_collect_peers_of_interest`. -/
def collectPeersOfInterest (p : Path) : List ℕ :=
  let qualified :=
    if p.routeFamily ≠ rfRtcUc ∨ p.source ≠ .nc then pm.peers
    else pm.peers.filter fun i => (pm.conf i).rtcAs = p.nlri.originAs
  if p.attrs.routeTargets = [] then qualified.dedup
  else
    let nonRtc := pm.peers.filter fun i =>
      (pm.conf i).inEstablished ∧ rfRtcUc ∉ (pm.conf i).mpbgpCaps
    let interested := pm.peerToRtfilter.entries.filterMap fun x =>
      match x.2 with
      | none => some x.1
      | some rts => if rts.any (· ∈ p.attrs.routeTargets ++ [defaultRt]) then some x.1 else none
    (nonRtc ++ interested).dedup

/-- `clone_path_and_update_med_for_target_neighbor`, where a MED is configured and the path has
none. -/
def updateMed (conf : PeerConf) (p : Path) : Path :=
  match conf.multiExitDisc, p.attrs.med with
  | some (m + 1), none => { p with attrs := { p.attrs with med := some (m + 1) } }
  | _, _ => p

/-- The RT filter of a peer has nothing in common with the path. -/
def rtFiltered (i : ℕ) (p : Path) : Bool :=
  if p.routeFamily ≠ rfRtcUc ∧ rfRtcUc ∈ (pm.conf i).mpbgpCaps then
    match (pm.peerToRtfilter.get? i).join with
    | none => false
    | some rts => rts ≠ [] ∧ ¬ rts.any (· ∈ p.attrs.routeTargets ++ [defaultRt])
  else false

/-- The tests on a path from elsewhere, after route server clients and the MED. -/
def sharesPeerPath (i : ℕ) (p : Path) : Except PyError Bool :=
  let remoteAs := (sp.peer i).remoteAs
  -- whether an iBGP path stays away from this iBGP peer; a string has no `remote_as`
  let ibgp : Except PyError Bool :=
    if remoteAs ≠ sp.asn then .ok false
    else match p.source with
      | .peer j => .ok (remoteAs = (sp.peer j).remoteAs ∧ !(pm.conf j).isRouteReflectorClient ∧
          !(pm.conf i).isRouteReflectorClient)
      | _ => .error (.attributeError "remote_as")
  match ibgp with
  | .error e => .error e
  | .ok true => .ok false
  | .ok false =>
    if p.hasCommAttr noAdvertise then .ok false
    else if (p.hasCommAttr noExportSubconfed ∨ p.hasCommAttr noExport) ∧ remoteAs ≠ sp.asn then
      .ok false
    else .ok true

/-- `Peer.communicate_path`: the paths it queues, and the exception that ends it. -/
def communicatePath (i : ℕ) (p : Path) : List Path × Option PyError :=
  let conf := pm.conf i
  if !conf.inEstablished then ([], none)
  else if p.routeFamily ∉ conf.mpbgpCaps ∧ p.routeFamily ≠ rfIPv4Uc ∧
      p.routeFamily ≠ rfIPv6Uc then ([], none)
  else if rtFiltered pm i p then ([], none)
  else match hasMatchingLeftmost (sp.peer i).remoteAs (p.attrs.asPath.getD []) with
    | .error e => ([], some e)
    | .ok true => ([], none)
    | .ok false =>
      let first := if conf.isRouteServerClient then [p] else []
      let p := updateMed conf p
      match p.source with
      | .nc => (first ++ [p], none)
      | source =>
        -- a peer's own path; the second test of the source never decides
        if source = Source.peer i then (first, none)
        else match sharesPeerPath sp pm i p with
          | .error e => (first, some e)
          | .ok true => (first ++ [p], none)
          | .ok false => (first, none)

/-- The loop of `comm_new_best_to_bgp_peers`. -/
def communicateTo (p : Path) : List ℕ → Outbox ℕ Path → Option PyError × Outbox ℕ Path
  | [], o => (none, o)
  | i :: is, o =>
    let r := communicatePath sp pm i p
    match r.2 with
    | some e => (some e, o.post i r.1)
    | none => communicateTo p is (o.post i r.1)

/-- `PeerManager.comm_new_best_to_bgp_peers`. -/
def commNewBestToBgpPeers (p : Path) (o : Outbox ℕ Path) : Option PyError × Outbox ℕ Path :=
  if p.hasCommAttr noAdvertise then (none, o)
  else communicateTo sp pm p (collectPeersOfInterest pm p) o

/-- `clone(for_withdrawal=True)`. -/
def Path.withdrawal (p : Path) : Path :=
  { p with attrs := ⟨none, none, none, none, none, [], none, none⟩, isWithdraw := true }

/-- A global destination, its `_sent_routes` (the sent paths by peer) and the peers' queues. -/
structure Advert where
  dest : Destination
  sentRoutes : Dict ℕ Path
  outbox : Outbox ℕ Path

/-- A withdrawal to every peer of `_sent_routes`, which is cleared. -/
def Advert.withdrawSent (a : Advert) : Advert :=
  { a with
    sentRoutes := Dict.empty
    outbox := a.outbox.postEach (a.sentRoutes.entries.map fun x => (x.1, x.2.withdrawal)) }

/-- `_new_best_path`, the best path being assigned; `old` is the one before. -/
def Advert.newBestPath (a : Advert) (old : Option Path) (new : Path) :
    Option PyError × Advert :=
  let a := match old with
    | some path =>
      if path ∉ a.dest.knownPathList then { a with sentRoutes := Dict.empty } else a
    | none => a
  match commNewBestToBgpPeers sp pm new a.outbox with
  | (some e, outbox) => (some e, { a with outbox := outbox })
  | (none, outbox) =>
    let a := { a with outbox := outbox }
    (none, if old.isSome then a.withdrawSent else a)

/-- The end of `process`: a destination without a path leaves the table, its state with it. -/
def Advert.removeEmpty (a : Advert) : Advert :=
  if a.dest.knownPathList = [] ∧ a.dest.bestPath = none then
    { a with dest := Destination.init a.dest.nlri, sentRoutes := Dict.empty }
  else a

/-- `Destination.process` of a global destination. -/
def Advert.process (a : Advert) : Option PyError × Advert :=
  match a.dest.processBest sp with
  | (.error e, d) => (some e, { a with dest := d })
  | (.ok .unchanged, d) => (none, { a with dest := d }.removeEmpty)
  | (.ok .lost, d) => (none, ({ a with dest := d }.withdrawSent).removeEmpty)
  | (.ok (.new new), d) =>
    match { a with dest := d }.newBestPath sp pm a.dest.bestPath new with
    | (some e, a) => (some e, a)
    | (none, a) => (none, a.removeEmpty)

/-- `_send_outgoing_route` of the first queued path: an announcement is remembered as sent, even
when the out filter blocks it. -/
def Advert.send (a : Advert) (i : ℕ) : Advert :=
  match a.outbox.deliver pm.outFilter i with
  | (none, o) => { a with outbox := o }
  | (some path, o) =>
    { a with
      outbox := o
      sentRoutes := if path.isWithdraw then a.sentRoutes else a.sentRoutes.set i path }

inductive AdvertEvent
  | insert (path : Path)
  | process
  | send (i : ℕ)
  deriving DecidableEq, Repr

def advertStep (a : Advert) : AdvertEvent → Advert
  | .insert path => { a with dest := a.dest.add path }
  | .process => (a.process sp pm).2
  | .send i => a.send pm i

section Owed

variable {sp pm} {a : Advert} {i : ℕ} {b p : Path} {o : Outbox ℕ Path}

/-- The paths queued for a peer when `p` becomes the best path. -/
def communicated (sp : Speaker) (pm : PeerManager) (p : Path) (i : ℕ) : List Path :=
  if p.hasCommAttr noAdvertise = false ∧ i ∈ collectPeersOfInterest pm p then
    (communicatePath sp pm i p).1
  else []

/-- `communicate_path` raises for none of the peers of interest. -/
def Communicable (sp : Speaker) (pm : PeerManager) (p : Path) : Prop :=
  ∀ i ∈ collectPeersOfInterest pm p, (communicatePath sp pm i p).2 = none

/-- The announcement a peer is owed: that of the best path, if the peer is eligible. -/
def Advert.owed (sp : Speaker) (pm : PeerManager) (a : Advert) (i : ℕ) : Option Path :=
  a.dest.bestPath.bind fun b => (communicated sp pm b i).getLast?

/-- Once the queues have drained, the last message is the announcement owed, or else a withdrawal
or none at all. -/
def HearsOwed (sp : Speaker) (pm : PeerManager) (a : Advert) (i : ℕ) : Prop :=
  match a.owed sp pm i with
  | some m => a.outbox.last pm.outFilter i = some m
  | none => ∀ m ∈ a.outbox.last pm.outFilter i, m.isWithdraw

instance (sp : Speaker) (pm : PeerManager) (a : Advert) (i : ℕ) : Decidable (HearsOwed sp pm a i) := by
  unfold HearsOwed
  split <;> infer_instance

def AllHearOwed (sp : Speaker) (pm : PeerManager) (a : Advert) : Prop :=
  ∀ i ∈ pm.peers, (pm.conf i).inEstablished → HearsOwed sp pm a i

/-- The peer was sent a route of the destination, whose withdrawal its out filter lets pass. -/
def Withdrawable (pm : PeerManager) (a : Advert) (i : ℕ) : Prop :=
  ∃ p ∈ a.sentRoutes.get? i, pm.outFilter i p.withdrawal = false

/-- The old best path is still known when the new one is chosen. -/
def OldKnown (sp : Speaker) (a : Advert) : Prop :=
  ∃ old ∈ a.dest.bestPath, old ∈ (a.dest.processBest sp).2.knownPathList

instance (sp : Speaker) (a : Advert) : Decidable (OldKnown sp a) :=
  inferInstanceAs (Decidable (∃ old ∈ a.dest.bestPath, _ ∈ _))

/-- What a change of the best path asks of a peer. A peer owed the new path must get it past its
filter and have been sent nothing of an old path that is still known; a peer owed nothing any
more must have been sent the old path already, and hear of its withdrawal. -/
def Orderly (sp : Speaker) (pm : PeerManager) (a : Advert) (i : ℕ) : BestChange → Prop
  | .unchanged => True
  | .lost => a.owed sp pm i = none ∨ Withdrawable pm a i
  | .new b =>
    match (communicated sp pm b i).getLast? with
    | some m => pm.outFilter i m = false ∧ (OldKnown sp a → ¬ Withdrawable pm a i)
    | none => a.owed sp pm i = none ∨ OldKnown sp a ∧ Withdrawable pm a i

/-- The change a run of `process` makes raises no exception. -/
def NothingRaised (sp : Speaker) (pm : PeerManager) (a : Advert) (e : AdvertEvent) : Prop :=
  e = .process → ∀ b, (a.dest.processBest sp).1 = .ok (.new b) → Communicable sp pm b

def AllOrderly (sp : Speaker) (pm : PeerManager) (a : Advert) (e : AdvertEvent) : Prop :=
  NothingRaised sp pm a e ∧ (e = .process → ∀ change, (a.dest.processBest sp).1 = .ok change →
    ∀ i ∈ pm.peers, (pm.conf i).inEstablished → Orderly sp pm a i change)

theorem communicateTo_ok {is : List ℕ} (hn : is.Nodup)
    (h : ∀ i ∈ is, (communicatePath sp pm i p).2 = none) :
    (communicateTo sp pm p is o).1 = none ∧ (communicateTo sp pm p is o).2.log = o.log ∧
      (communicateTo sp pm p is o).2.queue i =
        o.queue i ++ if i ∈ is then (communicatePath sp pm i p).1 else [] := by
  induction is generalizing o with
  | nil => simp [communicateTo]
  | cons j is ih =>
    obtain ⟨hj, hn⟩ := List.nodup_cons.mp hn
    simp only [communicateTo, h j List.mem_cons_self]
    obtain ⟨h₁, h₂, h₃⟩ := ih (o := o.post j (communicatePath sp pm j p).1) hn
      fun i hi => h i (List.mem_cons_of_mem _ hi)
    refine ⟨h₁, h₂, ?_⟩
    rw [h₃, Outbox.queue_post]
    by_cases hij : i = j
    · subst hij
      simp [hj]
    · simp [hij]

theorem nodup_collectPeersOfInterest (pm : PeerManager) (p : Path) :
    (collectPeersOfInterest pm p).Nodup := by
  dsimp only [collectPeersOfInterest]
  split <;> exact List.nodup_dedup _

theorem commNewBest_ok (h : Communicable sp pm p) :
    (commNewBestToBgpPeers sp pm p o).1 = none ∧ (commNewBestToBgpPeers sp pm p o).2.log = o.log ∧
      (commNewBestToBgpPeers sp pm p o).2.queue i = o.queue i ++ communicated sp pm p i := by
  unfold commNewBestToBgpPeers communicated
  cases hc : p.hasCommAttr noAdvertise with
  | true => simp
  | false =>
    simpa using communicateTo_ok (nodup_collectPeersOfInterest pm p) h

/-- The withdrawal a peer of `_sent_routes` gets. -/
def withdrawals (a : Advert) (i : ℕ) : List Path :=
  ((a.sentRoutes.get? i).map Path.withdrawal).toList

@[simp] theorem log_withdrawSent : a.withdrawSent.outbox.log = a.outbox.log :=
  Outbox.log_postEach _

@[simp] theorem queue_withdrawSent :
    a.withdrawSent.outbox.queue i = a.outbox.queue i ++ withdrawals a i :=
  Outbox.queue_postEach_entries _ _

@[simp] theorem dest_withdrawSent : a.withdrawSent.dest = a.dest := rfl

theorem withdrawals_last (pm : PeerManager) (a : Advert) (i : ℕ) :
    (Withdrawable pm a i ∧ ∃ m, ((withdrawals a i).filter fun m => !pm.outFilter i m).getLast? =
        some m ∧ m.isWithdraw) ∨
      ¬ Withdrawable pm a i ∧ ((withdrawals a i).filter fun m => !pm.outFilter i m) = [] := by
  unfold Withdrawable withdrawals
  cases a.sentRoutes.get? i with
  | none => simp
  | some p =>
    cases hf : pm.outFilter i p.withdrawal with
    | true => simp [hf]
    | false => exact Or.inl ⟨⟨p, rfl, hf⟩, p.withdrawal, by simp [hf], rfl⟩

theorem removeEmpty_outbox : a.removeEmpty.outbox = a.outbox := by
  unfold Advert.removeEmpty
  split <;> rfl

theorem removeEmpty_bestPath : a.removeEmpty.dest.bestPath = a.dest.bestPath := by
  unfold Advert.removeEmpty
  split
  · next h => exact h.2.symm
  · rfl

theorem processPaths_bestPath (sp : Speaker) (d : Destination) :
    (d.processPaths sp).2.bestPath = d.bestPath := by
  have hw : d.removeWithdrawals.bestPath = d.bestPath := by
    unfold Destination.removeWithdrawals
    split
    · rfl
    · split <;> rfl
  dsimp only [Destination.processPaths]
  split
  · exact hw
  · split <;> exact hw

/-- The best path after a run, by the change. -/
theorem processBest_bestPath (sp : Speaker) (d : Destination) :
    (d.processBest sp).2.bestPath =
      match (d.processBest sp).1 with
      | .error _ => d.bestPath
      | .ok .unchanged => d.bestPath
      | .ok .lost => none
      | .ok (.new b) => some b := by
  have hb := processPaths_bestPath sp d
  unfold Destination.processBest
  generalize d.processPaths sp = r at hb
  obtain ⟨e | best, d'⟩ := r
  · exact hb
  · dsimp only
    split
    · exact hb
    · cases best with
      | none => dsimp only; split <;> first | rfl | exact hb
      | some new => rfl

theorem process_unchanged (pm : PeerManager)
    (h : ∀ change, (a.dest.processBest sp).1 = .ok change → change = .unchanged) :
    (a.process sp pm).2.outbox = a.outbox ∧
      (a.process sp pm).2.dest.bestPath = a.dest.bestPath := by
  have hb := processBest_bestPath sp a.dest
  unfold Advert.process
  generalize a.dest.processBest sp = r at h hb
  obtain ⟨e | change, d⟩ := r
  · exact ⟨rfl, hb⟩
  · obtain rfl := h change rfl
    exact ⟨removeEmpty_outbox, removeEmpty_bestPath.trans hb⟩

theorem process_lost (pm : PeerManager) (i : ℕ) (h : (a.dest.processBest sp).1 = .ok .lost) :
    (a.process sp pm).2.dest.bestPath = none ∧ (a.process sp pm).2.outbox.log = a.outbox.log ∧
      (a.process sp pm).2.outbox.queue i = a.outbox.queue i ++ withdrawals a i := by
  have hb := processBest_bestPath sp a.dest
  rw [h] at hb
  unfold Advert.process
  generalize a.dest.processBest sp = r at h hb
  obtain ⟨x, d⟩ := r
  cases h
  refine ⟨removeEmpty_bestPath.trans hb, ?_, ?_⟩
  · simp [removeEmpty_outbox]
  · simp [removeEmpty_outbox, withdrawals]

/-- `_new_best_path`: the old path's withdrawals follow the new path if the old path is known. -/
theorem newBestPath_ok (old : Option Path) (h : Communicable sp pm b) :
    (a.newBestPath sp pm old b).1 = none ∧
      (a.newBestPath sp pm old b).2.dest = a.dest ∧
      (a.newBestPath sp pm old b).2.outbox.log = a.outbox.log ∧
      (a.newBestPath sp pm old b).2.outbox.queue i = a.outbox.queue i ++
        (communicated sp pm b i ++
          if ∃ path ∈ old, path ∈ a.dest.knownPathList then withdrawals a i else []) := by
  obtain ⟨h₁, h₂, h₃⟩ := commNewBest_ok (o := a.outbox) (i := i) h
  cases old with
  | none =>
    simp only [Advert.newBestPath]
    generalize commNewBestToBgpPeers sp pm b a.outbox = r at h₁ h₂ h₃ ⊢
    obtain ⟨x, o⟩ := r
    obtain rfl : x = none := h₁
    simpa using ⟨h₂, h₃⟩
  | some path =>
    by_cases hk : path ∈ a.dest.knownPathList
    · simp only [Advert.newBestPath, hk, not_true_eq_false, if_false]
      generalize commNewBestToBgpPeers sp pm b a.outbox = r at h₁ h₂ h₃ ⊢
      obtain ⟨x, o⟩ := r
      obtain rfl : x = none := h₁
      have hw : withdrawals { a with outbox := o } i = withdrawals a i := rfl
      simpa [hk, hw, ← List.append_assoc] using ⟨h₂, h₃⟩
    · simp only [Advert.newBestPath, hk, not_false_eq_true, if_true]
      generalize commNewBestToBgpPeers sp pm b a.outbox = r at h₁ h₂ h₃ ⊢
      obtain ⟨x, o⟩ := r
      obtain rfl : x = none := h₁
      have hw : withdrawals { a with sentRoutes := Dict.empty, outbox := o } i = [] := rfl
      simpa [hk, hw] using ⟨h₂, h₃⟩

theorem process_new (h : (a.dest.processBest sp).1 = .ok (.new b)) (hc : Communicable sp pm b) :
    (a.process sp pm).2.dest.bestPath = some b ∧
      (a.process sp pm).2.outbox.log = a.outbox.log ∧
      (a.process sp pm).2.outbox.queue i = a.outbox.queue i ++
        (communicated sp pm b i ++ if OldKnown sp a then withdrawals a i else []) := by
  have hb := processBest_bestPath sp a.dest
  rw [h] at hb
  obtain ⟨d, hd⟩ : ∃ d, a.dest.processBest sp = (.ok (.new b), d) := ⟨_, Prod.ext h rfl⟩
  have hold : OldKnown sp a ↔ ∃ path ∈ a.dest.bestPath, path ∈ d.knownPathList := by
    rw [OldKnown, hd]
  rw [hd] at hb
  have hw : withdrawals { a with dest := d } i = withdrawals a i := rfl
  obtain ⟨h₁, h₂, h₃, h₄⟩ := newBestPath_ok (a := { a with dest := d }) (i := i)
    a.dest.bestPath hc
  simp only [hold, Advert.process, hd]
  generalize { a with dest := d }.newBestPath sp pm a.dest.bestPath b = r at h₁ h₂ h₃ h₄
  obtain ⟨x, a'⟩ := r
  obtain rfl : x = none := h₁
  have hbest : a'.dest.bestPath = some b := (congrArg _ h₂).trans hb
  refine ⟨removeEmpty_bestPath.trans hbest, ?_, ?_⟩
  · simpa [removeEmpty_outbox] using h₃
  · simpa [removeEmpty_outbox, hw] using h₄

theorem hearsOwed_of_none (ho : a.owed sp pm i = none) :
    HearsOwed sp pm a i ↔ ∀ m ∈ a.outbox.last pm.outFilter i, m.isWithdraw := by
  rw [HearsOwed, ho]

theorem hearsOwed_of_some {m : Path} (ho : a.owed sp pm i = some m) :
    HearsOwed sp pm a i ↔ a.outbox.last pm.outFilter i = some m := by
  rw [HearsOwed, ho]

theorem communicatePath_isWithdraw {m : Path} (hm : m ∈ (communicatePath sp pm i p).1) :
    m.isWithdraw = p.isWithdraw := by
  have hmed : (updateMed (pm.conf i) p).isWithdraw = p.isWithdraw := by
    unfold updateMed
    split <;> rfl
  have hsub : ∀ m ∈ (communicatePath sp pm i p).1, m = p ∨ m = updateMed (pm.conf i) p := by
    dsimp only [communicatePath]
    grind
  rcases hsub m hm with rfl | rfl
  · rfl
  · exact hmed

theorem communicated_isWithdraw {m : Path} (hm : m ∈ communicated sp pm p i) :
    m.isWithdraw = p.isWithdraw := by
  unfold communicated at hm
  split at hm
  · exact communicatePath_isWithdraw hm
  · cases hm

/-- The paths a destination announces are no withdrawals, and none that was heard is blocked. -/
structure Announces (pm : PeerManager) (a : Advert) : Prop where
  known : ∀ p ∈ a.dest.knownPathList, p.isWithdraw = false
  new : ∀ p ∈ a.dest.newPathList, p.isWithdraw = false
  best : ∀ p ∈ a.dest.bestPath, p.isWithdraw = false
  log : ∀ i, ∀ m ∈ a.outbox.log i, pm.outFilter i m = false

theorem Announces.not_blocked (h : Announces pm a) {m : Path}
    (hm : a.outbox.last pm.outFilter i = some m) : pm.outFilter i m = false := by
  rcases List.mem_append.mp (List.mem_of_getLast? hm) with hl | hq
  · exact h.log i m hl
  · simpa using (List.mem_filter.mp hq).2

theorem Announces.owed (h : Announces pm a) {m : Path} (hm : a.owed sp pm i = some m) :
    m.isWithdraw = false := by
  obtain ⟨b, hb, hm⟩ := Option.bind_eq_some_iff.mp hm
  exact (communicated_isWithdraw (List.mem_of_getLast? hm)).trans (h.best b hb)

theorem hearsOwed_lost_iff (ha : Announces pm a) (h : (a.dest.processBest sp).1 = .ok .lost)
    (hi : HearsOwed sp pm a i) :
    HearsOwed sp pm (a.process sp pm).2 i ↔ Orderly sp pm a i .lost := by
  obtain ⟨hb, hl, hq⟩ := process_lost pm i h
  have hlast := Outbox.last_append pm.outFilter (congrFun hl i) hq
  have ho : (a.process sp pm).2.owed sp pm i = none := by rw [Advert.owed, hb]; rfl
  rw [hearsOwed_of_none ho, hlast, Orderly]
  rcases withdrawals_last pm a i with ⟨hw, m, hm, hmw⟩ | ⟨hw, hm⟩
  · simp [hm, hmw, hw]
  · cases hold : a.owed sp pm i with
    | none => simpa [hm, hold] using (hearsOwed_of_none hold).mp hi
    | some m =>
      simp [hm, hw, (hearsOwed_of_some hold).mp hi, ha.owed hold]

theorem hearsOwed_new_iff (ha : Announces pm a) (h : (a.dest.processBest sp).1 = .ok (.new b))
    (ha' : Announces pm (a.process sp pm).2) (hc : Communicable sp pm b)
    (hi : HearsOwed sp pm a i) :
    HearsOwed sp pm (a.process sp pm).2 i ↔ Orderly sp pm a i (.new b) := by
  obtain ⟨hb, hl, hq⟩ := process_new (i := i) h hc
  have hlast := Outbox.last_append pm.outFilter (congrFun hl i) hq
  have ho : (a.process sp pm).2.owed sp pm i = (communicated sp pm b i).getLast? := by
    rw [Advert.owed, hb]; rfl
  rw [List.filter_append, List.getLast?_append] at hlast
  dsimp only [Orderly]
  cases hm : (communicated sp pm b i).getLast? with
  | none =>
    rw [hm] at ho
    rw [hearsOwed_of_none ho, hlast, List.getLast?_eq_none_iff.mp hm]
    -- no new path is queued: the withdrawals decide, or what was heard before
    by_cases hk : OldKnown sp a
    · rcases withdrawals_last pm a i with ⟨hw, m, hf, hmw⟩ | ⟨hw, hf⟩
      · simp [hk, hf, hmw, hw]
      · cases hold : a.owed sp pm i with
        | none => simpa [hk, hf, hold] using (hearsOwed_of_none hold).mp hi
        | some m => simp [hk, hf, hw, (hearsOwed_of_some hold).mp hi, ha.owed hold]
    · cases hold : a.owed sp pm i with
      | none => simpa [hk, hold] using (hearsOwed_of_none hold).mp hi
      | some m => simp [hk, (hearsOwed_of_some hold).mp hi, ha.owed hold]
  | some m =>
    rw [hm] at ho
    have hmw : m.isWithdraw = false := ha'.owed ho
    rw [hearsOwed_of_some ho]
    constructor
    · -- what is heard last passed the filter, and is no withdrawal
      intro hlm
      constructor
      · exact ha'.not_blocked hlm
      · intro hk hw
        rcases withdrawals_last pm a i with ⟨-, m', hf, hmw'⟩ | ⟨hw', -⟩
        · rw [hlm] at hlast
          simp [hk, hf] at hlast
          simp [← hlast, hmw] at hmw'
        · exact hw' hw
    · rintro ⟨hf, hk⟩
      have hwf : ((if OldKnown sp a then withdrawals a i else []).filter
          fun m => !pm.outFilter i m) = [] := by
        split
        · next ho =>
          rcases withdrawals_last pm a i with ⟨hw, -⟩ | ⟨-, hw⟩
          · exact absurd hw (hk ho)
          · exact hw
        · rfl
      rw [hlast, hwf, Outbox.filter_getLast? hm hf]
      rfl

theorem communicateTo_log (is : List ℕ) : (communicateTo sp pm p is o).2.log = o.log := by
  induction is generalizing o with
  | nil => rfl
  | cons i is ih =>
    dsimp only [communicateTo]
    split
    · rfl
    · exact ih

theorem commNewBest_log (sp : Speaker) (pm : PeerManager) (p : Path) (o : Outbox ℕ Path) :
    (commNewBestToBgpPeers sp pm p o).2.log = o.log := by
  unfold commNewBestToBgpPeers
  split
  · rfl
  · exact communicateTo_log _

theorem newBestPath_frame (sp : Speaker) (pm : PeerManager) (old : Option Path) :
    (a.newBestPath sp pm old b).2.dest = a.dest ∧
      (a.newBestPath sp pm old b).2.outbox.log = a.outbox.log := by
  have hl := commNewBest_log sp pm b a.outbox
  unfold Advert.newBestPath
  cases old with
  | none =>
    dsimp only
    generalize commNewBestToBgpPeers sp pm b a.outbox = r at hl
    obtain ⟨x | x, o⟩ := r
    · exact ⟨rfl, hl⟩
    · exact ⟨rfl, hl⟩
  | some path =>
    by_cases hk : path ∈ a.dest.knownPathList
    all_goals
      simp only [hk, not_true_eq_false, not_false_eq_true, if_true, if_false]
      generalize commNewBestToBgpPeers sp pm b a.outbox = r at hl
      obtain ⟨x | x, o⟩ := r
    · simpa using hl
    · exact ⟨rfl, hl⟩
    · simpa using hl
    · exact ⟨rfl, hl⟩

theorem removeEmpty_dest :
    a.removeEmpty.dest = a.dest ∨ a.removeEmpty.dest = Destination.init a.dest.nlri := by
  unfold Advert.removeEmpty
  split
  · exact Or.inr rfl
  · exact Or.inl rfl

/-- No message is heard, and the destination is that of `processBest` unless it is removed. -/
theorem process_frame (sp : Speaker) (pm : PeerManager) (a : Advert) :
    (a.process sp pm).2.outbox.log = a.outbox.log ∧
      ((a.process sp pm).2.dest = (a.dest.processBest sp).2 ∨
        ∃ nlri, (a.process sp pm).2.dest = Destination.init nlri) := by
  unfold Advert.process
  obtain ⟨e | change, d⟩ := a.dest.processBest sp
  · exact ⟨rfl, Or.inl rfl⟩
  have hend : ∀ a' : Advert, a'.dest = d → a'.outbox.log = a.outbox.log →
      a'.removeEmpty.outbox.log = a.outbox.log ∧
        (a'.removeEmpty.dest = d ∨ ∃ nlri, a'.removeEmpty.dest = Destination.init nlri) := by
    rintro a' rfl hl
    exact ⟨(congrArg Outbox.log removeEmpty_outbox).trans hl, removeEmpty_dest.imp_right fun h => ⟨_, h⟩⟩
  cases change with
  | unchanged => exact hend _ rfl rfl
  | lost => exact hend _ rfl log_withdrawSent
  | new b =>
    obtain ⟨hd, hl⟩ := newBestPath_frame sp pm (a := { a with dest := d }) (b := b)
      a.dest.bestPath
    dsimp only
    generalize { a with dest := d }.newBestPath sp pm a.dest.bestPath b = r at hd hl
    obtain ⟨e | _, a'⟩ := r
    · exact hend a' hd hl
    · exact ⟨hl, Or.inl hd⟩

theorem processBest_best_mem (sp : Speaker) {d : Destination}
    (h : (d.processBest sp).1 = .ok (.new b)) : b ∈ (d.processBest sp).2.knownPathList := by
  have hm := fun b' => processPaths_best_mem sp (d := d) (b := b')
  rw [(processBest_lists sp d).1]
  unfold Destination.processBest at h
  generalize d.processPaths sp = r at h hm
  obtain ⟨e | best, d'⟩ := r
  · cases h
  · dsimp only at h
    split at h
    · cases h
    · cases best with
      | none =>
        dsimp only at h
        split at h <;> cases h
      | some new =>
        cases h
        exact hm _ rfl

theorem Announces.process (h : Announces pm a) : Announces pm (a.process sp pm).2 := by
  obtain ⟨hl, hd⟩ := process_frame sp pm a
  have hlog : ∀ i, ∀ m ∈ (a.process sp pm).2.outbox.log i, pm.outFilter i m = false :=
    hl ▸ h.log
  have hknown : ∀ p ∈ (a.dest.processBest sp).2.knownPathList, p.isWithdraw = false := by
    rw [(processBest_lists sp a.dest).1]
    intro p hp
    exact (List.mem_append.mp (processPaths_subset sp a.dest hp)).elim (h.known p) (h.new p)
  rcases hd with hd | ⟨nlri, hd⟩
  · refine ⟨hd ▸ hknown, ?_, ?_, hlog⟩
    · rw [hd, (processBest_lists sp a.dest).2, processPaths_newPathList]
      simp
    · rw [hd, processBest_bestPath]
      cases hc : (a.dest.processBest sp).1 with
      | error e => exact h.best
      | ok change =>
        cases change with
        | unchanged => exact h.best
        | lost => simp
        | new b =>
          rintro _ ⟨⟩
          exact hknown _ (processBest_best_mem sp hc)
  · exact ⟨by simp [hd, Destination.init], by simp [hd, Destination.init],
      by simp [hd, Destination.init], hlog⟩

theorem send_dest (pm : PeerManager) (a : Advert) (i : ℕ) : (a.send pm i).dest = a.dest := by
  unfold Advert.send
  split <;> rfl

theorem send_outbox (pm : PeerManager) (a : Advert) (i : ℕ) :
    (a.send pm i).outbox = (a.outbox.deliver pm.outFilter i).2 := by
  unfold Advert.send
  split
  · next h => rw [h]
  · next h => rw [h]

theorem Announces.advertStep (h : Announces pm a) (e : AdvertEvent) :
    Announces pm (advertStep sp pm a e) := by
  cases e with
  | insert path =>
    dsimp only [Bgp.advertStep, Destination.add]
    cases hw : path.isWithdraw with
    | true => exact ⟨h.known, h.new, h.best, h.log⟩
    | false =>
      refine ⟨h.known, ?_, h.best, h.log⟩
      rintro p hp
      rcases List.mem_append.mp hp with hp | hp
      · exact h.new p hp
      · exact List.mem_singleton.mp hp ▸ hw
  | process => exact h.process
  | send i =>
    have hd := send_dest pm a i
    refine ⟨hd ▸ h.known, hd ▸ h.new, hd ▸ h.best, fun j m hm => ?_⟩
    rw [Bgp.advertStep, send_outbox] at hm
    exact (Outbox.mem_log_deliver hm).elim (h.log j m) id

theorem hearsOwed_congr {a' : Advert} (hb : a'.dest.bestPath = a.dest.bestPath)
    (hl : a'.outbox.last pm.outFilter i = a.outbox.last pm.outFilter i) :
    HearsOwed sp pm a' i ↔ HearsOwed sp pm a i := by
  rw [HearsOwed, HearsOwed, Advert.owed, hb, hl, Advert.owed]

/-- One run of `process` leaves a peer hearing what it is owed exactly when it is orderly. -/
theorem hearsOwed_process_iff (ha : Announces pm a) (hn : NothingRaised sp pm a .process)
    (hi : HearsOwed sp pm a i) :
    HearsOwed sp pm (a.process sp pm).2 i ↔
      ∀ change, (a.dest.processBest sp).1 = .ok change → Orderly sp pm a i change := by
  by_cases hc : ∃ change, (a.dest.processBest sp).1 = .ok change ∧ change ≠ .unchanged
  · obtain ⟨change, hc, hne⟩ := hc
    have hiff : HearsOwed sp pm (a.process sp pm).2 i ↔ Orderly sp pm a i change := by
      cases change with
      | unchanged => exact absurd rfl hne
      | lost => exact hearsOwed_lost_iff ha hc hi
      | new b => exact hearsOwed_new_iff ha hc ha.process (hn rfl b hc) hi
    rw [hiff]
    constructor
    · intro ho change' hc'
      cases hc.symm.trans hc'
      exact ho
    · exact fun ho => ho change hc
  · have hu : ∀ change, (a.dest.processBest sp).1 = .ok change → change = .unchanged :=
      fun change h => by_contra fun hne => hc ⟨change, h, hne⟩
    obtain ⟨ho, hb⟩ := process_unchanged pm hu
    have hkeep : HearsOwed sp pm (a.process sp pm).2 i :=
      (hearsOwed_congr hb (by rw [ho])).mpr hi
    refine ⟨fun _ change h => ?_, fun _ => hkeep⟩
    rw [hu change h]
    trivial

theorem allHearOwed_step_iff {e : AdvertEvent} (ha : Announces pm a) (hn : NothingRaised sp pm a e)
    (h : AllHearOwed sp pm a) :
    AllHearOwed sp pm (advertStep sp pm a e) ↔ AllOrderly sp pm a e := by
  cases e with
  | insert path =>
    have hd : (a.dest.add path).bestPath = a.dest.bestPath := by
      unfold Destination.add
      split <;> rfl
    have hl : (advertStep sp pm a (.insert path)).outbox = a.outbox := rfl
    refine ⟨fun _ => ⟨hn, fun he => nomatch he⟩, fun _ i hi he => ?_⟩
    exact (hearsOwed_congr hd (by rw [hl])).mpr (h i hi he)
  | send j =>
    refine ⟨fun _ => ⟨hn, fun he => nomatch he⟩, fun _ i hi he => ?_⟩
    have hd : (a.send pm j).dest.bestPath = a.dest.bestPath := by rw [send_dest]
    have hl : (a.send pm j).outbox.last pm.outFilter i = a.outbox.last pm.outFilter i := by
      rw [send_outbox, Outbox.last_deliver]
    exact (hearsOwed_congr (a := a) hd hl).mpr (h i hi he)
  | process =>
    constructor
    · intro hp
      refine ⟨hn, fun _ change hc i hi he => ?_⟩
      exact (hearsOwed_process_iff ha hn (h i hi he)).mp (hp i hi he) change hc
    · rintro ⟨-, ho⟩ i hi he
      exact (hearsOwed_process_iff ha hn (h i hi he)).mpr fun change hc => ho rfl change hc i hi he

/-- A destination before its first path, and nothing queued or sent. -/
def Advert.fresh (nlri : Nlri) : Advert := ⟨Destination.init nlri, Dict.empty, Outbox.empty⟩

theorem announces_fresh (pm : PeerManager) (nlri : Nlri) : Announces pm (Advert.fresh nlri) :=
  ⟨by simp [Advert.fresh, Destination.init], by simp [Advert.fresh, Destination.init],
    by simp [Advert.fresh, Destination.init], by simp [Advert.fresh, Outbox.empty]⟩

theorem allHearOwed_fresh (sp : Speaker) (pm : PeerManager) (nlri : Nlri) :
    AllHearOwed sp pm (Advert.fresh nlri) := by
  intro i _ _
  refine (hearsOwed_of_none rfl).mpr ?_
  simp [Advert.fresh, Outbox.empty, Outbox.last]

def externalPeers : Speaker := ⟨65000, fun i => ⟨65000 + i, none⟩⟩

/-- Three established peers with nothing configured. -/
def threeManaged : PeerManager where
  peers := [1, 2, 3]
  conf := fun _ => ⟨true, [rfIPv4Uc], false, false, none, 0⟩
  peerToRtfilter := Dict.empty
  outFilter := fun _ _ => false

end Owed

end Ryu.Bgp
