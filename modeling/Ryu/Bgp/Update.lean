import Ryu.Bgp.AsPath
import Ryu.Bgp.InFilter

/-! # UPDATE messages

`_handle_update_msg` validates a message, reconstructs its AS_PATH, looks for loops and then
extracts the announced and withdrawn prefixes, of MP-BGP attributes first. The loop check returns
`None` in every case, so a looped message is extracted like any other; this shows unless nothing
it carries has an effect.
-/

namespace Ryu.Bgp

def rfIPv4Vpn : RouteFamily := ⟨1, 128⟩
def rfIPv6Vpn : RouteFamily := ⟨2, 128⟩
def rfL2Evpn : RouteFamily := ⟨25, 70⟩
def rfIPv4Flowspec : RouteFamily := ⟨1, 133⟩
def rfIPv6Flowspec : RouteFamily := ⟨2, 133⟩
def rfVpnv4Flowspec : RouteFamily := ⟨1, 134⟩
def rfVpnv6Flowspec : RouteFamily := ⟨2, 134⟩
def rfL2vpnFlowspec : RouteFamily := ⟨25, 134⟩

def supportedGlobalRf : List RouteFamily :=
  [rfIPv4Uc, rfIPv6Uc, rfIPv4Vpn, rfRtcUc, rfIPv6Vpn, rfL2Evpn, rfIPv4Flowspec, rfIPv6Flowspec,
    rfVpnv4Flowspec, rfVpnv6Flowspec, rfL2vpnFlowspec]

/-- `IP_FLOWSPEC` and `VPN_FLOWSPEC`. -/
def flowspecSafis : List ℕ := [133, 134]

/-- The path attributes that are read, each of its own type. -/
inductive PathAttribute
  | origin (value : ℕ)
  | asPath (value : List AsPathSegment)
  | nextHop (value : String)
  | multiExitDisc (value : ℕ)
  | localPref (value : ℕ)
  | aggregator (asNumber : ℕ) (addr : String)
  | communities (value : List ℕ)
  | originatorId (value : ℕ)
  | clusterList (value : List ℕ)
  | mpReachNlri (routeFamily : RouteFamily) (nextHop : Option String) (nlri : List Nlri)
  | mpUnreachNlri (routeFamily : RouteFamily) (withdrawnRoutes : List Nlri)
  | extendedCommunities (rtList : List String)
  | as4Path (value : List AsPathSegment)
  | as4Aggregator (asNumber : ℕ) (addr : String)
  | unknown (type : ℕ)
  deriving DecidableEq, Repr

namespace PathAttribute

def originOf : PathAttribute → Option ℕ
  | origin v => some v
  | _ => none

def asPathOf : PathAttribute → Option (List AsPathSegment)
  | asPath v => some v
  | _ => none

def nextHopOf : PathAttribute → Option String
  | nextHop v => some v
  | _ => none

def multiExitDiscOf : PathAttribute → Option ℕ
  | multiExitDisc v => some v
  | _ => none

def localPrefOf : PathAttribute → Option ℕ
  | localPref v => some v
  | _ => none

def aggregatorOf : PathAttribute → Option (ℕ × String)
  | aggregator n a => some (n, a)
  | _ => none

def communitiesOf : PathAttribute → Option (List ℕ)
  | communities v => some v
  | _ => none

def originatorIdOf : PathAttribute → Option ℕ
  | originatorId v => some v
  | _ => none

def clusterListOf : PathAttribute → Option (List ℕ)
  | clusterList v => some v
  | _ => none

def mpReachOf : PathAttribute → Option (RouteFamily × Option String × List Nlri)
  | mpReachNlri rf nh nlri => some (rf, nh, nlri)
  | _ => none

def mpUnreachOf : PathAttribute → Option (RouteFamily × List Nlri)
  | mpUnreachNlri rf w => some (rf, w)
  | _ => none

def rtListOf : PathAttribute → Option (List String)
  | extendedCommunities rts => some rts
  | _ => none

def as4PathOf : PathAttribute → Option (List AsPathSegment)
  | as4Path v => some v
  | _ => none

def as4AggregatorOf : PathAttribute → Option (ℕ × String)
  | as4Aggregator n a => some (n, a)
  | _ => none

end PathAttribute

structure UpdateMsg where
  withdrawnRoutes : List Nlri
  pathAttributes : List PathAttribute
  nlri : List Nlri
  deriving DecidableEq, Repr

/-- `pathattr_map` and `get_path_attr`: of several attributes of a type the last one counts. -/
def UpdateMsg.get {α : Type} (msg : UpdateMsg) (of : PathAttribute → Option α) : Option α :=
  (msg.pathAttributes.filterMap of).getLast?

/-- Remove the attribute of a type that counts. -/
def removeLast {α : Type} (of : PathAttribute → Option α) (attrs : List PathAttribute) :
    List PathAttribute :=
  (attrs.reverse.eraseP fun a => (of a).isSome).reverse

/-- `_extract_and_reconstruct_as_path`. The attributes of the map are looked up before any is
removed; an AS4_PATH that an AGGREGATOR overrules is taken out of the map too. -/
def UpdateMsg.extractAndReconstructAsPath (msg : UpdateMsg) : UpdateMsg :=
  let asPath := msg.get PathAttribute.asPathOf
  let as4Path := msg.get PathAttribute.as4PathOf
  let (attrs, as4Path) : List PathAttribute × Option (List AsPathSegment) :=
    match msg.get PathAttribute.aggregatorOf, msg.get PathAttribute.as4AggregatorOf with
    | some (asNumber, _), some (as4Number, addr) =>
      if asNumber ≠ asTrans then
        let attrs := removeLast PathAttribute.as4AggregatorOf msg.pathAttributes
        (if as4Path.isSome then removeLast PathAttribute.as4PathOf attrs else attrs, none)
      else
        (removeLast PathAttribute.as4AggregatorOf
            (removeLast PathAttribute.aggregatorOf msg.pathAttributes) ++
          [PathAttribute.aggregator as4Number addr], as4Path)
    | _, _ => (msg.pathAttributes, as4Path)
  let attrs :=
    match asPath, as4Path with
    | some asPath, some as4Path =>
      if getAsPathLen asPath < getAsPathLen as4Path then removeLast PathAttribute.as4PathOf attrs
      else removeLast PathAttribute.as4PathOf (removeLast PathAttribute.asPathOf attrs) ++
        [.asPath (constructAsPathAttr asPath (some as4Path))]
    | _, _ => attrs
  { msg with pathAttributes := attrs }

/-- The settings of a peer and of the speaker that are read while an UPDATE is handled. -/
structure InConf where
  peer : ℕ
  localAs : ℕ
  commonLocalAs : ℕ
  remoteAs : ℕ
  checkFirstAs : Bool
  hostBindIp : Option String
  allowLocalAsInCount : ℕ
  clusterId : ℕ
  globalInterestedRts : List String
  deriving DecidableEq, Repr

/-- The count of the local AS in the segments; in a set it is there once or not at all. -/
def countAs (localAs : ℕ) : List AsPathSegment → ℕ
  | [] => 0
  | .seq l :: segs => l.count localAs + countAs localAs segs
  | .set s :: segs => s.dedup.count localAs + countAs localAs segs

/-- `has_local_as`. -/
def hasLocalAs (localAs maxCount : ℕ) (asPath : List AsPathSegment) : Bool :=
  countAs localAs asPath > maxCount

/-- The checks on the attributes of announced prefixes. -/
def checkMandatory (c : InConf) (msg : UpdateMsg) : Except PyError Unit :=
  match msg.get PathAttribute.asPathOf with
  | none => .error (.other "MissingWellKnown(BGP_ATTR_TYPE_AS_PATH)")
  | some asPath =>
    let firstAs : Except PyError Unit :=
      if c.checkFirstAs && c.commonLocalAs ≠ c.remoteAs then
        match hasMatchingLeftmost c.remoteAs asPath with
        | .error e => .error e
        | .ok true => .ok ()
        | .ok false => .error (.other "MalformedAsPath")
      else .ok ()
    match firstAs with
    | .error e => .error e
    | .ok () =>
      if (msg.get PathAttribute.originOf).isNone then
        .error (.other "MissingWellKnown(BGP_ATTR_TYPE_ORIGIN)")
      else .ok ()

/-- `_validate_update_msg`, in the Established state. -/
def validateUpdateMsg (c : InConf) (msg : UpdateMsg) : Except PyError Bool :=
  match msg.get PathAttribute.mpReachOf, msg.get PathAttribute.mpUnreachOf with
  | none, none =>
    if msg.nlri = [] then .ok true
    else
      match checkMandatory c msg with
      | .error e => .error e
      | .ok () =>
        if (msg.get PathAttribute.nextHopOf).isNone then
          .error (.other "MissingWellKnown(BGP_ATTR_TYPE_NEXT_HOP)")
        else .ok true
  | none, some _ => .ok true
  | some (rf, nextHop, _), _ =>
    match checkMandatory c msg with
    | .error e => .error e
    | .ok () =>
      if rf.safi ∈ flowspecSafis then .ok true
      else if nextHop.getD "" = "" ∨ nextHop = c.hostBindIp then .ok false
      else .ok true

/-- `_is_looped_path_attrs`: every `return` gives `None`. An ORIGINATOR_ID is an attribute object
and never equals the text of an identifier. -/
def isLoopedPathAttrs (c : InConf) (msg : UpdateMsg) : Option Bool :=
  if (msg.get PathAttribute.asPathOf).any (hasLocalAs c.localAs c.allowLocalAsInCount) then none
  else if (msg.get PathAttribute.clusterListOf).any (c.clusterId ∈ ·) then none
  else none

/-- The attributes of a path made from the message. -/
def UpdateMsg.pathAttrs (msg : UpdateMsg) : PathAttrs where
  origin := msg.get PathAttribute.originOf
  asPath := msg.get PathAttribute.asPathOf
  localPref := msg.get PathAttribute.localPrefOf
  med := msg.get PathAttribute.multiExitDiscOf
  communities := msg.get PathAttribute.communitiesOf
  routeTargets := (msg.get PathAttribute.rtListOf).getD []
  originatorId := msg.get PathAttribute.originatorIdOf
  clusterList := msg.get PathAttribute.clusterListOf

/-- What a peer keeps of received messages: its routes, the RT NLRIs it collects until the end
of their initial transfer, and the paths it has given to the table manager. -/
structure PeerIn where
  rib : RibIn
  initRtcNlriPath : Option (List Path)
  learned : List Path
  deriving DecidableEq, Repr

section Handle

variable (ipNetwork : String → IPNetwork) (c : InConf)

/-- The loop over announced NLRIs; the second component is what is not blocked. -/
def newPaths (attrs : PathAttrs) (r : RibIn) : List Nlri → RibIn × List Path
  | [] => (r, [])
  | nlri :: nlris =>
    let (r, new) := r.newPath ipNetwork c.peer nlri attrs
    let (r, news) := newPaths attrs r nlris
    (r, new ++ news)

/-- The loop over withdrawn NLRIs. -/
def withdraws (r : RibIn) : List Nlri → RibIn × List Path
  | [] => (r, [])
  | nlri :: nlris =>
    let (r, w) := r.withdraw ipNetwork c.peer nlri
    let (r, ws) := withdraws r nlris
    (r, w ++ ws)

/-- The NLRIs of MP_REACH_NLRI that paths are made of: those of a supported family, and of VPN
families only with a route target of interest. -/
def takenNlri (msg : UpdateMsg) (rf : RouteFamily) (nlri : List Nlri) : List Nlri :=
  if rf ∉ supportedGlobalRf then []
  else if rf = rfIPv4Vpn ∨ rf = rfIPv6Vpn then
    match msg.get PathAttribute.rtListOf with
    | none => []
    | some rts => if rts.any fun rt => rt ∈ c.globalInterestedRts then nlri else []
  else nlri

/-- `_extract_and_handle_mpbgp_new_paths`. RT NLRIs are collected while the initial transfer
lasts. -/
def extractMpbgpNewPaths (msg : UpdateMsg) (rf : RouteFamily) (nlri : List Nlri) (p : PeerIn) :
    PeerIn :=
  let (rib, news) := newPaths ipNetwork c msg.pathAttrs p.rib (takenNlri c msg rf nlri)
  match p.initRtcNlriPath with
  | some init =>
    if rf = rfRtcUc then ⟨rib, some (init ++ news), p.learned⟩
    else ⟨rib, some init, p.learned ++ news⟩
  | none => ⟨rib, none, p.learned ++ news⟩

/-- `_handle_eor`: `None` cannot be iterated over. -/
def handleEor (rf : RouteFamily) (p : PeerIn) : PeerIn × Option PyError :=
  if rf = rfRtcUc then
    match p.initRtcNlriPath with
    | none => (p, some (.typeError "'NoneType' object is not iterable"))
    | some init => ({ p with initRtcNlriPath := none, learned := p.learned ++ init }, none)
  else (p, none)

/-- `_extract_and_handle_mpbgp_withdraws`. -/
def extractMpbgpWithdraws (rf : RouteFamily) (withdrawn : List Nlri) (p : PeerIn) :
    PeerIn × Option PyError :=
  if rf ∉ supportedGlobalRf then (p, none)
  else
    match (if withdrawn = [] then handleEor rf p else (p, none)) with
    | (p, some e) => (p, some e)
    | (p, none) =>
      let (rib, ws) := withdraws ipNetwork c p.rib withdrawn
      ({ p with rib := rib, learned := p.learned ++ ws }, none)

/-- `_extract_and_handle_bgp4_new_paths`; without a NEXT_HOP there is no value to read. -/
def extractBgp4NewPaths (msg : UpdateMsg) (p : PeerIn) : PeerIn × Option PyError :=
  match msg.get PathAttribute.nextHopOf with
  | none => (p, some (.attributeError "value"))
  | some _ =>
    let (rib, news) := newPaths ipNetwork c msg.pathAttrs p.rib msg.nlri
    ({ p with rib := rib, learned := p.learned ++ news }, none)

/-- `_extract_and_handle_bgp4_withdraws`. -/
def extractBgp4Withdraws (withdrawn : List Nlri) (p : PeerIn) : PeerIn :=
  let (rib, ws) := withdraws ipNetwork c p.rib withdrawn
  { p with rib := rib, learned := p.learned ++ ws }

/-- The next statement, unless an exception was raised. -/
def andThen (x : PeerIn × Option PyError) (f : PeerIn → PeerIn × Option PyError) :
    PeerIn × Option PyError :=
  match x.2 with
  | some e => (x.1, some e)
  | none => f x.1

def handleMpReach (msg : UpdateMsg) (p : PeerIn) : PeerIn :=
  match msg.get PathAttribute.mpReachOf with
  | some (rf, _, nlri) => extractMpbgpNewPaths ipNetwork c msg rf nlri p
  | none => p

def handleMpUnreach (msg : UpdateMsg) (p : PeerIn) : PeerIn × Option PyError :=
  match msg.get PathAttribute.mpUnreachOf with
  | some (rf, withdrawn) => extractMpbgpWithdraws ipNetwork c rf withdrawn p
  | none => (p, none)

/-- What is extracted from a message that is not taken to be looped. -/
def extractPaths (msg : UpdateMsg) (p : PeerIn) : PeerIn × Option PyError :=
  andThen (handleMpUnreach ipNetwork c msg (handleMpReach ipNetwork c msg p)) fun p =>
    andThen (if msg.nlri = [] then (p, none) else extractBgp4NewPaths ipNetwork c msg p) fun p =>
      (if msg.withdrawnRoutes = [] then p
        else extractBgp4Withdraws ipNetwork c msg.withdrawnRoutes p, none)

/-- `_handle_update_msg`. -/
def handleUpdateMsg (p : PeerIn) (msg : UpdateMsg) : PeerIn × Option PyError :=
  match validateUpdateMsg c msg with
  | .error e => (p, some e)
  | .ok false => (p, none)
  | .ok true =>
    let msg := msg.extractAndReconstructAsPath
    if isLoopedPathAttrs c msg = some true then (p, none)
    else extractPaths ipNetwork c msg p

/-- What happens to a peer: an UPDATE, new in-filters, or the loss of its connection. -/
inductive PeerInEvent
  | update (msg : UpdateMsg)
  | inFilters (filters : List PrefixFilter)
  | connectionLost
  deriving DecidableEq, Repr

def peerInStep (p : PeerIn) : PeerInEvent → PeerIn
  | .update msg => (handleUpdateMsg ipNetwork c p msg).1
  | .inFilters filters =>
    let (rib, paths) := p.rib.setInFilters ipNetwork filters
    { p with rib := rib, learned := p.learned ++ paths }
  | .connectionLost => { p with initRtcNlriPath := some [] }

def PeerIn.init (filters : List PrefixFilter) : PeerIn := ⟨⟨filters, Dict.empty, 0⟩, some [], []⟩

/-- The attributes as they are reconstructed have the local AS too often in the AS_PATH, or the
local cluster in the CLUSTER_LIST. -/
def Looped (msg : UpdateMsg) : Prop :=
  let msg := msg.extractAndReconstructAsPath
  (∃ asPath, msg.get PathAttribute.asPathOf = some asPath ∧
      c.allowLocalAsInCount < countAs c.localAs asPath) ∨
    ∃ clusterList, msg.get PathAttribute.clusterListOf = some clusterList ∧
      c.clusterId ∈ clusterList

/-- The Adj-RIB-In is the same, and the table manager was given nothing. -/
def LeftAlone (p p' : PeerIn) : Prop :=
  (∀ key, p'.rib.adjRibIn.get? key = p.rib.adjRibIn.get? key) ∧ p'.learned = p.learned

/-- A looped message leaves the peer's routes alone. -/
def LoopIgnored (p : PeerIn) (msg : UpdateMsg) : Prop :=
  Looped c msg → LeftAlone p (handleUpdateMsg ipNetwork c p msg).1

/-- The NLRIs announced in MP_REACH_NLRI, as far as they are taken. -/
def announcedMp (msg : UpdateMsg) : List Nlri :=
  match msg.get PathAttribute.mpReachOf with
  | some (rf, _, nlri) => takenNlri c msg rf nlri
  | none => []

def withdrawnMp (msg : UpdateMsg) : List Nlri :=
  match msg.get PathAttribute.mpUnreachOf with
  | some (rf, withdrawn) => if rf ∈ supportedGlobalRf then withdrawn else []
  | none => []

/-- The announced NLRIs are RT NLRIs, of which the initial transfer is not over. -/
def Collected (p : PeerIn) (msg : UpdateMsg) : Prop :=
  (msg.get PathAttribute.mpReachOf).map Prod.fst = some rfRtcUc ∧ p.initRtcNlriPath ≠ none

/-- The message ends the initial transfer of RT NLRIs. -/
def EndsRtc (msg : UpdateMsg) : Prop := msg.get PathAttribute.mpUnreachOf = some (rfRtcUc, [])

instance (p : PeerIn) (msg : UpdateMsg) : Decidable (Collected p msg) :=
  inferInstanceAs (Decidable (_ ∧ _))

instance (msg : UpdateMsg) : Decidable (EndsRtc msg) := inferInstanceAs (Decidable (_ = _))

/-- The NLRIs and withdrawn routes of the message itself, with whether they are withdrawn: NLRIs
without a NEXT_HOP raise an exception. -/
def handledBgp4 (msg : UpdateMsg) : List (Nlri × Bool) :=
  if msg.nlri ≠ [] ∧ msg.get PathAttribute.nextHopOf = none then []
  else msg.nlri.map (·, false) ++ msg.withdrawnRoutes.map (·, true)

/-- The NLRIs after MP_REACH_NLRI that are reached: the end of a transfer that is over already
raises an exception. -/
def reached (p : PeerIn) (msg : UpdateMsg) : List (Nlri × Bool) :=
  if EndsRtc msg ∧ p.initRtcNlriPath = none then []
  else (withdrawnMp msg).map (·, true) ++ handledBgp4 msg

/-- The NLRIs of a message that are handled, in order. -/
def handled (p : PeerIn) (msg : UpdateMsg) : List (Nlri × Bool) :=
  (announcedMp c msg).map (·, false) ++ reached p msg

/-- The in-filters block the NLRI. -/
def Blocked (p : PeerIn) (nlri : Nlri) : Prop :=
  Denied ipNetwork p.rib.inFilters ⟨0, .nc, nlri, noAttrs, false⟩

/-- Nothing the message carries has an effect: what is handled is blocked (or an RT NLRI that is
only collected), is withdrawn last and was not in the Adj-RIB-In; and if the message ends the
initial transfer, no RT NLRI has been collected. -/
structure Harmless (p : PeerIn) (msg : UpdateMsg) : Prop where
  blockedMp : ¬ Collected p msg → ∀ nlri ∈ announcedMp c msg, Blocked ipNetwork p nlri
  blocked : ∀ x ∈ reached p msg, Blocked ipNetwork p x.1
  withdrawn : ∀ x ∈ handled c p msg, ((handled c p msg).filter fun y =>
    y.1.tableKey = x.1.tableKey).getLast?.map Prod.snd = some true
  absent : ∀ x ∈ handled c p msg, p.rib.adjRibIn.get? x.1.tableKey = none
  noRtc : EndsRtc msg → p.initRtcNlriPath.getD [] = [] ∧
    (Collected p msg → ∀ nlri ∈ announcedMp c msg, Blocked ipNetwork p nlri)

end Handle

section Effect

variable {ipNetwork : String → IPNetwork} {c : InConf} {p : PeerIn} {msg : UpdateMsg}
  {attrs : PathAttrs} {r : RibIn} {key : String}

/-- One NLRI, announced or withdrawn. -/
def handleNlri (ipNetwork : String → IPNetwork) (c : InConf) (attrs : PathAttrs) (r : RibIn)
    (x : Nlri × Bool) : RibIn × List Path :=
  if x.2 then r.withdraw ipNetwork c.peer x.1 else r.newPath ipNetwork c.peer x.1 attrs

/-- NLRIs handled one after the other, and what is not blocked of them. -/
def handleAll (ipNetwork : String → IPNetwork) (c : InConf) (attrs : PathAttrs) (r : RibIn) :
    List (Nlri × Bool) → RibIn × List Path
  | [] => (r, [])
  | x :: xs =>
    let (r, paths) := handleNlri ipNetwork c attrs r x
    let (r, rest) := handleAll ipNetwork c attrs r xs
    (r, paths ++ rest)

theorem newPaths_eq (attrs : PathAttrs) (r : RibIn) (nlris : List Nlri) :
    newPaths ipNetwork c attrs r nlris = handleAll ipNetwork c attrs r (nlris.map (·, false)) := by
  induction nlris generalizing r with
  | nil => rfl
  | cons n nlris ih =>
    simp only [newPaths, List.map_cons, handleAll, handleNlri, ih]
    rfl

theorem withdraws_eq (attrs : PathAttrs) (r : RibIn) (nlris : List Nlri) :
    withdraws ipNetwork c r nlris = handleAll ipNetwork c attrs r (nlris.map (·, true)) := by
  induction nlris generalizing r with
  | nil => rfl
  | cons n nlris ih =>
    simp only [withdraws, List.map_cons, handleAll, handleNlri, ih]
    rfl

theorem handleAll_append (attrs : PathAttrs) (r : RibIn) (xs ys : List (Nlri × Bool)) :
    handleAll ipNetwork c attrs r (xs ++ ys) =
      ((handleAll ipNetwork c attrs (handleAll ipNetwork c attrs r xs).1 ys).1,
        (handleAll ipNetwork c attrs r xs).2 ++
          (handleAll ipNetwork c attrs (handleAll ipNetwork c attrs r xs).1 ys).2) := by
  induction xs generalizing r with
  | nil => rfl
  | cons x xs ih => simp only [List.cons_append, handleAll, ih, List.append_assoc]

theorem handleNlri_inFilters (attrs : PathAttrs) (r : RibIn) (x : Nlri × Bool) :
    (handleNlri ipNetwork c attrs r x).1.inFilters = r.inFilters := by
  unfold handleNlri
  split <;> rfl

theorem handleNlri_made (ipNetwork : String → IPNetwork) (c : InConf) (attrs : PathAttrs)
    (r : RibIn) (x : Nlri × Bool) :
    (handleNlri ipNetwork c attrs r x).1.made = r.made + 1 := by
  unfold handleNlri
  split <;> rfl

theorem handleAll_inFilters (attrs : PathAttrs) (r : RibIn) (xs : List (Nlri × Bool)) :
    (handleAll ipNetwork c attrs r xs).1.inFilters = r.inFilters := by
  induction xs generalizing r with
  | nil => rfl
  | cons x xs ih => exact (ih _).trans (handleNlri_inFilters attrs r x)

/-- Nothing of an NLRI is passed on exactly if the filters block it. -/
theorem handleNlri_paths (attrs : PathAttrs) (r : RibIn) (x : Nlri × Bool) :
    (handleNlri ipNetwork c attrs r x).2 = [] ↔
      Denied ipNetwork r.inFilters ⟨0, .nc, x.1, noAttrs, false⟩ := by
  unfold handleNlri
  split
  all_goals
    simp only [RibIn.withdraw, RibIn.newPath, ite_eq_left_iff, List.cons_ne_nil, imp_false,
      Bool.not_eq_true, Bool.not_eq_false]
    exact applyFilter_iff.trans (denied_congr rfl)

theorem handleAll_paths (attrs : PathAttrs) (r : RibIn) (xs : List (Nlri × Bool)) :
    (handleAll ipNetwork c attrs r xs).2 = [] ↔
      ∀ x ∈ xs, Denied ipNetwork r.inFilters ⟨0, .nc, x.1, noAttrs, false⟩ := by
  induction xs generalizing r with
  | nil => simp [handleAll]
  | cons x xs ih =>
    simp only [handleAll, List.append_eq_nil_iff, handleNlri_paths, ih, handleNlri_inFilters,
      List.forall_mem_cons]

/-- The objects in the Adj-RIB-In were made before. -/
def Numbered (r : RibIn) : Prop :=
  ∀ key route, r.adjRibIn.get? key = some route → route.path.index < r.made

theorem handleNlri_get? (ipNetwork : String → IPNetwork) (c : InConf) (attrs : PathAttrs)
    (r : RibIn) (x : Nlri × Bool) (key : String) :
    (x.1.tableKey ≠ key → (handleNlri ipNetwork c attrs r x).1.adjRibIn.get? key =
        r.adjRibIn.get? key) ∧
      (x.1.tableKey = key → x.2 = true →
        (handleNlri ipNetwork c attrs r x).1.adjRibIn.get? key = none) ∧
      (x.1.tableKey = key → x.2 = false →
        ∃ route, (handleNlri ipNetwork c attrs r x).1.adjRibIn.get? key = some route ∧
          route.path.index = r.made) := by
  obtain ⟨nlri, w⟩ := x
  cases w with
  | true =>
    simp only [handleNlri, RibIn.withdraw, Nlri.formattedNlriStr, Dict.get?_erase, if_true]
    exact ⟨fun hk => if_neg hk, fun hk _ => if_pos hk, fun _ hw => absurd hw Bool.noConfusion⟩
  | false =>
    simp only [handleNlri, RibIn.newPath, Nlri.formattedNlriStr, Dict.get?_set, Bool.false_eq_true,
      if_false]
    exact ⟨fun hk => if_neg hk, fun _ hw => hw.elim,
      fun hk _ => ⟨_, if_pos hk, rfl⟩⟩

theorem Numbered.handleNlri (h : Numbered r) (attrs : PathAttrs) (x : Nlri × Bool) :
    Numbered (handleNlri ipNetwork c attrs r x).1 := by
  intro key route hr
  rw [handleNlri_made]
  obtain ⟨hne, hw, hn⟩ := handleNlri_get? ipNetwork c attrs r x key
  rcases eq_or_ne x.1.tableKey key with hk | hk
  · cases hx : x.2 with
    | true => rw [hw hk hx] at hr; cases hr
    | false =>
      obtain ⟨route', hr', hi⟩ := hn hk hx
      rw [hr'] at hr
      obtain rfl := Option.some.inj hr
      omega
  · rw [hne hk] at hr
    exact Nat.lt_succ_of_lt (h key route hr)

theorem Numbered.handleAll (h : Numbered r) (attrs : PathAttrs) (xs : List (Nlri × Bool)) :
    Numbered (handleAll ipNetwork c attrs r xs).1 := by
  induction xs generalizing r with
  | nil => exact h
  | cons x xs ih => exact ih (h.handleNlri attrs x)

theorem handleAll_made (attrs : PathAttrs) (r : RibIn) (xs : List (Nlri × Bool)) :
    r.made ≤ (handleAll ipNetwork c attrs r xs).1.made := by
  induction xs generalizing r with
  | nil => exact Nat.le_refl _
  | cons x xs ih =>
    have hx := handleNlri_made ipNetwork c attrs r x
    have hxs := ih (Bgp.handleNlri ipNetwork c attrs r x).1
    rw [hx] at hxs
    exact Nat.le_of_succ_le hxs

/-- The NLRIs of a key among those handled. -/
def ofKey (xs : List (Nlri × Bool)) (key : String) : List (Nlri × Bool) :=
  xs.filter fun y => y.1.tableKey = key

/-- The last NLRI of a key decides its entry. -/
theorem handleAll_get? (ipNetwork : String → IPNetwork) (c : InConf) (attrs : PathAttrs)
    (r : RibIn) (xs : List (Nlri × Bool)) (key : String) :
    (ofKey xs key = [] → (handleAll ipNetwork c attrs r xs).1.adjRibIn.get? key =
        r.adjRibIn.get? key) ∧
      ((ofKey xs key).getLast?.map Prod.snd = some true →
        (handleAll ipNetwork c attrs r xs).1.adjRibIn.get? key = none) ∧
      ((ofKey xs key).getLast?.map Prod.snd = some false →
        ∃ route, (handleAll ipNetwork c attrs r xs).1.adjRibIn.get? key = some route ∧
          r.made ≤ route.path.index) := by
  induction xs using List.reverseRecOn with
  | nil => exact ⟨fun _ => rfl, nofun, nofun⟩
  | append_singleton xs x ih =>
    have hl : (handleAll ipNetwork c attrs r (xs ++ [x])).1 =
        (Bgp.handleNlri ipNetwork c attrs (handleAll ipNetwork c attrs r xs).1 x).1 := by
      rw [handleAll_append]
      rfl
    obtain ⟨hne, hw, hn⟩ := handleNlri_get? ipNetwork c attrs
      (handleAll ipNetwork c attrs r xs).1 x key
    rw [hl]
    rcases eq_or_ne x.1.tableKey key with hk | hk
    · have hf : ofKey (xs ++ [x]) key = ofKey xs key ++ [x] := by simp [ofKey, hk]
      rw [hf, List.getLast?_concat]
      refine ⟨fun hx => by simp at hx, fun hx => hw hk (by simpa using hx), fun hx => ?_⟩
      obtain ⟨route, hr, hi⟩ := hn hk (by simpa using hx)
      exact ⟨route, hr, hi ▸ handleAll_made attrs r xs⟩
    · have hf : ofKey (xs ++ [x]) key = ofKey xs key := by simp [ofKey, hk]
      rw [hf, hne hk]
      exact ih

/-- The entries are the same exactly if all that was handled was absent before and is withdrawn
last. -/
theorem handleAll_unchanged_iff (h : Numbered r) (attrs : PathAttrs) (xs : List (Nlri × Bool)) :
    (∀ key, (handleAll ipNetwork c attrs r xs).1.adjRibIn.get? key = r.adjRibIn.get? key) ↔
      (∀ x ∈ xs, (ofKey xs x.1.tableKey).getLast?.map Prod.snd = some true) ∧
        ∀ x ∈ xs, r.adjRibIn.get? x.1.tableKey = none := by
  constructor
  · intro hu
    have hl : ∀ x ∈ xs, (ofKey xs x.1.tableKey).getLast?.map Prod.snd = some true := by
      intro x hx
      obtain ⟨-, -, hn⟩ := handleAll_get? ipNetwork c attrs r xs x.1.tableKey
      have hmem : x ∈ ofKey xs x.1.tableKey := List.mem_filter.mpr ⟨hx, by simp⟩
      obtain ⟨y, hy⟩ := Option.isSome_iff_exists.mp
        (List.getLast?_isSome.mpr (List.ne_nil_of_mem hmem))
      rw [hy] at hn ⊢
      cases hb : y.2 with
      | true => simp [hb]
      | false =>
        obtain ⟨route, hr, hi⟩ := hn (by simp [hb])
        rw [hu] at hr
        exact absurd (h _ route hr) (Nat.not_lt.mpr hi)
    refine ⟨hl, fun x hx => ?_⟩
    rw [← hu]
    exact (handleAll_get? ipNetwork c attrs r xs x.1.tableKey).2.1 (hl x hx)
  · rintro ⟨hl, ha⟩ key
    obtain ⟨he, hw, -⟩ := handleAll_get? ipNetwork c attrs r xs key
    rcases hx : ofKey xs key with _ | ⟨x, l⟩
    · exact he hx
    · have hmem : x ∈ ofKey xs key := hx ▸ List.mem_cons_self
      obtain ⟨hxs, hk⟩ := List.mem_filter.mp hmem
      obtain rfl : x.1.tableKey = key := by simpa using hk
      rw [hw (hl x hxs), ha x hxs]

theorem handleMpReach_spec (ipNetwork : String → IPNetwork) (c : InConf) (msg : UpdateMsg)
    (p : PeerIn) :
    let x := handleAll ipNetwork c msg.pathAttrs p.rib ((announcedMp c msg).map (·, false))
    let p' := handleMpReach ipNetwork c msg p
    p'.rib = x.1 ∧ p'.learned = p.learned ++ (if Collected p msg then [] else x.2) ∧
      p'.initRtcNlriPath = p.initRtcNlriPath.map (· ++ if Collected p msg then x.2 else []) := by
  intro x p'
  cases hm : msg.get PathAttribute.mpReachOf with
  | none => simp [x, p', handleMpReach, announcedMp, Collected, hm, handleAll]
  | some m =>
    obtain ⟨rf, nextHop, nlri⟩ := m
    have hx : newPaths ipNetwork c msg.pathAttrs p.rib (takenNlri c msg rf nlri) = x := by
      simp only [x, newPaths_eq, announcedMp, hm]
    have hp' : p' = extractMpbgpNewPaths ipNetwork c msg rf nlri p := by
      simp only [p', handleMpReach, hm]
    rw [hp', extractMpbgpNewPaths, hx]
    cases hi : p.initRtcNlriPath with
    | none => simp [Collected, hi]
    | some init =>
      by_cases hrf : rf = rfRtcUc
      · simp [Collected, hm, hi, hrf]
      · simp [Collected, hm, hi, hrf]

theorem handleMpUnreach_spec (ipNetwork : String → IPNetwork) (c : InConf) (attrs : PathAttrs)
    (msg : UpdateMsg) (p : PeerIn) :
    let x := handleAll ipNetwork c attrs p.rib ((withdrawnMp msg).map (·, true))
    let y := handleMpUnreach ipNetwork c msg p
    (EndsRtc msg ∧ p.initRtcNlriPath = none → y.1 = p ∧ y.2.isSome) ∧
      (¬ (EndsRtc msg ∧ p.initRtcNlriPath = none) → y.2 = none ∧ y.1.rib = x.1 ∧
        y.1.learned = p.learned ++ (if EndsRtc msg then p.initRtcNlriPath.getD [] else []) ++
          x.2) := by
  intro x y
  cases hm : msg.get PathAttribute.mpUnreachOf with
  | none => simp [x, y, handleMpUnreach, withdrawnMp, EndsRtc, hm, handleAll]
  | some m =>
    obtain ⟨rf, withdrawn⟩ := m
    have hy : y = extractMpbgpWithdraws ipNetwork c rf withdrawn p := by
      simp only [y, handleMpUnreach, hm]
    have hends : EndsRtc msg ↔ rf = rfRtcUc ∧ withdrawn = [] := by
      simp [EndsRtc, hm]
    by_cases hs : rf ∈ supportedGlobalRf
    · have hx : withdraws ipNetwork c p.rib withdrawn = x := by
        simp only [x, withdrawnMp, hm, hs, if_true, withdraws_eq attrs]
      rw [hy, extractMpbgpWithdraws, if_neg (not_not.mpr hs)]
      rcases eq_or_ne withdrawn [] with hw | hw
      · rcases eq_or_ne rf rfRtcUc with hrf | hrf
        · have hE : EndsRtc msg := hends.mpr ⟨hrf, hw⟩
          cases hi : p.initRtcNlriPath with
          | none => simp [hw, hrf, handleEor, hi, hE]
          | some init =>
            simp [hw, hrf, handleEor, hi, hE, ← hx, withdraws]
        · have hE : ¬ EndsRtc msg := fun h => hrf (hends.mp h).1
          simp [hw, hrf, handleEor, hE, ← hx]
      · have hE : ¬ EndsRtc msg := fun h => hw (hends.mp h).2
        simp [hw, hE, hx]
    · have hrf : rf ≠ rfRtcUc := by
        rintro rfl
        exact hs (by decide)
      simp [hends, hy, extractMpbgpWithdraws, hs, hrf, x, withdrawnMp, hm, handleAll]

theorem handleBgp4_spec (ipNetwork : String → IPNetwork) (c : InConf) (msg : UpdateMsg)
    (p : PeerIn) :
    let x := handleAll ipNetwork c msg.pathAttrs p.rib (handledBgp4 msg)
    let y := andThen (if msg.nlri = [] then (p, none) else extractBgp4NewPaths ipNetwork c msg p)
      fun p => (if msg.withdrawnRoutes = [] then p
        else extractBgp4Withdraws ipNetwork c msg.withdrawnRoutes p, none)
    y.1.rib = x.1 ∧ y.1.learned = p.learned ++ x.2 := by
  intro x y
  have hw : ∀ r : RibIn, handleAll ipNetwork c msg.pathAttrs r (msg.withdrawnRoutes.map (·, true)) =
      withdraws ipNetwork c r msg.withdrawnRoutes := fun r => (withdraws_eq _ _ _).symm
  have hn : ∀ r : RibIn, handleAll ipNetwork c msg.pathAttrs r (msg.nlri.map (·, false)) =
      newPaths ipNetwork c msg.pathAttrs r msg.nlri := fun r => (newPaths_eq _ _ _).symm
  have hlast : ∀ p : PeerIn,
      (if msg.withdrawnRoutes = [] then p
        else extractBgp4Withdraws ipNetwork c msg.withdrawnRoutes p) =
      extractBgp4Withdraws ipNetwork c msg.withdrawnRoutes p := by
    intro p
    split
    · next h => simp [extractBgp4Withdraws, h, withdraws]
    · rfl
  simp only [x, y, hlast, handledBgp4]
  rcases eq_or_ne msg.nlri [] with hnil | hnil
  · simp [hnil, andThen, extractBgp4Withdraws, hw]
  · cases hh : msg.get PathAttribute.nextHopOf with
    | none => simp [hnil, extractBgp4NewPaths, hh, andThen, handleAll]
    | some nextHop =>
      simp [hnil, extractBgp4NewPaths, hh, andThen, extractBgp4Withdraws, handleAll_append, hn, hw]

/-- What is extracted goes through the entries as `handled` says, and is passed on unless it is
blocked or collected. -/
theorem extractPaths_spec (ipNetwork : String → IPNetwork) (c : InConf) (msg : UpdateMsg)
    (p : PeerIn) :
    let p' := (extractPaths ipNetwork c msg p).1
    p'.rib = (handleAll ipNetwork c msg.pathAttrs p.rib (handled c p msg)).1 ∧
      (p'.learned = p.learned ↔
        (¬ Collected p msg → ∀ nlri ∈ announcedMp c msg, Blocked ipNetwork p nlri) ∧
          (∀ x ∈ reached p msg, Blocked ipNetwork p x.1) ∧
          (EndsRtc msg → p.initRtcNlriPath.getD [] = [] ∧
            (Collected p msg → ∀ nlri ∈ announcedMp c msg, Blocked ipNetwork p nlri))) := by
  intro p'
  obtain ⟨hr1, hl1, hi1⟩ := handleMpReach_spec ipNetwork c msg p
  set p1 := handleMpReach ipNetwork c msg p
  have hnone : p1.initRtcNlriPath = none ↔ p.initRtcNlriPath = none := by
    rw [hi1, Option.map_eq_none_iff]
  have hX : (handleAll ipNetwork c msg.pathAttrs p.rib ((announcedMp c msg).map (·, false))).2 = [] ↔
      ∀ nlri ∈ announcedMp c msg, Blocked ipNetwork p nlri := by
    rw [handleAll_paths]
    simp [Blocked]
  obtain ⟨hraise, hgo⟩ := handleMpUnreach_spec ipNetwork c msg.pathAttrs msg p1
  rw [hnone] at hraise hgo
  by_cases hE : EndsRtc msg ∧ p.initRtcNlriPath = none
  · -- the end of a transfer that is over raises an exception
    obtain ⟨hy1, hy2⟩ := hraise hE
    obtain ⟨e, he⟩ := Option.isSome_iff_exists.mp hy2
    have hp' : p' = p1 := by
      change (andThen (handleMpUnreach ipNetwork c msg p1) _).1 = p1
      rw [andThen, he]
      exact hy1
    have hC : ¬ Collected p msg := fun h => h.2 hE.2
    rw [hp', hr1, hl1, if_neg hC, handled, reached, if_pos hE, List.append_nil, List.append_right_eq_self,
      hX]
    refine ⟨rfl, ?_⟩
    simp [hC, hE.2]
  · obtain ⟨hy2, hy3, hy4⟩ := hgo hE
    set p2 := (handleMpUnreach ipNetwork c msg p1).1
    obtain ⟨hz1, hz2⟩ := handleBgp4_spec ipNetwork c msg p2
    have hp' : p' = (andThen (if msg.nlri = [] then (p2, none)
        else extractBgp4NewPaths ipNetwork c msg p2) fun p =>
          (if msg.withdrawnRoutes = [] then p
            else extractBgp4Withdraws ipNetwork c msg.withdrawnRoutes p, none)).1 := by
      change (andThen (handleMpUnreach ipNetwork c msg p1) _).1 = _
      rw [andThen, hy2]
    have hrest : (handleAll ipNetwork c msg.pathAttrs p1.rib (reached p msg)).2 =
        (handleAll ipNetwork c msg.pathAttrs p1.rib ((withdrawnMp msg).map (·, true))).2 ++
          (handleAll ipNetwork c msg.pathAttrs p2.rib (handledBgp4 msg)).2 := by
      rw [reached, if_neg hE, handleAll_append, hy3]
    have hR : (handleAll ipNetwork c msg.pathAttrs p1.rib (reached p msg)).2 = [] ↔
        ∀ x ∈ reached p msg, Blocked ipNetwork p x.1 := by
      rw [handleAll_paths, hr1, handleAll_inFilters]
      rfl
    rw [hp']
    refine ⟨?_, ?_⟩
    · rw [hz1, hy3, hr1, handled, handleAll_append, reached, if_neg hE, handleAll_append]
    · rw [hz2, hy4, hl1, List.append_assoc, List.append_assoc, List.append_assoc,
        List.append_right_eq_self, ← hrest, List.append_eq_nil_iff, List.append_eq_nil_iff, hR, hi1]
      rw [← hX]
      by_cases hC : Collected p msg
      · obtain ⟨init, hi⟩ := Option.ne_none_iff_exists'.mp hC.2
        by_cases hEnds : EndsRtc msg
        · simp [hC, hEnds, hi, and_comm]
        · simp [hC, hEnds]
      · by_cases hEnds : EndsRtc msg
        · cases hi : p.initRtcNlriPath <;> simp [hC, hEnds, and_comm]
        · simp [hC, hEnds]

theorem leftAlone_extractPaths_iff (h : Numbered p.rib) :
    LeftAlone p (extractPaths ipNetwork c msg p).1 ↔ Harmless ipNetwork c p msg := by
  obtain ⟨hr, hl⟩ := extractPaths_spec ipNetwork c msg p
  unfold LeftAlone
  rw [hr, hl, handleAll_unchanged_iff h]
  constructor
  · rintro ⟨⟨hw, ha⟩, hb, hR, hE⟩
    exact ⟨hb, hR, hw, ha, hE⟩
  · intro hH
    exact ⟨⟨hH.withdrawn, hH.absent⟩, hH.blockedMp, hH.blocked, hH.noRtc⟩

/-- The loop check never holds a message back. -/
theorem handleUpdateMsg_of_valid (h : validateUpdateMsg c msg = .ok true) :
    handleUpdateMsg ipNetwork c p msg =
      extractPaths ipNetwork c msg.extractAndReconstructAsPath p := by
  have hloop : isLoopedPathAttrs c msg.extractAndReconstructAsPath ≠ some true := by
    unfold isLoopedPathAttrs
    split
    · simp
    · split <;> simp
  simp only [handleUpdateMsg, h, if_neg hloop]

theorem handleUpdateMsg_of_invalid (h : validateUpdateMsg c msg ≠ .ok true) :
    (handleUpdateMsg ipNetwork c p msg).1 = p := by
  unfold handleUpdateMsg
  split
  · rfl
  · rfl
  · next hv => exact absurd hv h

theorem Numbered.peerInStep (h : Numbered p.rib) (e : PeerInEvent) :
    Numbered (peerInStep ipNetwork c p e).rib := by
  cases e with
  | update msg =>
    rcases eq_or_ne (validateUpdateMsg c msg) (.ok true) with hv | hv
    · simp only [Bgp.peerInStep, handleUpdateMsg_of_valid hv]
      rw [(extractPaths_spec ipNetwork c _ p).1]
      exact h.handleAll _ _
    · simpa only [Bgp.peerInStep, handleUpdateMsg_of_invalid hv] using h
  | inFilters filters =>
    intro key route hr
    simp only [Bgp.peerInStep, RibIn.setInFilters, RibIn.onUpdateInFilter, Dict.get?_mapValues] at hr
    obtain ⟨route', hr', rfl⟩ := Option.map_eq_some_iff.mp hr
    exact Nat.lt_of_lt_of_le (h key route' hr') (Nat.le_add_right _ _)
  | connectionLost => exact h

theorem numbered_run (ipNetwork : String → IPNetwork) (c : InConf) (filters : List PrefixFilter)
    (evs : List PeerInEvent) :
    Numbered (evs.foldl (Bgp.peerInStep ipNetwork c) (PeerIn.init filters)).rib :=
  (throughout_of_step (P := fun p : PeerIn => Numbered p.rib)
    (fun _ _ hr => by simp [PeerIn.init] at hr) (fun _ e h => h.peerInStep e) evs).last

end Effect

/-- A peer of AS 65001, heard by AS 65000. -/
def externalConf : InConf := ⟨1, 65000, 65000, 65001, true, some "192.0.2.1", 0, 1, []⟩

/-- The local AS is in the AS_PATH. -/
def loopedMsg : UpdateMsg :=
  ⟨[], [.origin 0, .asPath [.seq [65001, 65000]], .nextHop "192.0.2.2"],
    [unicast rfIPv4Uc "10.0.0.0/24"]⟩

end Ryu.Bgp
