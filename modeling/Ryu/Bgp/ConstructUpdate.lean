import Ryu.Lib.Heap
import Ryu.Lib.Numeral
import Ryu.Bgp.Update

/-! # The UPDATE built for a peer

`_construct_update` copies some of the lists in a path's attributes, builds others anew and shares
the rest with the message. The list of extended communities is shared and appended to, so the
origins configured for one neighbor stay in the path. Everything else is read only.
-/

namespace Ryu.Bgp

section Model

inductive ExtCommunity
  | ipv4AddressSpecific (subtype : ℕ) (ipv4Address : Text) (localAdministrator : ℤ)
  | twoOctetAsSpecific (subtype : ℕ) (asNumber localAdministrator : ℤ)
  | other (type : ℕ) (value : List UInt8)
  deriving DecidableEq, Repr

/-- A path attribute, with AS paths, cluster lists and lists of extended communities of given
types: by reference in the objects, or by value. -/
inductive Attr (π ν κ : Type)
  | origin (value : ℕ)
  | asPath (value : π) (fourOctet : Bool)
  | nextHop (value : Option String)
  | multiExitDisc (value : ℕ)
  | localPref (value : ℕ)
  | atomicAggregate
  | aggregator (asNumber : ℕ) (addr : String)
  | communities (value : List ℕ)
  | originatorId (value : String)
  | clusterList (value : ν)
  | mpReachNlri (routeFamily : RouteFamily) (nextHop : Option String) (nlri : List Nlri)
  | mpUnreachNlri (routeFamily : RouteFamily) (withdrawnRoutes : List Nlri)
  | extendedCommunities (communities : κ)
  | as4Path (value : π)
  | as4Aggregator (asNumber : ℕ) (addr : String)
  | pmsiTunnel (value : List UInt8)
  | unknown (type flags : ℕ) (value : List UInt8)
  deriving DecidableEq, Repr

/-- The attribute types that are looked up. -/
def attrOrigin : ℕ := 1
def attrAsPath : ℕ := 2
def attrMultiExitDisc : ℕ := 4
def attrAggregator : ℕ := 7
def attrCommunities : ℕ := 8
def attrOriginatorId : ℕ := 9
def attrClusterList : ℕ := 10
def attrExtendedCommunities : ℕ := 16
def attrPmsiTunnel : ℕ := 22

variable {π ν κ π' ν' κ' α β : Type}

def Attr.type : Attr π ν κ → ℕ
  | origin _ => attrOrigin
  | asPath _ _ => attrAsPath
  | nextHop _ => 3
  | multiExitDisc _ => attrMultiExitDisc
  | localPref _ => 5
  | atomicAggregate => 6
  | aggregator _ _ => attrAggregator
  | communities _ => attrCommunities
  | originatorId _ => attrOriginatorId
  | clusterList _ => attrClusterList
  | mpReachNlri _ _ _ => 14
  | mpUnreachNlri _ _ => 15
  | extendedCommunities _ => attrExtendedCommunities
  | as4Path _ => 17
  | as4Aggregator _ _ => 18
  | pmsiTunnel _ => attrPmsiTunnel
  | unknown type _ _ => type

def Attr.map (f : π → π') (g : ν → ν') (h : κ → κ') : Attr π ν κ → Attr π' ν' κ'
  | origin v => .origin v
  | asPath v b => .asPath (f v) b
  | nextHop v => .nextHop v
  | multiExitDisc v => .multiExitDisc v
  | localPref v => .localPref v
  | atomicAggregate => .atomicAggregate
  | aggregator n a => .aggregator n a
  | communities v => .communities v
  | originatorId v => .originatorId v
  | clusterList v => .clusterList (g v)
  | mpReachNlri rf nh nlri => .mpReachNlri rf nh nlri
  | mpUnreachNlri rf w => .mpUnreachNlri rf w
  | extendedCommunities v => .extendedCommunities (h v)
  | as4Path v => .as4Path (f v)
  | as4Aggregator n a => .as4Aggregator n a
  | pmsiTunnel v => .pmsiTunnel v
  | unknown t fl v => .unknown t fl v

/-- Unknown attributes that are optional or transitive, and attributes of old speakers. -/
def Attr.isUnknownOpttrans : Attr π ν κ → Bool
  | unknown _ flags _ => flags &&& (0x80 ||| 0x40) ≠ 0
  | as4Path _ => true
  | as4Aggregator _ _ => true
  | _ => false

/-- `pathattr_map.get`. -/
def getAttr (attrs : List (Attr π ν κ)) (type : ℕ) : Option (Attr π ν κ) :=
  attrs.find? fun a => a.type = type

/-- A path of the global tables, with attributes of type `α`. `routeDist` is read of VPN NLRIs. -/
structure RibPath (α : Type) where
  routeFamily : RouteFamily
  nlri : Nlri
  routeDist : String
  source : Source
  nexthop : Option String
  isWithdraw : Bool
  pathattrMap : List α
  deriving DecidableEq, Repr

def RibPath.map (f : α → β) (p : RibPath α) : RibPath β :=
  ⟨p.routeFamily, p.nlri, p.routeDist, p.source, p.nexthop, p.isWithdraw, p.pathattrMap.map f⟩

def RibPath.isIpv4Path (p : RibPath α) : Bool := p.routeFamily = rfIPv4Uc

def RibPath.isFlowspec (p : RibPath α) : Bool := p.routeFamily.safi ∈ flowspecSafis

def RibPath.isLocal (p : RibPath α) : Bool := p.source = .nc

def RibPath.hasNexthop (p : RibPath α) : Bool :=
  match p.nexthop with
  | none => false
  | some n => n ∉ ["", "0.0.0.0", "::"]

structure BgpUpdate (α : Type) where
  withdrawnRoutes : List Nlri
  pathAttributes : List α
  nlri : List Nlri
  deriving DecidableEq, Repr

def BgpUpdate.map (f : α → β) (u : BgpUpdate α) : BgpUpdate β :=
  ⟨u.withdrawnRoutes, u.pathAttributes.map f, u.nlri⟩

/-- The objects that attributes refer to. -/
structure AttrStore where
  asPaths : Heap (List AsPathSegment)
  clusterLists : Heap (List String)
  extComms : Heap (List ExtCommunity)
  deriving DecidableEq, Repr

abbrev StoredAttr := Attr Ref Ref Ref
abbrev PlainAttr := Attr (List AsPathSegment) (List String) (List ExtCommunity)

def AttrStore.readAttr (s : AttrStore) : StoredAttr → PlainAttr :=
  Attr.map s.asPaths.read s.clusterLists.read s.extComms.read

/-- What `netaddr` says of addresses, and the addresses of the peers. -/
structure OutEnv where
  validIp : String → Except PyError Bool
  ipv4MappedIpv6 : String → Except PyError String
  ipAddress : ℕ → String

/-- The settings of a neighbor and of the speaker, and what was negotiated with the peer.
`lookupLocalPref` is the local preference of the first attribute map under a key that matches. -/
structure OutConf where
  isRouteServerClient : Bool
  isRouteReflectorClient : Bool
  isNextHopSelf : Bool
  fourOctetCapValid : Bool
  routerId : String
  clusterId : String
  localAs : ℕ
  commonLocalAs : ℕ
  remoteAs : ℕ
  nextHop : Option String
  hostBindIp : String
  multiExitDisc : Option ℕ
  localPref : ℕ
  lookupLocalPref : String → RibPath PlainAttr → Except PyError (Option ℕ)
  sooList : List Text

def OutConf.isEbgpPeer (c : OutConf) : Bool := c.commonLocalAs ≠ c.remoteAs

variable (env : OutEnv) (c : OutConf)

/-- ORIGINATOR_ID, if the path has none. -/
def originatorAttrs (p : RibPath (Attr π ν κ)) : List (Attr π ν κ) :=
  if (getAttr p.pathattrMap attrOriginatorId).isSome then []
  else
    [.originatorId (match p.source with
      | .nc => c.routerId
      | .peer i => env.ipAddress i
      | .vrfTable => "vrf_table"
      | .vpnTable => "vpn_table")]

/-- `_session_next_hop`. -/
def sessionNextHop (rf : RouteFamily) : Except PyError String :=
  let nextHop := (c.nextHop.filter (· ≠ "")).getD c.hostBindIp
  if rf = rfIPv6Vpn then env.ipv4MappedIpv6 nextHop else .ok nextHop

/-- The next hop; flow specifications have none. -/
def nextHopFor (p : RibPath α) : Except PyError (Option String) :=
  if p.isFlowspec then .ok none
  else if c.isEbgpPeer then
    (sessionNextHop env c p.routeFamily).map fun n =>
      if p.isLocal && p.hasNexthop then p.nexthop else some n
  else if c.isNextHopSelf || (p.isLocal && !p.hasNexthop) then
    (sessionNextHop env c p.routeFamily).map some
  else .ok p.nexthop

/-- NEXT_HOP, or MP_REACH_NLRI, whose next hop must be an address. -/
def reachAttr (p : RibPath (Attr π ν κ)) (nextHop : Option String) : Except PyError (Attr π ν κ) :=
  if p.isIpv4Path then .ok (.nextHop nextHop)
  else if p.isFlowspec then .ok (.mpReachNlri p.routeFamily none [p.nlri])
  else
    match nextHop with
    | none => .error (.attributeError "split")
    | some n =>
      match env.validIp n with
      | .error e => .error e
      | .ok false => .error (.valueError ("Invalid address for next_hop: " ++ n))
      | .ok true => .ok (.mpReachNlri p.routeFamily (some n) [p.nlri])

/-- The local AS in front of an AS path. -/
def prependAs (localAs : ℕ) : List AsPathSegment → List AsPathSegment
  | .seq l :: segs =>
    if l.length < 255 then .seq (localAs :: l) :: segs else .seq [localAs] :: .seq l :: segs
  | segs => .seq [localAs] :: segs

/-- AGGREGATOR, and AS4_AGGREGATOR for a neighbor with two-octet AS numbers. -/
def aggregatorAttrs (attrs : List (Attr π ν κ)) : List (Attr π ν κ) :=
  match getAttr attrs attrAggregator with
  | some (.aggregator n addr) =>
    if c.fourOctetCapValid || isValidOldAsn n then [.aggregator n addr]
    else [.aggregator asTrans addr, .as4Aggregator n addr]
  | _ => []

/-- MULTI_EXIT_DISC: an external peer gets what is configured. -/
def multiExitDiscAttrs (attrs : List (Attr π ν κ)) : List (Attr π ν κ) :=
  if c.isEbgpPeer then ((c.multiExitDisc.filter (· ≠ 0)).map .multiExitDisc).toList
  else (getAttr attrs attrMultiExitDisc).toList

/-- The key of the attribute maps that apply to a path. -/
def attributeMapsKey (p : RibPath α) : String :=
  if p.routeFamily = rfIPv4Vpn then p.routeDist ++ ":" ++ "ipv4"
  else if p.routeFamily = rfIPv6Vpn then p.routeDist ++ ":" ++ "ipv6"
  else "default"

/-- LOCAL_PREF, for an internal peer. -/
def localPrefAttrs (p : RibPath PlainAttr) : Except PyError (List (Attr π ν κ)) :=
  if c.isEbgpPeer then .ok []
  else (c.lookupLocalPref (attributeMapsKey p) p).map fun r => [.localPref (r.getD c.localPref)]

/-- A site of origin as an extended community. -/
def sooCommunity (soo : Text) : Except PyError ExtCommunity :=
  match soo.splitOn ':' with
  | [first, second] =>
    if '.' ∈ first then
      match Numeral.int? second with
      | some n => .ok (.ipv4AddressSpecific 3 first n)
      | none => .error (.valueError "invalid literal for int() with base 10")
    else
      match Numeral.int? first, Numeral.int? second with
      | some a, some n => .ok (.twoOctetAsSpecific 3 a n)
      | _, _ => .error (.valueError "invalid literal for int() with base 10")
  | _ => .error (.valueError "not enough values to unpack (expected 2)")

/-- The message, in the order in which attributes are appended. -/
def assemble (p : RibPath α) (reflector : List α) (reach origin : α)
    (asPath aggregator multiExitDisc localPref community extComm unknown : List α) : BgpUpdate α :=
  ⟨[], reflector ++ reach :: origin :: (asPath ++ aggregator ++ multiExitDisc ++ localPref ++
    community ++ extComm ++ unknown), if p.isIpv4Path then [p.nlri] else []⟩

/-- The message that withdraws a path. -/
def withdrawUpdate (p : RibPath (Attr π ν κ)) : BgpUpdate (Attr π ν κ) :=
  if p.isIpv4Path then ⟨[p.nlri], [], []⟩
  else ⟨[], [.mpUnreachNlri p.routeFamily [p.nlri]], []⟩

/-- The message with all attributes of the path. -/
def wholeUpdate (p : RibPath α) : BgpUpdate α :=
  ⟨[], p.pathattrMap, if p.isIpv4Path then [p.nlri] else []⟩

/-- CLUSTER_LIST: the own id goes into a copy of the list, or into a new one. -/
def clusterAttr (s : AttrStore) (attrs : List StoredAttr) : StoredAttr × AttrStore :=
  match getAttr attrs attrClusterList with
  | some (.clusterList r) =>
    let (clusterList, h) := s.clusterLists.alloc (s.clusterLists.read r)
    let h :=
      if c.clusterId ∈ h.read clusterList then h else h.modify clusterList (c.clusterId :: ·)
    (.clusterList clusterList, { s with clusterLists := h })
  | _ =>
    let (clusterList, h) := s.clusterLists.alloc [c.clusterId]
    (.clusterList clusterList, { s with clusterLists := h })

/-- `_trans_as_path` on the list itself. -/
def transAsPathList (h : Heap (List AsPathSegment)) (asPathList : Ref) :
    Ref × Option Ref × Heap (List AsPathSegment) :=
  if c.fourOctetCapValid then (asPathList, none, h)
  else
    let (newAsPathList, h) := h.alloc ((h.read asPathList).map swapSegment)
    if asPathEq (h.read asPathList) (h.read newAsPathList) then (asPathList, none, h)
    else (newAsPathList, some asPathList, h)

/-- AS_PATH and AS4_PATH, from a deep copy of the path's list. -/
def asPathAttrs (s : AttrStore) (value : Ref) : List StoredAttr × AttrStore :=
  let (asPathList, h) := s.asPaths.alloc (s.asPaths.read value)
  let h := if c.isEbgpPeer then h.modify asPathList (prependAs c.localAs) else h
  let (asPathList, as4PathList, h) := transAsPathList c h asPathList
  (.asPath asPathList c.fourOctetCapValid ::
      ((as4PathList.filter fun r => h.read r ≠ []).map Attr.as4Path).toList,
    { s with asPaths := h })

/-- The loop over the sites of origin, which appends to the list it is given. -/
def appendSoos (communities : Ref) : List Text → Heap (List ExtCommunity) →
    Option PyError × Heap (List ExtCommunity)
  | [], h => (none, h)
  | soo :: soos, h =>
    match sooCommunity soo with
    | .error e => (some e, h)
    | .ok comm => appendSoos communities soos (h.modify communities (· ++ [comm]))

/-- EXTENDED_COMMUNITIES, with the list of the path itself, and PMSI_TUNNEL. -/
def extCommAttrs (s : AttrStore) (attrs : List StoredAttr) :
    Except PyError (List StoredAttr) × AttrStore :=
  match getAttr attrs attrExtendedCommunities with
  | some (.extendedCommunities communities) =>
    match appendSoos communities c.sooList s.extComms with
    | (some e, h) => (.error e, { s with extComms := h })
    | (none, h) =>
      (.ok (.extendedCommunities communities :: (getAttr attrs attrPmsiTunnel).toList),
        { s with extComms := h })
  | _ => (.ok [], s)

/-- ORIGINATOR_ID and CLUSTER_LIST, for a client of a route reflector. -/
def reflectorAttrs (s : AttrStore) (p : RibPath StoredAttr) : List StoredAttr × AttrStore :=
  if c.isRouteReflectorClient then
    let (cluster, s) := clusterAttr c s p.pathattrMap
    (originatorAttrs env c p ++ [cluster], s)
  else ([], s)

def AttrStore.readPath (s : AttrStore) (p : RibPath StoredAttr) : RibPath PlainAttr :=
  p.map s.readAttr

/-- The communities, and the message with what was made before. -/
def finishUpdate (s : AttrStore) (p : RibPath StoredAttr) (reflector : List StoredAttr)
    (reach origin : StoredAttr) (asPath localPref : List StoredAttr) :
    Except PyError (BgpUpdate StoredAttr) × AttrStore :=
  let attrs := p.pathattrMap
  match extCommAttrs c s attrs with
  | (.error e, s) => (.error e, s)
  | (.ok extComm, s) =>
    (.ok (assemble p reflector reach origin asPath (aggregatorAttrs c attrs)
      (multiExitDiscAttrs c attrs) localPref (getAttr attrs attrCommunities).toList extComm
      (attrs.filter Attr.isUnknownOpttrans)), s)

/-- `_construct_update`. -/
def constructUpdate (s : AttrStore) (p : RibPath StoredAttr) :
    Except PyError (BgpUpdate StoredAttr) × AttrStore :=
  if p.isWithdraw then (.ok (withdrawUpdate p), s)
  else if c.isRouteServerClient then (.ok (wholeUpdate p), s)
  else
    let attrs := p.pathattrMap
    let (reflector, s) := reflectorAttrs env c s p
    match (nextHopFor env c p).bind (reachAttr env p) with
    | .error e => (.error e, s)
    | .ok reach =>
      match getAttr attrs attrOrigin, getAttr attrs attrAsPath with
      | some origin, some (.asPath value _) =>
        let (asPath, s) := asPathAttrs c s value
        match localPrefAttrs c (s.readPath p) with
        | .error e => (.error e, s)
        | .ok localPref => finishUpdate c s p reflector reach origin asPath localPref
      | _, _ => (.error .assertionError, s)

/-- CLUSTER_LIST by value. -/
def clusterListFor (attrs : List PlainAttr) : List String :=
  match getAttr attrs attrClusterList with
  | some (.clusterList l) => if c.clusterId ∈ l then l else c.clusterId :: l
  | _ => [c.clusterId]

/-- AS_PATH and AS4_PATH by value. -/
def asPathsFor (value : List AsPathSegment) : List PlainAttr :=
  let asPaths :=
    transAsPath c.fourOctetCapValid (if c.isEbgpPeer then prependAs c.localAs value else value)
  .asPath asPaths.1 c.fourOctetCapValid :: ((asPaths.2.filter (· ≠ [])).map Attr.as4Path).toList

/-- The communities of the sites of origin. -/
def sooCommunities : List Text → Except PyError (List ExtCommunity)
  | [] => .ok []
  | soo :: soos =>
    match sooCommunity soo with
    | .error e => .error e
    | .ok comm => (sooCommunities soos).map (comm :: ·)

/-- EXTENDED_COMMUNITIES and PMSI_TUNNEL by value. -/
def extCommsFor (attrs : List PlainAttr) : Except PyError (List PlainAttr) :=
  match getAttr attrs attrExtendedCommunities with
  | some (.extendedCommunities communities) =>
    (sooCommunities c.sooList).map fun comms =>
      .extendedCommunities (communities ++ comms) :: (getAttr attrs attrPmsiTunnel).toList
  | _ => .ok []

/-- The communities and the message by value. -/
def finishFor (p : RibPath PlainAttr) (reflector : List PlainAttr) (reach origin : PlainAttr)
    (asPath localPref : List PlainAttr) : Except PyError (BgpUpdate PlainAttr) :=
  let attrs := p.pathattrMap
  (extCommsFor c attrs).map fun extComm =>
    assemble p reflector reach origin asPath (aggregatorAttrs c attrs)
      (multiExitDiscAttrs c attrs) localPref (getAttr attrs attrCommunities).toList extComm
      (attrs.filter Attr.isUnknownOpttrans)

/-- The UPDATE for a path and a peer: it has no other input. -/
def updateFor (p : RibPath PlainAttr) : Except PyError (BgpUpdate PlainAttr) :=
  if p.isWithdraw then .ok (withdrawUpdate p)
  else if c.isRouteServerClient then .ok (wholeUpdate p)
  else
    let attrs := p.pathattrMap
    let reflector :=
      if c.isRouteReflectorClient then
        originatorAttrs env c p ++ [.clusterList (clusterListFor c attrs)]
      else []
    match (nextHopFor env c p).bind (reachAttr env p) with
    | .error e => .error e
    | .ok reach =>
      match getAttr attrs attrOrigin, getAttr attrs attrAsPath with
      | some origin, some (.asPath value _) =>
        match localPrefAttrs c p with
        | .error e => .error e
        | .ok localPref => finishFor c p reflector reach origin (asPathsFor c value) localPref
      | _, _ => .error .assertionError

/-- A site of origin is appended to the extended communities of the path: it is announced to a
peer that is no client of a route server, it has the attributes that are needed and extended
communities, and the first site of origin can be read. -/
structure AppendsSoo (p : RibPath PlainAttr) : Prop where
  announced : p.isWithdraw = false
  noServerClient : c.isRouteServerClient = false
  reach : ((nextHopFor env c p).bind (reachAttr env p)).isOk
  origin : (getAttr p.pathattrMap attrOrigin).isSome
  asPath : ∃ value b, getAttr p.pathattrMap attrAsPath = some (.asPath value b)
  localPref : c.isEbgpPeer = false → (c.lookupLocalPref (attributeMapsKey p) p).isOk
  extComm : ∃ comms, getAttr p.pathattrMap attrExtendedCommunities = some (.extendedCommunities comms)
  soo : ∃ soo soos, c.sooList = soo :: soos ∧ (sooCommunity soo).isOk

end Model

section Frame

variable {s s' s'' : AttrStore} {a : StoredAttr} {c : OutConf} {env : OutEnv}
  {p : RibPath StoredAttr} {attrs : List StoredAttr} {r : Ref}

/-- The objects of an attribute are there. -/
def AttrStore.Owns (s : AttrStore) : StoredAttr → Prop
  | .asPath r _ => s.asPaths.Has r
  | .as4Path r => s.asPaths.Has r
  | .clusterList r => s.clusterLists.Has r
  | .extendedCommunities r => s.extComms.Has r
  | _ => True

/-- Nothing has changed but for new objects. -/
structure AttrStore.Grows (s s' : AttrStore) : Prop where
  asPaths : Heap.Grows s.asPaths s'.asPaths
  clusterLists : Heap.Grows s.clusterLists s'.clusterLists
  extComms : Heap.Grows s.extComms s'.extComms

theorem AttrStore.Grows.refl (s : AttrStore) : s.Grows s := ⟨.refl _, .refl _, .refl _⟩

theorem AttrStore.Grows.trans (h : s.Grows s') (h' : s'.Grows s'') : s.Grows s'' :=
  ⟨h.asPaths.trans h'.asPaths, h.clusterLists.trans h'.clusterLists, h.extComms.trans h'.extComms⟩

theorem AttrStore.Grows.owns (h : s.Grows s') (ha : s.Owns a) :
    s'.Owns a ∧ s'.readAttr a = s.readAttr a := by
  unfold AttrStore.readAttr
  cases a with
  | asPath r b =>
    obtain ⟨hr, he⟩ := h.asPaths r ha
    exact ⟨hr, by rw [Attr.map, Attr.map, he]⟩
  | as4Path r =>
    obtain ⟨hr, he⟩ := h.asPaths r ha
    exact ⟨hr, by rw [Attr.map, Attr.map, he]⟩
  | clusterList r =>
    obtain ⟨hr, he⟩ := h.clusterLists r ha
    exact ⟨hr, by rw [Attr.map, Attr.map, he]⟩
  | extendedCommunities r =>
    obtain ⟨hr, he⟩ := h.extComms r ha
    exact ⟨hr, by rw [Attr.map, Attr.map, he]⟩
  | _ => exact ⟨trivial, rfl⟩

theorem AttrStore.Grows.readAttrs (h : s.Grows s') (ha : ∀ a ∈ attrs, s.Owns a) :
    attrs.map s'.readAttr = attrs.map s.readAttr :=
  List.map_congr_left fun a hm => (h.owns (ha a hm)).2

theorem AttrStore.Grows.readPath (h : s.Grows s') (ha : ∀ a ∈ p.pathattrMap, s.Owns a) :
    s'.readPath p = s.readPath p := by
  unfold AttrStore.readPath RibPath.map
  rw [h.readAttrs ha]

/-- An attribute other than EXTENDED_COMMUNITIES. -/
def NotExt (a : StoredAttr) : Prop := ∀ r, a ≠ .extendedCommunities r

/-- Such attributes do not read the lists of extended communities. -/
theorem readAttr_of_notExt (ha : NotExt a) (h : s'.asPaths = s.asPaths)
    (h' : s'.clusterLists = s.clusterLists) : s'.readAttr a = s.readAttr a := by
  unfold AttrStore.readAttr
  rw [h, h']
  cases a with
  | extendedCommunities r => exact absurd rfl (ha r)
  | _ => rfl

theorem notExt_of_type (h : a.type ≠ attrExtendedCommunities) : NotExt a := by
  rintro r rfl
  exact h rfl

theorem mem_of_getAttr {t : ℕ} (h : getAttr attrs t = some a) : a ∈ attrs ∧ a.type = t :=
  ⟨List.mem_of_find?_eq_some h, by simpa using List.find?_some h⟩

end Frame

section Pieces

variable {π ν κ π' ν' κ' : Type} {f : π → π'} {g : ν → ν'} {h : κ → κ'}
  {attrs : List (Attr π ν κ)} {p : RibPath (Attr π ν κ)} {c : OutConf} {env : OutEnv}

@[simp] theorem type_map (a : Attr π ν κ) : (a.map f g h).type = a.type := by
  cases a <;> rfl

@[simp] theorem isUnknownOpttrans_map (a : Attr π ν κ) :
    (a.map f g h).isUnknownOpttrans = a.isUnknownOpttrans := by
  cases a <;> rfl

theorem getAttr_map (attrs : List (Attr π ν κ)) (t : ℕ) :
    getAttr (attrs.map (Attr.map f g h)) t = (getAttr attrs t).map (Attr.map f g h) := by
  simp [getAttr, List.find?_map, Function.comp_def]

theorem unknown_map (attrs : List (Attr π ν κ)) :
    (attrs.map (Attr.map f g h)).filter Attr.isUnknownOpttrans =
      (attrs.filter Attr.isUnknownOpttrans).map (Attr.map f g h) := by
  simp [List.filter_map, Function.comp_def]

/-- ORIGINATOR_ID depends on the types of a path's attributes only. -/
theorem originatorAttrs_map {F : Attr π ν κ → Attr π' ν' κ'} (hF : ∀ a, (F a).type = a.type)
    (p : RibPath (Attr π ν κ)) :
    originatorAttrs env c (p.map F) = (originatorAttrs env c p).map (Attr.map f g h) := by
  unfold originatorAttrs
  have hget : getAttr (p.map F).pathattrMap attrOriginatorId =
      (getAttr p.pathattrMap attrOriginatorId).map F := by
    simp [getAttr, RibPath.map, List.find?_map, Function.comp_def, hF]
  rw [hget, Option.isSome_map]
  split <;> rfl

theorem reachAttr_map (F : Attr π ν κ → Attr π' ν' κ') (p : RibPath (Attr π ν κ))
    (nextHop : Option String) :
    reachAttr env (p.map F) nextHop = (reachAttr env p nextHop).map (Attr.map f g h) := by
  unfold reachAttr
  have h4 : (p.map F).isIpv4Path = p.isIpv4Path := rfl
  have hf : (p.map F).isFlowspec = p.isFlowspec := rfl
  rw [h4, hf]
  split_ifs
  · rfl
  · rfl
  · cases nextHop with
    | none => rfl
    | some n =>
      dsimp only
      obtain e | b := env.validIp n
      · rfl
      · cases b <;> rfl

theorem nextHopFor_map {α β : Type} (f : α → β) (p : RibPath α) :
    nextHopFor env c (p.map f) = nextHopFor env c p := rfl

theorem bind_reachAttr_map (F : Attr π ν κ → Attr π' ν' κ') (p : RibPath (Attr π ν κ)) :
    (nextHopFor env c (p.map F)).bind (reachAttr env (p.map F)) =
      ((nextHopFor env c p).bind (reachAttr env p)).map (Attr.map f g h) := by
  rw [nextHopFor_map]
  obtain e | n := nextHopFor env c p
  · rfl
  · exact reachAttr_map F p n

theorem aggregatorAttrs_map (attrs : List (Attr π ν κ)) :
    aggregatorAttrs c (attrs.map (Attr.map f g h)) =
      (aggregatorAttrs c attrs).map (Attr.map f g h) := by
  unfold aggregatorAttrs
  rw [getAttr_map]
  rcases getAttr attrs attrAggregator with _ | a
  · rfl
  · cases a with
    | aggregator n addr =>
      dsimp only [Option.map_some, Attr.map]
      split <;> rfl
    | _ => rfl

theorem multiExitDiscAttrs_map (attrs : List (Attr π ν κ)) :
    multiExitDiscAttrs c (attrs.map (Attr.map f g h)) =
      (multiExitDiscAttrs c attrs).map (Attr.map f g h) := by
  unfold multiExitDiscAttrs
  split
  · generalize Option.filter _ c.multiExitDisc = m
    cases m <;> rfl
  · rw [getAttr_map, Option.toList_map]

theorem localPrefAttrs_map (p : RibPath PlainAttr) :
    (localPrefAttrs (π := π') (ν := ν') (κ := κ') c p) =
      (localPrefAttrs c p).map (List.map (Attr.map f g h)) := by
  unfold localPrefAttrs
  split
  · rfl
  · rcases c.lookupLocalPref (attributeMapsKey p) p with e | r <;> rfl

end Pieces

section Store

variable {s s' : AttrStore} {a : StoredAttr} {c : OutConf} {env : OutEnv} {p : RibPath StoredAttr}
  {attrs : List StoredAttr} {r : Ref}

/-- What a piece of the message may do to the objects: it makes new ones, its attributes own
theirs, and it has no extended communities. -/
structure Made (s s' : AttrStore) (made : List StoredAttr) : Prop where
  grows : s.Grows s'
  owns : ∀ a ∈ made, s'.Owns a
  notExt : ∀ a ∈ made, NotExt a

theorem getAttr_read (s : AttrStore) (attrs : List StoredAttr) (t : ℕ) :
    getAttr (attrs.map s.readAttr) t = (getAttr attrs t).map s.readAttr :=
  getAttr_map attrs t

theorem clusterAttr_made (s : AttrStore) (attrs : List StoredAttr) :
    Made s (clusterAttr c s attrs).2 [(clusterAttr c s attrs).1] ∧
      (clusterAttr c s attrs).2.readAttr (clusterAttr c s attrs).1 =
        .clusterList (clusterListFor c (attrs.map s.readAttr)) := by
  unfold clusterAttr clusterListFor
  rw [getAttr_read]
  have hnew : ∀ l : List String,
      Made s { s with clusterLists := (s.clusterLists.alloc l).2 }
        [.clusterList (s.clusterLists.alloc l).1] := by
    intro l
    refine ⟨⟨.refl _, Heap.grows_alloc _ _, .refl _⟩, ?_, ?_⟩
    · rintro a ha
      obtain rfl := List.mem_singleton.mp ha
      exact Heap.has_alloc _ _
    · rintro a ha r
      obtain rfl := List.mem_singleton.mp ha
      simp
  rcases getAttr attrs attrClusterList with _ | a
  · exact ⟨hnew _, by simp [AttrStore.readAttr, Attr.map]⟩
  · cases a with
    | clusterList r =>
      dsimp only [Option.map_some, AttrStore.readAttr, Attr.map]
      rw [Heap.read_alloc]
      split
      · exact ⟨hnew _, by simp⟩
      · obtain ⟨hg, ho, hn⟩ := hnew (s.clusterLists.read r)
        refine ⟨⟨⟨.refl _, ?_, .refl _⟩, ?_, hn⟩, ?_⟩
        · exact (Heap.grows_alloc _ _).modify (Heap.not_has_alloc _ _)
        · rintro a ha
          obtain rfl := List.mem_singleton.mp ha
          exact Heap.has_modify.mpr (Heap.has_alloc _ _)
        · rw [Heap.read_modify (Heap.has_alloc _ _), Heap.read_alloc]
    | _ => exact ⟨hnew _, by simp [AttrStore.readAttr, Attr.map]⟩

theorem originatorAttrs_plain (hp : a ∈ originatorAttrs env c p) : s.Owns a ∧ NotExt a := by
  unfold originatorAttrs at hp
  split at hp
  · cases hp
  · obtain rfl := List.mem_singleton.mp hp
    exact ⟨trivial, fun r => by simp⟩

theorem reflectorAttrs_made (env : OutEnv) (c : OutConf) (s : AttrStore) (p : RibPath StoredAttr) :
    Made s (reflectorAttrs env c s p).2 (reflectorAttrs env c s p).1 ∧
      (reflectorAttrs env c s p).1.map (reflectorAttrs env c s p).2.readAttr =
        if c.isRouteReflectorClient then originatorAttrs env c (s.readPath p) ++
          [.clusterList (clusterListFor c (s.readPath p).pathattrMap)] else [] := by
  unfold reflectorAttrs
  obtain ⟨hm, hr⟩ := clusterAttr_made (c := c) s p.pathattrMap
  split
  · dsimp only
    refine ⟨⟨hm.grows, ?_, ?_⟩, ?_⟩
    · intro a ha
      rcases List.mem_append.mp ha with ha | ha
      · exact (originatorAttrs_plain ha).1
      · exact hm.owns a ha
    · intro a ha
      rcases List.mem_append.mp ha with ha | ha
      · exact (originatorAttrs_plain (s := s) ha).2
      · exact hm.notExt a ha
    · rw [List.map_append, List.map_singleton, hr]
      congr 1
      exact (originatorAttrs_map type_map p).symm
  · exact ⟨⟨.refl s, by simp, by simp⟩, rfl⟩

/-- The lists of `_trans_as_path`, of a list that is not one of the path's. -/
theorem transAsPathList_spec {h h' : Heap (List AsPathSegment)} (hg : Heap.Grows h h')
    (hr : h'.Has r) :
    let t := transAsPathList c h' r
    Heap.Grows h t.2.2 ∧ t.2.2.Has t.1 ∧ (∀ q ∈ t.2.1, t.2.2.Has q) ∧
      (t.2.2.read t.1, t.2.1.map t.2.2.read) = transAsPath c.fourOctetCapValid (h'.read r) := by
  unfold transAsPathList transAsPath
  split
  · exact ⟨hg, hr, by simp, rfl⟩
  · obtain ⟨hr', he⟩ := Heap.grows_alloc h' ((h'.read r).map swapSegment) r hr
    have hg' := hg.trans (Heap.grows_alloc h' ((h'.read r).map swapSegment))
    dsimp only
    rw [he, Heap.read_alloc]
    split
    · exact ⟨hg', hr', by simp, by simp [he]⟩
    · refine ⟨hg', Heap.has_alloc _ _, ?_, ?_⟩
      · rintro q hq
        obtain rfl := Option.some.inj hq
        exact hr'
      · rw [Heap.read_alloc, Option.map_some, he]

/-- The heap with the deep copy, after the local AS was put in front of it. -/
def copied (c : OutConf) (h : Heap (List AsPathSegment)) (value : Ref) :
    Heap (List AsPathSegment) :=
  if c.isEbgpPeer then
    (h.alloc (h.read value)).2.modify (h.alloc (h.read value)).1 (prependAs c.localAs)
  else (h.alloc (h.read value)).2

theorem copied_spec (c : OutConf) (h : Heap (List AsPathSegment)) (value : Ref) :
    Heap.Grows h (copied c h value) ∧ (copied c h value).Has (h.alloc (h.read value)).1 ∧
      (copied c h value).read (h.alloc (h.read value)).1 =
        if c.isEbgpPeer then prependAs c.localAs (h.read value) else h.read value := by
  have hg := Heap.grows_alloc h (h.read value)
  have hhas := Heap.has_alloc h (h.read value)
  unfold copied
  split
  · refine ⟨hg.modify (Heap.not_has_alloc _ _), Heap.has_modify.mpr hhas, ?_⟩
    rw [Heap.read_modify hhas, Heap.read_alloc]
  · exact ⟨hg, hhas, Heap.read_alloc _ _⟩

theorem asPathAttrs_made (s : AttrStore) (value : Ref) :
    Made s (asPathAttrs c s value).2 (asPathAttrs c s value).1 ∧
      (asPathAttrs c s value).1.map (asPathAttrs c s value).2.readAttr =
        asPathsFor c (s.asPaths.read value) := by
  obtain ⟨hg, hhas, hread⟩ := copied_spec c s.asPaths value
  have hspec := transAsPathList_spec (c := c) hg hhas
  rw [hread] at hspec
  have hattrs : asPathAttrs c s value =
      let t := transAsPathList c (copied c s.asPaths value) (s.asPaths.alloc (s.asPaths.read value)).1
      (.asPath t.1 c.fourOctetCapValid ::
          ((t.2.1.filter fun r => t.2.2.read r ≠ []).map Attr.as4Path).toList,
        { s with asPaths := t.2.2 }) := rfl
  rw [hattrs, asPathsFor]
  generalize transAsPathList c (copied c s.asPaths value) _ = t at hspec ⊢
  obtain ⟨q, q4, h⟩ := t
  obtain ⟨hg', hq, hq4, he⟩ := hspec
  dsimp only at hg' hq hq4 he ⊢
  refine ⟨⟨⟨hg', .refl _, .refl _⟩, ?_, ?_⟩, ?_⟩
  · intro a ha
    rcases List.mem_cons.mp ha with rfl | ha
    · exact hq
    · obtain ⟨r4, hr4, rfl⟩ := Option.map_eq_some_iff.mp (Option.mem_toList.mp ha)
      exact hq4 r4 (Option.mem_filter_iff.mp hr4).1
  · intro a ha r
    rcases List.mem_cons.mp ha with rfl | ha
    · simp
    · obtain ⟨r4, -, rfl⟩ := Option.map_eq_some_iff.mp (Option.mem_toList.mp ha)
      simp
  · rw [← he]
    cases q4 with
    | none => rfl
    | some r4 =>
      simp only [Option.map_some, Option.filter_some]
      split <;> rfl

/-- The loop over the sites of origin appends to one list, until one cannot be read. -/
theorem appendSoos_spec {h : Heap (List ExtCommunity)} (hr : h.Has r) (soos : List Text) :
    let t := appendSoos r soos h
    (∀ q, t.2.Has q ↔ h.Has q) ∧ (∀ q, q ≠ r → t.2.read q = h.read q) ∧
      (∃ comms, t.2.read r = h.read r ++ comms ∧
        (comms ≠ [] ↔ ∃ soo soos', soos = soo :: soos' ∧ (sooCommunity soo).isOk)) ∧
      (match sooCommunities soos with
        | .error e => t.1 = some e
        | .ok comms => t.1 = none ∧ t.2.read r = h.read r ++ comms) := by
  induction soos generalizing h with
  | nil => exact ⟨fun _ => Iff.rfl, fun _ _ => rfl, ⟨[], by simp [appendSoos], by simp⟩, by
      simp [appendSoos, sooCommunities]⟩
  | cons soo soos ih =>
    unfold appendSoos sooCommunities
    cases hs : sooCommunity soo with
    | error e => exact ⟨fun _ => Iff.rfl, fun _ _ => rfl, ⟨[], by simp, by simp [hs]⟩, rfl⟩
    | ok comm =>
      obtain ⟨hhas, hne, ⟨comms, hread, -⟩, hres⟩ :=
        ih (h := h.modify r (· ++ [comm])) (Heap.has_modify.mpr hr)
      rw [Heap.read_modify hr, List.append_assoc] at hread
      refine ⟨fun q => (hhas q).trans Heap.has_modify,
        fun q hq => (hne q hq).trans (Heap.read_modify_of_ne hq),
        ⟨[comm] ++ comms, hread, by simp [hs]⟩, ?_⟩
      cases hcs : sooCommunities soos with
      | error e =>
        rw [hcs] at hres
        exact hres
      | ok comms' =>
        rw [hcs] at hres
        refine ⟨hres.1, ?_⟩
        rw [hres.2, Heap.read_modify hr, List.append_assoc]
        rfl

/-- The sites of origin change what the path's own attributes read as, if one is appended. -/
theorem extCommAttrs_spec (ha : ∀ a ∈ attrs, s.Owns a) :
    let t := extCommAttrs c s attrs
    t.2.asPaths = s.asPaths ∧ t.2.clusterLists = s.clusterLists ∧
      (∀ q, t.2.extComms.Has q ↔ s.extComms.Has q) ∧
      t.1.map (List.map t.2.readAttr) = extCommsFor c (attrs.map s.readAttr) ∧
      ((∀ a ∈ attrs, t.2.readAttr a = s.readAttr a) ↔
        ¬ ((∃ comms, getAttr (attrs.map s.readAttr) attrExtendedCommunities =
            some (.extendedCommunities comms)) ∧
          ∃ soo soos, c.sooList = soo :: soos ∧ (sooCommunity soo).isOk)) := by
  unfold extCommAttrs extCommsFor
  rw [getAttr_read]
  rcases hget : getAttr attrs attrExtendedCommunities with _ | a
  · exact ⟨rfl, rfl, fun _ => Iff.rfl, rfl, by simp⟩
  · cases a with
    | extendedCommunities r =>
      obtain ⟨hmem, -⟩ := mem_of_getAttr hget
      obtain ⟨hhas, hne, ⟨comms, hread, hcomms⟩, hres⟩ :=
        appendSoos_spec (ha _ hmem) c.sooList
      dsimp only [Option.map_some, AttrStore.readAttr, Attr.map]
      have hpmsi : ∀ h : Heap (List ExtCommunity),
          (getAttr attrs attrPmsiTunnel).toList.map ({ s with extComms := h } : AttrStore).readAttr =
            (getAttr (attrs.map s.readAttr) attrPmsiTunnel).toList := by
        intro h
        rw [getAttr_read, Option.toList_map]
        refine List.map_congr_left fun a hpm => ?_
        have ht := (mem_of_getAttr (Option.mem_toList.mp hpm)).2
        exact readAttr_of_notExt (notExt_of_type (by rw [ht]; decide)) rfl rfl
      have hiff : ∀ h : Heap (List ExtCommunity), (∀ q, q ≠ r → h.read q = s.extComms.read q) →
          h.read r = s.extComms.read r ++ comms →
          ((∀ a ∈ attrs, ({ s with extComms := h } : AttrStore).readAttr a = s.readAttr a) ↔
            comms = []) := by
        intro h hne' hread'
        constructor
        · intro hall
          have he := hall _ hmem
          simp only [AttrStore.readAttr, Attr.map, hread'] at he
          simpa using he
        · rintro rfl a -
          have he : h.read = s.extComms.read := by
            funext q
            rcases eq_or_ne q r with rfl | hq
            · rw [hread', List.append_nil]
            · exact hne' q hq
          rw [AttrStore.readAttr, AttrStore.readAttr, he]
      have hsoo : comms = [] ↔ ¬ ((∃ l, some (Attr.extendedCommunities
          (π := List AsPathSegment) (ν := List String) (s.extComms.read r)) =
            some (.extendedCommunities l)) ∧
          ∃ soo soos, c.sooList = soo :: soos ∧ (sooCommunity soo).isOk) := by
        rw [← hcomms, not_and, not_not]
        exact ⟨fun h _ => h, fun h => h ⟨_, rfl⟩⟩
      generalize appendSoos r c.sooList s.extComms = t at hhas hne hread hres
      obtain ⟨e | e, h⟩ := t
      · cases hcs : sooCommunities c.sooList with
        | error e => simp [hcs] at hres
        | ok comms' =>
          rw [hcs] at hres
          refine ⟨rfl, rfl, hhas, ?_, (hiff h hne hread).trans hsoo⟩
          have hr := hres.2
          dsimp only at hr
          refine congrArg Except.ok (congrArg₂ List.cons ?_ (hpmsi h))
          rw [Attr.map, hr]
      · cases hcs : sooCommunities c.sooList with
        | error e' =>
          rw [hcs] at hres
          cases hres
          exact ⟨rfl, rfl, hhas, rfl, (hiff h hne hread).trans hsoo⟩
        | ok comms' => simp [hcs] at hres
    | _ => exact ⟨rfl, rfl, fun _ => Iff.rfl, rfl, by simp [AttrStore.readAttr, Attr.map]⟩

end Store

section Update

variable {s s₁ s₂ s₃ : AttrStore} {c : OutConf} {env : OutEnv} {p : RibPath StoredAttr}
  {attrs made : List StoredAttr}

/-- Attributes that were there before objects were made and communities appended read the same. -/
theorem read_later {a : StoredAttr} (h : s₁.Owns a ∧ NotExt a) (hg : s₁.Grows s₂)
    (hp : s₃.asPaths = s₂.asPaths) (hl : s₃.clusterLists = s₂.clusterLists) :
    s₃.readAttr a = s₁.readAttr a := by
  rw [readAttr_of_notExt h.2 hp hl, (hg.owns h.1).2]

theorem map_read_later (h : ∀ a ∈ made, s₁.Owns a ∧ NotExt a) (hg : s₁.Grows s₂)
    (hp : s₃.asPaths = s₂.asPaths) (hl : s₃.clusterLists = s₂.clusterLists) :
    made.map s₃.readAttr = made.map s₁.readAttr :=
  List.map_congr_left fun a ha => read_later (h a ha) hg hp hl

theorem looked_up_plain {t : ℕ} (ht : t ≠ attrExtendedCommunities) (ha : ∀ a ∈ attrs, s.Owns a) :
    ∀ a ∈ (getAttr attrs t).toList, s.Owns a ∧ NotExt a := by
  intro a hm
  obtain ⟨hmem, htype⟩ := mem_of_getAttr (Option.mem_toList.mp hm)
  exact ⟨ha a hmem, notExt_of_type (by rwa [htype])⟩

theorem aggregatorAttrs_plain :
    ∀ a ∈ aggregatorAttrs c attrs, s.Owns a ∧ NotExt a := by
  intro a hm
  unfold aggregatorAttrs at hm
  split at hm
  · split at hm
    · obtain rfl := List.mem_singleton.mp hm
      exact ⟨trivial, fun r => by simp⟩
    · rcases List.mem_pair.mp hm with rfl | rfl <;> exact ⟨trivial, fun r => by simp⟩
  · cases hm

theorem multiExitDiscAttrs_plain (ha : ∀ a ∈ attrs, s.Owns a) :
    ∀ a ∈ multiExitDiscAttrs c attrs, s.Owns a ∧ NotExt a := by
  intro a hm
  unfold multiExitDiscAttrs at hm
  split at hm
  · obtain ⟨m, -, rfl⟩ := Option.map_eq_some_iff.mp (Option.mem_toList.mp hm)
    exact ⟨trivial, fun r => by simp⟩
  · exact looked_up_plain (by decide) ha a hm

theorem unknown_plain (ha : ∀ a ∈ attrs, s.Owns a) :
    ∀ a ∈ attrs.filter Attr.isUnknownOpttrans, s.Owns a ∧ NotExt a := by
  intro a hm
  obtain ⟨hmem, hu⟩ := List.mem_filter.mp hm
  refine ⟨ha a hmem, ?_⟩
  rintro r rfl
  cases hu

theorem localPrefAttrs_plain {q : RibPath PlainAttr} {l : List StoredAttr}
    (h : localPrefAttrs c q = .ok l) : ∀ a ∈ l, s.Owns a ∧ NotExt a := by
  intro a hm
  unfold localPrefAttrs at h
  split at h
  · cases h
    cases hm
  · obtain ⟨v, -, rfl⟩ := map_eq_ok.1 h
    obtain rfl := List.mem_singleton.mp hm
    exact ⟨trivial, fun r => by simp⟩

theorem isOk_localPrefAttrs {π ν κ : Type} {q : RibPath PlainAttr} :
    (localPrefAttrs c q : Except PyError (List (Attr π ν κ))).isOk ↔
      (c.isEbgpPeer = false → (c.lookupLocalPref (attributeMapsKey q) q).isOk) := by
  unfold localPrefAttrs
  split
  · next h => simp [h]
  · next h => simp [h]

/-- Objects that were there stay, whatever is appended to a list of extended communities. -/
theorem owns_of_ext (hp : s₃.asPaths = s₂.asPaths) (hl : s₃.clusterLists = s₂.clusterLists)
    (he : ∀ q, s₃.extComms.Has q ↔ s₂.extComms.Has q) {a : StoredAttr} (h : s₂.Owns a) :
    s₃.Owns a := by
  cases a with
  | asPath r b => exact (congrArg (·.Has r) hp).mpr h
  | as4Path r => exact (congrArg (·.Has r) hp).mpr h
  | clusterList r => exact (congrArg (·.Has r) hl).mpr h
  | extendedCommunities r => exact (he r).mpr h
  | _ => trivial

theorem readPath_eq_iff {s' : AttrStore} :
    s'.readPath p = s.readPath p ↔ ∀ a ∈ p.pathattrMap, s'.readAttr a = s.readAttr a := by
  unfold AttrStore.readPath RibPath.map
  rw [← List.map_inj_left]
  simp

theorem withdrawUpdate_map {π ν κ π' ν' κ' : Type} {f : π → π'} {g : ν → ν'} {h : κ → κ'}
    (F : Attr π ν κ → Attr π' ν' κ') (p : RibPath (Attr π ν κ)) :
    (withdrawUpdate p).map (Attr.map f g h) = withdrawUpdate (p.map F) := by
  unfold withdrawUpdate
  have h4 : (p.map F).isIpv4Path = p.isIpv4Path := rfl
  rw [h4]
  split <;> rfl

theorem assemble_map {α β : Type} (F : α → β) (G : α → β) (p : RibPath α) (reflector : List α)
    (reach origin : α) (l₁ l₂ l₃ l₄ l₅ l₆ l₇ : List α) :
    (assemble p reflector reach origin l₁ l₂ l₃ l₄ l₅ l₆ l₇).map F =
      assemble (p.map G) (reflector.map F) (F reach) (F origin) (l₁.map F) (l₂.map F) (l₃.map F)
        (l₄.map F) (l₅.map F) (l₆.map F) (l₇.map F) := by
  simp only [assemble, BgpUpdate.map, List.map_append, List.map_cons]
  rfl

/-- The message of a path that is announced with all its attributes, once those before the
communities are made. -/
theorem assembled_spec (ha : ∀ a ∈ p.pathattrMap, s.Owns a) {reflector asPath localPref : List StoredAttr}
    {reach origin : StoredAttr} (hr : Made s s₁ reflector) (hm : Made s₁ s₂ asPath)
    (hreach : ∀ s' : AttrStore, s'.readAttr reach = s₁.readAttr reach)
    (horigin : getAttr p.pathattrMap attrOrigin = some origin)
    (hlp : localPrefAttrs c (s.readPath p) = .ok localPref) :
    let t := finishUpdate c s₂ p reflector reach origin asPath localPref
    t.1.map (BgpUpdate.map t.2.readAttr) =
        finishFor c (s.readPath p) (reflector.map s₁.readAttr) (s₁.readAttr reach)
          (s.readAttr origin) (asPath.map s₂.readAttr) (localPref.map s.readAttr) ∧
      (∀ a ∈ p.pathattrMap, t.2.Owns a) ∧
      (t.2.readPath p = s.readPath p ↔
        ¬ ((∃ comms, getAttr (s.readPath p).pathattrMap attrExtendedCommunities =
            some (.extendedCommunities comms)) ∧
          ∃ soo soos, c.sooList = soo :: soos ∧ (sooCommunity soo).isOk)) := by
  have hg := hr.grows.trans hm.grows
  have ha₂ : ∀ a ∈ p.pathattrMap, s₂.Owns a := fun a hmem => (hg.owns (ha a hmem)).1
  have hattrs : p.pathattrMap.map s₂.readAttr = (s.readPath p).pathattrMap := hg.readAttrs ha
  obtain ⟨hp, hl, hhas, hext, hiff⟩ := extCommAttrs_spec (c := c) ha₂
  rw [hattrs] at hext hiff
  unfold finishUpdate finishFor
  dsimp only
  generalize extCommAttrs c s₂ p.pathattrMap = t at hp hl hhas hext hiff ⊢
  obtain ⟨x, s₃⟩ := t
  dsimp only at hp hl hhas hext hiff
  have hpath : s₃.readPath p = s.readPath p ↔
      ∀ a ∈ p.pathattrMap, s₃.readAttr a = s₂.readAttr a := by
    rw [readPath_eq_iff]
    refine forall₂_congr fun a hmem => ?_
    rw [(hg.owns (ha a hmem)).2]
  rw [← hext, ← hiff, ← hpath]
  obtain e | extComm := x
  · exact ⟨rfl, fun a hmem => owns_of_ext hp hl hhas (ha₂ a hmem), Iff.rfl⟩
  · refine ⟨congrArg Except.ok ?_, fun a hmem => owns_of_ext hp hl hhas (ha₂ a hmem), Iff.rfl⟩
    · dsimp only
      have hattr : (s.readPath p).pathattrMap = p.pathattrMap.map s.readAttr := rfl
      have hpath : p.map s.readAttr = s.readPath p := rfl
      have hs : s.readAttr = Attr.map s.asPaths.read s.clusterLists.read s.extComms.read := rfl
      rw [assemble_map _ s.readAttr, hpath, hreach s₃, hattr, getAttr_read, hs, aggregatorAttrs_map,
        multiExitDiscAttrs_map, unknown_map, ← hs, Option.toList_map,
        map_read_later (fun a h => ⟨hr.owns a h, hr.notExt a h⟩) hm.grows hp hl,
        map_read_later (fun a h => ⟨hm.owns a h, hm.notExt a h⟩) (.refl s₂) hp hl,
        map_read_later aggregatorAttrs_plain hg hp hl,
        map_read_later (multiExitDiscAttrs_plain ha) hg hp hl,
        map_read_later (localPrefAttrs_plain hlp) hg hp hl,
        map_read_later (looked_up_plain (t := attrCommunities) (by decide) ha) hg hp hl,
        map_read_later (unknown_plain ha) hg hp hl,
        read_later (looked_up_plain (t := attrOrigin) (by decide) ha origin (by simp [horigin])) hg hp
          hl]
/-- What `_construct_update` does: the message is the one for what the path reads as, the objects
of the path stay, and it reads as something else exactly if a site of origin is appended. -/
theorem constructUpdate_spec (env : OutEnv) (c : OutConf) (ha : ∀ a ∈ p.pathattrMap, s.Owns a) :
    let t := constructUpdate env c s p
    t.1.map (BgpUpdate.map t.2.readAttr) = updateFor env c (s.readPath p) ∧
      (∀ a ∈ p.pathattrMap, t.2.Owns a) ∧
      (t.2.readPath p = s.readPath p ↔ ¬ AppendsSoo env c (s.readPath p)) := by
  -- where the function ends before it comes to the communities
  have hend : ∀ s', s.Grows s' → ¬ AppendsSoo env c (s.readPath p) →
      (∀ a ∈ p.pathattrMap, s'.Owns a) ∧
        (s'.readPath p = s.readPath p ↔ ¬ AppendsSoo env c (s.readPath p)) :=
    fun s' hg hn => ⟨fun a hm => (hg.owns (ha a hm)).1, iff_of_true (hg.readPath ha) hn⟩
  have hplain : ∀ s' : AttrStore, ((nextHopFor env c (s.readPath p)).bind
      (reachAttr env (s.readPath p))) =
        ((nextHopFor env c p).bind (reachAttr env p)).map s'.readAttr :=
    fun s' => bind_reachAttr_map s.readAttr p
  have hget : ∀ t, getAttr (s.readPath p).pathattrMap t =
      (getAttr p.pathattrMap t).map s.readAttr := getAttr_read s p.pathattrMap
  have hw' : (s.readPath p).isWithdraw = p.isWithdraw := rfl
  unfold constructUpdate updateFor
  rw [hw']
  cases hw : p.isWithdraw with
  | true =>
    have hn : ¬ AppendsSoo env c (s.readPath p) := fun h => by
      have := h.announced
      rw [hw', hw] at this
      cases this
    exact ⟨congrArg Except.ok (withdrawUpdate_map s.readAttr p), hend s (.refl s) hn⟩
  | false =>
    rw [if_neg Bool.false_ne_true, if_neg Bool.false_ne_true]
    cases hc : c.isRouteServerClient with
    | true =>
      have hn : ¬ AppendsSoo env c (s.readPath p) := fun h => by
        have := h.noServerClient
        rw [hc] at this
        cases this
      exact ⟨rfl, hend s (.refl s) hn⟩
    | false =>
      rw [if_neg Bool.false_ne_true, if_neg Bool.false_ne_true]
      obtain ⟨hr, hread⟩ := reflectorAttrs_made env c s p
      generalize reflectorAttrs env c s p = t at hr hread ⊢
      obtain ⟨reflector, s₁⟩ := t
      dsimp only at hr hread ⊢
      rw [← hread, hplain s₁, hget, hget]
      rcases hb : (nextHopFor env c p).bind (reachAttr env p) with e | reach
      · refine ⟨rfl, hend s₁ hr.grows fun h => ?_⟩
        have := h.reach
        rw [hplain s₁, hb] at this
        cases this
      · have hreach : ∀ s' : AttrStore, s'.readAttr reach = s₁.readAttr reach := by
          intro s'
          have he := (hplain s').symm.trans (hplain s₁)
          rw [hb] at he
          exact Except.ok.inj he
        rcases hO : getAttr p.pathattrMap attrOrigin with _ | origin
        · refine ⟨rfl, hend s₁ hr.grows fun h => ?_⟩
          have := h.origin
          rw [hget, hO] at this
          cases this
        · have hA : ∀ a, getAttr p.pathattrMap attrAsPath = a →
              (∀ v b, a.map s.readAttr ≠ some (.asPath v b)) →
                ¬ AppendsSoo env c (s.readPath p) := by
            rintro a rfl hne h
            obtain ⟨v, b, he⟩ := h.asPath
            rw [hget] at he
            exact hne v b he
          rcases hA' : getAttr p.pathattrMap attrAsPath with _ | a
          · exact ⟨rfl, hend s₁ hr.grows (hA _ hA' (by simp))⟩
          · cases a with
            | asPath value b =>
              obtain ⟨hm, hmr⟩ := asPathAttrs_made (c := c) s₁ value
              have hv : s₁.asPaths.read value = s.asPaths.read value :=
                (hr.grows.asPaths value (ha _ (mem_of_getAttr hA').1)).2
              rw [hv] at hmr
              have hra : s.readAttr (.asPath value b) = .asPath (s.asPaths.read value) b := rfl
              have hlpv : localPrefAttrs c (s.readPath p) =
                  (localPrefAttrs c (s.readPath p)).map (List.map s.readAttr) :=
                localPrefAttrs_map (s.readPath p)
              dsimp only [Option.map_some]
              rw [hra]
              generalize asPathAttrs c s₁ value = t at hm hmr ⊢
              obtain ⟨asPath, s₂⟩ := t
              have hg := hr.grows.trans hm.grows
              dsimp only at hm hmr hg ⊢
              rw [hg.readPath ha, ← hmr, hlpv]
              rcases hlp : (localPrefAttrs c (s.readPath p) : Except PyError (List StoredAttr))
                with e | localPref
              · refine ⟨rfl, hend s₂ hg fun h => ?_⟩
                have hok := (isOk_localPrefAttrs (π := Ref) (ν := Ref) (κ := Ref)).mpr h.localPref
                rw [hlp] at hok
                cases hok
              · have hspec := assembled_spec (c := c) ha hr hm hreach hO hlp
                have happ : AppendsSoo env c (s.readPath p) ↔
                    (∃ comms, getAttr (s.readPath p).pathattrMap attrExtendedCommunities =
                      some (.extendedCommunities comms)) ∧
                    ∃ soo soos, c.sooList = soo :: soos ∧ (sooCommunity soo).isOk := by
                  constructor
                  · intro h
                    exact ⟨h.extComm, h.soo⟩
                  · rintro ⟨hx, hsoo⟩
                    refine ⟨hw'.trans hw, hc, ?_, ?_, ⟨_, b, by rw [hget, hA']; rfl⟩,
                      isOk_localPrefAttrs.1 (by rw [hlp]; rfl), hx, hsoo⟩
                    · rw [hplain s, hb]
                      rfl
                    · rw [hget, hO]
                      rfl
                rw [happ]
                exact hspec
            | _ => exact ⟨rfl, hend s₁ hr.grows (hA _ hA' (by simp [AttrStore.readAttr, Attr.map]))⟩

/-- A path in the RIB, with the objects its attributes refer to. -/
structure RibEntry where
  objects : AttrStore
  path : RibPath StoredAttr
  owned : ∀ a ∈ path.pathattrMap, objects.Owns a

/-- What the attributes of the path read as. -/
def RibEntry.read (e : RibEntry) : RibPath PlainAttr := e.objects.readPath e.path

/-- The path is sent to a neighbor: the message, with its attributes as they are then, and the path
with the objects that are left. -/
def RibEntry.advertise (env : OutEnv) (e : RibEntry) (c : OutConf) :
    Except PyError (BgpUpdate PlainAttr) × RibEntry :=
  let t := constructUpdate env c e.objects e.path
  (t.1.map (BgpUpdate.map t.2.readAttr), ⟨t.2, e.path, (constructUpdate_spec env c e.owned).2.1⟩)

/-- What a path reads as does not change while it is advertised, and every message built is the one
for the path as it was learned, exactly if no neighbor has a site of origin appended to it. -/
theorem advertised_unchanged_iff (env : OutEnv) (e : RibEntry) (cs : List OutConf) :
    Throughout (fun e c => (RibEntry.advertise env e c).2) (fun e' => e'.read = e.read) e cs ∧
        EveryStep (fun e c => (RibEntry.advertise env e c).2)
          (fun e' c => (e'.advertise env c).1 = updateFor env c e.read) e cs ↔
      ∀ c ∈ cs, ¬ AppendsSoo env c e.read := by
  suffices h : ∀ e', e'.read = e.read →
      (Throughout (fun e c => (RibEntry.advertise env e c).2) (fun e' => e'.read = e.read) e' cs ∧
          EveryStep (fun e c => (RibEntry.advertise env e c).2)
            (fun e' c => (e'.advertise env c).1 = updateFor env c e.read) e' cs ↔
        ∀ c ∈ cs, ¬ AppendsSoo env c e.read) from h e rfl
  induction cs with
  | nil => exact fun e' he => by simp [Throughout, EveryStep, he]
  | cons c cs ih =>
    intro e' he
    obtain ⟨hmsg, -, hiff⟩ := constructUpdate_spec env c e'.owned
    have hread : e'.objects.readPath e'.path = e.read := he
    rw [hread] at hmsg hiff
    rw [List.forall_mem_cons]
    constructor
    · rintro ⟨⟨-, ht⟩, -, hs⟩
      exact ⟨hiff.mp ht.head, (ih _ ht.head).mp ⟨ht, hs⟩⟩
    · rintro ⟨hc, hcs⟩
      obtain ⟨ht, hs⟩ := (ih (e'.advertise env c).2 (hiff.mpr hc)).mpr hcs
      exact ⟨⟨he, ht⟩, hmsg, hs⟩

/-- Addresses are taken as they are. -/
def plainEnv : OutEnv := ⟨fun _ => .ok true, .ok, fun _ => "192.0.2.1"⟩

/-- An external neighbor with sites of origin. -/
def neighborWith (sooList : List Text) : OutConf where
  isRouteServerClient := false
  isRouteReflectorClient := false
  isNextHopSelf := false
  fourOctetCapValid := true
  routerId := "10.0.0.1"
  clusterId := "10.0.0.1"
  localAs := 65000
  commonLocalAs := 65000
  remoteAs := 65001
  nextHop := none
  hostBindIp := "10.0.0.1"
  multiExitDisc := none
  localPref := 100
  lookupLocalPref _ _ := .ok none
  sooList := sooList

/-- A VPNv4 path with a route target. -/
def vpnEntry : RibEntry where
  objects := ⟨⟨[[.seq [65002]]]⟩, ⟨[]⟩, ⟨[[.twoOctetAsSpecific 2 65000 1]]⟩⟩
  path := ⟨rfIPv4Vpn, ⟨rfIPv4Vpn, "65000:1:10.0.0.0/24", 0⟩, "65000:1", .peer 1, some "10.0.0.2", false,
    [.origin 0, .asPath 0 true, .extendedCommunities 0]⟩
  owned := by
    intro a ha
    simp only [List.mem_cons, List.not_mem_nil, or_false] at ha
    rcases ha with rfl | rfl | rfl
    · trivial
    · exact Nat.zero_lt_one
    · exact Nat.zero_lt_one

/-- The site of origin of one neighbor is sent to the next one. -/
theorem soo_sent_to_next :
    ((vpnEntry.advertise plainEnv (neighborWith ["65000:7".toList])).2.advertise plainEnv
      (neighborWith [])).1 ≠ updateFor plainEnv (neighborWith []) vpnEntry.read := by
  decide

end Update

end Ryu.Bgp
