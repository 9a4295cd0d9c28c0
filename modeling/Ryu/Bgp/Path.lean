import Mathlib.Data.Nat.Notation
import Ryu.Lib.Python

/-! # BGP paths and their sources

A path says that a source reaches a prefix with certain attributes. What the speaker
knows of the peers that are sources is kept beside the paths.
-/

namespace Ryu.Bgp

/-- What `Path.__init__` admits as a source: `None` (the network controller), a peer, and the
strings `VRF_TABLE` and `VPN_TABLE`. -/
inductive Source
  | nc
  | peer (index : ℕ)
  | vrfTable
  | vpnTable
  deriving DecidableEq, Repr

/-- Address family and subsequent address family. -/
structure RouteFamily where
  afi : ℕ
  safi : ℕ
  deriving DecidableEq, Repr

def rfIPv4Uc : RouteFamily := ⟨1, 1⟩
def rfIPv6Uc : RouteFamily := ⟨2, 1⟩
def rfRtcUc : RouteFamily := ⟨1, 132⟩

/-- `tableKey` is what `Table._table_key` makes of the NLRI; `originAs` is read for RT NLRIs. -/
structure Nlri where
  routeFamily : RouteFamily
  tableKey : String
  originAs : ℕ
  deriving DecidableEq, Repr

inductive AsPathSegment
  | set (asNumbers : List ℕ)
  | seq (asNumbers : List ℕ)
  deriving DecidableEq, Repr

/-- The path attributes that are read; none where the map has no such attribute. -/
structure PathAttrs where
  origin : Option ℕ
  asPath : Option (List AsPathSegment)
  localPref : Option ℕ
  med : Option ℕ
  communities : Option (List ℕ)
  routeTargets : List String
  originatorId : Option ℕ
  clusterList : Option (List ℕ)
  deriving DecidableEq, Repr

/-- A `Path`. Paths have no equality of their own: `index` tells two objects apart. -/
structure Path where
  index : ℕ
  source : Source
  nlri : Nlri
  attrs : PathAttrs
  isWithdraw : Bool
  deriving DecidableEq, Repr

def Path.routeFamily (p : Path) : RouteFamily := p.nlri.routeFamily

/-- The BGP identifiers of the OPEN messages of a session. -/
structure Protocol where
  sentOpenMsg : Option ℕ
  recvOpenMsg : Option ℕ
  deriving DecidableEq, Repr

/-- What is read of a peer when paths are compared. -/
structure PeerSession where
  remoteAs : ℕ
  protocol : Option Protocol
  deriving DecidableEq, Repr

/-- The speaker: its AS and the peers by index. -/
structure Speaker where
  asn : ℕ
  peer : ℕ → PeerSession

end Ryu.Bgp
