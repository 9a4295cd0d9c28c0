import Ryu.Ofctl.Flow
import Ryu.Ofproto.Address

/-! # The versions of `ofctl`

A service takes the `ofctl` module of the version its switch speaks. Those of OpenFlow 1.2 and 1.3
differ in four fields here. A match of OpenFlow 1.0 has twelve fields, and a VLAN is a number in
its statistics.
-/

namespace Ryu

open Numeral

/-- What the firewall takes from an `ofctl` module. The two reserved ports it outputs to have their
names, and a match without fields is written as it was read. -/
structure Ofctl where
  Match : Type
  decidableEq : DecidableEq Match
  toMatch : Dict RestKey Value → Except PyError Match
  matchToStr : Match → Dict RestKey Value
  /-- `OFPP_`, and the size of a port in bytes. -/
  ofpp : Reserved
  portSize : ℕ
  ofppNormal : ℕ
  ofppController : ℕ
  normal : Assoc.lookup "NORMAL".toList ofpp = some ofppNormal
  normalToUser : reservedNumToUser ofpp ofppNormal = .str "NORMAL".toList
  normal_lt : ofppNormal < 256 ^ portSize
  controller : Assoc.lookup "CONTROLLER".toList ofpp = some ofppController
  controllerToUser : reservedNumToUser ofpp ofppController = .str "CONTROLLER".toList
  controller_lt : ofppController < 256 ^ portSize
  any : Match
  toMatch_empty : toMatch Dict.empty = .ok any
  matchToStr_any : matchToStr any = Dict.empty

instance (c : Ofctl) : DecidableEq c.Match := c.decidableEq

/-- `OFPMatch` of OpenFlow 1.0, the fields that are not wildcards. A network has a length. -/
structure OFPMatch10 (α : Type) where
  inPort : Option α
  dlSrc : Option ℕ
  dlDst : Option ℕ
  dlVlan : Option α
  dlVlanPcp : Option α
  dlType : Option α
  nwTos : Option α
  nwProto : Option α
  nwSrc : Option (ℕ × ℕ)
  nwDst : Option (ℕ × ℕ)
  tpSrc : Option α
  tpDst : Option α
  deriving DecidableEq, Repr

namespace OFPMatch10

/-- `OFPFW_ALL`. -/
def wildcard (α : Type) : OFPMatch10 α :=
  ⟨none, none, none, none, none, none, none, none, none, none, none, none⟩

def ofpp : Reserved :=
  [("MAX".toList, 0xff00), ("IN_PORT".toList, 0xfff8), ("TABLE".toList, 0xfff9),
    ("NORMAL".toList, 0xfffa), ("FLOOD".toList, 0xfffb), ("ALL".toList, 0xfffc),
    ("CONTROLLER".toList, 0xfffd), ("LOCAL".toList, 0xfffe), ("NONE".toList, 0xffff)]

-- The second is `socket.inet_aton`.
variable (ac : AddrConv) (aton : Text → Option ℕ)

/-- `haddr_to_bin`, which raises `ValueError` whatever is wrong. A number is an address, too. -/
def haddrToBin : Value → Except PyError ℕ
  | .int n => if 0 ≤ n ∧ n < 2 ^ 48 then .ok n.toNat else .error (.valueError "")
  | .str s =>
    match ac.textToBin .mac s with
    | some (n, _) => .ok n
    | none => .error (.valueError "")

/-- A network of `to_match`; what follows a second slash makes the length be ignored. -/
def toNetwork : Value → Except PyError (ℕ × ℕ)
  | .int _ => .error (.attributeError "split")
  | .str s =>
    let ip := s.splitOn '/'
    match aton (ip.headD []) with
    | none => .error (.other "OSError")
    | some addr =>
      match ip with
      | [_, len] =>
        match int? len with
        | none => .error (.valueError "invalid literal for int() with base 10")
        | some mask =>
          if 0 < mask ∧ mask ≤ 32 then .ok (addr, mask.toNat) else .error .assertionError
      | _ => .ok (addr, 32)

/-- One turn of the loop of `to_match`; a key that is not known is reported and left out. -/
def setField (m : OFPMatch10 Value) (k : RestKey) (v : Value) :
    Except PyError (OFPMatch10 Value) :=
  match k with
  | .oxm .inPort => .ok { m with inPort := some (reservedNumFromUser "OFPP_".toList ofpp v) }
  | .legacy .dlSrc => (haddrToBin ac v).map fun n => { m with dlSrc := some n }
  | .legacy .dlDst => (haddrToBin ac v).map fun n => { m with dlDst := some n }
  | .legacy .dlVlan => (strToInt v).map fun n => { m with dlVlan := some (.int n) }
  | .legacy .dlType => (strToInt v).map fun n => { m with dlType := some (.int n) }
  | .legacy .nwProto => (strToInt v).map fun n => { m with nwProto := some (.int n) }
  | .legacy .nwSrc => (toNetwork aton v).map fun n => { m with nwSrc := some n }
  | .legacy .nwDst => (toNetwork aton v).map fun n => { m with nwDst := some n }
  | .legacy .tpSrc => (strToInt v).map fun n => { m with tpSrc := some (.int n) }
  | .legacy .tpDst => (strToInt v).map fun n => { m with tpDst := some (.int n) }
  | .unknown name =>
    if name = "dl_vlan_pcp" then (strToInt v).map fun n => { m with dlVlanPcp := some (.int n) }
    else if name = "nw_tos" then (strToInt v).map fun n => { m with nwTos := some (.int n) }
    else .ok m
  | .oxm _ => .ok m

def setFields : List (RestKey × Value) → OFPMatch10 Value → Except PyError (OFPMatch10 Value)
  | [], m => .ok m
  | (k, v) :: es, m =>
    match setField ac aton m k v with
    | .error e => .error e
    | .ok m => setFields es m

def packSome (size : ℕ) : Option Value → Except PyError (Option ℕ)
  | none => .ok none
  | some v => (pack size v).map some

/-- `OFPMatch.serialize`. -/
def serialize (m : OFPMatch10 Value) : Except PyError (OFPMatch10 ℕ) := do
  let inPort ← packSome 2 m.inPort
  let dlVlan ← packSome 2 m.dlVlan
  let dlVlanPcp ← packSome 1 m.dlVlanPcp
  let dlType ← packSome 2 m.dlType
  let nwTos ← packSome 1 m.nwTos
  let nwProto ← packSome 1 m.nwProto
  let tpSrc ← packSome 2 m.tpSrc
  let tpDst ← packSome 2 m.tpDst
  return { m with inPort, dlVlan, dlVlanPcp, dlType, nwTos, nwProto, tpSrc, tpDst }

/-- `to_match`, and the match as it is sent. -/
def toMatch (attrs : Dict RestKey Value) : Except PyError (OFPMatch10 ℕ) :=
  match setFields ac aton attrs.entries (wildcard Value) with
  | .error e => .error e
  | .ok m => serialize m

/-- `nw_src_to_str`, `nw_dst_to_str`. -/
def networkToStr (network : ℕ × ℕ) : Text :=
  ipv4Format.write network.1 ++ if network.2 = 32 then [] else '/' :: dec network.2

/-- `match[k] = v`, unless the field is a wildcard. -/
def put (d : Dict RestKey Value) (k : RestKey) : Option Value → Dict RestKey Value
  | none => d
  | some v => d.set k v

/-- `match_to_str`. -/
def matchToStr (m : OFPMatch10 ℕ) : Dict RestKey Value :=
  let d := put Dict.empty (.oxm .inPort) (m.inPort.map (reservedNumToUser ofpp))
  let d := put d (.legacy .dlSrc) (m.dlSrc.map fun n => .str (ac.binToText .mac n))
  let d := put d (.legacy .dlDst) (m.dlDst.map fun n => .str (ac.binToText .mac n))
  let d := put d (.legacy .dlVlan) (m.dlVlan.map fun n => .int n)
  let d := put d (.unknown "dl_vlan_pcp") (m.dlVlanPcp.map fun n => .int n)
  let d := put d (.legacy .dlType) (m.dlType.map fun n => .int n)
  let d := put d (.unknown "nw_tos") (m.nwTos.map fun n => .int n)
  let d := put d (.legacy .nwProto) (m.nwProto.map fun n => .int n)
  let d := put d (.legacy .nwSrc) (m.nwSrc.map fun n => .str (networkToStr n))
  let d := put d (.legacy .nwDst) (m.nwDst.map fun n => .str (networkToStr n))
  let d := put d (.legacy .tpSrc) (m.tpSrc.map fun n => .int n)
  put d (.legacy .tpDst) (m.tpDst.map fun n => .int n)

theorem get?_put (d : Dict RestKey Value) (k k' : RestKey) (v : Option Value) :
    (put d k v).get? k' = if k = k' then v.or (d.get? k') else d.get? k' := by
  cases v with
  | none => simp [put]
  | some v => simp [put, Dict.get?_set]

/-- The VLAN is written as a number. -/
theorem get?_dlVlan (ac : AddrConv) (m : OFPMatch10 ℕ) :
    (matchToStr ac m).get? (.legacy .dlVlan) = m.dlVlan.map fun n => .int n := by
  cases h : m.dlVlan <;> simp [matchToStr, get?_put, h]

theorem get?_dlType (ac : AddrConv) (m : OFPMatch10 ℕ) :
    (matchToStr ac m).get? (.legacy .dlType) = m.dlType.map fun n => .int n := by
  cases h : m.dlType <;> simp [matchToStr, get?_put, h]

theorem get?_nwProto (ac : AddrConv) (m : OFPMatch10 ℕ) :
    (matchToStr ac m).get? (.legacy .nwProto) = m.nwProto.map fun n => .int n := by
  cases h : m.nwProto <;> simp [matchToStr, get?_put, h]

end OFPMatch10

/-- The fields that OpenFlow 1.2 does not have. -/
def laterFields : List RestKey :=
  [.oxm .mplsBos, .oxm .pbbIsid, .oxm .tunnelId, .oxm .ipv6Exthdr]

/-- `to_match` of OpenFlow 1.2; a key that is not known is reported and left out. -/
def toMatch12 (ac : AddrConv) (attrs : Dict RestKey Value) : Except PyError OFPMatch :=
  toMatch ac (attrs.filter fun k _ => k ∉ laterFields)

/-- A match without fields. -/
def OFPMatch.any : OFPMatch where
  field := fun _ => none
  fits := by simp

theorem toMatch_empty (ac : AddrConv) : toMatch ac Dict.empty = .ok OFPMatch.any := by
  rfl

theorem matchToStr_any (ac : AddrConv) : matchToStr ac OFPMatch.any = Dict.empty := by
  rfl

/-- `_OFCTL`. -/
inductive OfVersion
  | v10 | v12 | v13
  deriving DecidableEq, Repr

def OfVersion.ofctl (ac : AddrConv) (aton : Text → Option ℕ) : OfVersion → Ofctl
  | .v10 => {
      Match := OFPMatch10 ℕ
      decidableEq := inferInstance
      toMatch := OFPMatch10.toMatch ac aton
      matchToStr := OFPMatch10.matchToStr ac
      ofpp := OFPMatch10.ofpp
      portSize := 2
      ofppNormal := 0xfffa
      ofppController := 0xfffd
      normal := rfl
      normalToUser := by decide
      normal_lt := by decide
      controller := rfl
      controllerToUser := by decide
      controller_lt := by decide
      any := OFPMatch10.wildcard ℕ
      toMatch_empty := rfl
      matchToStr_any := rfl }
  | .v12 => {
      Match := OFPMatch
      decidableEq := inferInstance
      toMatch := toMatch12 ac
      matchToStr := Ryu.matchToStr ac
      ofpp := Ryu.ofpp
      portSize := 4
      ofppNormal := 0xfffffffa
      ofppController := 0xfffffffd
      normal := rfl
      normalToUser := by decide
      normal_lt := by decide
      controller := rfl
      controllerToUser := by decide
      controller_lt := by decide
      any := OFPMatch.any
      toMatch_empty := toMatch_empty ac
      matchToStr_any := matchToStr_any ac }
  | .v13 => {
      Match := OFPMatch
      decidableEq := inferInstance
      toMatch := Ryu.toMatch ac
      matchToStr := Ryu.matchToStr ac
      ofpp := Ryu.ofpp
      portSize := 4
      ofppNormal := 0xfffffffa
      ofppController := 0xfffffffd
      normal := rfl
      normalToUser := by decide
      normal_lt := by decide
      controller := rfl
      controllerToUser := by decide
      controller_lt := by decide
      any := OFPMatch.any
      toMatch_empty := toMatch_empty ac
      matchToStr_any := matchToStr_any ac }

end Ryu
