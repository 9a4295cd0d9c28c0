import Ryu.Lib.Layout
import Ryu.Ofproto13.NxAction
import Ryu.Ofproto13.OxmFields

/-! # The bodies of Nicira actions

A Nicira action has a body of its own behind the header of an experimenter. Most bodies are packed
by one format. The others go on with flow specs, with properties, with numbers, or with the parts
of a range that are there.
-/

namespace Ryu.Actions

open Bytes
open Ofproto13 (Ofp roundUp)

/-! ## Flow specs -/

/-- Where a flow spec takes its value from: a part of a field, or an immediate value. -/
inductive SpecSrc
  | subfield (field : String) (ofs : ℕ)
  | immediate (value : ℤ)
  deriving DecidableEq, Repr

/-- Where a flow spec puts it: `NXFlowSpecMatch`, `NXFlowSpecLoad` and `NXFlowSpecOutput`. -/
inductive SpecDst
  | matching (field : String) (ofs : ℕ)
  | load (field : String) (ofs : ℕ)
  | output
  deriving DecidableEq, Repr

structure NXFlowSpec where
  src : SpecSrc
  dst : SpecDst
  nBits : ℕ
  deriving DecidableEq, Repr

def SpecSrc.srcType : SpecSrc → ℕ
  | subfield _ _ => 0
  | immediate _ => 1

/-- `_dst_type`. -/
def SpecDst.dstType : SpecDst → ℕ
  | matching _ _ => 0
  | load _ _ => 1
  | output => 2

/-- How long an immediate value of some bits is. -/
def srcLen (nBits : ℕ) : ℕ := (nBits + 15) / 16 * 2

/-- `IntDescr.from_user`: the last octets of a number. -/
def intFromUser (size : ℕ) (v : ℤ) : List UInt8 := toBytes size (v % (256 ^ size : ℕ)).toNat

section Serialize

variable (ofp : Ofp)

/-- `_serialize_subfield`. -/
def serializeSubfield (field : String) (ofs : ℕ) : Except PyError (List UInt8) := do
  let header ← ofp.fieldHeader field
  if header.length ≠ 4 then .error .assertionError
  else do
    let ofs ← packInto 2 ofs
    .ok (header ++ ofs)

def SpecSrc.serialize (nBits : ℕ) : SpecSrc → Except PyError (List UInt8)
  | subfield field ofs => serializeSubfield ofp field ofs
  | immediate value => .ok (intFromUser (srcLen nBits) value)

def SpecDst.serialize : SpecDst → Except PyError (List UInt8)
  | matching field ofs | load field ofs => serializeSubfield ofp field ofs
  | output => .ok []

def NXFlowSpec.serialize (s : NXFlowSpec) : Except PyError (List UInt8) := do
  let val := (s.src.srcType <<< 13) ||| (s.dst.dstType <<< 11) ||| s.nBits
  let header ← packInto 2 val
  let src ← s.src.serialize ofp s.nBits
  let dst ← s.dst.serialize ofp
  .ok (header ++ (src ++ dst))

end Serialize

/-! ## Actions -/

/-- The properties of `NXActionController2` that are set. -/
structure Controller2Props where
  maxLen : Option ℕ
  controllerId : Option ℕ
  reason : Option ℕ
  userdata : Option (List ℕ)
  pause : Option Bool
  deriving DecidableEq, Repr

/-- The ranges of `NXActionNAT`. An address that is not given is an empty text. -/
structure NatRanges where
  ipv4Min : Text
  ipv4Max : Text
  ipv6Min : Text
  ipv6Max : Text
  protoMin : Option ℤ
  protoMax : Option ℤ
  deriving DecidableEq, Repr

/-- What the classes of Nicira actions are made of, but `NXActionCT`. The class of `encap_nsh`
cannot be made. -/
inductive NXAction
  | unknown (subtype : ℕ) (data : Option (List UInt8))
  | setQueue (queueId : ℕ)
  | popQueue
  | regLoad (ofsNbits : ℕ) (dst : String) (value : ℕ)
  | regLoad2 (dst : String) (value : Value) (mask : Option Value)
  /-- The numbers are in a list or in a tuple. -/
  | note (tuple : Bool) (numbers : List ℕ)
  | setTunnel (tunId : ℕ)
  | setTunnel64 (tunId : ℕ)
  | regMove (srcField dstField : String) (nBits srcOfs dstOfs : ℕ)
  | resubmit (inPort : ℕ)
  | resubmitTable (inPort tableId : ℕ)
  | outputReg (ofsNbits : ℕ) (src : String) (maxLen : ℕ)
  | outputReg2 (ofsNbits : ℕ) (src : String) (maxLen : ℕ)
  | learn (tableId : ℕ) (specs : List NXFlowSpec)
      (idleTimeout hardTimeout priority cookie flags finIdleTimeout finHardTimeout : ℕ)
  | exit
  | decTtl
  | controller (maxLen controllerId reason : ℕ)
  | controller2 (props : Controller2Props)
  | decTtlCntIds (cntIds : List ℕ)
  | pushMpls (ethertype : ℕ)
  | popMpls (ethertype : ℕ)
  | setMplsTtl (ttl : ℕ)
  | decMplsTtl
  | setMplsLabel (label : ℕ)
  | setMplsTc (tc : ℕ)
  | stackPush (field : String) (start end_ : ℕ)
  | stackPop (field : String) (start end_ : ℕ)
  | sample (probability collectorSetId obsDomainId obsPointId : ℕ)
  | sample2 (probability collectorSetId obsDomainId obsPointId samplingPort : ℕ)
  | finTimeout (finIdleTimeout finHardTimeout : ℕ)
  | conjunction (clause nClauses id : ℕ)
  | multipath (fields basis algorithm maxLink arg ofsNbits : ℕ) (dst : String)
  | bundle (algorithm fields basis slaveType : ℕ) (slaves : List ℕ)
  | bundleLoad (algorithm fields basis slaveType ofsNbits : ℕ) (dst : Option String)
      (slaves : List ℕ)
  | ctClear
  | nat (flags : ℕ) (ranges : NatRanges)
  | outputTrunc (port maxLen : ℕ)
  | encapEther
  | decNshTtl
  deriving DecidableEq, Repr

namespace NXAction

/-- `_subtype`. -/
def subtype : NXAction → ℕ
  | unknown subtype _ => subtype
  | resubmit _ => 1
  | setTunnel _ => 2
  | setQueue _ => 4
  | popQueue => 5
  | regMove .. => 6
  | regLoad .. => 7
  | note .. => 8
  | setTunnel64 _ => 9
  | multipath .. => 10
  | bundle .. => 12
  | bundleLoad .. => 13
  | resubmitTable .. => 14
  | outputReg .. => 15
  | learn .. => 16
  | exit => 17
  | decTtl => 18
  | finTimeout .. => 19
  | controller .. => 20
  | decTtlCntIds _ => 21
  | pushMpls _ => 23
  | popMpls _ => 24
  | setMplsTtl _ => 25
  | decMplsTtl => 26
  | stackPush .. => 27
  | stackPop .. => 28
  | sample .. => 29
  | setMplsLabel _ => 30
  | setMplsTc _ => 31
  | outputReg2 .. => 32
  | regLoad2 .. => 33
  | conjunction .. => 34
  | nat .. => 36
  | controller2 _ => 37
  | sample2 .. => 38
  | outputTrunc .. => 39
  | ctClear => 43
  | encapEther => 46
  | decNshTtl => 48

end NXAction

/-! ## Bodies -/

section Serialize

variable (ofp : Ofp)

/-- The first number of the header of a field. -/
def fieldWord (field : String) : Except PyError ℕ := do
  let header ← ofp.fieldHeader field
  let (word, _) ← Format.unpackFrom [.num 4] header
  .ok word

/-- The field, with a mask or without one, and zeros up to a size it must not go beyond. -/
def NXActionRegLoad2.serializeBody (dst : String) (value : Value) (mask : Option Value) :
    Except PyError (List UInt8) := do
  let uv := match mask with
    | none => UserValue.one value
    | some mask => .pair value mask
  let (n, v, m) ← ofp.oxmFromUser dst uv
  let oxm ← ofp.oxmSerialize n v m
  if 14 < oxm.length then .error structError else .ok (padRight oxm 14)

/-- A list is filled up with zeros. A tuple cannot be. -/
def NXActionNote.serializeBody (tuple : Bool) (note : List ℕ) : Except PyError (List UInt8) :=
  let pad := (note.length + 2) % 8
  if pad = 0 then writeAll (packInto 1) note
  else if tuple then .error (.typeError "can only concatenate tuple (not \"list\") to tuple")
  else writeAll (packInto 1) (note ++ List.replicate (8 - pad) 0)

def NXActionRegMove.serializeBody (srcField dstField : String) (nBits srcOfs dstOfs : ℕ) :
    Except PyError (List UInt8) := do
  let data ← Format.pack [.num 2, .num 2, .num 2] (nBits, srcOfs, dstOfs, ())
  let src ← ofp.fieldHeader srcField
  let dst ← ofp.fieldHeader dstField
  .ok (data ++ (src ++ dst))

def NXActionLearn.serializeBody (tableId : ℕ) (specs : List NXFlowSpec)
    (idleTimeout hardTimeout priority cookie flags finIdleTimeout finHardTimeout : ℕ) :
    Except PyError (List UInt8) := do
  let data ← Format.pack [.num 2, .num 2, .num 2, .num 8, .num 2, .num 1, .pad 1, .num 2, .num 2]
    (idleTimeout, hardTimeout, priority, cookie, flags, tableId, finIdleTimeout, finHardTimeout, ())
  let specs ← writeAll (NXFlowSpec.serialize ofp) specs
  .ok (data ++ specs)

/-! ### Properties of `NXActionController2` -/

/-- `"!HHH2x"`. -/
def serializeNumProp (type_ value : ℕ) : Except PyError (List UInt8) :=
  Format.pack [.num 2, .num 2, .num 2, .pad 2] (type_, 8, value, ())

def serializeReasonProp (reason : ℕ) : Except PyError (List UInt8) :=
  Format.pack [.num 2, .num 2, .num 1, .pad 3] (Ofproto13.nxac2ptReason, 5, reason, ())

/-- How many zeros are behind the user data. -/
def userdataPad (n : ℕ) : ℕ :=
  let userLen := roundUp n 4
  if 4 < n then userLen - n + (if userLen % 8 = 0 then 4 else 0) else userLen - n

def serializeUserdataProp (userdata : List ℕ) : Except PyError (List UInt8) := do
  let userBuf ← writeAll (packInto 1) userdata
  let header ← Format.pack [.num 2, .num 2]
    (Ofproto13.nxac2ptUserdata, 4 + userdata.length, ())
  .ok (header ++ (userBuf ++ List.replicate (userdataPad userdata.length) 0))

/-- Whatever the property is set to. -/
def serializePauseProp : Except PyError (List UInt8) :=
  Format.pack [.num 2, .num 2, .pad 4] (Ofproto13.nxac2ptPause, 4, ())

/-- A property that is not set is left out. -/
def serializeProp {α : Type} (serialize : α → Except PyError (List UInt8)) :
    Option α → Except PyError (List UInt8)
  | none => .ok []
  | some value => serialize value

/-- In the order of their types. -/
def NXActionController2.serializeBody (props : Controller2Props) : Except PyError (List UInt8) := do
  let maxLen ← serializeProp (serializeNumProp Ofproto13.nxac2ptMaxLen) props.maxLen
  let controllerId ←
    serializeProp (serializeNumProp Ofproto13.nxac2ptControllerId) props.controllerId
  let reason ← serializeProp serializeReasonProp props.reason
  let userdata ← serializeProp serializeUserdataProp props.userdata
  let pause ← serializeProp (fun _ => serializePauseProp) props.pause
  .ok (List.replicate 6 0 ++ (maxLen ++ (controllerId ++ (reason ++ (userdata ++ pause)))))

/-! ### Lists of numbers -/

/-- How many octets are missing to a multiple of four numbers. -/
def numsPad (n : ℕ) : ℕ := 2 * (roundUp n 4 - n)

def NXActionDecTtlCntIds.serializeBody (cntIds : List ℕ) : Except PyError (List UInt8) := do
  let data ← Format.pack [.num 2, .pad 4] (cntIds.length, ())
  let ids ← writeAll (packInto 2) cntIds
  .ok (data ++ (ids ++ List.replicate (numsPad cntIds.length) 0))

/-- `NXActionStackBase`. -/
def NXActionStackBase.serializeBody (field : String) (start end_ : ℕ) :
    Except PyError (List UInt8) := do
  let oxmData ← ofp.fieldHeader field
  let data ← Format.pack [.num 2, .str 4, .num 2] (start, oxmData, end_, ())
  .ok (padRight data 12)

/-- The field of a bundle, or zeros for none. -/
def bundleDst : Option String → Except PyError (List UInt8)
  | none => .ok (List.replicate 4 0)
  | some dst => ofp.fieldHeader dst

/-- `_NXActionBundleBase`. The slaves are packed first, and the header before them then. -/
def NXActionBundleBase.serializeBody (algorithm fields basis slaveType ofsNbits : ℕ)
    (dst : Option String) (slaves : List ℕ) : Except PyError (List UInt8) := do
  let ids ← writeAll (packInto 2) slaves
  let data := if slaves = [] then [] else
    List.replicate 22 0 ++ (ids ++ List.replicate (numsPad slaves.length) 0)
  let header ← Format.pack [.num 2, .num 2, .num 2, .num 4, .num 2, .num 2]
    (algorithm, fields, basis, slaveType, slaves.length, ofsNbits, ())
  let data := packAt data 0 header
  let dst ← bundleDst ofp dst
  .ok (packAt data 14 dst)

/-! ### Ranges -/

/-- `from_user` of a type of addresses. A text with a length of a network gives a tuple. -/
def addrFromUser (kind : AddrKind) (s : Text) : Except PyError (List UInt8) :=
  match ofp.addr.textToBin kind s with
  | some (v, none) => .ok (toBytes kind.size v)
  | some (_, some _) => .error (.typeError "can't concat tuple to bytes")
  | none => .error (.other "AddrFormatError")

/-- The bit and the octets of an address that is given. -/
def addrRange (kind : AddrKind) (bit : ℕ) (s : Text) : Except PyError (ℕ × List UInt8) :=
  if s = [] then .ok (0, []) else (addrFromUser ofp kind s).map (bit, ·)

def protoRange (bit : ℕ) : Option ℤ → ℕ × List UInt8
  | none => (0, [])
  | some v => (bit, intFromUser 2 v)

def NXActionNAT.serializeBody (flags : ℕ) (r : NatRanges) : Except PyError (List UInt8) := do
  let ipv4Min ← addrRange ofp .ipv4 1 r.ipv4Min
  let ipv4Max ← addrRange ofp .ipv4 2 r.ipv4Max
  let ipv6Min ← addrRange ofp .ipv6 4 r.ipv6Min
  let ipv6Max ← addrRange ofp .ipv6 8 r.ipv6Max
  let protoMin := protoRange 16 r.protoMin
  let protoMax := protoRange 32 r.protoMax
  let parts := [ipv4Min, ipv4Max, ipv6Min, ipv6Max, protoMin, protoMax]
  let rangePresent := parts.foldl (fun present x => present ||| x.1) 0
  let data ← Format.pack [.pad 2, .num 2, .num 2] (flags, rangePresent, ())
  .ok (data ++ parts.flatMap Prod.snd)

/-- `serialize_body`. -/
def NXAction.serializeBody : NXAction → Except PyError (List UInt8)
  | unknown _ data => .ok (data.getD [])
  | setQueue queueId => Format.pack [.pad 2, .num 4] (queueId, ())
  | popQueue | exit | decTtl | decMplsTtl | ctClear | decNshTtl => Format.pack [.pad 6] ()
  | regLoad ofsNbits dst value => do
    let dst ← fieldWord ofp dst
    Format.pack [.num 2, .num 4, .num 8] (ofsNbits, dst, value, ())
  | regLoad2 dst value mask => NXActionRegLoad2.serializeBody ofp dst value mask
  | note tuple numbers => NXActionNote.serializeBody tuple numbers
  | setTunnel tunId => Format.pack [.pad 2, .num 4] (tunId, ())
  | setTunnel64 tunId => Format.pack [.pad 6, .num 8] (tunId, ())
  | regMove srcField dstField nBits srcOfs dstOfs =>
    NXActionRegMove.serializeBody ofp srcField dstField nBits srcOfs dstOfs
  | resubmit inPort => Format.pack [.num 2, .pad 4] (inPort, ())
  | resubmitTable inPort tableId => Format.pack [.num 2, .num 1, .pad 3] (inPort, tableId, ())
  | outputReg ofsNbits src maxLen => do
    let src ← ofp.fieldHeader src
    Format.pack [.num 2, .str 4, .num 2, .pad 6] (ofsNbits, src, maxLen, ())
  | outputReg2 ofsNbits src maxLen => do
    let src ← ofp.fieldHeader src
    let data ← Format.pack [.num 2, .num 2, .str 4] (ofsNbits, maxLen, src, ())
    .ok (padRight data 14)
  | learn tableId specs idleTimeout hardTimeout priority cookie flags finIdleTimeout
      finHardTimeout =>
    NXActionLearn.serializeBody ofp tableId specs idleTimeout hardTimeout priority cookie flags
      finIdleTimeout finHardTimeout
  | controller maxLen controllerId reason =>
    Format.pack [.num 2, .num 2, .num 1, .pad 1] (maxLen, controllerId, reason, ())
  | controller2 props => NXActionController2.serializeBody props
  | decTtlCntIds cntIds => NXActionDecTtlCntIds.serializeBody cntIds
  | pushMpls ethertype | popMpls ethertype => Format.pack [.num 2, .pad 4] (ethertype, ())
  | setMplsTtl ttl => Format.pack [.num 1, .pad 5] (ttl, ())
  | setMplsLabel label => Format.pack [.pad 2, .num 4] (label, ())
  | setMplsTc tc => Format.pack [.num 1, .pad 5] (tc, ())
  | stackPush field start end_ | stackPop field start end_ =>
    NXActionStackBase.serializeBody ofp field start end_
  | sample probability collectorSetId obsDomainId obsPointId =>
    Format.pack [.num 2, .num 4, .num 4, .num 4]
      (probability, collectorSetId, obsDomainId, obsPointId, ())
  | sample2 probability collectorSetId obsDomainId obsPointId samplingPort =>
    Format.pack [.num 2, .num 4, .num 4, .num 4, .num 2, .pad 6]
      (probability, collectorSetId, obsDomainId, obsPointId, samplingPort, ())
  | finTimeout finIdleTimeout finHardTimeout =>
    Format.pack [.num 2, .num 2, .pad 2] (finIdleTimeout, finHardTimeout, ())
  | conjunction clause nClauses id => Format.pack [.num 1, .num 1, .num 4] (clause, nClauses, id, ())
  | multipath fields basis algorithm maxLink arg ofsNbits dst => do
    let dst ← ofp.fieldHeader dst
    Format.pack [.num 2, .num 2, .pad 2, .num 2, .num 2, .num 4, .pad 2, .num 2, .str 4]
      (fields, basis, algorithm, maxLink, arg, ofsNbits, dst, ())
  | bundle algorithm fields basis slaveType slaves =>
    NXActionBundleBase.serializeBody ofp algorithm fields basis slaveType 0 none slaves
  | bundleLoad algorithm fields basis slaveType ofsNbits dst slaves =>
    NXActionBundleBase.serializeBody ofp algorithm fields basis slaveType ofsNbits dst slaves
  | nat flags ranges => NXActionNAT.serializeBody ofp flags ranges
  | outputTrunc port maxLen => Format.pack [.num 2, .num 4] (port, maxLen, ())
  | encapEther => Format.pack [.num 2, .num 4] (0, 0, ())

end Serialize

/-! ## Lengths -/

/-- How long the header of a field is. -/
def headerLen (ofp : Ofp) (field : String) : ℕ :=
  4 + ((ofp.nameToField field).map fun d => d.expHdr.length).getD 0

def SpecSrc.size (nBits : ℕ) : SpecSrc → ℕ
  | subfield _ _ => 6
  | immediate _ => srcLen nBits

def SpecDst.size : SpecDst → ℕ
  | matching _ _ | load _ _ => 6
  | output => 0

def NXFlowSpec.size (s : NXFlowSpec) : ℕ := 2 + (s.src.size s.nBits + s.dst.size)

/-- Eight octets for each property but user data. -/
def Controller2Props.size (props : Controller2Props) : ℕ :=
  let eight : ∀ {α : Type}, Option α → ℕ := fun value => if value.isSome then 8 else 0
  let userdata := match props.userdata with
    | none => 0
    | some userdata => 4 + (userdata.length + userdataPad userdata.length)
  eight props.maxLen + (eight props.controllerId + (eight props.reason +
    (userdata + eight props.pause)))

def NatRanges.size (r : NatRanges) : ℕ :=
  let addr : AddrKind → Text → ℕ := fun kind s => if s = [] then 0 else kind.size
  let proto : Option ℤ → ℕ := fun value => if value.isSome then 2 else 0
  addr .ipv4 r.ipv4Min + (addr .ipv4 r.ipv4Max + (addr .ipv6 r.ipv6Min + (addr .ipv6 r.ipv6Max +
    (proto r.protoMin + proto r.protoMax))))

/-- How long a bundle is: without slaves its last four octets are missing. -/
def bundleSize (ofp : Ofp) (dst : Option String) (slaves : List ℕ) : ℕ :=
  let data := if slaves = [] then 14 else 22 + (2 * slaves.length + numsPad slaves.length)
  max data (14 + (dst.map (headerLen ofp)).getD 4)

/-- How long the body of an action is. -/
def NXAction.bodyLen (ofp : Ofp) : NXAction → ℕ
  | unknown _ data => (data.getD []).length
  | note _ numbers =>
    if (numbers.length + 2) % 8 = 0 then numbers.length
    else numbers.length + (8 - (numbers.length + 2) % 8)
  | regMove srcField dstField .. => 6 + (headerLen ofp srcField + headerLen ofp dstField)
  | learn _ specs .. => 22 + (specs.map NXFlowSpec.size).sum
  | controller2 props => 6 + props.size
  | decTtlCntIds cntIds => 6 + (2 * cntIds.length + numsPad cntIds.length)
  | stackPush .. | stackPop .. => 12
  | bundle _ _ _ _ slaves => bundleSize ofp none slaves
  | bundleLoad _ _ _ _ _ dst slaves => bundleSize ofp dst slaves
  | nat _ ranges => 6 + ranges.size
  | regLoad .. | regLoad2 .. | setTunnel64 _ | outputReg .. | outputReg2 .. | sample .. => 14
  | sample2 .. | multipath .. => 22
  | _ => 6

section Lengths

variable {ofp : Ofp} {b : List UInt8}

theorem length_headerWord {n hasmask len : ℕ} (h : Ofproto13.headerWord n hasmask len = .ok b) :
    b.length = 4 := by
  obtain ⟨-, rfl⟩ := packInto_eq_ok.1 h
  exact length_toBytes _ _

theorem length_packInto {size v : ℕ} (h : packInto size v = .ok b) : b.length = size := by
  obtain ⟨-, rfl⟩ := packInto_eq_ok.1 h
  exact length_toBytes _ _

theorem length_writeAll {α : Type*} {write : α → Except PyError (List UInt8)} {size : α → ℕ}
    {l : List α} (h : ∀ a ∈ l, ∀ b, write a = .ok b → b.length = size a)
    (hb : writeAll write l = .ok b) : b.length = (l.map size).sum := by
  induction l generalizing b with
  | nil =>
    obtain rfl := Except.ok.inj hb
    rfl
  | cons a l ih =>
    obtain ⟨x, rest, hx, hrest, rfl⟩ := writeAll_cons_ok hb
    rw [List.length_append, h a List.mem_cons_self x hx,
      ih (fun a' ha' => h a' (List.mem_cons_of_mem _ ha')) hrest, List.map_cons, List.sum_cons]

theorem length_writeNums {size : ℕ} {l : List ℕ} (h : writeAll (packInto size) l = .ok b) :
    b.length = size * l.length := by
  have hlen : ∀ v ∈ l, ∀ x, packInto size v = .ok x → x.length = size :=
    fun _ _ _ hx => length_packInto hx
  rw [length_writeAll hlen h, List.map_const', List.sum_replicate_nat, Nat.mul_comm]

/-- A number of a class and a field has no header of an experimenter. -/
theorem expHdr_of_basic {d : Ofproto13.OxmDesc} {n : ℕ} (h : d.num = .basic n) :
    d.expHdr = [] := by
  unfold Ofproto13.OxmDesc.num at h
  split at h
  · next hc => simp only [Ofproto13.OxmDesc.expHdr, hc]
  · cases h

theorem num_of_numToField {d : Ofproto13.OxmDesc} {n : Ofproto13.OxmNum}
    (h : ofp.numToField n = some d) : d.num = n := by
  unfold Ofp.numToField at h
  simpa using List.find?_some h

theorem length_fieldHeader {field : String} (h : ofp.fieldHeader field = .ok b) :
    b.length = headerLen ofp field := by
  have hword : ∀ {n : Ofproto13.OxmNum} {t : ℕ} {x : List UInt8}, ofp.makeExpHdr n = .ok (t, x) →
      ofp.oxmSerializeHeader n = .ok b → b.length = 4 + x.length := by
    intro n t x hx hb
    rw [Ofp.oxmSerializeHeader] at hb
    obtain ⟨y, hy, hb⟩ := bind_eq_ok.1 hb
    obtain rfl : y = (t, x) := Except.ok.inj (hy.symm.trans hx)
    obtain ⟨word, hword, hb⟩ := bind_eq_ok.1 hb
    obtain rfl := Except.ok.inj hb
    rw [List.length_append, length_headerWord hword]
  obtain ⟨n, hn, h⟩ := bind_eq_ok.1 h
  obtain ⟨⟨n', t⟩, hinfo, rfl⟩ := map_eq_ok.1 hn
  unfold Ofp.fieldInfoByName at hinfo
  unfold headerLen
  split at hinfo
  · next d hd =>
    obtain ⟨rfl, -⟩ := Prod.mk.inj (Except.ok.inj hinfo)
    rw [hd]
    exact hword (Ofp.makeExpHdr_num (List.mem_of_find?_eq_some hd)) h
  · next hd =>
    rw [hd]
    split at hinfo
    · obtain ⟨k, -, heq⟩ := map_eq_ok.1 hinfo
      obtain ⟨rfl, -⟩ := Prod.mk.inj heq
      unfold Ofp.oxmSerializeHeader at h
      obtain ⟨⟨t, x⟩, hx, -⟩ := bind_eq_ok.1 h
      have hnil : x = [] := by
        unfold Ofp.makeExpHdr at hx
        split at hx
        · next d hd' =>
          obtain ⟨-, rfl⟩ := Prod.mk.inj (Except.ok.inj hx)
          exact expHdr_of_basic (num_of_numToField hd')
        · exact (Prod.mk.inj (Except.ok.inj hx)).2.symm
        · cases hx
      rw [hword hx h, hnil]
      rfl
    · cases hinfo

theorem length_serializeSubfield {field : String} {ofs : ℕ}
    (h : serializeSubfield ofp field ofs = .ok b) : b.length = 6 := by
  obtain ⟨header, -, h⟩ := bind_eq_ok.1 h
  split at h
  · cases h
  · next hlen =>
    obtain ⟨x, hx, h⟩ := bind_eq_ok.1 h
    obtain rfl := Except.ok.inj h
    rw [List.length_append, not_not.mp hlen, length_packInto hx]

theorem length_intFromUser (size : ℕ) (v : ℤ) : (intFromUser size v).length = size :=
  length_toBytes _ _

theorem SpecSrc.length_serialize {src : SpecSrc} {nBits : ℕ}
    (h : src.serialize ofp nBits = .ok b) : b.length = src.size nBits := by
  cases src with
  | subfield field ofs => exact length_serializeSubfield h
  | immediate value =>
    obtain rfl := Except.ok.inj h
    exact length_intFromUser _ _

theorem SpecDst.length_serialize {dst : SpecDst} (h : dst.serialize ofp = .ok b) :
    b.length = dst.size := by
  cases dst with
  | matching field ofs | load field ofs => exact length_serializeSubfield h
  | output =>
    obtain rfl := Except.ok.inj h
    rfl

theorem NXFlowSpec.length_serialize {s : NXFlowSpec} (h : s.serialize ofp = .ok b) :
    b.length = s.size := by
  obtain ⟨header, hheader, h⟩ := bind_eq_ok.1 h
  obtain ⟨src, hsrc, h⟩ := bind_eq_ok.1 h
  obtain ⟨dst, hdst, h⟩ := bind_eq_ok.1 h
  obtain rfl := Except.ok.inj h
  rw [List.length_append, List.length_append, length_packInto hheader,
    SpecSrc.length_serialize hsrc, SpecDst.length_serialize hdst, NXFlowSpec.size]

theorem length_serializeUserdataProp {userdata : List ℕ}
    (h : serializeUserdataProp userdata = .ok b) :
    b.length = 4 + (userdata.length + userdataPad userdata.length) := by
  obtain ⟨userBuf, hbuf, h⟩ := bind_eq_ok.1 h
  obtain ⟨header, hheader, h⟩ := bind_eq_ok.1 h
  obtain rfl := Except.ok.inj h
  rw [List.length_append, List.length_append, List.length_replicate, Format.length_pack hheader,
    length_writeNums hbuf, Nat.one_mul]
  rfl

theorem length_serializeProp {α : Type} {serialize : α → Except PyError (List UInt8)} {n : ℕ}
    (hs : ∀ value x, serialize value = .ok x → x.length = n) {value : Option α}
    (h : serializeProp serialize value = .ok b) : b.length = if value.isSome then n else 0 := by
  cases value with
  | none =>
    obtain rfl := Except.ok.inj h
    rfl
  | some value => exact hs value b h

theorem NXActionController2.length_serializeBody {props : Controller2Props}
    (h : serializeBody props = .ok b) : b.length = 6 + props.size := by
  obtain ⟨maxLen, hmax, h⟩ := bind_eq_ok.1 h
  obtain ⟨controllerId, hid, h⟩ := bind_eq_ok.1 h
  obtain ⟨reason, hreason, h⟩ := bind_eq_ok.1 h
  obtain ⟨userdata, huser, h⟩ := bind_eq_ok.1 h
  obtain ⟨pause, hpause, h⟩ := bind_eq_ok.1 h
  obtain rfl := Except.ok.inj h
  have hnum : ∀ type_ value x, serializeNumProp type_ value = .ok x → x.length = 8 :=
    fun _ _ _ hx => Format.length_pack hx
  have hreason' : ∀ value x, serializeReasonProp value = .ok x → x.length = 8 :=
    fun _ _ hx => Format.length_pack hx
  have hpause' : ∀ (value : Bool) x, serializePauseProp = .ok x → x.length = 8 :=
    fun _ _ hx => Format.length_pack hx
  have huser' : userdata.length = match props.userdata with
      | none => 0
      | some userdata => 4 + (userdata.length + userdataPad userdata.length) := by
    revert huser
    cases props.userdata with
    | none =>
      intro huser
      obtain rfl := Except.ok.inj huser
      rfl
    | some l => exact fun huser => length_serializeUserdataProp huser
  simp only [List.length_append, List.length_replicate, Controller2Props.size, huser',
    length_serializeProp (hnum _) hmax, length_serializeProp (hnum _) hid,
    length_serializeProp hreason' hreason, length_serializeProp hpause' hpause]

theorem NXActionBundleBase.length_serializeBody {algorithm fields basis slaveType ofsNbits : ℕ}
    {dst : Option String} {slaves : List ℕ}
    (h : serializeBody ofp algorithm fields basis slaveType ofsNbits dst slaves = .ok b) :
    b.length = bundleSize ofp dst slaves := by
  obtain ⟨ids, hids, h⟩ := bind_eq_ok.1 h
  obtain ⟨header, hheader, h⟩ := bind_eq_ok.1 h
  obtain ⟨oxm, hoxm, h⟩ := bind_eq_ok.1 h
  obtain rfl := Except.ok.inj h
  have hlen : oxm.length = (dst.map (headerLen ofp)).getD 4 := by
    cases dst with
    | none =>
      obtain rfl := Except.ok.inj hoxm
      rfl
    | some dst => exact length_fieldHeader hoxm
  have hheader' : header.length = 14 := Format.length_pack hheader
  rw [length_packAt, length_packAt, hlen, hheader', bundleSize]
  split
  · rfl
  · rw [List.length_append, List.length_append, List.length_replicate, List.length_replicate,
      length_writeNums hids]
    omega

theorem length_addrRange {kind : AddrKind} {bit : ℕ} {s : Text} {x : ℕ × List UInt8}
    (h : addrRange ofp kind bit s = .ok x) : x.2.length = if s = [] then 0 else kind.size := by
  unfold addrRange at h
  split at h
  · next hs =>
    obtain rfl := Except.ok.inj h
    rw [if_pos hs]
    rfl
  · next hs =>
    obtain ⟨a, ha, rfl⟩ := map_eq_ok.1 h
    rw [if_neg hs]
    unfold addrFromUser at ha
    split at ha
    · obtain rfl := Except.ok.inj ha
      exact length_toBytes _ _
    · cases ha
    · cases ha

theorem length_protoRange (bit : ℕ) (v : Option ℤ) :
    (protoRange bit v).2.length = if v.isSome then 2 else 0 := by
  cases v with
  | none => rfl
  | some v => exact length_intFromUser _ _

theorem NXActionNAT.length_serializeBody {flags : ℕ} {r : NatRanges}
    (h : serializeBody ofp flags r = .ok b) : b.length = 6 + r.size := by
  obtain ⟨ipv4Min, h₁, h⟩ := bind_eq_ok.1 h
  obtain ⟨ipv4Max, h₂, h⟩ := bind_eq_ok.1 h
  obtain ⟨ipv6Min, h₃, h⟩ := bind_eq_ok.1 h
  obtain ⟨ipv6Max, h₄, h⟩ := bind_eq_ok.1 h
  obtain ⟨data, hdata, h⟩ := bind_eq_ok.1 h
  obtain rfl := Except.ok.inj h
  have hdata' : data.length = 6 := Format.length_pack hdata
  simp only [List.length_append, List.flatMap_cons, List.flatMap_nil, List.length_nil, hdata',
    length_addrRange h₁, length_addrRange h₂, length_addrRange h₃, length_addrRange h₄,
    length_protoRange, NatRanges.size, Nat.add_zero]

theorem NXAction.length_serializeBody {a : NXAction} (h : a.serializeBody ofp = .ok b) :
    b.length = a.bodyLen ofp := by
  have hpad : ∀ {x : List UInt8} {n : ℕ}, x.length ≤ n → Except.ok (padRight x n) =
      (Except.ok b : Except PyError _) → b.length = n := by
    intro x n hx hb
    obtain rfl := Except.ok.inj hb
    rw [length_padRight, Nat.max_eq_right hx]
  cases a with
  | unknown subtype data =>
    obtain rfl := Except.ok.inj h
    rfl
  | regLoad ofsNbits dst value =>
    obtain ⟨_, -, h⟩ := bind_eq_ok.1 h
    exact Format.length_pack h
  | regLoad2 dst value mask =>
    obtain ⟨_, -, h⟩ := bind_eq_ok.1 h
    obtain ⟨oxm, -, h⟩ := bind_eq_ok.1 h
    split at h
    · cases h
    · next hlen => exact hpad (not_lt.mp hlen) h
  | note tuple numbers =>
    have h : NXActionNote.serializeBody tuple numbers = .ok b := h
    unfold NXActionNote.serializeBody at h
    dsimp only at h
    rw [bodyLen]
    split at h
    · next hmod => rw [if_pos hmod, length_writeNums h, Nat.one_mul]
    · next hmod =>
      rw [if_neg hmod]
      split at h
      · cases h
      · rw [length_writeNums h, Nat.one_mul, List.length_append, List.length_replicate]
  | regMove srcField dstField nBits srcOfs dstOfs =>
    obtain ⟨data, hdata, h⟩ := bind_eq_ok.1 h
    obtain ⟨src, hsrc, h⟩ := bind_eq_ok.1 h
    obtain ⟨dst, hdst, h⟩ := bind_eq_ok.1 h
    obtain rfl := Except.ok.inj h
    rw [List.length_append, List.length_append, Format.length_pack hdata, length_fieldHeader hsrc,
      length_fieldHeader hdst]
    rfl
  | outputReg ofsNbits src maxLen =>
    obtain ⟨_, -, h⟩ := bind_eq_ok.1 h
    exact Format.length_pack h
  | outputReg2 ofsNbits src maxLen =>
    obtain ⟨_, -, h⟩ := bind_eq_ok.1 h
    obtain ⟨data, hdata, h⟩ := bind_eq_ok.1 h
    have hlen : data.length = 8 := Format.length_pack hdata
    exact hpad (n := 14) (by omega) h
  | learn tableId specs =>
    obtain ⟨data, hdata, h⟩ := bind_eq_ok.1 h
    obtain ⟨x, hx, h⟩ := bind_eq_ok.1 h
    obtain rfl := Except.ok.inj h
    rw [List.length_append, Format.length_pack hdata,
      length_writeAll (fun s _ y hy => NXFlowSpec.length_serialize hy) hx]
    rfl
  | controller2 props => exact NXActionController2.length_serializeBody h
  | decTtlCntIds cntIds =>
    obtain ⟨data, hdata, h⟩ := bind_eq_ok.1 h
    obtain ⟨ids, hids, h⟩ := bind_eq_ok.1 h
    obtain rfl := Except.ok.inj h
    rw [List.length_append, List.length_append, List.length_replicate, Format.length_pack hdata,
      length_writeNums hids]
    rfl
  | stackPush field start end_ | stackPop field start end_ =>
    obtain ⟨_, -, h⟩ := bind_eq_ok.1 h
    obtain ⟨data, hdata, h⟩ := bind_eq_ok.1 h
    have hlen : data.length = 8 := Format.length_pack hdata
    exact hpad (n := 12) (by omega) h
  | multipath fields basis algorithm maxLink arg ofsNbits dst =>
    obtain ⟨_, -, h⟩ := bind_eq_ok.1 h
    exact Format.length_pack h
  | bundle | bundleLoad => exact NXActionBundleBase.length_serializeBody h
  | nat flags ranges => exact NXActionNAT.length_serializeBody h
  | _ => exact Format.length_pack h

end Lengths

end Ryu.Actions
