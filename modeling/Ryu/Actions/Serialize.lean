import Ryu.Actions.Body
import Ryu.Ofproto13.Action

/-! # Serializing actions

An action is packed into a buffer at an offset, and notes its length. Standard actions are packed
in one piece. A Nicira action packs its header at the offset, and appends its body to the buffer.
What is written behind the end of the buffer does not depend on what is in it.
-/

namespace Ryu.Actions

open Bytes
open Ofproto13 (Ofp roundUp ofpatSetField ofpatExperimenter nxExperimenterId nxastCt)

/-! ## Actions -/

/-- The actions of a class that is packed by one format. -/
inductive Standard
  | output (port maxLen : ℕ)
  | group (groupId : ℕ)
  | setQueue (queueId : ℕ)
  | setMplsTtl (mplsTtl : ℕ)
  | decMplsTtl
  | setNwTtl (nwTtl : ℕ)
  | decNwTtl
  | copyTtlOut
  | copyTtlIn
  | pushVlan (ethertype : ℕ)
  | pushMpls (ethertype : ℕ)
  | popVlan
  | popMpls (ethertype : ℕ)
  | pushPbb (ethertype : ℕ)
  | popPbb
  deriving DecidableEq, Repr

/-- A field of the old interface: what it packs for its value and for its mask. The classes of
`MTIPv6` pack a mask if there is one, the others if the header says so. -/
structure OFPMatchField where
  header : ℕ
  packStr : Format
  value : packStr.Values
  mask : Option packStr.Values
  v6 : Bool

/-- `zone_src`: empty, a number, or a field. -/
inductive ZoneSrc
  | empty
  | number (n : ℕ)
  | field (name : String)
  deriving DecidableEq, Repr

inductive OFPAction
  | standard (a : Standard)
  | setField (key : String) (value : Value)
  | setFieldOld (field : OFPMatchField)
  | experimenterUnknown (experimenter : ℕ) (data : Option (List UInt8))
  | nx (a : NXAction)
  | ct (flags : ℕ) (zoneSrc : ZoneSrc) (zoneOfsNbits recircTable alg : ℕ)
      (actions : List OFPAction)

section Induction

variable {P : OFPAction → Prop}

mutual

/-- An action is made of those inside it. -/
@[elab_as_elim]
theorem OFPAction.ind (standard : ∀ a, P (.standard a))
    (setField : ∀ key value, P (.setField key value)) (setFieldOld : ∀ field, P (.setFieldOld field))
    (experimenterUnknown : ∀ experimenter data, P (.experimenterUnknown experimenter data))
    (nx : ∀ a, P (.nx a)) (ct : ∀ flags zoneSrc zoneOfsNbits recircTable alg actions,
      (∀ a ∈ actions, P a) → P (.ct flags zoneSrc zoneOfsNbits recircTable alg actions)) :
    ∀ a, P a
  | .standard a => standard a
  | .setField key value => setField key value
  | .setFieldOld field => setFieldOld field
  | .experimenterUnknown experimenter data => experimenterUnknown experimenter data
  | .nx a => nx a
  | .ct flags zoneSrc zoneOfsNbits recircTable alg actions =>
    ct flags zoneSrc zoneOfsNbits recircTable alg actions
      (OFPAction.ind_inside standard setField setFieldOld experimenterUnknown nx ct actions)

theorem OFPAction.ind_inside (standard : ∀ a, P (.standard a))
    (setField : ∀ key value, P (.setField key value)) (setFieldOld : ∀ field, P (.setFieldOld field))
    (experimenterUnknown : ∀ experimenter data, P (.experimenterUnknown experimenter data))
    (nx : ∀ a, P (.nx a)) (ct : ∀ flags zoneSrc zoneOfsNbits recircTable alg actions,
      (∀ a ∈ actions, P a) → P (.ct flags zoneSrc zoneOfsNbits recircTable alg actions)) :
    ∀ l : List OFPAction, ∀ a ∈ l, P a
  | [], _, h => absurd h List.not_mem_nil
  | b :: l, a, h => (List.mem_cons.mp h).elim
      (fun hab => hab ▸ OFPAction.ind standard setField setFieldOld experimenterUnknown nx ct b)
      (OFPAction.ind_inside standard setField setFieldOld experimenterUnknown nx ct l a)

end

end Induction

/-! ## Serializers -/

namespace Standard

/-- `cls_action_type`. -/
def actionType : Standard → ℕ
  | output .. => 0
  | copyTtlOut => 11
  | copyTtlIn => 12
  | setMplsTtl _ => 15
  | decMplsTtl => 16
  | pushVlan _ => 17
  | popVlan => 18
  | pushMpls _ => 19
  | popMpls _ => 20
  | setQueue _ => 21
  | group _ => 22
  | setNwTtl _ => 23
  | decNwTtl => 24
  | pushPbb _ => 26
  | popPbb => 27

/-- `cls_action_len`. -/
def actionLen : Standard → ℕ
  | output .. => 16
  | _ => 8

/-- What is packed, with the type and the length. -/
def pack (a : Standard) : Except PyError (List UInt8) :=
  match a with
  | output port maxLen =>
    Format.pack [.num 2, .num 2, .num 4, .num 2, .pad 6] (a.actionType, a.actionLen, port, maxLen, ())
  | group id | setQueue id =>
    Format.pack [.num 2, .num 2, .num 4] (a.actionType, a.actionLen, id, ())
  | setMplsTtl ttl | setNwTtl ttl =>
    Format.pack [.num 2, .num 2, .num 1, .pad 3] (a.actionType, a.actionLen, ttl, ())
  | pushVlan ethertype | pushMpls ethertype | popMpls ethertype | pushPbb ethertype =>
    Format.pack [.num 2, .num 2, .num 2, .pad 2] (a.actionType, a.actionLen, ethertype, ())
  | decMplsTtl | decNwTtl | copyTtlOut | copyTtlIn | popVlan | popPbb =>
    Format.pack [.num 2, .num 2, .pad 4] (a.actionType, a.actionLen, ())

end Standard

/-- An action is packed into a buffer at an offset. It has a length then. -/
abbrev Serializer := List UInt8 → ℕ → Except PyError (List UInt8 × ℕ)

section Serialize

variable (ofp : Ofp)

def Standard.serialize (a : Standard) : Serializer := fun buf offset => do
  let b ← a.pack
  .ok (packAt buf offset b, a.actionLen)

/-- What a field is set to, as it is on the wire. -/
def setFieldOxm (key : String) (value : Value) : Except PyError (List UInt8) := do
  let (n, value, mask) ← ofp.oxmFromUser key (.one value)
  ofp.oxmSerialize n value mask

def OFPActionSetField.serialize (key : String) (value : Value) : Serializer := fun buf offset => do
  let oxm ← setFieldOxm ofp key value
  let buf := packAt buf (offset + 4) oxm
  let len := roundUp (4 + oxm.length) 8
  let header ← Format.pack [.num 2, .num 2] (ofpatSetField, len, ())
  let buf := packAt buf offset header
  let padLen := len - (4 + oxm.length)
  .ok (packAt buf (offset + (4 + oxm.length)) (List.replicate padLen 0), len)

namespace OFPMatchField

def oxmLen (f : OFPMatchField) : ℕ := f.header &&& 0xff

def hasmask (f : OFPMatchField) : Bool := (f.header >>> 8) &&& 1 = 1

/-- `n_bytes`. -/
def nBytes (f : OFPMatchField) : ℕ := if f.hasmask then f.oxmLen / 2 else f.oxmLen

/-- `put` and `put_w`, and `putv6`. -/
def serialize (f : OFPMatchField) (buf : List UInt8) (offset : ℕ) : Except PyError (List UInt8) := do
  let header ← packInto 4 f.header
  let buf := packAt buf offset header
  let value ← f.packStr.pack f.value
  let buf := packAt buf (offset + 4) value
  match f.mask with
  | some mask =>
    if f.v6 ∨ f.hasmask then do
      let mask ← f.packStr.pack mask
      .ok (packAt buf (offset + (4 + f.nBytes)) mask)
    else .ok buf
  | none => if ¬ f.v6 ∧ f.hasmask then .error structError else .ok buf

end OFPMatchField

/-- `serialize_old`. -/
def OFPActionSetField.serializeOld (field : OFPMatchField) : Serializer := fun buf offset => do
  let len := roundUp (8 + field.oxmLen) 8
  let padLen := len - (8 + field.oxmLen)
  let header ← Format.pack [.num 2, .num 2] (ofpatSetField, len, ())
  let buf := packAt buf offset header
  let buf ← field.serialize buf (offset + 4)
  .ok (packAt buf (offset + (8 + field.oxmLen)) (List.replicate padLen 0), len)

/-- `OFPActionExperimenter.serialize`, what is packed. -/
def experimenterHeader (len experimenter : ℕ) : Except PyError (List UInt8) :=
  Format.pack [.num 2, .num 2, .num 4] (ofpatExperimenter, len, experimenter, ())

/-- The length is that of the data or of none. The data are packed as they are. -/
def OFPActionExperimenterUnknown.serialize (experimenter : ℕ) (data : Option (List UInt8)) :
    Serializer := fun buf offset => do
  let len := roundUp (data.getD []).length 8 + 8
  let header ← experimenterHeader len experimenter
  let buf := packAt buf offset header
  match data with
  | none => .error (.typeError "object of type 'NoneType' has no len()")
  | some data => .ok (packAt buf (offset + 8) data, len)

/-- `NXAction.serialize` of a body. -/
def NXAction.serialize (subtype : ℕ) (data : List UInt8) : Serializer := fun buf offset => do
  let len := roundUp (10 + data.length) 8
  let header ← experimenterHeader len nxExperimenterId
  let buf := packAt buf offset header
  let subtype ← packInto 2 subtype
  let buf := packAt buf (offset + 8) subtype
  .ok (buf ++ data, len)

def ZoneSrc.serialize : ZoneSrc → Except PyError (List UInt8)
  | empty => .ok (List.replicate 4 0)
  | number n => packInto 4 n
  | field name => ofp.fieldHeader name

/-- What `NXActionCT` packs before the actions. -/
def NXActionCT.head (flags : ℕ) (zoneSrc : ZoneSrc) (zoneOfsNbits recircTable alg : ℕ) :
    Except PyError (List UInt8) := do
  let zoneSrc ← zoneSrc.serialize ofp
  Format.pack [.num 2, .str 4, .num 2, .num 1, .pad 3, .num 2]
    (flags, zoneSrc, zoneOfsNbits, recircTable, alg, ())

mutual

def OFPAction.serialize : OFPAction → Serializer
  | .standard a => a.serialize
  | .setField key value => OFPActionSetField.serialize ofp key value
  | .setFieldOld field => OFPActionSetField.serializeOld field
  | .experimenterUnknown experimenter data =>
    OFPActionExperimenterUnknown.serialize experimenter data
  | .nx a => fun buf offset => do
    let data ← a.serializeBody ofp
    NXAction.serialize a.subtype data buf offset
  | .ct flags zoneSrc zoneOfsNbits recircTable alg actions => fun buf offset => do
    let data ← NXActionCT.head ofp flags zoneSrc zoneOfsNbits recircTable alg
    let data ← serializeInside actions data
    NXAction.serialize nxastCt data buf offset

/-- The actions inside are packed at the end of the data. -/
def serializeInside : List OFPAction → List UInt8 → Except PyError (List UInt8)
  | [], data => .ok data
  | a :: l, data => do
    let (data, _) ← a.serialize data data.length
    serializeInside l data

end

/-- The actions are packed one after the other, each at the lengths of those before, which are
returned. -/
def serializeActions : List OFPAction → List UInt8 → ℕ → Except PyError (List UInt8 × List ℕ)
  | [], buf, _ => .ok (buf, [])
  | a :: l, buf, offset => do
    let (buf, len) ← a.serialize ofp buf offset
    let (buf, lens) ← serializeActions l buf (offset + len)
    .ok (buf, len :: lens)

end Serialize

/-! ## Behind the end of a buffer -/

/-- What is written behind the end of a buffer is written at the start of an empty one. -/
def Serializer.Shifts (s : Serializer) : Prop :=
  ∀ buf offset, buf.length ≤ offset →
    s buf offset = (s [] 0).map fun x => (padRight buf offset ++ x.1, x.2)

section Shifts

variable {ofp : Ofp}

theorem Standard.shifts (a : Standard) : a.serialize.Shifts := by
  intro buf offset h
  unfold serialize
  cases a.pack with
  | error e => rfl
  | ok b =>
    dsimp only [bind, Except.bind, Except.map]
    rw [packAt_behind_zero h]

theorem OFPActionSetField.shifts (key : String) (value : Value) :
    (serialize ofp key value).Shifts := by
  intro buf offset h
  unfold serialize
  cases setFieldOxm ofp key value with
  | error e => rfl
  | ok oxm =>
    dsimp only [bind, Except.bind]
    cases Format.pack [.num 2, .num 2] (ofpatSetField, roundUp (4 + oxm.length) 8, ()) with
    | error e => rfl
    | ok header =>
      dsimp only [Except.map]
      rw [packAt_behind h, packAt_padRight_zero h, packAt_padRight h, Nat.zero_add, Nat.zero_add]

/-- A field is packed behind the header of its action. -/
theorem OFPMatchField.serialize_shift (f : OFPMatchField) {buf : List UInt8} {offset : ℕ}
    (h : buf.length ≤ offset) (b : List UInt8) (m : ℕ) :
    f.serialize (padRight buf offset ++ b) (offset + m) =
      (f.serialize b m).map (padRight buf offset ++ ·) := by
  unfold serialize
  cases packInto 4 f.header with
  | error e => rfl
  | ok header =>
    dsimp only [bind, Except.bind]
    cases f.packStr.pack f.value with
    | error e => rfl
    | ok value =>
      dsimp only
      simp only [Nat.add_assoc, packAt_padRight h]
      cases f.mask with
      | none =>
        dsimp only
        split_ifs <;> rfl
      | some mask =>
        dsimp only
        split_ifs
        · cases f.packStr.pack mask <;> rfl
        · rfl

theorem OFPActionSetField.shifts_old (field : OFPMatchField) : (serializeOld field).Shifts := by
  intro buf offset h
  unfold serializeOld
  dsimp only
  cases Format.pack [.num 2, .num 2] (ofpatSetField, roundUp (8 + field.oxmLen) 8, ()) with
  | error e => rfl
  | ok header =>
    dsimp only [bind, Except.bind]
    rw [packAt_behind_zero h, field.serialize_shift h, Nat.zero_add]
    cases field.serialize (packAt [] 0 header) 4 with
    | error e => rfl
    | ok b =>
      dsimp only [Except.map]
      rw [packAt_padRight h, Nat.zero_add]

theorem OFPActionExperimenterUnknown.shifts (experimenter : ℕ) (data : Option (List UInt8)) :
    (serialize experimenter data).Shifts := by
  intro buf offset h
  unfold serialize
  dsimp only
  cases experimenterHeader (roundUp (data.getD []).length 8 + 8) experimenter with
  | error e => rfl
  | ok header =>
    dsimp only [bind, Except.bind]
    cases data with
    | none => rfl
    | some data =>
      dsimp only [Except.map]
      rw [packAt_behind_zero h, packAt_padRight h, Nat.zero_add]

theorem NXAction.shifts (subtype : ℕ) (data : List UInt8) : (serialize subtype data).Shifts := by
  intro buf offset h
  unfold serialize
  dsimp only
  cases experimenterHeader (roundUp (10 + data.length) 8) nxExperimenterId with
  | error e => rfl
  | ok header =>
    dsimp only [bind, Except.bind]
    cases packInto 2 subtype with
    | error e => rfl
    | ok subtype =>
      dsimp only [Except.map]
      rw [packAt_behind_zero h, packAt_padRight h, Nat.zero_add, List.append_assoc]

theorem OFPAction.shifts (a : OFPAction) : (a.serialize ofp).Shifts := by
  cases a with
  | standard a => exact a.shifts
  | setField key value => exact OFPActionSetField.shifts key value
  | setFieldOld field => exact OFPActionSetField.shifts_old field
  | experimenterUnknown experimenter data => exact OFPActionExperimenterUnknown.shifts _ _
  | nx a =>
    intro buf offset h
    dsimp only [serialize]
    cases a.serializeBody ofp with
    | error e => rfl
    | ok data => exact NXAction.shifts _ _ buf offset h
  | ct flags zoneSrc zoneOfsNbits recircTable alg actions =>
    intro buf offset h
    dsimp only [serialize]
    cases NXActionCT.head ofp flags zoneSrc zoneOfsNbits recircTable alg with
    | error e => rfl
    | ok head =>
      dsimp only [bind, Except.bind]
      cases serializeInside ofp actions head with
      | error e => rfl
      | ok data => exact NXAction.shifts _ _ buf offset h

end Shifts

end Ryu.Actions
