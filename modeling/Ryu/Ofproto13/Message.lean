import Ryu.Controller.RecvLoop
import Ryu.Ofproto13.Stats

/-! # OpenFlow 1.3 messages

The parsers of the messages a switch sends. A switch can hang one of them with an entry that
does not move the loop around it; a parser ends exactly if no such entry is arrived at.
-/

namespace Ryu.Ofproto13

open Prog

variable (reg : Registry) (depth : ℕ)

/-! ## Messages without loops -/

def ofpetExperimenter : ℕ := 0xffff

def OFPErrorMsg.parser (buf : List UInt8) : Except PyError Unit := do
  let (type_, _) ← unpackFrom [.num 2] buf 8
  if type_ = ofpetExperimenter then do
    let _ ← unpackFrom [.num 2, .num 2, .num 4] buf 8
    .ok ()
  else do
    let _ ← unpackFrom [.num 2, .num 2] buf 8
    .ok ()

/-- A message that is only unpacked behind its header. -/
def unpackedMsg (fmt : Format) (buf : List UInt8) : Except PyError Unit := do
  let _ ← unpackFrom fmt buf 8
  .ok ()

def OFPSwitchFeatures.parser := unpackedMsg [.num 8, .num 4, .num 1, .num 1, .pad 2, .num 4, .num 4]
def OFPGetConfigReply.parser := unpackedMsg [.num 2, .num 2]
def OFPRoleReply.parser := unpackedMsg [.num 4, .pad 4, .num 8]
def OFPGetAsyncReply.parser := unpackedMsg [.num 4, .num 4, .num 4, .num 4, .num 4, .num 4]

def OFPPortStatus.parser (buf : List UInt8) : Except PyError Unit := do
  let _ ← unpackFrom (.num 1 :: .pad 7 :: ofpPortPackStr) buf 8
  let _ ← OFPPort.parser buf 16
  .ok ()

def OFPPacketIn.parser (buf : List UInt8) : Parse Unit := do
  let _ ← .of (unpackFrom [.num 4, .num 2, .num 1, .num 1, .num 8] buf 8)
  let _ ← OFPMatch.parser reg buf 24
  pure ()

def OFPFlowRemoved.parser (buf : List UInt8) : Parse Unit := do
  let _ ← .of (unpackFrom
    [.num 8, .num 2, .num 1, .num 1, .num 4, .num 4, .num 2, .num 2, .num 8, .num 8] buf 8)
  let _ ← OFPMatch.parser reg buf 48
  pure ()

/-! ## Hello -/

namespace OFPHello

def ofphetVersionbitmap : ℕ := 1

/-- `OFPHelloElemVersionBitmap.parser`. -/
def versionBitmap (buf : List UInt8) (offset : ℕ) : Parse Unit := do
  let (type_, length, _) ← .of (unpackFrom [.num 2, .num 2] buf offset)
  if type_ ≠ ofphetVersionbitmap then throw .assertionError
  else do
    let _ ← (Cursor.atLeast 4).scan (fun s => .of (unpackedEntry [.num 4] 4 buf s.1))
      (offset + 4, (length - 4 : ℤ))
    pure ()

def element (buf : List UInt8) (offset : ℕ) : Parse ℕ := do
  let (type_, length, _) ← .of (unpackFrom [.num 2, .num 2] buf offset)
  if type_ = ofphetVersionbitmap then do
    versionBitmap buf offset
    pure length
  else pure length

def parser (buf : List UInt8) (msgLen : ℕ) : Parse Unit := do
  let _ ← (Cursor.upTo msgLen).scan (element buf) 8
  pure ()

/-- No element with a length of zero is arrived at. -/
def Advances (buf : List UInt8) (msgLen : ℕ) : Prop :=
  (Cursor.upTo msgLen).Each (element buf) (fun offset => ∀ type_ length,
    unpackFrom [.num 2, .num 2] buf offset = .ok (type_, length, ()) → length ≠ 0) 8

end OFPHello

/-! ## Flow mod -/

namespace OFPFlowMod

def ofpFlowModPackStr0 : Format :=
  [.num 8, .num 8, .num 1, .num 1, .num 2, .num 2, .num 2, .num 4, .num 4, .num 4, .num 2, .pad 2]

/-- The offset of the instructions, behind the match. -/
def head (buf : List UInt8) : Parse ℕ := do
  let _ ← .of (unpackFrom ofpFlowModPackStr0 buf 8)
  let length ← OFPMatch.parser reg buf 48
  pure (48 + roundUp length 8)

/-- The offset does not grow at an instruction of unknown type. -/
def instruction (buf : List UInt8) (offset : ℕ) : Parse ℕ := do
  match ← OFPInstruction.parser reg depth buf offset with
  | some len => pure len
  | none => pure 0

def parser (buf : List UInt8) (msgLen : ℕ) : Parse Unit := do
  let offset ← head reg buf
  let _ ← tryCatch ((Cursor.upTo msgLen).scan (instruction reg depth buf) offset)
    fun e => throw (if e = structError then ofpTruncatedMessage else e)
  pure ()

/-- Every instruction arrived at has a type that is registered, and is left. -/
def Advances (buf : List UInt8) (msgLen : ℕ) : Prop :=
  ∀ offset, head reg buf = pure offset →
    (Cursor.upTo msgLen).Each (instruction reg depth buf) (fun offset =>
      OFPInstruction.Advances reg depth buf offset ∧ OFPInstruction.Known buf offset) offset

end OFPFlowMod

/-! ## Queues -/

namespace OFPQueueProp

/-- `parse_experimenter_data`. -/
def experimenterDatum (rest : List UInt8) : Except PyError ℕ := unpackedEntry [.num 1] 1 rest 0

def ofpqtRates : List ℕ := [1, 2]
def ofpqtExperimenter : ℕ := 0xffff

/-- The length the switch wrote, if the property is registered. -/
def parser (buf : List UInt8) (offset : ℕ) : Parse (Option ℕ) := do
  let (property, len_, _) ← .of (unpackFrom [.num 2, .num 2, .pad 4] buf offset)
  if property ∈ ofpqtRates then do
    let _ ← .of (unpackFrom [.num 2, .pad 6] buf (offset + 8))
    pure (some len_)
  else if property = ofpqtExperimenter then do
    let _ ← .of (unpackFrom [.num 4, .pad 4] buf (offset + 8))
    parseList experimenterDatum ((buf.take (offset + len_)).drop (offset + 16))
    pure (some len_)
  else pure none

end OFPQueueProp

namespace OFPPacketQueue

/-- Neither the offset nor the length grows at a property that is not registered. -/
def property (buf : List UInt8) (offset : ℕ) : Parse ℕ := do
  match ← OFPQueueProp.parser buf offset with
  | some len => pure len
  | none => pure 0

def parser (buf : List UInt8) (offset : ℕ) : Parse ℕ := do
  let (_, _, len_, _) ← .of (unpackFrom [.num 4, .num 4, .num 2, .pad 6] buf offset)
  let _ ← (Cursor.within len_).scan (fun s => property buf s.1) (offset + 16, 16)
  pure len_

/-- The property is registered, and its length is not zero if its value is there. -/
def PropertyAdvances (buf : List UInt8) (offset : ℕ) : Prop :=
  ∀ property len_,
    unpackFrom [.num 2, .num 2, .pad 4] buf offset = .ok (property, len_, ()) →
      (property ∈ OFPQueueProp.ofpqtRates ∨ property = OFPQueueProp.ofpqtExperimenter) ∧
      (offset + 16 ≤ buf.length → len_ ≠ 0)

def Advances (buf : List UInt8) (offset : ℕ) : Prop :=
  ∀ vals, unpackFrom [.num 4, .num 4, .num 2, .pad 6] buf offset = .ok vals →
    vals.2.2.1 ≠ (0 : ℕ) ∧ (Cursor.within vals.2.2.1).Each (fun s => property buf s.1)
      (fun s => PropertyAdvances buf s.1) (offset + 16, 16)

end OFPPacketQueue

namespace OFPQueueGetConfigReply

def parser (buf : List UInt8) (msgLen : ℕ) : Parse Unit := do
  let _ ← .of (unpackFrom [.num 4, .pad 4] buf 8)
  let _ ← (Cursor.upTo msgLen).scan (OFPPacketQueue.parser buf) 16
  pure ()

def Advances (buf : List UInt8) (msgLen : ℕ) : Prop :=
  ∀ vals, unpackFrom [.num 4, .pad 4] buf 8 = .ok vals →
    (Cursor.upTo msgLen).Each (OFPPacketQueue.parser buf) (OFPPacketQueue.Advances buf) 16

end OFPQueueGetConfigReply

/-! ## Experimenter -/

namespace OFPExperimenter

def onfEtBundleControl : ℕ := 2300

/-- `ONFBundleCtrlMsg.parser_subtype`. -/
def bundleCtrl (data : List UInt8) : Parse Unit := do
  let _ ← .of (unpackFrom [.num 4, .num 2, .num 2] data 0)
  let _ ← Cursor.rest.scan OFPBundleProp.parse (data.drop 8)
  pure ()

/-- The control of a bundle is the only subtype that is registered. -/
def parser (buf : List UInt8) : Parse Unit := do
  let (experimenter, expType, _) ← .of (unpackFrom [.num 4, .num 4] buf 8)
  if experimenter = onfExperimenterId ∧ expType = onfEtBundleControl then bundleCtrl (buf.drop 16)
  else pure ()

def BundleAdvances (data : List UInt8) : Prop :=
  ∀ vals, unpackFrom [.num 4, .num 2, .num 2] data 0 = .ok vals →
    Cursor.rest.Each OFPBundleProp.parse OFPBundleProp.Advances (data.drop 8)

def Advances (buf : List UInt8) : Prop :=
  unpackFrom [.num 4, .num 4] buf 8 = .ok (onfExperimenterId, onfEtBundleControl, ()) →
    BundleAdvances (buf.drop 16)

end OFPExperimenter

/-! ## The registered parsers -/

/-- `msg_parser`. The parser of a type that is not registered is `None`. -/
def msgParser (msgType msgLen : ℕ) (buf : List UInt8) : Parse Unit :=
  match msgType with
  | 0 => OFPHello.parser buf msgLen
  | 1 => .of (OFPErrorMsg.parser buf)
  | 2 | 3 => pure ()
  | 4 => OFPExperimenter.parser buf
  | 6 => .of (OFPSwitchFeatures.parser buf)
  | 8 => .of (OFPGetConfigReply.parser buf)
  | 10 => OFPPacketIn.parser reg buf
  | 11 => OFPFlowRemoved.parser reg buf
  | 12 => .of (OFPPortStatus.parser buf)
  | 14 => OFPFlowMod.parser reg depth buf msgLen
  | 19 => OFPMultipartReply.parser reg depth buf msgLen
  | 21 => pure ()
  | 23 => OFPQueueGetConfigReply.parser buf msgLen
  | 25 => .of (OFPRoleReply.parser buf)
  | 27 => .of (OFPGetAsyncReply.parser buf)
  | _ => throw (.typeError "'NoneType' object is not callable")

/-- No loop of the parser arrives at an entry that does not move it. -/
def Advances (msgType msgLen : ℕ) (buf : List UInt8) : Prop :=
  match msgType with
  | 0 => OFPHello.Advances buf msgLen
  | 4 => OFPExperimenter.Advances buf
  | 14 => OFPFlowMod.Advances reg depth buf msgLen
  | 19 => OFPMultipartReply.Advances reg depth buf msgLen
  | 23 => OFPQueueGetConfigReply.Advances buf msgLen
  | _ => True

variable {reg depth} {buf : List UInt8} {msgLen offset : ℕ}

namespace OFPHello

theorem ends_versionBitmap : (versionBitmap buf offset).Ends := by
  refine ends_bind_iff.2 ⟨ends_of _, fun ⟨type_, length, _⟩ _ => ?_⟩
  dsimp only
  split
  · exact ends_throw _
  · refine ends_bind_iff.2 ⟨?_, fun _ _ => ends_pure _⟩
    exact Cursor.ends_scan (fun _ => moves_unpackedEntry (by decide)) _

/-- Nothing is asked of a bitmap whose element has no length. -/
theorem versionBitmap_zero
    (h : unpackFrom [.num 2, .num 2] buf offset = .ok (ofphetVersionbitmap, 0, ())) :
    versionBitmap buf offset = pure () := by
  have hscan : ∀ entry : ℕ × ℤ → Parse ℕ,
      (Cursor.atLeast 4).scan entry (offset + 4, ((0 : ℕ) - 4 : ℤ)) = pure _ :=
    fun entry => whileLoop_of_not_more (by simp [Cursor.atLeast])
  rw [versionBitmap, h]
  change ((Cursor.atLeast 4).scan _ _ >>= _) = _
  rw [hscan, pure_bind]

theorem moves_element_iff : (element buf offset).Moves ↔ ∀ type_ length,
    unpackFrom [.num 2, .num 2] buf offset = .ok (type_, length, ()) → length ≠ 0 := by
  rw [element, moves_bind_iff]
  simp only [ends_of, true_and, of_eq_pure]
  constructor
  · rintro h type_ length hread rfl
    have hmoves := h _ hread
    dsimp only at hmoves
    split at hmoves
    · next ht =>
      subst ht
      rw [versionBitmap_zero hread, pure_bind] at hmoves
      exact moves_pure.1 hmoves rfl
    · exact moves_pure.1 hmoves rfl
  · rintro h ⟨type_, length, _⟩ hread
    have hlen := h type_ length hread
    dsimp only
    split
    · exact moves_bind_iff.2 ⟨ends_versionBitmap, fun _ _ => moves_pure.2 hlen⟩
    · exact moves_pure.2 hlen

theorem ends_parser_iff : (parser buf msgLen).Ends ↔ Advances buf msgLen := by
  rw [parser, ends_bind_iff, Cursor.ends_scan_iff]
  simp only [ends_pure, implies_true, and_true]
  exact Cursor.each_congr fun offset _ => moves_element_iff

end OFPHello

namespace OFPFlowMod

theorem ends_head : (head reg buf).Ends := by
  refine ends_bind_iff.2 ⟨ends_of _, fun _ _ => ?_⟩
  exact ends_bind_iff.2 ⟨OFPMatch.parser_ends _ _, fun _ _ => ends_pure _⟩

theorem moves_instruction_iff : (instruction reg depth buf offset).Moves ↔
    OFPInstruction.Advances reg depth buf offset ∧ OFPInstruction.Known buf offset := by
  refine (OFPInstruction.moves_bind_parser_iff fun _ => rfl).trans (and_congr_right fun _ => ?_)
  exact or_iff_left fun h => moves_pure.1 h rfl

theorem ends_parser_iff :
    (parser reg depth buf msgLen).Ends ↔ Advances reg depth buf msgLen := by
  rw [parser, ends_bind_iff, and_iff_right ends_head]
  refine forall_congr' fun offset => forall_congr' fun _ => ?_
  rw [ends_bind_iff, ends_tryCatch_iff, Cursor.ends_scan_iff]
  simp only [ends_throw, ends_pure, implies_true, and_true]
  exact Cursor.each_congr fun offset _ => moves_instruction_iff

end OFPFlowMod

namespace OFPPacketQueue

/-- The value of a property is eight octets behind its header. -/
theorem moves_value_iff {fmt : Format} (hf : fmt.calcsize = 8) {len_ : ℕ} {data : Parse Unit}
    (hends : data.Ends) (hdata : len_ = 0 → data = pure ()) : (do
      let _ ← of (unpackFrom fmt buf (offset + 8))
      data
      pure len_ : Parse ℕ).Moves ↔ (offset + 16 ≤ buf.length → len_ ≠ 0) := by
  have hvalue : (∃ vals, unpackFrom fmt buf (offset + 8) = .ok vals) ↔
      offset + 8 + fmt.calcsize ≤ buf.length := exists_unpackFrom_iff (by omega)
  rw [hf, Nat.add_assoc] at hvalue
  simp only [moves_bind_iff, ends_of, true_and, of_eq_pure, hends, moves_pure, ← hvalue]
  constructor
  · rintro h ⟨vals, hvals⟩ hlen
    exact h vals hvals () (hdata hlen) hlen
  · exact fun h vals hvals _ _ => h ⟨vals, hvals⟩

theorem moves_property_iff : (property buf offset).Moves ↔ PropertyAdvances buf offset := by
  have hrate : ∀ len_, (do
      let _ ← of (unpackFrom [.num 2, .pad 6] buf (offset + 8))
      pure len_ : Parse ℕ).Moves ↔ (offset + 16 ≤ buf.length → len_ ≠ 0) := by
    intro len_
    have hcalc : Format.calcsize [.num 2, .pad 6] = 8 := rfl
    simpa only [pure_bind] using moves_value_iff hcalc (ends_pure ()) fun _ : len_ = 0 => rfl
  have hexperimenter : ∀ len_, (do
      let _ ← of (unpackFrom [.num 4, .pad 4] buf (offset + 8))
      parseList OFPQueueProp.experimenterDatum ((buf.take (offset + len_)).drop (offset + 16))
      pure len_ : Parse ℕ).Moves ↔ (offset + 16 ≤ buf.length → len_ ≠ 0) := by
    intro len_
    refine moves_value_iff rfl (ends_parseList (fun _ => ?_) _) ?_
    · exact moves_of.1 (moves_unpackedEntry (by decide))
    · rintro rfl
      rw [List.drop_eq_nil_iff.mpr, parseList_nil]
      rw [List.length_take]
      omega
  have hbranch : ∀ property len_, ((if property ∈ OFPQueueProp.ofpqtRates then do
        let _ ← of (unpackFrom [.num 2, .pad 6] buf (offset + 8))
        pure (some len_)
      else if property = OFPQueueProp.ofpqtExperimenter then do
        let _ ← of (unpackFrom [.num 4, .pad 4] buf (offset + 8))
        parseList OFPQueueProp.experimenterDatum ((buf.take (offset + len_)).drop (offset + 16))
        pure (some len_)
      else pure none : Parse (Option ℕ)) >>= fun
        | some len => pure len
        | none => pure 0).Moves ↔
      (property ∈ OFPQueueProp.ofpqtRates ∨ property = OFPQueueProp.ofpqtExperimenter) ∧
        (offset + 16 ≤ buf.length → len_ ≠ 0) := by
    intro property len_
    split_ifs with hr he
    · simp only [bind_assoc, pure_bind, hrate, hr, true_or, true_and]
    · simp only [bind_assoc, pure_bind, hexperimenter, he, or_true, true_and]
    · simp [hr, he]
  rw [property, OFPQueueProp.parser, bind_assoc, moves_bind_iff, and_iff_right (ends_of _)]
  constructor
  · intro h property len_ hread
    exact (hbranch property len_).mp (h _ (of_eq_pure.2 hread))
  · rintro h ⟨property, len_, _⟩ hread
    exact (hbranch property len_).mpr (h property len_ (of_eq_pure.1 hread))

theorem moves_parser_iff : (parser buf offset).Moves ↔ Advances buf offset := by
  refine (moves_sized_entry_iff [.num 4, .num 4, .num 2, .pad 6] (fun vals => vals.2.2.1)
    (fun vals => Cursor.within vals.2.2.1) (fun s => property buf s.1)
    (fun _ => (offset + 16, 16)) fun vals h => ?_).trans ?_
  · have hlim : (vals.2.2.1 : ℕ) = 0 := h
    simp [Cursor.within, hlim]
  · simp only [moves_property_iff]
    exact Iff.rfl

end OFPPacketQueue

theorem OFPQueueGetConfigReply.ends_parser_iff :
    (parser buf msgLen).Ends ↔ Advances buf msgLen := by
  rw [parser, ends_bind_iff, and_iff_right (ends_of _)]
  simp only [of_eq_pure, ends_bind_iff, ends_pure, implies_true, and_true, Cursor.ends_scan_iff,
    OFPPacketQueue.moves_parser_iff]
  exact Iff.rfl

namespace OFPExperimenter

theorem ends_bundleCtrl_iff {data : List UInt8} :
    (bundleCtrl data).Ends ↔ BundleAdvances data := by
  rw [bundleCtrl, ends_bind_iff, and_iff_right (ends_of _)]
  simp only [of_eq_pure, ends_bind_iff, ends_pure, implies_true, and_true, Cursor.ends_scan_iff,
    OFPBundleProp.moves_parse_iff]
  exact Iff.rfl

theorem ends_parser_iff : (parser buf).Ends ↔ Advances buf := by
  rw [parser, ends_bind_iff, and_iff_right (ends_of _)]
  constructor
  · intro h hread
    exact ends_bundleCtrl_iff.1 (h _ (of_eq_pure.2 hread))
  · rintro h ⟨experimenter, expType, _⟩ hread
    dsimp only
    split
    · next heq =>
      obtain ⟨rfl, rfl⟩ := heq
      exact ends_bundleCtrl_iff.2 (h (of_eq_pure.1 hread))
    · exact ends_pure _

end OFPExperimenter

theorem OFPPacketIn.parser_ends : (parser reg buf).Ends := by
  refine ends_bind_iff.2 ⟨ends_of _, fun _ _ => ?_⟩
  exact ends_bind_iff.2 ⟨OFPMatch.parser_ends _ _, fun _ _ => ends_pure _⟩

theorem OFPFlowRemoved.parser_ends : (parser reg buf).Ends := by
  refine ends_bind_iff.2 ⟨ends_of _, fun _ _ => ?_⟩
  exact ends_bind_iff.2 ⟨OFPMatch.parser_ends _ _, fun _ _ => ends_pure _⟩

/-- A switch hangs the controller exactly with a message whose parser arrives at an entry that
does not move its loop. -/
theorem ends_msgParser_iff (reg : Registry) (depth msgType msgLen : ℕ) (buf : List UInt8) :
    (msgParser reg depth msgType msgLen buf).Ends ↔ Advances reg depth msgType msgLen buf := by
  unfold msgParser Advances
  split
  case h_1 => exact OFPHello.ends_parser_iff
  case h_5 => exact OFPExperimenter.ends_parser_iff
  case h_8 => exact iff_of_true OFPPacketIn.parser_ends trivial
  case h_9 => exact iff_of_true OFPFlowRemoved.parser_ends trivial
  case h_11 => exact OFPFlowMod.ends_parser_iff
  case h_12 => exact OFPMultipartReply.ends_parser_iff
  case h_14 => exact OFPQueueGetConfigReply.ends_parser_iff
  case h_17 => exact iff_of_true (ends_throw _) (by split <;> trivial)
  all_goals exact iff_of_true (ends_of _) trivial

/-- A hello whose element has an unknown type and a length of zero. -/
def stuckHello : List UInt8 := [4, 0, 0, 12, 0, 0, 0, 0, 0, 2, 0, 0]

/-- The receive loop frames that hello, and its parser does not end. -/
theorem hello_hangs : Controller.cutMessage stuckHello = some (⟨4, 0, 12, 0, stuckHello⟩, []) ∧
    ∀ reg depth, ¬ (msgParser reg depth 0 12 stuckHello).Ends := by
  refine ⟨by decide +kernel, fun reg depth h => ?_⟩
  have hadvances : OFPHello.Advances stuckHello 12 := OFPHello.ends_parser_iff.mp h
  exact hadvances.head (by decide) 2 0 rfl rfl

end Ryu.Ofproto13
