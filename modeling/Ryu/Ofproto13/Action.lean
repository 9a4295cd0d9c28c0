import Ryu.Ofproto13.NxAction

/-! # Actions, instructions and buckets

Most actions have the length of their class. An action that sets a field and an action of an
experimenter have the length the switch wrote, and so have the instructions that hold actions:
with a length of zero the loop around them stands still.
-/

namespace Ryu.Ofproto13

open Prog

/-! ## Actions -/

def ofpActionHeaderPackStr : Format := [.num 2, .num 2, .pad 4]
def ofpActionPushPackStr : Format := [.num 2, .num 2, .num 2, .pad 2]

def OFPActionOutput.parser := unpackedEntry [.num 2, .num 2, .num 4, .num 2, .pad 6] 16
def OFPActionGroup.parser := unpackedEntry [.num 2, .num 2, .num 4] 8
def OFPActionSetQueue.parser := unpackedEntry [.num 2, .num 2, .num 4] 8
def OFPActionSetMplsTtl.parser := unpackedEntry [.num 2, .num 2, .num 1, .pad 3] 8
def OFPActionDecMplsTtl.parser := unpackedEntry ofpActionHeaderPackStr 8
def OFPActionSetNwTtl.parser := unpackedEntry [.num 2, .num 2, .num 1, .pad 3] 8
def OFPActionDecNwTtl.parser := unpackedEntry ofpActionHeaderPackStr 8
def OFPActionCopyTtlOut.parser := unpackedEntry ofpActionHeaderPackStr 8
def OFPActionCopyTtlIn.parser := unpackedEntry ofpActionHeaderPackStr 8
def OFPActionPushVlan.parser := unpackedEntry ofpActionPushPackStr 8
def OFPActionPushMpls.parser := unpackedEntry ofpActionPushPackStr 8
def OFPActionPopVlan.parser := unpackedEntry ofpActionHeaderPackStr 8
def OFPActionPopMpls.parser := unpackedEntry [.num 2, .num 2, .num 2, .pad 2] 8
def OFPActionPushPbb.parser := unpackedEntry ofpActionPushPackStr 8
def OFPActionPopPbb.parser := unpackedEntry ofpActionHeaderPackStr 8

def ofpatSetField : ℕ := 25
def ofpatExperimenter : ℕ := 0xffff

/-- `_ACTION_TYPES`, without those whose length the switch writes. -/
def OFPAction.types : ℕ → Option (List UInt8 → ℕ → Except PyError ℕ)
  | 0 => some OFPActionOutput.parser
  | 11 => some OFPActionCopyTtlOut.parser
  | 12 => some OFPActionCopyTtlIn.parser
  | 15 => some OFPActionSetMplsTtl.parser
  | 16 => some OFPActionDecMplsTtl.parser
  | 17 => some OFPActionPushVlan.parser
  | 18 => some OFPActionPopVlan.parser
  | 19 => some OFPActionPushMpls.parser
  | 20 => some OFPActionPopMpls.parser
  | 21 => some OFPActionSetQueue.parser
  | 22 => some OFPActionGroup.parser
  | 23 => some OFPActionSetNwTtl.parser
  | 24 => some OFPActionDecNwTtl.parser
  | 26 => some OFPActionPushPbb.parser
  | 27 => some OFPActionPopPbb.parser
  | _ => none

variable (reg : Registry)

namespace OFPActionSetField

/-- The field is parsed by both interfaces. It is set to a value without a mask. -/
def field (buf : List UInt8) (offset : ℕ) : Except PyError Unit := do
  let o ← oxmParse buf (offset + 4)
  let masked ← oxmToUser reg o
  if masked then .error .assertionError
  else do
    let _ ← OFPMatchField.parser reg buf (offset + 4)
    .ok ()

def parser (buf : List UInt8) (offset : ℕ) : Except PyError ℕ := do
  let (_, len_, _) ← unpackFrom [.num 2, .num 2, .pad 4] buf offset
  field reg buf offset
  .ok len_

def Advances (buf : List UInt8) (offset : ℕ) : Prop :=
  ∀ type_ len_, unpackFrom [.num 2, .num 2, .pad 4] buf offset = .ok (type_, len_, ()) →
    field reg buf offset = .ok () → len_ ≠ 0

end OFPActionSetField

namespace OFPActionExperimenter

/-- `buf[offset + 8:offset + len_]`. -/
def data (buf : List UInt8) (offset len_ : ℕ) : List UInt8 :=
  (buf.take (offset + len_)).drop (offset + 8)

variable (action : List UInt8 → ℕ → Parse ℕ)

/-- The data of another experimenter is kept as it is. -/
def object (experimenter : ℕ) (data : List UInt8) : Parse Unit :=
  if experimenter = nxExperimenterId then NXAction.parse reg action data else pure ()

def parser (buf : List UInt8) (offset : ℕ) : Parse ℕ := do
  let (_, len_, experimenter, _) ← .of (unpackFrom [.num 2, .num 2, .num 4] buf offset)
  object reg action experimenter (data buf offset len_)
  pure len_

/-- An action of Nicira with a length of zero has no data, so that its parser raises. -/
def Advances (advances : List UInt8 → Prop) (buf : List UInt8) (offset : ℕ) : Prop :=
  ∀ type_ len_ experimenter,
    unpackFrom [.num 2, .num 2, .num 4] buf offset = .ok (type_, len_, experimenter, ()) →
      if experimenter = nxExperimenterId then
        NXAction.Advances reg action advances (data buf offset len_)
      else len_ ≠ 0

end OFPActionExperimenter

namespace OFPAction

/-- The length of the action. The actions inside `ct` are parsed by the same function, as deep as
the stack of the interpreter allows. -/
def parser : ℕ → List UInt8 → ℕ → Parse ℕ
  | 0, _, _ => throw (.runtimeError "maximum recursion depth exceeded")
  | depth + 1, buf, offset => do
    let (type_, _, _) ← .of (unpackFrom ofpActionHeaderPackStr buf offset)
    if type_ = ofpatSetField then .of (OFPActionSetField.parser reg buf offset)
    else if type_ = ofpatExperimenter then
      OFPActionExperimenter.parser reg (parser depth) buf offset
    else
      match types type_ with
      | some parser => .of (parser buf offset)
      | none => throw .assertionError

/-- The action, if it is parsed, is left, and so are the entries inside. -/
def Advances : ℕ → List UInt8 → ℕ → Prop
  | 0, _, _ => True
  | depth + 1, buf, offset =>
    ∀ type_ len_, unpackFrom ofpActionHeaderPackStr buf offset = .ok (type_, len_, ()) →
      (type_ = ofpatSetField → OFPActionSetField.Advances reg buf offset) ∧
      (type_ = ofpatExperimenter → OFPActionExperimenter.Advances reg (parser reg depth)
        (fun rest => Advances depth rest 0) buf offset)

end OFPAction

section Actions

variable {reg} {buf : List UInt8} {offset depth : ℕ}

theorem OFPActionSetField.moves_parser_iff :
    Moves (of (parser reg buf offset)) ↔ Advances reg buf offset := by
  rw [moves_of]
  constructor
  · rintro h type_ len_ hread hfield rfl
    exact h (bind_eq_ok.2 ⟨_, hread, bind_eq_ok.2 ⟨_, hfield, rfl⟩⟩)
  · intro h hp
    obtain ⟨⟨type_, len_, _⟩, hread, hp⟩ := bind_eq_ok.1 hp
    obtain ⟨_, hfield, hp⟩ := bind_eq_ok.1 hp
    exact h type_ len_ hread hfield (Except.ok.inj hp)

theorem OFPActionExperimenter.data_zero : data buf offset 0 = [] := by
  rw [data, List.drop_eq_nil_iff, List.length_take]
  omega

theorem OFPActionExperimenter.moves_parser_iff {action : List UInt8 → ℕ → Parse ℕ}
    {advances : List UInt8 → Prop} (h : ∀ rest, (action rest 0).Moves ↔ advances rest) :
    (parser reg action buf offset).Moves ↔ Advances reg action advances buf offset := by
  have hobject : ∀ experimenter len_, Moves (do
      object reg action experimenter (data buf offset len_)
      pure len_ : Parse ℕ) ↔
        if experimenter = nxExperimenterId then
          NXAction.Advances reg action advances (data buf offset len_)
        else len_ ≠ 0 := by
    intro experimenter len_
    unfold object
    split_ifs
    · rw [moves_bind_iff, NXAction.ends_parse_iff h, and_iff_left]
      rintro _ hparse
      refine moves_pure.2 ?_
      rintro rfl
      rw [data_zero, NXAction.parse_nil] at hparse
      exact throw_ne_pure hparse
    · exact moves_pure
  rw [parser, moves_bind_iff]
  simp only [ends_of, true_and, of_eq_pure]
  constructor
  · intro hp type_ len_ experimenter hread
    exact (hobject experimenter len_).mp (hp _ hread)
  · rintro ha ⟨type_, len_, experimenter, _⟩ hread
    exact (hobject experimenter len_).mpr (ha type_ len_ experimenter hread)

theorem OFPAction.types_eq_some {type_ : ℕ} {p : List UInt8 → ℕ → Except PyError ℕ}
    (h : types type_ = some p) : ∃ fmt len, len ≠ 0 ∧ p = unpackedEntry fmt len := by
  unfold types at h
  split at h
  all_goals first
    | exact ⟨_, _, by decide, (Option.some.inj h).symm⟩
    | cases h

/-- An action holds a loop exactly if the switch wrote it a length of zero. -/
theorem OFPAction.moves_parser_iff :
    (parser reg depth buf offset).Moves ↔ Advances reg depth buf offset := by
  induction depth generalizing buf offset with
  | zero => exact iff_of_true (moves_throw _) trivial
  | succ depth ih =>
    have hexp : ∀ buf offset, (OFPActionExperimenter.parser reg (parser reg depth) buf offset).Moves
        ↔ OFPActionExperimenter.Advances reg (parser reg depth)
          (fun rest => Advances reg depth rest 0) buf offset :=
      fun buf offset => OFPActionExperimenter.moves_parser_iff fun rest => ih
    rw [parser, moves_bind_iff]
    simp only [ends_of, true_and, of_eq_pure]
    constructor
    · intro hp type_ len_ hread
      have hmoves := hp _ hread
      constructor
      · rintro rfl
        exact OFPActionSetField.moves_parser_iff.1 hmoves
      · rintro rfl
        exact (hexp buf offset).mp hmoves
    · rintro ha ⟨type_, len_, _⟩ hread
      obtain ⟨hset, hexperimenter⟩ := ha type_ len_ hread
      dsimp only
      split_ifs with hs he
      · exact OFPActionSetField.moves_parser_iff.2 (hset hs)
      · exact (hexp buf offset).mpr (hexperimenter he)
      · split
        · next p hp =>
          obtain ⟨fmt, len, hlen, rfl⟩ := types_eq_some hp
          exact moves_unpackedEntry hlen
        · exact moves_throw _

end Actions

/-! ## Instructions and buckets -/

def OFPInstructionGotoTable.parser := unpackedEntry [.num 2, .num 2, .num 1, .pad 3] 8
def OFPInstructionWriteMetadata.parser :=
  unpackedEntry [.num 2, .num 2, .pad 4, .num 8, .num 8] 24
def OFPInstructionMeter.parser := unpackedEntry [.num 2, .num 2, .num 4] 8

variable (depth : ℕ)

namespace OFPInstructionActions

/-- The length the switch wrote. -/
def parser (buf : List UInt8) (offset : ℕ) : Parse ℕ := do
  let (_, len_, _) ← .of (unpackFrom [.num 2, .num 2, .pad 4] buf offset)
  let truncated ← raisesStructError (Cursor.counted.scan
    (fun s => OFPAction.parser reg depth buf s.1) (offset + 8, (len_ - 8 : ℤ)))
  if truncated then throw ofpTruncatedMessage else pure len_

def Advances (buf : List UInt8) (offset : ℕ) : Prop :=
  ∀ type_ len_, unpackFrom [.num 2, .num 2, .pad 4] buf offset = .ok (type_, len_, ()) →
    len_ ≠ 0 ∧ Cursor.counted.Each (fun s => OFPAction.parser reg depth buf s.1)
      (fun s => OFPAction.Advances reg depth buf s.1) (offset + 8, (len_ - 8 : ℤ))

end OFPInstructionActions

namespace OFPInstruction

/-- `OFPIT_WRITE_ACTIONS`, `OFPIT_APPLY_ACTIONS` and `OFPIT_CLEAR_ACTIONS`. -/
def actionsTypes : List ℕ := [3, 4, 5]

/-- The other `_INSTRUCTION_TYPES`. -/
def types : ℕ → Option (List UInt8 → ℕ → Except PyError ℕ)
  | 1 => some OFPInstructionGotoTable.parser
  | 2 => some OFPInstructionWriteMetadata.parser
  | 6 => some OFPInstructionMeter.parser
  | _ => none

/-- The length of the instruction, if its type is registered. -/
def parser (buf : List UInt8) (offset : ℕ) : Parse (Option ℕ) := do
  let (type_, _, _) ← .of (unpackFrom [.num 2, .num 2] buf offset)
  if type_ ∈ actionsTypes then do
    let len ← OFPInstructionActions.parser reg depth buf offset
    pure (some len)
  else
    match types type_ with
    | some parser => do
      let len ← .of (parser buf offset)
      pure (some len)
    | none => pure none

def Advances (buf : List UInt8) (offset : ℕ) : Prop :=
  ∀ type_ len_, unpackFrom [.num 2, .num 2] buf offset = .ok (type_, len_, ()) →
    type_ ∈ actionsTypes → OFPInstructionActions.Advances reg depth buf offset

/-- The type is registered. -/
def Known (buf : List UInt8) (offset : ℕ) : Prop :=
  ∀ type_ len_, unpackFrom [.num 2, .num 2] buf offset = .ok (type_, len_, ()) →
    type_ ∈ actionsTypes ∨ (types type_).isSome

end OFPInstruction

namespace OFPBucket

/-- The length the switch wrote. -/
def parser (buf : List UInt8) (offset : ℕ) : Parse ℕ := do
  let (len_, _) ← .of (unpackFrom [.num 2, .num 2, .num 4, .num 4, .pad 4] buf offset)
  let _ ← (Cursor.within len_).scan (fun s => OFPAction.parser reg depth buf s.1) (offset + 16, 16)
  pure len_

def Advances (buf : List UInt8) (offset : ℕ) : Prop :=
  ∀ len_ vals, unpackFrom [.num 2, .num 2, .num 4, .num 4, .pad 4] buf offset = .ok (len_, vals) →
    len_ ≠ 0 ∧ (Cursor.within len_).Each (fun s => OFPAction.parser reg depth buf s.1)
      (fun s => OFPAction.Advances reg depth buf s.1) (offset + 16, 16)

end OFPBucket

section Instructions

variable {reg depth} {buf : List UInt8} {offset : ℕ}

theorem ends_actions_iff {σ : Type} (c : Cursor σ) (at_ : σ → ℕ) (s : σ) :
    (c.scan (fun t => OFPAction.parser reg depth buf (at_ t)) s).Ends ↔
      c.Each (fun t => OFPAction.parser reg depth buf (at_ t))
        (fun t => OFPAction.Advances reg depth buf (at_ t)) s :=
  Cursor.ends_scan_iff.trans (Cursor.each_congr fun _ _ => OFPAction.moves_parser_iff)

theorem OFPInstructionActions.moves_parser_iff :
    (parser reg depth buf offset).Moves ↔ Advances reg depth buf offset := by
  rw [parser, moves_bind_iff]
  simp only [ends_of, true_and, of_eq_pure]
  constructor
  · intro hp type_ len_ hread
    have hmoves := moves_bind_iff.1 (hp _ hread)
    refine ⟨?_, (ends_actions_iff Cursor.counted Prod.fst _).mp (ends_raisesStructError.1 hmoves.1)⟩
    rintro rfl
    have hnone : raisesStructError (Cursor.counted.scan
        (fun s => OFPAction.parser reg depth buf s.1) (offset + 8, ((0 : ℕ) - 8 : ℤ))) =
          pure false := by
      rw [Cursor.scan, whileLoop_of_not_more (by simp [Cursor.counted])]
      rfl
    exact moves_pure.1 (hmoves.2 false hnone) rfl
  · rintro ha ⟨type_, len_, _⟩ hread
    obtain ⟨hlen, heach⟩ := ha type_ len_ hread
    refine moves_bind_iff.2 ⟨ends_raisesStructError.2 ?_, fun truncated _ => ?_⟩
    · exact (ends_actions_iff Cursor.counted Prod.fst _).mpr heach
    · cases truncated
      · exact moves_pure.2 hlen
      · exact moves_throw _

theorem OFPInstruction.types_eq_some {type_ : ℕ} {p : List UInt8 → ℕ → Except PyError ℕ}
    (h : types type_ = some p) : ∃ fmt len, len ≠ 0 ∧ p = unpackedEntry fmt len := by
  unfold types at h
  split at h
  all_goals first
    | exact ⟨_, _, by decide, (Option.some.inj h).symm⟩
    | cases h

/-- A loop around instructions, whatever it does about an unknown type. -/
theorem OFPInstruction.moves_bind_parser_iff {k : Option ℕ → Parse ℕ}
    (hk : ∀ n, k (some n) = pure n) : (parser reg depth buf offset >>= k).Moves ↔
      Advances reg depth buf offset ∧ (Known buf offset ∨ (k none).Moves) := by
  have hsome : ∀ x : Parse ℕ, (do
      let len ← x
      pure (some len)) >>= k = x := by
    intro x
    simp only [bind_assoc, pure_bind, hk, bind_pure]
  have hbranch : ∀ type_, ((if type_ ∈ actionsTypes then do
        let len ← OFPInstructionActions.parser reg depth buf offset
        pure (some len)
      else
        match types type_ with
        | some parser => do
          let len ← of (parser buf offset)
          pure (some len)
        | none => pure none) >>= k).Moves ↔
      (type_ ∈ actionsTypes → OFPInstructionActions.Advances reg depth buf offset) ∧
        ((type_ ∈ actionsTypes ∨ (types type_).isSome) ∨ (k none).Moves) := by
    intro type_
    by_cases ht : type_ ∈ actionsTypes
    · rw [if_pos ht, hsome, OFPInstructionActions.moves_parser_iff]
      simp [ht]
    · rw [if_neg ht]
      cases htypes : types type_ with
      | none => simp [ht]
      | some p =>
        obtain ⟨fmt, len, hlen, rfl⟩ := types_eq_some htypes
        dsimp only
        rw [hsome]
        exact iff_of_true (moves_unpackedEntry hlen) ⟨fun h => absurd h ht, .inl (.inr rfl)⟩
  rw [parser, bind_assoc, moves_bind_iff]
  simp only [ends_of, true_and, of_eq_pure]
  constructor
  · intro hp
    refine ⟨fun type_ len_ hread => ((hbranch type_).mp (hp _ hread)).1, ?_⟩
    rw [or_iff_not_imp_right]
    intro hnone type_ len_ hread
    exact ((hbranch type_).mp (hp _ hread)).2.resolve_right hnone
  · rintro ⟨ha, hknown⟩ ⟨type_, len_, _⟩ hread
    exact (hbranch type_).mpr
      ⟨ha type_ len_ hread, hknown.imp_left fun hk => hk type_ len_ hread⟩

theorem OFPBucket.moves_parser_iff :
    (parser reg depth buf offset).Moves ↔ Advances reg depth buf offset := by
  have hsized : ∀ len_, (do
      let _ ← (Cursor.within len_).scan (fun s => OFPAction.parser reg depth buf s.1)
        (offset + 16, 16)
      pure len_ : Parse ℕ).Moves ↔ len_ ≠ 0 ∧
        (Cursor.within len_).Each (fun s => OFPAction.parser reg depth buf s.1)
          (fun s => OFPAction.Advances reg depth buf s.1) (offset + 16, 16) := by
    intro len_
    rw [Cursor.moves_sized_iff (by rintro rfl; simp [Cursor.within]),
      ends_actions_iff (Cursor.within len_) Prod.fst]
  rw [parser, moves_bind_iff]
  simp only [ends_of, true_and, of_eq_pure]
  constructor
  · intro hp len_ vals hread
    exact (hsized len_).mp (hp _ hread)
  · rintro ha ⟨len_, vals⟩ hread
    exact (hsized len_).mpr (ha len_ vals hread)

end Instructions

end Ryu.Ofproto13
