import Ryu.Ofproto13.Match

/-! # Properties

A property is padded to eight octets, and what is left behind it is cut off by its own length.
The properties of table features hold lists, whose identifiers of instructions and actions are
cut off by their own lengths too.
-/

namespace Ryu.Ofproto13

open Prog

/-- `OFPPropBase.parse`: the octets the property takes. A type that is not registered is kept
as it is. -/
def OFPPropBase.parse (types : ℕ → Option (List UInt8 → Parse Unit)) (buf : List UInt8) :
    Parse ℕ := do
  let (type_, length, _) ← .of (unpackFrom [.num 2, .num 2] buf 0)
  match types type_ with
  | some parser => do
    parser buf
    pure (roundUp length 8)
  | none => pure (roundUp length 8)

/-- `get_rest`. -/
def OFPPropBase.getRest (buf : List UInt8) : Except PyError (List UInt8) := do
  let (_, length, _) ← unpackFrom [.num 2, .num 2] buf 0
  .ok ((buf.take length).drop 4)

/-- No property of a bundle is registered. -/
def OFPBundleProp.parse : List UInt8 → Parse ℕ := OFPPropBase.parse fun _ => none

/-- A list of what one entry after the other takes of the rest. -/
def parseList (entry : List UInt8 → Except PyError ℕ) (rest : List UInt8) : Parse Unit := do
  let _ ← Cursor.rest.scan (fun rest => .of (entry rest)) rest
  pure ()

/-- `OFPPropCommonExperimenter4ByteData`. -/
def OFPPropCommonExperimenter4ByteData.datum (rest : List UInt8) : Except PyError ℕ := do
  let _ ← unpackFrom [.num 4] rest 0
  .ok 4

def OFPPropCommonExperimenter4ByteData.parser (buf : List UInt8) : Parse Unit := do
  let (_, length, _) ← .of (unpackFrom [.num 2, .num 2, .num 4, .num 4] buf 0)
  parseList datum ((buf.take length).drop 12)

/-! ## Properties of table features -/

/-- `rest = buf[len_:]`. -/
def OFPInstructionId.parse (buf : List UInt8) : Except PyError ℕ := do
  let (_, len_, _) ← unpackFrom [.num 2, .num 2] buf 0
  .ok len_

def OFPActionId.parse (buf : List UInt8) : Except PyError ℕ := do
  let (_, len_, _) ← unpackFrom [.num 2, .num 2] buf 0
  .ok len_

def OFPTableFeaturePropNextTables.tableId (rest : List UInt8) : Except PyError ℕ := do
  let _ ← unpackFrom [.num 1] rest 0
  .ok 1

def OFPOxmId.parse (buf : List UInt8) : Except PyError ℕ := do
  let (oxm, _) ← unpackFrom [.num 4] buf 0
  if oxm >>> 16 = ofpxxcExperimenter then do
    let _ ← unpackFrom [.num 4] (buf.drop 4) 0
    .ok 8
  else .ok 4

/-- The classes that hold a list parse what `get_rest` leaves. -/
def OFPTableFeatureProp.listed (entry : List UInt8 → Except PyError ℕ) (buf : List UInt8) :
    Parse Unit := do
  let rest ← .of (OFPPropBase.getRest buf)
  parseList entry rest

def OFPTableFeaturePropInstructions.parser := OFPTableFeatureProp.listed OFPInstructionId.parse
def OFPTableFeaturePropNextTables.parser := OFPTableFeatureProp.listed tableId
def OFPTableFeaturePropActions.parser := OFPTableFeatureProp.listed OFPActionId.parse
def OFPTableFeaturePropOxm.parser := OFPTableFeatureProp.listed OFPOxmId.parse

namespace OFPTableFeatureProp

def instructionsTypes : List ℕ := [0, 1]
def nextTablesTypes : List ℕ := [2, 3]
def actionsTypes : List ℕ := [4, 5, 6, 7]
def oxmTypes : List ℕ := [8, 10, 12, 13, 14, 15]
def experimenterTypes : List ℕ := [0xfffe, 0xffff]

/-- `_TYPES`. -/
def types (type_ : ℕ) : Option (List UInt8 → Parse Unit) :=
  if type_ ∈ instructionsTypes then some OFPTableFeaturePropInstructions.parser
  else if type_ ∈ nextTablesTypes then some OFPTableFeaturePropNextTables.parser
  else if type_ ∈ actionsTypes then some OFPTableFeaturePropActions.parser
  else if type_ ∈ oxmTypes then some OFPTableFeaturePropOxm.parser
  else if type_ ∈ experimenterTypes then some OFPPropCommonExperimenter4ByteData.parser
  else none

def parse : List UInt8 → Parse ℕ := OFPPropBase.parse types

end OFPTableFeatureProp

/-! ## What makes a list of properties go on -/

/-- No length of zero is arrived at in a list of identifiers. -/
def IdsAdvance (rest : List UInt8) : Prop :=
  Cursor.rest.Each (fun rest => of (OFPActionId.parse rest)) (fun rest => ∀ type_ len_,
    unpackFrom [.num 2, .num 2] rest 0 = .ok (type_, len_, ()) → len_ ≠ 0) rest

/-- The property, if it is parsed, does not have a length of zero, and its identifiers neither. -/
def OFPTableFeatureProp.Advances (buf : List UInt8) : Prop :=
  ∀ type_ length, unpackFrom [.num 2, .num 2] buf 0 = .ok (type_, length, ()) →
    ((type_ ∈ experimenterTypes → 12 ≤ buf.length) → length ≠ 0) ∧
    (type_ ∈ instructionsTypes ++ actionsTypes → IdsAdvance ((buf.take length).drop 4))

def OFPBundleProp.Advances (buf : List UInt8) : Prop :=
  ∀ type_ length, unpackFrom [.num 2, .num 2] buf 0 = .ok (type_, length, ()) → length ≠ 0

variable {buf rest : List UInt8} {entry : List UInt8 → Except PyError ℕ}

theorem roundUp_eq_zero {x : ℕ} : roundUp x 8 = 0 ↔ x = 0 := by
  unfold roundUp
  omega

theorem ends_parseList (h : ∀ rest, entry rest ≠ .ok 0) (rest : List UInt8) :
    (parseList entry rest).Ends :=
  ends_bind_iff.2 ⟨Cursor.ends_scan (fun rest => moves_of.2 (h rest)) _, fun _ _ => ends_pure _⟩

/-- Nothing left is parsed as an empty list. -/
theorem parseList_nil : parseList entry [] = pure () := by
  rw [parseList, Cursor.scan, whileLoop_of_not_more (by simp [Cursor.rest]), pure_bind]

theorem ends_ids_iff : (parseList OFPActionId.parse rest).Ends ↔ IdsAdvance rest := by
  have hentry : ∀ rest, Moves (of (OFPActionId.parse rest)) ↔ ∀ type_ len_,
      unpackFrom [.num 2, .num 2] rest 0 = .ok (type_, len_, ()) → len_ ≠ 0 := by
    intro rest
    rw [moves_of]
    constructor
    · rintro h type_ len_ hread rfl
      exact h (bind_eq_ok.2 ⟨_, hread, rfl⟩)
    · intro h hid
      obtain ⟨⟨type_, len_, _⟩, hread, hid⟩ := bind_eq_ok.1 hid
      exact h type_ len_ hread (Except.ok.inj hid)
  rw [parseList, ends_bind_iff, Cursor.ends_scan_iff]
  simp only [ends_pure, implies_true, and_true]
  exact Cursor.each_congr fun rest _ => hentry rest

theorem OFPPropBase.getRest_eq {type_ length : ℕ}
    (h : unpackFrom [.num 2, .num 2] buf 0 = .ok (type_, length, ())) :
    getRest buf = .ok ((buf.take length).drop 4) :=
  bind_eq_ok.2 ⟨_, h, rfl⟩

theorem OFPTableFeatureProp.listed_eq {type_ length : ℕ}
    (h : unpackFrom [.num 2, .num 2] buf 0 = .ok (type_, length, ())) :
    listed entry buf = parseList entry ((buf.take length).drop 4) := by
  rw [listed, OFPPropBase.getRest_eq h]
  rfl

/-- A property is left if its class parses it, unless its length is zero. -/
theorem OFPPropBase.moves_parse_iff {types : ℕ → Option (List UInt8 → Parse Unit)} :
    (parse types buf).Moves ↔ ∀ type_ length,
      unpackFrom [.num 2, .num 2] buf 0 = .ok (type_, length, ()) →
        match types type_ with
        | some parser => (parser buf).Ends ∧ (parser buf = pure () → length ≠ 0)
        | none => length ≠ 0 := by
  have hclass : ∀ type_ length, Moves (match types type_ with
      | some parser => do
        parser buf
        pure (roundUp length 8)
      | none => pure (roundUp length 8) : Parse ℕ) ↔
        match types type_ with
        | some parser => (parser buf).Ends ∧ (parser buf = pure () → length ≠ 0)
        | none => length ≠ 0 := by
    intro type_ length
    cases types type_ with
    | none => simp [roundUp_eq_zero]
    | some parser =>
      simp only [moves_bind_iff, moves_pure, ne_eq, roundUp_eq_zero]
      exact and_congr_right fun _ => ⟨fun h => h (), fun h _ => h⟩
  rw [parse, moves_bind_iff]
  simp only [ends_of, true_and, of_eq_pure]
  constructor
  · intro h type_ length hread
    exact (hclass type_ length).mp (h _ hread)
  · rintro h ⟨type_, length, _⟩ hread
    exact (hclass type_ length).mpr (h type_ length hread)

namespace OFPTableFeatureProp

/-- A property with a length of zero is an empty list. -/
theorem listed_zero {type_ : ℕ}
    (h : unpackFrom [.num 2, .num 2] buf 0 = .ok (type_, 0, ())) : listed entry buf = pure () := by
  rw [listed_eq h, List.take_zero, List.drop_nil, parseList_nil]

theorem moves_listed_iff {type_ length : ℕ}
    (h : unpackFrom [.num 2, .num 2] buf 0 = .ok (type_, length, ())) :
    ((listed entry buf).Ends ∧ (listed entry buf = pure () → length ≠ 0)) ↔
      length ≠ 0 ∧ (parseList entry ((buf.take length).drop 4)).Ends := by
  rw [← listed_eq h]
  constructor
  · rintro ⟨hends, hlen⟩
    refine ⟨?_, hends⟩
    rintro rfl
    exact hlen (listed_zero h) rfl
  · rintro ⟨hlen, hends⟩
    exact ⟨hends, fun _ => hlen⟩

theorem ends_experimenter : (OFPPropCommonExperimenter4ByteData.parser buf).Ends := by
  refine ends_bind_iff.2 ⟨ends_of _, fun _ _ => ends_parseList (fun rest h => ?_) _⟩
  obtain ⟨_, -, h⟩ := bind_eq_ok.1 h
  cases h

/-- An experimenter's header is longer than that of a property. -/
theorem experimenter_zero {type_ : ℕ}
    (h : unpackFrom [.num 2, .num 2] buf 0 = .ok (type_, 0, ())) :
    OFPPropCommonExperimenter4ByteData.parser buf = pure () ↔ 12 ≤ buf.length := by
  have hread : unpackFrom [.num 2, .num 2, .num 4, .num 4] buf 0 =
      if buf.length < 12 then .error structError else
        .ok (type_, 0, (Format.unpack [.num 2, .num 2, .num 4, .num 4] buf).2.2) := by
    unfold unpackFrom Format.unpackFrom at h ⊢
    simp only [List.drop_zero] at h ⊢
    split at h
    · cases h
    · have hvals := Except.ok.inj h
      rw [Prod.mk.injEq, Prod.mk.injEq] at hvals
      have htype : (Format.unpack [.num 2, .num 2, .num 4, .num 4] buf).1 = type_ := hvals.1
      have hlen : (Format.unpack [.num 2, .num 2, .num 4, .num 4] buf).2.1 = 0 := hvals.2.1
      refine if_congr Iff.rfl rfl ?_
      rw [← htype, ← hlen]
  rw [OFPPropCommonExperimenter4ByteData.parser, hread]
  split
  · next hlt => exact iff_of_false throw_ne_pure (by omega)
  · next hge =>
    refine iff_of_true ?_ (by omega)
    change parseList _ ((buf.take 0).drop 12) = pure ()
    rw [List.take_zero, List.drop_nil, parseList_nil]

theorem moves_experimenter_iff {type_ length : ℕ}
    (h : unpackFrom [.num 2, .num 2] buf 0 = .ok (type_, length, ())) :
    ((OFPPropCommonExperimenter4ByteData.parser buf).Ends ∧
      (OFPPropCommonExperimenter4ByteData.parser buf = pure () → length ≠ 0)) ↔
        (12 ≤ buf.length → length ≠ 0) := by
  rw [and_iff_right ends_experimenter]
  by_cases hlen : length = 0
  · subst hlen
    rw [experimenter_zero h]
  · exact iff_of_true (fun _ => hlen) fun _ => hlen

theorem tableId_ne_zero (rest : List UInt8) : OFPTableFeaturePropNextTables.tableId rest ≠ .ok 0 := by
  intro h
  obtain ⟨_, -, h⟩ := bind_eq_ok.1 h
  cases h

theorem oxmId_ne_zero (rest : List UInt8) : OFPOxmId.parse rest ≠ .ok 0 := by
  intro h
  obtain ⟨⟨oxm, _⟩, -, h⟩ := bind_eq_ok.1 h
  dsimp only at h
  split at h
  · obtain ⟨_, -, h⟩ := bind_eq_ok.1 h
    cases h
  · cases h

theorem moves_parse_iff : (parse buf).Moves ↔ Advances buf := by
  rw [parse, OFPPropBase.moves_parse_iff]
  refine forall_congr' fun type_ => forall_congr' fun length => forall_congr' fun hread => ?_
  have hids : ∀ t ∈ instructionsTypes ++ actionsTypes, t ∉ experimenterTypes := by decide
  have hlists : ∀ t ∈ nextTablesTypes ++ oxmTypes,
      t ∉ experimenterTypes ∧ t ∉ instructionsTypes ++ actionsTypes := by decide
  have hexp : ∀ t ∈ experimenterTypes, t ∉ instructionsTypes ++ actionsTypes := by decide
  have hfree : type_ ∉ experimenterTypes →
      (((type_ ∈ experimenterTypes → 12 ≤ buf.length) → length ≠ 0) ↔ length ≠ 0) :=
    fun hne => ⟨fun h => h fun he => absurd he hne, fun h _ => h⟩
  unfold types
  split_ifs with hi hn ha ho he
  · have hmem : type_ ∈ instructionsTypes ++ actionsTypes := List.mem_append_left _ hi
    rw [hfree (hids type_ hmem), forall_prop_of_true hmem, ← ends_ids_iff]
    exact moves_listed_iff hread
  · obtain ⟨hne, hno⟩ := hlists type_ (List.mem_append_left _ hn)
    rw [hfree hne, and_iff_left fun h => absurd h hno]
    exact (moves_listed_iff hread).trans (and_iff_left (ends_parseList tableId_ne_zero _))
  · have hmem : type_ ∈ instructionsTypes ++ actionsTypes := List.mem_append_right _ ha
    rw [hfree (hids type_ hmem), forall_prop_of_true hmem, ← ends_ids_iff]
    exact moves_listed_iff hread
  · obtain ⟨hne, hno⟩ := hlists type_ (List.mem_append_right _ ho)
    rw [hfree hne, and_iff_left fun h => absurd h hno]
    exact (moves_listed_iff hread).trans (and_iff_left (ends_parseList oxmId_ne_zero _))
  · rw [and_iff_left fun h => absurd h (hexp type_ he), forall_prop_of_true he]
    exact moves_experimenter_iff hread
  · rw [hfree he, and_iff_left fun h => ?_]
    rcases List.mem_append.mp h with h | h
    · exact absurd h hi
    · exact absurd h ha

end OFPTableFeatureProp

theorem OFPBundleProp.moves_parse_iff : (parse buf).Moves ↔ Advances buf :=
  OFPPropBase.moves_parse_iff

end Ryu.Ofproto13
