import Ryu.Ofproto13.Match

/-! # Nicira actions

Of the parsers of Nicira actions three have a loop. The flow specs of `learn` are always left.
The properties of `controller` can hold it, and so can the actions inside `ct`, which are parsed
like any other action.
-/

namespace Ryu.Ofproto13

open Prog

def nxExperimenterId : ℕ := 0x2320

def nxastLearn : ℕ := 16
def nxastCt : ℕ := 35
def nxastController2 : ℕ := 37

def nxac2ptMaxLen : ℕ := 0
def nxac2ptControllerId : ℕ := 1
def nxac2ptReason : ℕ := 2
def nxac2ptUserdata : ℕ := 3
def nxac2ptPause : ℕ := 4

section Learn

variable (reg : Registry)

namespace NXFlowSpec

/-- `_parse_subfield`. -/
def parseSubfield (buf : List UInt8) : Except PyError Unit := do
  let (n, len) ← oxmParseHeader buf 0
  if len ≠ 4 then .error .assertionError
  else do
    oxmToUserHeader reg n
    let _ ← unpackFrom [.num 2] (buf.drop len) 0
    .ok ()

/-- A subfield takes six octets. -/
def subfield (rest : List UInt8) : Except PyError ℕ := do
  parseSubfield reg rest
  .ok 6

/-- An immediate value, `IntDescr.to_user`. -/
def immediate (nBits : ℕ) (rest : List UInt8) : Except PyError ℕ :=
  let srcLen := (nBits + 15) / 16 * 2
  if rest.length < srcLen then .error (.typeError "ord() expected a character")
  else .ok srcLen

def source (srcType nBits : ℕ) (rest : List UInt8) : Except PyError ℕ :=
  if srcType = 0 then subfield reg rest else immediate nBits rest

/-- The destination of an output is empty. -/
def destination (dstType : ℕ) (rest : List UInt8) : Except PyError ℕ :=
  if dstType = 2 then .ok 0 else subfield reg rest

/-- How many octets the spec takes. A header of zeros is padding. -/
def parse (buf : List UInt8) : Except PyError ℕ := do
  let (hdr, _) ← unpackFrom [.num 2] buf 0
  let rest := buf.drop 2
  let srcType := (hdr >>> 13) &&& 0x1
  let dstType := (hdr >>> 11) &&& 0x3
  if hdr = 0 then .ok 2
  else if dstType = 3 then .error (.keyError "3")
  else do
    let src ← source reg srcType (hdr &&& 0x3ff) rest
    let dst ← destination reg dstType (rest.drop src)
    .ok (2 + src + dst)

end NXFlowSpec

def NXActionLearn.parser (buf : List UInt8) : Parse Unit := do
  let _ ← .of (unpackFrom
    [.num 2, .num 2, .num 2, .num 8, .num 2, .num 1, .pad 1, .num 2, .num 2] buf 0)
  let _ ← Cursor.rest.scan (fun rest => .of (NXFlowSpec.parse reg rest)) (buf.drop 22)
  pure ()

end Learn

section Learn

variable {reg : Registry} {buf : List UInt8} {n : ℕ}

theorem NXFlowSpec.parse_pos (h : NXFlowSpec.parse reg buf = .ok n) : 2 ≤ n := by
  obtain ⟨⟨hdr, _⟩, -, h⟩ := bind_eq_ok.1 h
  dsimp only at h
  split at h
  · exact (Except.ok.inj h).le
  split at h
  · cases h
  · obtain ⟨src, -, h⟩ := bind_eq_ok.1 h
    obtain ⟨dst, -, h⟩ := bind_eq_ok.1 h
    obtain rfl := Except.ok.inj h
    omega

theorem NXActionLearn.parser_ends (buf : List UInt8) : (parser reg buf).Ends := by
  refine ends_bind_iff.2 ⟨ends_of _, fun _ _ => ends_bind_iff.2 ⟨?_, fun _ _ => ends_pure _⟩⟩
  refine Cursor.ends_scan (fun rest => moves_of.2 fun h0 => ?_) _
  have hpos := NXFlowSpec.parse_pos h0
  omega

end Learn

namespace NXActionController2

/-- `NXActionController2PropUserData.parser_prop`, the size. -/
def userData (buf : List UInt8) (length : ℤ) : Parse ℤ := do
  let octet : ℕ → Except PyError ℕ := fun offset => do
    let _ ← unpackFrom [.num 1] buf offset
    .ok 1
  let _ ← (Cursor.upTo length.toNat).scan (fun offset => .of (octet offset)) 0
  let userSize := (length + 3) / 4 * 4
  pure (if userSize > 4 ∧ userSize % 8 = 0 then userSize + 4 else userSize)

/-- `parser_prop` of the class of a type. The class of an unknown type has no `_arg_name`. -/
def parserProp (type_ : ℕ) (buf : List UInt8) (length : ℤ) : Parse ℤ :=
  if type_ = nxac2ptMaxLen ∨ type_ = nxac2ptControllerId then do
    let _ ← .of (unpackFrom [.num 2, .pad 2] buf 0)
    pure 4
  else if type_ = nxac2ptReason then do
    let _ ← .of (unpackFrom [.num 1, .pad 3] buf 0)
    pure 4
  else if type_ = nxac2ptUserdata then userData buf length
  else if type_ = nxac2ptPause then pure 4
  else throw (.attributeError "_arg_name")

/-- By how much the offset grows at a property. -/
def prop (buf : List UInt8) (offset : ℕ) : Parse ℕ := do
  let (type_, length, _) ← .of (unpackFrom [.num 2, .num 2] buf offset)
  let size ← parserProp type_ (buf.drop (offset + 4)) (length - 4)
  pure (4 + size).toNat

def parser (buf : List UInt8) : Parse Unit := do
  let _ ← (Cursor.upTo buf.length).scan (prop buf) 6
  pure ()

/-- No user data with a length of zero is arrived at. -/
def Advances (buf : List UInt8) : Prop :=
  (Cursor.upTo buf.length).Each (prop buf) (fun offset => ∀ type_ length,
    unpackFrom [.num 2, .num 2] buf offset = .ok (type_, length, ()) →
      type_ = nxac2ptUserdata → length ≠ 0) 6

variable {buf : List UInt8} {length : ℤ}

theorem ends_userData : (userData buf length).Ends := by
  refine ends_bind_iff.2 ⟨Cursor.ends_scan (fun offset => moves_of.2 fun h => ?_) _, ?_⟩
  · obtain ⟨vals, -, h⟩ := bind_eq_ok.1 h
    cases h
  · exact fun _ _ => ends_pure _

/-- The size is that of the octets and their padding, which is negative below a header. -/
theorem userData_eq_pure {size : ℤ} (hl : -4 ≤ length) (h : userData buf length = pure size) :
    (4 + size).toNat = 0 ↔ length = -4 := by
  obtain ⟨_, -, h⟩ := bind_eq_pure.1 h
  have hsize := pure_inj.1 h
  split at hsize <;> omega

theorem userData_neg : userData buf (-4) = pure (-4) := by
  have hscan : ∀ entry : ℕ → Parse ℕ, (Cursor.upTo (-4 : ℤ).toNat).scan entry 0 = pure 0 :=
    fun _ => whileLoop_of_not_more (by decide)
  simp only [userData, hscan, pure_bind]
  rfl

theorem ends_parserProp {type_ : ℕ} : (parserProp type_ buf length).Ends := by
  have hunpack : ∀ fmt, (do
      let _ ← of (unpackFrom fmt buf 0)
      pure 4 : Parse ℤ).Ends :=
    fun fmt => ends_bind_iff.2 ⟨ends_of _, fun _ _ => ends_pure 4⟩
  unfold parserProp
  split_ifs
  · exact hunpack _
  · exact hunpack _
  · exact ends_userData
  · exact ends_pure 4
  · exact ends_throw _

/-- Only user data can have the size that takes the four octets of the header back. -/
theorem parserProp_eq_pure {type_ : ℕ} {size : ℤ} (hl : -4 ≤ length)
    (h : parserProp type_ buf length = pure size) :
    (4 + size).toNat = 0 ↔ type_ = nxac2ptUserdata ∧ length = -4 := by
  unfold parserProp at h
  split_ifs at h with hmax hreason huser hpause
  · obtain ⟨_, -, h⟩ := bind_eq_pure.1 h
    obtain rfl := pure_inj.1 h
    refine iff_of_false (by decide) fun hu => ?_
    rw [hu.1] at hmax
    revert hmax
    decide
  · obtain ⟨_, -, h⟩ := bind_eq_pure.1 h
    obtain rfl := pure_inj.1 h
    refine iff_of_false (by decide) fun hu => ?_
    rw [hu.1] at hreason
    cases hreason
  · rw [userData_eq_pure hl h, and_iff_right huser]
  · obtain rfl := pure_inj.1 h
    exact iff_of_false (by decide) fun hu => huser hu.1
  · exact absurd h throw_ne_pure

theorem moves_prop_iff {offset : ℕ} : (prop buf offset).Moves ↔ ∀ type_ length,
    unpackFrom [.num 2, .num 2] buf offset = .ok (type_, length, ()) →
      type_ = nxac2ptUserdata → length ≠ 0 := by
  rw [prop, moves_bind_iff]
  simp only [ends_of, true_and, of_eq_pure]
  constructor
  · rintro h type_ length hread rfl rfl
    have hmoves := h _ hread
    have huser : parserProp nxac2ptUserdata (buf.drop (offset + 4)) ((0 : ℕ) - 4 : ℤ) =
        pure (-4) := userData_neg
    exact moves_pure.1 ((moves_bind_iff.1 hmoves).2 _ huser) rfl
  · rintro h ⟨type_, length, _⟩ hread
    refine moves_bind_iff.2 ⟨ends_parserProp, fun size hsize => moves_pure.2 fun h0 => ?_⟩
    obtain ⟨htype, hlen⟩ := (parserProp_eq_pure (by omega) hsize).mp h0
    have hzero : (length : ℤ) - 4 = -4 := hlen
    exact h type_ length hread htype (by omega)

theorem ends_parser_iff : (parser buf).Ends ↔ Advances buf := by
  rw [parser, ends_bind_iff, Cursor.ends_scan_iff]
  simp only [ends_pure, implies_true, and_true]
  exact Cursor.each_congr fun offset _ => moves_prop_iff

end NXActionController2

/-! ## Actions inside `ct` -/

section Ct

variable (reg : Registry)

/-- What `NXActionCT.parser` reads before the actions. -/
def NXActionCT.head (buf : List UInt8) : Except PyError Unit := do
  let (_, oxmData, _) ← unpackFrom [.num 2, .str 4, .num 2, .num 1, .pad 3, .num 2] buf 0
  if oxmData = [0, 0, 0, 0] then .ok ()
  else do
    let (n, _) ← oxmParseHeader oxmData 0
    oxmToUserHeader reg n

variable (action : List UInt8 → ℕ → Parse ℕ)

/-- The actions inside are parsed by `OFPAction.parser`. -/
def NXActionCT.parser (buf : List UInt8) : Parse Unit := do
  .of (NXActionCT.head reg buf)
  let _ ← Cursor.rest.scan (fun rest => action rest 0) (buf.drop 14)
  pure ()

/-- `NXAction.parse`. A subtype that is not registered is kept as it is. -/
def NXAction.parse (buf : List UInt8) : Parse Unit := do
  let (subtype, _) ← .of (unpackFrom [.num 2] buf 0)
  let rest := buf.drop 2
  if subtype = nxastLearn then NXActionLearn.parser reg rest
  else if subtype = nxastController2 then NXActionController2.parser rest
  else if subtype = nxastCt then NXActionCT.parser reg action rest
  else
    match reg.nxSubtypes subtype with
    | some parser => .of (parser rest)
    | none => pure ()

variable (advances : List UInt8 → Prop)

def NXActionCT.Advances (buf : List UInt8) : Prop :=
  NXActionCT.head reg buf = .ok () →
    Cursor.rest.Each (fun rest => action rest 0) advances (buf.drop 14)

def NXAction.Advances (buf : List UInt8) : Prop :=
  ∀ subtype, unpackFrom [.num 2] buf 0 = .ok (subtype, ()) →
    (subtype = nxastController2 → NXActionController2.Advances (buf.drop 2)) ∧
    (subtype = nxastCt → NXActionCT.Advances reg action advances (buf.drop 2))

variable {reg action advances} {buf : List UInt8}

theorem NXActionCT.ends_parser_iff (h : ∀ rest, (action rest 0).Moves ↔ advances rest) :
    (parser reg action buf).Ends ↔ Advances reg action advances buf := by
  have hscan : ∀ rest, (Cursor.rest.scan (fun rest => action rest 0) rest).Ends ↔
      Cursor.rest.Each (fun rest => action rest 0) advances rest :=
    fun rest => Cursor.ends_scan_iff.trans (Cursor.each_congr fun rest _ => h rest)
  simp only [parser, ends_bind_iff, ends_of, true_and, of_eq_pure, ends_pure, implies_true,
    and_true, hscan]
  exact ⟨fun hp => hp (), fun ha _ => ha⟩

theorem NXAction.ends_parse_iff (h : ∀ rest, (action rest 0).Moves ↔ advances rest) :
    (parse reg action buf).Ends ↔ Advances reg action advances buf := by
  rw [parse, ends_bind_iff]
  simp only [ends_of, true_and, of_eq_pure]
  constructor
  · intro hp subtype hread
    have hends := hp _ hread
    constructor
    · rintro rfl
      exact NXActionController2.ends_parser_iff.mp hends
    · rintro rfl
      exact (NXActionCT.ends_parser_iff h).mp hends
  · rintro ha ⟨subtype, _⟩ hread
    obtain ⟨hcontroller, hct⟩ := ha subtype hread
    dsimp only
    split_ifs with hl hc ht
    · exact NXActionLearn.parser_ends _
    · exact NXActionController2.ends_parser_iff.mpr (hcontroller hc)
    · exact (NXActionCT.ends_parser_iff h).mpr (hct ht)
    · split
      · exact ends_of _
      · exact ends_pure _

/-- No octets are no action. -/
theorem NXAction.parse_nil : parse reg action [] = throw structError := rfl

end Ct

end Ryu.Ofproto13
