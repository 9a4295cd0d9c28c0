import Mathlib.Data.Finset.Image
import Mathlib.Data.Rat.Init
import Ryu.Lib.Dict
import Ryu.Lib.Numeral

/-! # Values of settings and their validators

Keyword arguments carry any Python value. A validator says what is wrong with one, if something
is.
-/

namespace Ryu.Rtconf

open Numeral

/-- An element of a container; numbers of all types are equal by value. -/
inductive Item where
  | none
  | num (q : ℚ)
  | str (s : Text)
  | object (id : ℕ) (hashable : Bool)
  deriving DecidableEq, Repr

inductive Value where
  | none
  | bool (b : Bool)
  | int (n : ℤ)
  | float (q : ℚ)
  | str (s : Text)
  | list (l : List Item)
  /-- A tuple, a set or a dictionary. -/
  | iterable (kind : ℕ) (l : List Item)
  | object (id : ℕ) (truthy : Bool)
  deriving DecidableEq, Repr

namespace Value

/-- `bool(v)`. -/
def truthy : Value → Bool
  | none => false
  | bool b => b
  | int n => n ≠ 0
  | float q => q ≠ 0
  | str s => s ≠ []
  | list l => l ≠ []
  | iterable _ l => l ≠ []
  | object _ t => t

def number : Value → Option ℚ
  | bool b => some (if b then 1 else 0)
  | int n => some n
  | float q => some q
  | _ => Option.none

/-- `v == w`. -/
def eq (v w : Value) : Bool :=
  match v.number, w.number with
  | some p, some q => p = q
  | _, _ => v = w

def isHashable : Item → Bool
  | .object _ h => h
  | _ => true

/-- The elements a value is iterated over. -/
def elements? : Value → Option (List Item)
  | str s => some (s.map fun c => .str [c])
  | list l => some l
  | iterable _ l => some l
  | _ => Option.none

/-- `set(v)`, or nothing where it raises. -/
def toSet? (v : Value) : Option (Finset Item) :=
  v.elements?.bind fun l => if l.all isHashable then some l.toFinset else Option.none

/-- The texts of a list of texts. -/
def texts : Value → Finset Text
  | list l => (l.filterMap fun
      | .str s => some s
      | _ => Option.none).toFinset
  | _ => ∅

def asBool : Value → Bool
  | bool b => b
  | _ => false

def asInt : Value → ℤ
  | int n => n
  | _ => 0

def asText : Value → Text
  | str s => s
  | _ => []

theorem eq_refl (v : Value) : v.eq v := by
  unfold eq
  cases v.number <;> simp

end Value

/-- What a runtime-configuration error says. -/
inductive Detail where
  /-- Made from the name and the value of the setting. -/
  | conf (name : String) (value : Value)
  /-- A text into which values are put. -/
  | desc (text : String) (args : List Value)
  deriving DecidableEq, Repr

inductive ConfError where
  | missingRequiredConf (names : List String)
  | runtimeConfigError (unknown : List String)
  | configTypeError (d : Detail)
  | configValueError (d : Detail)
  /-- Python's own. -/
  | typeError (message : String)
  deriving DecidableEq, Repr

/-- The keyword arguments of a call. -/
abbrev Kwargs := Dict String Value

/-- `kwargs.get(name, default)`. -/
def Kwargs.getD (kw : Kwargs) (name : String) (default : Value) : Value :=
  (kw.get? name).getD default

/-- `compute_optional_conf`, before its check. -/
def Kwargs.optional (kw : Kwargs) (name : String) (default : Value) : Value :=
  if kw.getD name .none = .none then default else kw.getD name .none

/-- `attr.rsplit(':', 1)` if it has two parts. -/
def rsplitColon (s : Text) : Option (Text × Text) :=
  if ':' ∈ s then
    some (((s.reverse.dropWhile (· ≠ ':')).drop 1).reverse, (s.reverse.takeWhile (· ≠ ':')).reverse)
  else none

/-- `is_valid_ext_comm_attr`, where `validIpv4` is that of `ryu.lib.ip`. -/
def isValidExtCommAttr (validIpv4 : Text → Bool) : Item → Bool
  | .str attr =>
    match rsplitColon attr with
    | some (admin, num) =>
      (if '.' ∈ admin then validIpv4 admin else (int? admin).isSome) && (int? num).isSome
    | none => false
  | _ => false

section Validators

variable (validIpv4 : Text → Bool)

/-- The validators of lists of extended communities. -/
def validateExtComms (name : String) (max : ℕ) (maxText duplicateText : String) (v : Value) :
    Option ConfError :=
  match v with
  | .list l =>
    if max < l.length then some (.configValueError (.desc maxText [.int max]))
    else if ¬ l.all (isValidExtCommAttr validIpv4) then
      some (.configValueError (.conf name v))
    else if ¬ l.Nodup then some (.configValueError (.desc duplicateText [v]))
    else none
  | _ => some (.configTypeError (.conf name v))

def maxNumImportRt : ℕ := 1000
def maxNumExportRt : ℕ := 250
def maxNumSoo : ℕ := 10

def validateImportRts : Value → Option ConfError :=
  validateExtComms validIpv4 "import_rts" maxNumImportRt "Max. import RT is limited to %s"
    "Duplicate value provided %s"

def validateExportRts : Value → Option ConfError :=
  validateExtComms validIpv4 "export_rts" maxNumExportRt "Max. import RT is limited to %s"
    "Duplicate value provided in %s"

def validateSooList : Value → Option ConfError :=
  validateExtComms validIpv4 "site_of_origins" maxNumSoo "Max. SOO is limited to %s"
    "Duplicate value provided in %s"

def validateRd (v : Value) : Option ConfError :=
  match v with
  | .str s =>
    if isValidExtCommAttr validIpv4 (.str s) then none
    else some (.configValueError (.conf "route_dist" v))
  | _ => some (.configValueError (.conf "route_dist" v))

end Validators

def supportedVrfRf : List Text :=
  ["ipv4", "ipv6", "evpn", "ipv4fs", "ipv6fs", "l2vpnfs"].map String.toList

def validateVrfRf (v : Value) : Option ConfError :=
  match v with
  | .str s =>
    if supportedVrfRf.contains s then none
    else some (.configValueError (.desc "Give VRF route family %s is not supported." [v]))
  | _ => some (.configValueError (.desc "Give VRF route family %s is not supported." [v]))

/-- `validate_conf_id` and `validate_conf_name`. -/
def validateShortText (name : String) (v : Value) : Option ConfError :=
  match v with
  | .str s => if 128 < s.length then some (.configValueError (.conf name v)) else none
  | _ => some (.configTypeError (.conf name v))

def validateConfId : Value → Option ConfError := validateShortText "id"

def validateConfName : Value → Option ConfError := validateShortText "name"

def validateConfDesc (v : Value) : Option ConfError :=
  match v with
  | .str _ => none
  | _ => some (.configTypeError (.conf "description" v))

def validateStatsLogEnabled (v : Value) : Option ConfError :=
  match v with
  | .bool _ => none
  | _ => some (.configTypeError
      (.desc "Statistics log enabled settings can only be boolean type." []))

def statsTimeTooShort : String :=
  "Statistics log timer cannot be set to less then 10 sec, given timer value %s."

def validateStatsTime (v : Value) : Option ConfError :=
  match v with
  | .int n => if n < 10 then some (.configValueError (.desc statsTimeTooShort [v])) else none
  | .bool _ => some (.configValueError (.desc statsTimeTooShort [v]))
  | _ => some (.configTypeError
      (.desc "Statistics log timer value has to be of integral type but got: %r" [v]))

/-- `is_valid_med`; a Boolean is an integer. -/
def isValidMed : Value → Bool
  | .bool _ => true
  | .int n => 0 ≤ n ∧ n ≤ 0xffffffff
  | _ => false

def validateMed (v : Value) : Option ConfError :=
  if v ≠ .none ∧ ¬ isValidMed v then
    some (.configValueError (.desc "Invalid multi-exit-discriminatory (med) value: %s." [v]))
  else none

variable {v : Value}

theorem eq_bool_of_validateStatsLogEnabled (h : validateStatsLogEnabled v = none) :
    v = .bool v.asBool := by
  cases v with
  | bool b => rfl
  | _ => cases h

theorem eq_int_of_validateStatsTime (h : validateStatsTime v = none) : v = .int v.asInt := by
  cases v with
  | int n => rfl
  | _ => cases h

theorem eq_str_of_validateConfName (h : validateConfName v = none) : v = .str v.asText := by
  cases v with
  | str s => rfl
  | _ => cases h

theorem eq_str_of_validateConfDesc (h : validateConfDesc v = none) : v = .str v.asText := by
  cases v with
  | str s => rfl
  | _ => cases h

/-- A list of extended communities that is accepted holds texts only. -/
theorem mem_of_validateExtComms {validIpv4 : Text → Bool} {name maxText duplicateText : String}
    {max : ℕ} (h : validateExtComms validIpv4 name max maxText duplicateText v = none) :
    ∃ l, v = .list l ∧ ∀ x, x ∈ l ↔ ∃ a ∈ v.texts, x = .str a := by
  unfold validateExtComms at h
  split at h
  · next l =>
    split_ifs at h with hlen hvalid hdup
    refine ⟨l, rfl, fun x => ?_⟩
    simp only [Value.texts, List.mem_toFinset, List.mem_filterMap]
    constructor
    · intro hx
      have hv := List.all_eq_true.mp hvalid x hx
      cases x with
      | str a => exact ⟨a, ⟨.str a, hx, rfl⟩, rfl⟩
      | _ => cases hv
    · rintro ⟨a, ⟨y, hy, hya⟩, rfl⟩
      cases y with
      | str b =>
        cases hya
        exact hy
      | _ => cases hya
  · cases h

end Ryu.Rtconf
