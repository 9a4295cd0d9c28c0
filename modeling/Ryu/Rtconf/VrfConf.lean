import Mathlib.Data.Finset.SDiff
import Ryu.Lib.Stages
import Ryu.Rtconf.Validate

/-! # The configuration of a VRF

`VrfConf` with what it inherits: how it is created, and `update` as the source makes it, setting by
setting. The lists of route targets and site of origins are only compared as sets.
-/

namespace Ryu.Rtconf

/-- What the texts of a configuration are made with. -/
structure Texts where
  /-- `ryu.lib.ip.valid_ipv4`. -/
  validIpv4 : Text → Bool
  /-- `'%r'` of a text. -/
  reprText : Text → Text
  /-- `'%r'` of the list of a set. -/
  reprTexts : Finset Text → Text

/-- The value of a `VRF_CHG_EVT`. -/
structure VrfChange where
  newImportRts : Option (Finset Text)
  oldImportRts : Option (Finset Text)
  importMaps : Value
  reExport : Bool
  reImport : Bool
  deriving DecidableEq

/-- The calls of listeners. -/
inductive Notice where
  | updateStatsLogEnabled (enabled : Bool)
  | updateStatsTime (statsTime : ℤ)
  | updateName (old new : Text)
  | updateDescription (old new : Text)
  | vrfChg (change : VrfChange)
  deriving DecidableEq

def Notice.vrfChange : Notice → Option VrfChange
  | vrfChg c => some c
  | _ => none

/-- `VrfConf`, with the calls of its listeners. -/
structure VrfConf where
  id : Text
  name : Text
  description : Text
  statsLogEnabled : Bool
  statsTime : ℤ
  routeDist : Text
  routeFamily : Option Text
  importRts : Finset Text
  exportRts : Finset Text
  sooList : Finset Text
  multiExitDisc : Value
  importMaps : Value
  notices : List Notice
  deriving DecidableEq

namespace VrfConf

def reqSettings : List String := ["route_dist", "import_rts", "export_rts"]

def optSettings : List String :=
  ["vrf_name", "multi_exit_disc", "site_of_origins", "route_family", "import_maps", "id", "name",
    "description", "statistics_log_enabled", "statistics_interval"]

/-- `_validate_req_unknown_settings`. -/
def validateReqUnknownSettings (kw : Kwargs) : Option ConfError :=
  let unknown := kw.keys.filter fun k => k ∉ reqSettings ∧ k ∉ optSettings
  let missing := reqSettings.filter fun k => k ∉ kw.keys
  if kw.keys = [] then some (.missingRequiredConf [])
  else if unknown ≠ [] then some (.runtimeConfigError unknown)
  else if missing ≠ [] then some (.missingRequiredConf missing)
  else none

/-- `str(self)`. -/
def str (c : VrfConf) : Text := "VrfConf-".toList ++ c.routeDist

/-- `repr(self)`. -/
def repr (t : Texts) (c : VrfConf) : Text :=
  "<VrfConf(route_dist: ".toList ++ t.reprText c.routeDist ++ ", import_rts: ".toList ++
    t.reprTexts c.importRts ++ ", export_rts: ".toList ++ t.reprTexts c.exportRts ++
    ", soo_list: ".toList ++ t.reprTexts c.sooList ++ ")>".toList

/-- Raise what a validator says. -/
def check (e : Option ConfError) : Except ConfError Unit :=
  match e with
  | some e => .error e
  | none => .ok ()

/-- `_init_req_settings` for one setting. -/
def required (kw : Kwargs) (name : String) (validate : Value → Option ConfError) :
    Except ConfError Value :=
  if kw.getD name .none = .none then .error (.missingRequiredConf [name])
  else (check (validate (kw.getD name .none))).map fun _ => kw.getD name .none

/-- `compute_optional_conf`. -/
def computeOptionalConf (kw : Kwargs) (name : String) (default : Value)
    (validate : Value → Option ConfError) : Except ConfError Value :=
  if kw.getD name .none = .none then .ok default
  else (check (validate (kw.getD name .none))).map fun _ => kw.getD name .none

/-- A setting without a default: it is checked and set if it is given and true. -/
def ifGiven (v : Value) (validate : Value → Option ConfError) : Except ConfError (Option Value) :=
  if v.truthy then (check (validate v)).map fun _ => some v else .ok none

/-- `__init__`, where `uuid` is the text of the `uuid4` made. -/
def create (t : Texts) (uuid : Text) (kw : Kwargs) : Except ConfError VrfConf := do
  check (validateReqUnknownSettings kw)
  let routeDist ← required kw "route_dist" (validateRd t.validIpv4)
  let importRts ← required kw "import_rts" (validateImportRts t.validIpv4)
  let exportRts ← required kw "export_rts" (validateExportRts t.validIpv4)
  let statsLogEnabled ← computeOptionalConf kw "statistics_log_enabled" (.bool false)
    validateStatsLogEnabled
  let statsTime ← computeOptionalConf kw "statistics_interval" (.int 60) validateStatsTime
  let str := "VrfConf-".toList ++ routeDist.asText
  let id ← computeOptionalConf kw "id" (.str uuid) validateConfId
  let name ← computeOptionalConf kw "name" (.str str) validateConfName
  let description ← computeOptionalConf kw "description" (.str str) validateConfDesc
  let med ← ifGiven (kw.getD "multi_exit_disc" .none) validateMed
  let soos ← ifGiven (kw.getD "site_of_origins" .none) (validateSooList t.validIpv4)
  let vrfRf ← ifGiven (kw.getD "route_family" (.str "ipv4".toList)) validateVrfRf
  return {
    id := id.asText
    name := name.asText
    description := description.asText
    statsLogEnabled := statsLogEnabled.asBool
    statsTime := statsTime.asInt
    routeDist := routeDist.asText
    routeFamily := vrfRf.map Value.asText
    importRts := importRts.texts
    exportRts := exportRts.texts
    sooList := (soos.getD (.list [])).texts
    multiExitDisc := med.getD .none
    importMaps := kw.getD "import_maps" (.list [])
    notices := [] }

end VrfConf

/-- The local variables of `update`. -/
structure Locals where
  newImpRts : Option (Finset Text)
  oldImpRts : Option (Finset Text)
  exportRtsChanged : Bool
  soosListChanged : Bool
  medChanged : Bool
  reImportNeeded : Bool
  deriving DecidableEq

/-- An update under way. -/
structure Updating where
  conf : VrfConf
  locals : Locals
  deriving DecidableEq

namespace Updating

variable (t : Texts) (kw : Kwargs)

/-- `BaseConf.update`. -/
def validated : Stage Updating ConfError where
  Slot := Unit
  slot _ := ()
  refuses _ := VrfConf.validateReqUnknownSettings kw
  changes _ := false
  apply u := u

/-- The value `ConfWithStats.update` gives to the setter of `stats_log_enabled`. -/
def givenStatsLogEnabled : Value := kw.optional "statistics_log_enabled" (.bool false)

def statsLogEnabled : Stage Updating ConfError where
  Slot := Bool
  slot u := u.conf.statsLogEnabled
  refuses _ := validateStatsLogEnabled (givenStatsLogEnabled kw)
  changes u := (givenStatsLogEnabled kw).asBool ≠ u.conf.statsLogEnabled
  apply u :=
    let enabled := (givenStatsLogEnabled kw).asBool
    { u with conf := { u.conf with
      statsLogEnabled := enabled
      notices := u.conf.notices ++ [.updateStatsLogEnabled enabled] } }

def givenStatsTime : Value := kw.optional "statistics_interval" (.int 60)

def statsTime : Stage Updating ConfError where
  Slot := ℤ
  slot u := u.conf.statsTime
  refuses _ := validateStatsTime (givenStatsTime kw)
  changes u := (givenStatsTime kw).asInt ≠ u.conf.statsTime
  apply u :=
    let statsTime := (givenStatsTime kw).asInt
    { u with conf := { u.conf with
      statsTime := statsTime
      notices := u.conf.notices ++ [.updateStatsTime statsTime] } }

/-- The value `ConfWithId.update` gives to the setter of `name`. -/
def givenName (c : VrfConf) : Value := kw.optional "name" (.str c.str)

/-- The name the setter takes for it. -/
def newName (c : VrfConf) : Text :=
  if (givenName kw c).asText = [] then c.repr t else (givenName kw c).asText

def name : Stage Updating ConfError where
  Slot := Text
  slot u := u.conf.name
  refuses u := validateConfName (givenName kw u.conf)
  changes u := newName t kw u.conf ≠ u.conf.name
  apply u :=
    let newName := newName t kw u.conf
    { u with conf := { u.conf with
      name := newName
      notices := u.conf.notices ++ [.updateName u.conf.name newName] } }

def givenDescription (c : VrfConf) : Value := kw.optional "description" (.str c.str)

/-- The description the setter takes: without one, the text of the configuration. -/
def newDescription (c : VrfConf) : Text :=
  if (givenDescription kw c).asText = [] then c.str else (givenDescription kw c).asText

def description : Stage Updating ConfError where
  Slot := Text
  slot u := u.conf.description
  refuses u := validateConfDesc (givenDescription kw u.conf)
  changes u := newDescription kw u.conf ≠ u.conf.description
  apply u :=
    let newDescription := newDescription kw u.conf
    { u with conf := { u.conf with
      description := newDescription
      notices := u.conf.notices ++ [.updateDescription u.conf.description newDescription] } }

/-- The given id, route distinguisher and route family are those configured. -/
def Matches (c : VrfConf) : Prop :=
  kw.getD "id" .none = .str c.id ∧ kw.getD "route_dist" .none = .str c.routeDist ∧
    kw.getD "route_family" .none = (c.routeFamily.map Value.str).getD .none

instance (c : VrfConf) : Decidable (Matches kw c) := inferInstanceAs (Decidable (_ ∧ _ ∧ _))

def doNotMatch : String := "id/route-distinguisher/route-family do not match configured value."

def matched : Stage Updating ConfError where
  Slot := Unit
  slot _ := ()
  refuses u := if Matches kw u.conf then none else some (.configValueError (.desc doNotMatch []))
  changes _ := false
  apply u := u

def givenImportRts : Value := kw.getD "import_rts" .none

/-- `_update_import_rts`. -/
def updateImportRts : Stage Updating ConfError where
  Slot := Finset Text × Option (Finset Text) × Option (Finset Text)
  slot u := (u.conf.importRts, u.locals.newImpRts, u.locals.oldImpRts)
  refuses _ := validateImportRts t.validIpv4 (givenImportRts kw)
  changes u := (givenImportRts kw).texts ≠ u.conf.importRts
  apply u :=
    let importRts := (givenImportRts kw).texts
    { u with
      conf := { u.conf with importRts := importRts }
      locals := { u.locals with
        newImpRts := some (importRts \ u.conf.importRts)
        oldImpRts := some (u.conf.importRts \ importRts) } }

def givenExportRts : Value := kw.getD "export_rts" .none

/-- `_update_export_rts`. -/
def updateExportRts : Stage Updating ConfError where
  Slot := Finset Text × Bool
  slot u := (u.conf.exportRts, u.locals.exportRtsChanged)
  refuses _ := validateExportRts t.validIpv4 (givenExportRts kw)
  changes u := (givenExportRts kw).texts ≠ u.conf.exportRts
  apply u :=
    { u with
      conf := { u.conf with exportRts := (givenExportRts kw).texts }
      locals := { u.locals with exportRtsChanged := true } }

def givenSooList : Value := kw.getD "site_of_origins" (.list [])

/-- `_update_soo_list`. -/
def updateSooList : Stage Updating ConfError where
  Slot := Finset Text × Bool
  slot u := (u.conf.sooList, u.locals.soosListChanged)
  refuses _ := validateSooList t.validIpv4 (givenSooList kw)
  changes u := (givenSooList kw).texts ≠ u.conf.sooList
  apply u :=
    { u with
      conf := { u.conf with sooList := (givenSooList kw).texts }
      locals := { u.locals with soosListChanged := true } }

def givenMed : Value := kw.getD "multi_exit_disc" .none

/-- `_update_med`: a value that is not true is not checked. -/
def updateMed : Stage Updating ConfError where
  Slot := Value × Bool
  slot u := (u.conf.multiExitDisc, u.locals.medChanged)
  refuses _ := if (givenMed kw).truthy then validateMed (givenMed kw) else none
  changes u := ¬ (givenMed kw).eq u.conf.multiExitDisc
  apply u :=
    { u with
      conf := { u.conf with multiExitDisc := givenMed kw }
      locals := { u.locals with medChanged := true } }

def givenImportMaps : Value := kw.getD "import_maps" (.list [])

/-- `_update_importmaps`: there is no check, but `set` and `symmetric_difference` raise. -/
def updateImportmaps : Stage Updating ConfError where
  Slot := Value × Bool
  slot u := (u.conf.importMaps, u.locals.reImportNeeded)
  refuses u :=
    if u.conf.importMaps.toSet?.isSome ∧ (givenImportMaps kw).toSet?.isSome then none
    else some (.typeError "object is not iterable, or unhashable type")
  changes u := (givenImportMaps kw).toSet? ≠ u.conf.importMaps.toSet?
  apply u :=
    { u with
      conf := { u.conf with importMaps := givenImportMaps kw }
      locals := { u.locals with reImportNeeded := true } }

/-- The checks and assignments of `update`, in their order. -/
def stages : List (Stage Updating ConfError) :=
  [validated kw, statsLogEnabled kw, statsTime kw, name t kw, description kw, matched kw,
    updateImportRts t kw, updateExportRts t kw, updateSooList t kw, updateMed kw,
    updateImportmaps kw]

/-- The end of `update`: listeners are told if a setting of the VRF changed. -/
def notify (u : Updating) : VrfConf :=
  let reExport := u.locals.exportRtsChanged || u.locals.soosListChanged || u.locals.medChanged
  if u.locals.newImpRts.isSome ∨ u.locals.oldImpRts.isSome ∨ reExport ∨ u.locals.reImportNeeded then
    { u.conf with notices := u.conf.notices ++ [.vrfChg {
      newImportRts := u.locals.newImpRts
      oldImportRts := u.locals.oldImpRts
      importMaps := givenImportMaps kw
      reExport := reExport
      reImport := u.locals.reImportNeeded }] }
  else u.conf

def init (c : VrfConf) : Updating := ⟨c, ⟨none, none, false, false, false, false⟩⟩

end Updating

/-- `VrfConf.update`: what it leaves of the configuration, and what it raises. -/
def VrfConf.update (c : VrfConf) (t : Texts) (kw : Kwargs) : VrfConf × Option ConfError :=
  match Stage.runAll (Updating.stages t kw) (Updating.init c) with
  | (u, some e) => (u.conf, some e)
  | (u, none) => (u.notify kw, none)

end Ryu.Rtconf
