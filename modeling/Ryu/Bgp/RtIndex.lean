import Ryu.Bgp.Path
import Ryu.Lib.History
import Ryu.Lib.Index
import Ryu.Lib.Run
import Ryu.Rtconf.VrfUpdate

/-! # The route target index

VRFs are created, updated and removed through their configurations, and the table manager keeps a
table for each and an index of the tables by import route target. The index follows the events of
the configurations: an update that takes new import route targets and raises before its event
leaves it behind, and what the index does not list cannot be removed from it. -/

namespace Ryu.Bgp

open Numeral Rtconf

/-- `str(route_family)`. -/
def RouteFamily.str (rf : RouteFamily) : Text :=
  "RouteFamily(afi=".toList ++ dec rf.afi ++ ",safi=".toList ++ dec rf.safi ++ ")".toList

/-- `rt + ':' + str(route_family)`. -/
def rtRfId (rt : Text) (rf : RouteFamily) : Text := rt ++ ':' :: rf.str

/-- The order in which a set of route targets is iterated. -/
structure RtOrder where
  list : Finset Text → List Text
  mem_list : ∀ s rt, rt ∈ list s ↔ rt ∈ s

/-- A VRF table. Tables have no equality of their own: `serial` tells two objects apart. -/
structure VrfTable where
  serial : ℕ
  routeFamily : RouteFamily
  deriving DecidableEq, Repr

/-- `create_rd_rf_id`, which is also what `_tables` knows a VRF table by. -/
abbrev RdRfId := Text × Option Text

def rdRfId (c : Rtconf.VrfConf) : RdRfId := (c.routeDist, c.routeFamily)

/-- A configuration and whether `on_chg_vrf_conf` listens to it. -/
structure ConfiguredVrf where
  conf : Rtconf.VrfConf
  listening : Bool
  deriving DecidableEq

/-- The configured VRFs, by RD and family and by id, their tables and the index of these. -/
structure VrfTables where
  vrfsByRdRf : Dict RdRfId ConfiguredVrf
  vrfIds : Finset Text
  importMaps : Finset Rtconf.Item
  tables : Dict RdRfId VrfTable
  tablesForRt : Index Text VrfTable
  created : ℕ

/-- What an operation raises: a configuration that is refused, a VRF that exists, or an exception
of Python's own. -/
inductive VrfError
  | conf (e : ConfError)
  | exists
  | py (e : PyError)
  deriving DecidableEq

/-- The table class of a family of a configuration, by its route family. -/
def vrfTableFamily (vrfRf : Text) : Option RouteFamily :=
  if vrfRf = "ipv4".toList then some ⟨1, 1⟩
  else if vrfRf = "ipv6".toList then some ⟨2, 1⟩
  else if vrfRf = "evpn".toList then some ⟨25, 70⟩
  else if vrfRf = "ipv4fs".toList then some ⟨1, 133⟩
  else if vrfRf = "ipv6fs".toList then some ⟨2, 133⟩
  else if vrfRf = "l2vpnfs".toList then some ⟨25, 134⟩
  else none

/-- `_link_vrf_table`. -/
def linkVrfTable (index : Index Text VrfTable) (table : VrfTable) (rtList : List Text) :
    Index Text VrfTable :=
  index.link table (rtList.map fun rt => rtRfId rt table.routeFamily)

/-- `_remove_links_to_vrf_table_for_rts`. A set cannot be updated with `None`, which is found for a
route target that is not listed. -/
def removeLinksToVrfTableForRts (index : Index Text VrfTable) (table : VrfTable)
    (rts : List Text) : Except PyError Unit × Index Text VrfTable :=
  match index.unlink table (rts.map fun rt => rtRfId rt table.routeFamily) with
  | (true, index) => (.ok (), index)
  | (false, index) => (.error (.typeError "'NoneType' object is not iterable"), index)

/-- The names that `init_import_maps` looks up. -/
def initImportMaps (known : Finset Rtconf.Item) : List Rtconf.Item → Except PyError Unit
  | [] => .ok ()
  | name :: names =>
    if Value.isHashable name = false then .error (.typeError "unhashable type")
    else if name ∈ known then initImportMaps known names
    else .error (.keyError "No import map with name")

/-- `init_import_maps`. -/
def initImportMapsOf (known : Finset Rtconf.Item) (importMaps : Rtconf.Value) :
    Except PyError Unit :=
  match importMaps.elements? with
  | none => .error (.typeError "object is not iterable")
  | some names => initImportMaps known names

namespace VrfTables

def init : VrfTables := ⟨.empty, ∅, ∅, .empty, .empty, 0⟩

/-- `create_and_link_vrf_table`. A family without a table class fails the assertion of the handler
that calls it. -/
def createAndLinkVrfTable (s : VrfTables) (o : RtOrder) (c : Rtconf.VrfConf) :
    Except PyError Unit × VrfTables :=
  match c.routeFamily.bind vrfTableFamily with
  | none => (.error .assertionError, s)
  | some rf =>
    match initImportMapsOf s.importMaps c.importMaps with
    | .error e => (.error e, s)
    | .ok () =>
      let table : VrfTable := ⟨s.created, rf⟩
      (.ok (), { s with
        created := s.created + 1
        tables := s.tables.set (rdRfId c) table
        tablesForRt := linkVrfTable s.tablesForRt table (o.list c.importRts) })

/-- `VrfsConf.add_vrf_conf` with its handler `on_add_vrf_conf`. -/
def addVrfConf (s : VrfTables) (o : RtOrder) (c : Rtconf.VrfConf) :
    Except VrfError Unit × VrfTables :=
  if (s.vrfsByRdRf.get? (rdRfId c)).isSome ∨ c.id ∈ s.vrfIds then (.error .exists, s)
  else
    let added := { s with
      vrfsByRdRf := s.vrfsByRdRf.set (rdRfId c) ⟨c, false⟩
      vrfIds := insert c.id s.vrfIds }
    match added.createAndLinkVrfTable o c with
    | (.error e, s) => (.error (.py e), s)
    | (.ok (), s) => (.ok (), { s with vrfsByRdRf := s.vrfsByRdRf.set (rdRfId c) ⟨c, true⟩ })

/-- `update_vrf_table_links`. -/
def updateVrfTableLinks (s : VrfTables) (o : RtOrder) (table : VrfTable)
    (newImpRts removedImpRts : Finset Text) : Except PyError Unit × VrfTables :=
  let r := removeLinksToVrfTableForRts
    (linkVrfTable s.tablesForRt table (o.list newImpRts)) table (o.list removedImpRts)
  (r.1, { s with tablesForRt := r.2 })

/-- `on_chg_vrf_conf`. -/
def onChgVrfConf (s : VrfTables) (o : RtOrder) (k : RdRfId) (change : Rtconf.VrfChange) :
    Except PyError Unit × VrfTables :=
  match s.tables.get? k with
  | none => (.error .assertionError, s)
  | some table =>
    match s.updateVrfTableLinks o table (change.newImportRts.getD ∅)
        (change.oldImportRts.getD ∅) with
    | (.error e, s) => (.error e, s)
    | (.ok (), s) => (initImportMapsOf s.importMaps change.importMaps, s)

/-- `VrfConf.update` of a configured VRF, with the handler of the event that it adds. -/
def updateVrfConf (s : VrfTables) (t : Texts) (o : RtOrder) (k : RdRfId) (kw : Kwargs) :
    Except VrfError Unit × VrfTables :=
  match s.vrfsByRdRf.get? k with
  | none => (.ok (), s)
  | some v =>
    let r := v.conf.update t kw
    let s := { s with vrfsByRdRf := s.vrfsByRdRf.set k { v with conf := r.1 } }
    match r.2, r.1.vrfChanges.drop v.conf.vrfChanges.length with
    | some e, _ => (.error (.conf e), s)
    | none, [] => (.ok (), s)
    | none, change :: _ =>
      if v.listening then
        match s.onChgVrfConf o k change with
        | (.error e, s) => (.error (.py e), s)
        | (.ok (), s) => (.ok (), s)
      else (.ok (), s)

/-- `on_remove_vrf_conf` with `remove_vrf_by_vrf_conf`. -/
def removeVrfByVrfConf (s : VrfTables) (o : RtOrder) (c : Rtconf.VrfConf) :
    Except PyError Unit × VrfTables :=
  if (c.routeFamily.bind vrfTableFamily).isNone then (.error .assertionError, s)
  else
    match s.tables.get? (rdRfId c) with
    | none => (.error (.keyError "table_id"), s)
    | some table =>
      let r := removeLinksToVrfTableForRts s.tablesForRt table (o.list c.importRts)
      (r.1, { s with tables := s.tables.erase (rdRfId c), tablesForRt := r.2 })

/-- The configurations that `remove_vrf_conf` pops. -/
def popVrfConfs (routeDist : Text) : VrfTables → List Text → VrfTables × List Rtconf.VrfConf
  | s, [] => (s, [])
  | s, rf :: rfs =>
    match s.vrfsByRdRf.get? (routeDist, some rf) with
    | none => popVrfConfs routeDist s rfs
    | some v =>
      let r := popVrfConfs routeDist { s with
        vrfsByRdRf := s.vrfsByRdRf.erase (routeDist, some rf)
        vrfIds := s.vrfIds.erase v.conf.id } rfs
      (r.1, v.conf :: r.2)

/-- The events of `remove_vrf_conf`, one for each configuration popped. -/
def removeAll (o : RtOrder) : VrfTables → List Rtconf.VrfConf → Except PyError Unit × VrfTables
  | s, [] => (.ok (), s)
  | s, c :: cs =>
    match s.removeVrfByVrfConf o c with
    | (.error e, s) => (.error e, s)
    | (.ok (), s) => removeAll o s cs

/-- `remove_vrf_conf` of a route distinguisher, for the families given. -/
def removeVrfConf (s : VrfTables) (o : RtOrder) (routeDist : Text) (vrfRfs : List Text) :
    Except VrfError Unit × VrfTables :=
  let r := popVrfConfs routeDist s vrfRfs
  match removeAll o r.1 r.2 with
  | (.error e, s) => (.error (.py e), s)
  | (.ok (), s) => (.ok (), s)

/-- `remove_vrf_conf` of an id: a configuration has no `rd_rd_id`. -/
def removeVrfConfById (s : VrfTables) (id : Text) : Except VrfError Unit × VrfTables :=
  if id ∈ s.vrfIds then
    (.error (.py (.attributeError "rd_rd_id")), { s with vrfIds := s.vrfIds.erase id })
  else (.ok (), s)

end VrfTables

/-- What is done to VRFs; names of import maps are made known on the way. -/
inductive VrfOp
  | create (o : RtOrder) (uuid : Text) (kw : Kwargs)
  | update (o : RtOrder) (k : RdRfId) (kw : Kwargs)
  | remove (o : RtOrder) (routeDist : Text) (vrfRfs : List Text)
  | removeById (id : Text)
  | createImportMap (name : Rtconf.Item)

namespace VrfTables

variable (t : Texts)

def step (s : VrfTables) : VrfOp → Except VrfError Unit × VrfTables
  | .create o uuid kw =>
    match VrfConf.create t uuid kw with
    | .error e => (.error (.conf e), s)
    | .ok c => s.addVrfConf o c
  | .update o k kw => s.updateVrfConf t o k kw
  | .remove o routeDist vrfRfs => s.removeVrfConf o routeDist vrfRfs
  | .removeById id => s.removeVrfConfById id
  | .createImportMap name => (.ok (), { s with importMaps := insert name s.importMaps })

/-- A table is listed for a route target and a family exactly if it is a table of the family whose
configuration imports the route target, and no key has an empty set. -/
structure Indexed (s : VrfTables) : Prop where
  mem_iff : ∀ rt rf table, table ∈ s.tablesForRt.members (rtRfId rt rf) ↔
    ∃ k v, s.tables.get? k = some table ∧ s.vrfsByRdRf.get? k = some v ∧
      table.routeFamily = rf ∧ rt ∈ v.conf.importRts
  nonempty : ∀ key, s.tablesForRt.get? key ≠ some ∅

/-- Nothing is raised but to refuse what was given. -/
def NotRaised : Except VrfError Unit → Prop
  | .error (.py _) => False
  | _ => True

/-- The import maps named are known. -/
def MapsKnown (s : VrfTables) (importMaps : Rtconf.Value) : Prop :=
  initImportMapsOf s.importMaps importMaps = .ok ()

/-- A VRF is created with a family and with import maps that are known; an update that takes
new import route targets passes its later checks, and one that passes all checks names import maps
that are known; and no configured VRF is removed by its id. -/
def InTurn (s : VrfTables) : VrfOp → Prop
  | .create _ uuid kw => ∀ c, VrfConf.create t uuid kw = .ok c →
      s.vrfsByRdRf.get? (rdRfId c) = none → c.id ∉ s.vrfIds →
        c.routeFamily ≠ none ∧ s.MapsKnown c.importMaps
  | .update _ k kw => ∀ v, s.vrfsByRdRf.get? k = some v →
      (v.conf.TakesRts t kw → v.conf.LaterPass t kw) ∧
        ((∀ st ∈ Updating.stages t kw, st.refuses (Updating.init v.conf) = none) →
          s.MapsKnown (kw.getD "import_maps" (.list [])))
  | .remove .. => True
  | .removeById id => id ∉ s.vrfIds
  | .createImportMap _ => True

section Keys

variable {rf rf' : RouteFamily} {rt rt' : Text}

theorem dec_inj {m n : ℕ} (h : dec m = dec n) : m = n := by
  have hint := congrArg int? h
  rw [int?_dec, int?_dec] at hint
  exact Int.ofNat.inj (Option.some.inj hint)

theorem notMem_append_append {c : Char} {x y z : Text} (hx : c ∉ x) (hy : c ∉ y) (hz : c ∉ z) :
    c ∉ x ++ y ++ z := by
  simp [hx, hy, hz]

theorem RouteFamily.str_eq (rf : RouteFamily) :
    rf.str = ("RouteFamily(afi=".toList ++ dec rf.afi) ++ ',' ::
      ("safi=".toList ++ dec rf.safi ++ ")".toList) := by
  have hsafi : ",safi=".toList = ',' :: "safi=".toList := by simp
  unfold RouteFamily.str
  rw [hsafi]
  simp only [List.append_assoc, List.cons_append]

/-- A family gives back its numbers. -/
theorem RouteFamily.str_inj (h : rf.str = rf'.str) : rf = rf' := by
  have hafi : ',' ∉ "RouteFamily(afi=".toList ++ dec rf.afi := by
    rw [List.mem_append, not_or]
    exact ⟨by decide, not_mem_dec rfl⟩
  have hsafi : ',' ∉ "safi=".toList ++ dec rf.safi ++ ")".toList :=
    notMem_append_append (by decide) (not_mem_dec rfl) (by decide)
  rw [RouteFamily.str_eq, RouteFamily.str_eq, List.append_cons_inj_of_notMem hafi hsafi] at h
  obtain ⟨ha, -, hs⟩ := h
  have ha' := dec_inj (List.append_cancel_left ha)
  have hs' := dec_inj (List.append_cancel_left (List.append_cancel_right hs))
  cases rf
  cases rf'
  exact congrArg₂ RouteFamily.mk ha' hs'

/-- The text of a family has no colon, so the last one of a key ends the route target. -/
theorem notMem_str (rf : RouteFamily) : ':' ∉ rf.str := by
  have hmid : ':' ∉ "RouteFamily(afi=".toList ++ dec rf.afi ++ ",safi=".toList :=
    notMem_append_append (by decide) (not_mem_dec rfl) (by decide)
  exact notMem_append_append hmid (not_mem_dec rfl) (by decide)

/-- A key gives back its route target and its family. -/
theorem rtRfId_inj : rtRfId rt rf = rtRfId rt' rf' ↔ rt = rt' ∧ rf = rf' := by
  refine ⟨fun h => ?_, fun h => by rw [h.1, h.2]⟩
  obtain ⟨hrt, hstr⟩ := History.split_last h (notMem_str rf) (notMem_str rf')
  exact ⟨hrt, RouteFamily.str_inj hstr⟩

end Keys

/-- The configuration of a table imports the route target of a key. -/
def Imports (tables : Dict RdRfId VrfTable) (own : RdRfId → Option Rtconf.VrfConf)
    (table : VrfTable) (key : Text) : Prop :=
  ∃ k c, tables.get? k = some table ∧ own k = some c ∧
    ∃ rt ∈ c.importRts, key = rtRfId rt table.routeFamily

/-- Every configuration has a table of its family, and the index lists what they import. -/
structure Attached (s : VrfTables) (own : RdRfId → Option Rtconf.VrfConf) : Prop where
  key : ∀ k c, own k = some c → rdRfId c = k
  table : ∀ k, (s.tables.get? k).isSome = (own k).isSome
  family : ∀ k table, s.tables.get? k = some table →
    k.2.bind vrfTableFamily = some table.routeFamily
  fresh : ∀ k table, s.tables.get? k = some table → table.serial < s.created
  distinct : ∀ k k' table, s.tables.get? k = some table → s.tables.get? k' = some table → k = k'
  lists : s.tablesForRt.Lists (Imports s.tables own)

section Attached

variable {s s' : VrfTables} {own : RdRfId → Option Rtconf.VrfConf} {o : RtOrder}
  {c c' : Rtconf.VrfConf}
  {table : VrfTable} {rf : RouteFamily} {k : RdRfId} {key : Text}

theorem mem_rtKeys {rts : Finset Text} : key ∈ (o.list rts).map (fun rt => rtRfId rt rf) ↔
    ∃ rt ∈ rts, key = rtRfId rt rf := by
  simp only [List.mem_map, o.mem_list, eq_comm]

theorem Attached.exists_table (h : Attached s own) (hc : own k = some c) :
    ∃ table, s.tables.get? k = some table := by
  rw [← Option.isSome_iff_exists, h.table, hc]
  rfl

/-- What a table of the configuration imports. -/
theorem Attached.imports_iff (h : Attached s own) (ht : s.tables.get? k = some table)
    (hc : own k = some c) : Imports s.tables own table key ↔
      ∃ rt ∈ c.importRts, key = rtRfId rt table.routeFamily := by
  constructor
  · rintro ⟨k', c', ht', hc', hkey⟩
    obtain rfl := h.distinct k k' table ht ht'
    obtain rfl := Option.some.inj (hc.symm.trans hc')
    exact hkey
  · exact fun hkey => ⟨k, c, ht, hc, hkey⟩

theorem imports_update_self {tables : Dict RdRfId VrfTable}
    (hd : ∀ k k' t, tables.get? k = some t → tables.get? k' = some t → k = k')
    (ht : tables.get? k = some table) : Imports tables (Function.update own k (some c)) table key ↔
      ∃ rt ∈ c.importRts, key = rtRfId rt table.routeFamily := by
  constructor
  · rintro ⟨k', c', ht', hc', hkey⟩
    obtain rfl := hd k k' table ht ht'
    obtain rfl : c = c' := by simpa using hc'
    exact hkey
  · exact fun hkey => ⟨k, c, ht, by simp, hkey⟩

theorem imports_update_of_ne {tables : Dict RdRfId VrfTable} {t : VrfTable}
    {oc : Option Rtconf.VrfConf} (ht : tables.get? k = some table) (hne : t ≠ table) :
    Imports tables (Function.update own k oc) t key ↔ Imports tables own t key := by
  have hk : ∀ k', tables.get? k' = some t → k' ≠ k := by
    rintro k' ht' rfl
    exact hne (Option.some.inj (ht'.symm.trans ht))
  constructor
  · rintro ⟨k', c', ht', hc', hkey⟩
    exact ⟨k', c', ht', by simpa [hk k' ht'] using hc', hkey⟩
  · rintro ⟨k', c', ht', hc', hkey⟩
    exact ⟨k', c', ht', by simpa [hk k' ht'] using hc', hkey⟩

theorem update_eq_some_iff {c₀ : Rtconf.VrfConf} {k' : RdRfId} :
    Function.update own k (some c) k' = some c₀ ↔ k' = k ∧ c₀ = c ∨ k' ≠ k ∧ own k' = some c₀ := by
  by_cases hk : k' = k
  · simp [hk, eq_comm]
  · simp [hk]

/-- A configuration is replaced by one of the same key, and the index follows. -/
theorem Attached.reconfigure {index : Index Text VrfTable} (h : Attached s own)
    (hc : own k = some c) (hid : rdRfId c' = rdRfId c)
    (hlists : index.Lists (Imports s.tables (Function.update own k (some c')))) :
    Attached { s with tablesForRt := index } (Function.update own k (some c')) := by
  refine ⟨?_, ?_, h.family, h.fresh, h.distinct, hlists⟩
  · intro k' c₀ hc₀
    rcases update_eq_some_iff.1 hc₀ with ⟨rfl, rfl⟩ | ⟨-, hc₀⟩
    · exact hid.trans (h.key _ c hc)
    · exact h.key k' c₀ hc₀
  · intro k'
    by_cases hk : k' = k
    · subst hk
      simp [h.table, hc]
    · simpa [hk] using h.table k'

/-- A table that is created is attached. -/
theorem Attached.create (h : Attached s own) (hown : own (rdRfId c) = none)
    (hrf : c.routeFamily.bind vrfTableFamily = some rf) :
    Attached { s with
      created := s.created + 1
      tables := s.tables.set (rdRfId c) ⟨s.created, rf⟩
      tablesForRt := linkVrfTable s.tablesForRt ⟨s.created, rf⟩ (o.list c.importRts) }
      (Function.update own (rdRfId c) (some c)) := by
  have hnone : s.tables.get? (rdRfId c) = none := by
    have := h.table (rdRfId c)
    rw [hown] at this
    simpa using this
  have hget : ∀ k t, Dict.get? (s.tables.set (rdRfId c) ⟨s.created, rf⟩) k = some t ↔
      k = rdRfId c ∧ t = ⟨s.created, rf⟩ ∨ k ≠ rdRfId c ∧ s.tables.get? k = some t := by
    intro k t
    rw [Dict.get?_set]
    by_cases hk : rdRfId c = k
    · simp [hk, eq_comm]
    · simp [hk, Ne.symm hk]
  constructor
  · intro k c' hc'
    rcases update_eq_some_iff.1 hc' with ⟨rfl, rfl⟩ | ⟨-, hc'⟩
    · rfl
    · exact h.key k c' hc'
  · intro k
    dsimp only
    rw [Dict.get?_set]
    by_cases hk : rdRfId c = k
    · simp [hk]
    · simp [hk, Ne.symm hk, h.table]
  · intro k t ht
    rcases (hget k t).mp ht with ⟨rfl, rfl⟩ | ⟨-, ht⟩
    · exact hrf
    · exact h.family k t ht
  · intro k t ht
    rcases (hget k t).mp ht with ⟨-, rfl⟩ | ⟨-, ht⟩
    · exact Nat.lt_succ_self _
    · exact Nat.lt_succ_of_lt (h.fresh k t ht)
  · intro k k' t ht ht'
    rcases (hget k t).mp ht with ⟨rfl, rfl⟩ | ⟨-, ht⟩ <;>
      rcases (hget k' _).mp ht' with ⟨rfl, he⟩ | ⟨-, ht'⟩
    · rfl
    · exact absurd (h.fresh _ _ ht') (Nat.lt_irrefl _)
    · subst he
      exact absurd (h.fresh _ _ ht) (Nat.lt_irrefl _)
    · exact h.distinct k k' t ht ht'
  · refine (h.lists.link _ _).congr fun t key => ?_
    rw [mem_rtKeys]
    constructor
    · rintro (⟨k, c', ht, hc', hkey⟩ | ⟨rfl, hkey⟩)
      · have hk : k ≠ rdRfId c := by
          rintro rfl
          simp [hnone] at ht
        exact ⟨k, c', (hget k t).mpr (Or.inr ⟨hk, ht⟩),
          update_eq_some_iff.2 (Or.inr ⟨hk, hc'⟩), hkey⟩
      · exact ⟨rdRfId c, c, (hget _ _).mpr (Or.inl ⟨rfl, rfl⟩),
          update_eq_some_iff.2 (Or.inl ⟨rfl, rfl⟩), hkey⟩
    · rintro ⟨k, c', ht, hc', hkey⟩
      rcases (hget k t).mp ht with ⟨rfl, rfl⟩ | ⟨hk, ht⟩
      · rcases update_eq_some_iff.1 hc' with ⟨-, rfl⟩ | ⟨hk, -⟩
        · exact Or.inr ⟨rfl, hkey⟩
        · exact absurd rfl hk
      · rcases update_eq_some_iff.1 hc' with ⟨rfl, -⟩ | ⟨-, hc'⟩
        · exact absurd rfl hk
        · exact Or.inl ⟨k, c', ht, hc', hkey⟩

/-- Links to what a table imports are removed without an exception. -/
theorem removeLinks_ok {R : VrfTable → Text → Prop} {index : Index Text VrfTable}
    {rts : Finset Text} (h : index.Lists R)
    (hR : ∀ rt ∈ rts, R table (rtRfId rt table.routeFamily)) :
    (removeLinksToVrfTableForRts index table (o.list rts)).1 = .ok () ∧
      (removeLinksToVrfTableForRts index table (o.list rts)).2.Lists fun t key =>
        R t key ∧ ¬ (t = table ∧ ∃ rt ∈ rts, key = rtRfId rt table.routeFamily) := by
  have hkeys : ∀ key ∈ (o.list rts).map (fun rt => rtRfId rt table.routeFamily), R table key := by
    intro key hkey
    obtain ⟨rt, hrt, rfl⟩ := mem_rtKeys.1 hkey
    exact hR rt hrt
  obtain ⟨hok, hlists⟩ := h.unlink hkeys
  unfold removeLinksToVrfTableForRts
  generalize index.unlink table _ = r at hok hlists
  obtain ⟨b, index'⟩ := r
  obtain rfl : b = true := hok
  exact ⟨rfl, hlists.congr fun t key => by rw [mem_rtKeys]⟩

/-- The index follows a change of the import route targets. -/
theorem Attached.update (h : Attached s own) (hc : own k = some c)
    (ht : s.tables.get? k = some table) (hid : rdRfId c' = rdRfId c) :
    (s.updateVrfTableLinks o table (c'.importRts \ c.importRts) (c.importRts \ c'.importRts)).1 =
      .ok () ∧
    Attached
      (s.updateVrfTableLinks o table (c'.importRts \ c.importRts) (c.importRts \ c'.importRts)).2
      (Function.update own k (some c')) := by
  have hlinked := h.lists.link table
    ((o.list (c'.importRts \ c.importRts)).map fun rt => rtRfId rt table.routeFamily)
  have hold : ∀ rt ∈ c.importRts \ c'.importRts,
      Imports s.tables own table (rtRfId rt table.routeFamily) ∨ table = table ∧
        rtRfId rt table.routeFamily ∈ (o.list (c'.importRts \ c.importRts)).map
          (fun rt => rtRfId rt table.routeFamily) := by
    intro rt hrt
    exact Or.inl ((h.imports_iff ht hc).mpr ⟨rt, (Finset.mem_sdiff.mp hrt).1, rfl⟩)
  obtain ⟨hok, hlists⟩ := removeLinks_ok (o := o) hlinked hold
  refine ⟨hok, h.reconfigure hc hid (hlists.congr fun t key => ?_)⟩
  rw [mem_rtKeys]
  by_cases htab : t = table
  · subst htab
    have hafter : Imports s.tables (Function.update own k (some c')) t key ↔
        ∃ rt ∈ c'.importRts, key = rtRfId rt t.routeFamily :=
      imports_update_self h.distinct ht
    refine Iff.trans ?_ hafter.symm
    rw [h.imports_iff ht hc]
    simp only [true_and, Finset.mem_sdiff]
    constructor
    · rintro ⟨⟨rt, hrt, rfl⟩ | ⟨rt, ⟨hrt, -⟩, rfl⟩, hnot⟩
      · by_contra hno
        exact hnot ⟨rt, ⟨hrt, fun hrt' => hno ⟨rt, hrt', rfl⟩⟩, rfl⟩
      · exact ⟨rt, hrt, rfl⟩
    · rintro ⟨rt, hrt, rfl⟩
      constructor
      · by_cases hrt' : rt ∈ c.importRts
        · exact Or.inl ⟨rt, hrt', rfl⟩
        · exact Or.inr ⟨rt, ⟨hrt, hrt'⟩, rfl⟩
      · rintro ⟨rt', ⟨-, hrt'⟩, heq⟩
        exact hrt' ((rtRfId_inj.1 heq).1 ▸ hrt)
  · simp only [htab, false_and, or_false, not_false_eq_true, and_true]
    exact (imports_update_of_ne ht htab).symm

/-- A table that is removed leaves no link. -/
theorem Attached.remove (h : Attached s own) (hc : own (rdRfId c) = some c)
    (hrf : (c.routeFamily.bind vrfTableFamily).isSome) :
    (s.removeVrfByVrfConf o c).1 = .ok () ∧
      Attached (s.removeVrfByVrfConf o c).2 (Function.update own (rdRfId c) none) := by
  obtain ⟨table, ht⟩ := h.exists_table hc
  have hlisted : ∀ rt ∈ c.importRts, Imports s.tables own table (rtRfId rt table.routeFamily) :=
    fun rt hrt => (h.imports_iff ht hc).mpr ⟨rt, hrt, rfl⟩
  obtain ⟨hok, hlists⟩ := removeLinks_ok (o := o) h.lists hlisted
  have hnone : (c.routeFamily.bind vrfTableFamily).isNone = false := by
    rw [← Option.not_isSome, hrf]
    rfl
  have hget : ∀ k t, Dict.get? (s.tables.erase (rdRfId c)) k = some t ↔
      k ≠ rdRfId c ∧ s.tables.get? k = some t := by
    intro k t
    rw [Dict.get?_erase]
    by_cases hk : rdRfId c = k
    · simp [hk]
    · simp [hk, Ne.symm hk]
  unfold removeVrfByVrfConf
  rw [hnone]
  simp only [Bool.false_eq_true, if_false, ht]
  refine ⟨hok, ?_, ?_, ?_, ?_, ?_, hlists.congr fun t key => ?_⟩
  · intro k c' hc'
    by_cases hk : k = rdRfId c
    · simp [hk] at hc'
    · exact h.key k c' (by simpa [hk] using hc')
  · intro k
    dsimp only
    rw [Dict.get?_erase]
    by_cases hk : rdRfId c = k
    · simp [hk]
    · simp [hk, Ne.symm hk, h.table]
  · exact fun k t ht' => h.family k t ((hget k t).mp ht').2
  · exact fun k t ht' => h.fresh k t ((hget k t).mp ht').2
  · exact fun k k' t ht' ht'' => h.distinct k k' t ((hget k t).mp ht').2 ((hget k' t).mp ht'').2
  · have hafter : Imports (s.tables.erase (rdRfId c)) (Function.update own (rdRfId c) none) t key ↔
        t ≠ table ∧ Imports s.tables own t key := by
      constructor
      · rintro ⟨k, c', ht', hc', hkey⟩
        obtain ⟨hk, ht'⟩ := (hget k t).mp ht'
        refine ⟨?_, k, c', ht', by simpa [hk] using hc', hkey⟩
        rintro rfl
        exact hk (h.distinct _ _ _ ht' ht)
      · rintro ⟨hne, k, c', ht', hc', hkey⟩
        have hk : k ≠ rdRfId c := by
          rintro rfl
          exact hne (Option.some.inj (ht'.symm.trans ht))
        exact ⟨k, c', (hget k t).mpr ⟨hk, ht'⟩, by simpa [hk] using hc', hkey⟩
    rw [hafter]
    by_cases htab : t = table
    · subst htab
      rw [h.imports_iff ht hc]
      simp
    · simp [htab]

theorem Attached.of_eq (h : Attached s own) (ht : s'.tables = s.tables)
    (hi : s'.tablesForRt = s.tablesForRt) (hc : s'.created = s.created) : Attached s' own := by
  constructor
  · exact h.key
  · rw [ht]
    exact h.table
  · rw [ht]
    exact h.family
  · rw [ht, hc]
    exact h.fresh
  · rw [ht]
    exact h.distinct
  · rw [ht, hi]
    exact h.lists

/-- A configuration may change in what the index does not read. -/
theorem Attached.same_rts (h : Attached s own) (hc : own k = some c) (hid : rdRfId c' = rdRfId c)
    (hrts : c'.importRts = c.importRts) : Attached s (Function.update own k (some c')) := by
  obtain ⟨table, ht⟩ := h.exists_table hc
  refine h.reconfigure hc hid (h.lists.congr fun t key => ?_)
  by_cases htab : t = table
  · subst htab
    have hafter : Imports s.tables (Function.update own k (some c')) t key ↔
        ∃ rt ∈ c'.importRts, key = rtRfId rt t.routeFamily :=
      imports_update_self h.distinct ht
    rw [h.imports_iff ht hc, hafter, hrts]
  · exact (imports_update_of_ne ht htab).symm

end Attached

/-- The configurations of the configured VRFs. -/
def own (s : VrfTables) (k : RdRfId) : Option Rtconf.VrfConf :=
  (s.vrfsByRdRf.get? k).map ConfiguredVrf.conf

/-- Every configured VRF has a table and a listener, and the index is right. -/
structure Consistent (s : VrfTables) : Prop where
  attached : s.Attached s.own
  listening : ∀ k v, s.vrfsByRdRf.get? k = some v → v.listening

section Steps

variable {t : Texts} {s s' : VrfTables} {o : RtOrder} {c : Rtconf.VrfConf} {k : RdRfId}
  {kw : Kwargs} {v : ConfiguredVrf}

theorem consistent_init : Consistent init := by
  refine ⟨⟨?_, ?_, ?_, ?_, ?_, Index.lists_empty.congr fun t key => ?_⟩, ?_⟩
  all_goals simp [init, own, Imports]

theorem Consistent.indexed (h : s.Consistent) : s.Indexed := by
  refine ⟨fun rt rf table => ?_, h.attached.lists.nonempty⟩
  rw [h.attached.lists.mem_iff]
  constructor
  · rintro ⟨k, c, ht, hc, rt', hrt, hkey⟩
    obtain ⟨v, hv, rfl⟩ := Option.map_eq_some_iff.mp hc
    obtain ⟨rfl, rfl⟩ := rtRfId_inj.1 hkey
    exact ⟨k, v, ht, hv, rfl, hrt⟩
  · rintro ⟨k, v, ht, hv, rfl, hrt⟩
    exact ⟨k, v.conf, ht, by simp [own, hv], rt, hrt, rfl⟩

theorem own_of_set (hv : s'.vrfsByRdRf = s.vrfsByRdRf.set k v) :
    s'.own = Function.update s.own k (some v.conf) := by
  funext k'
  unfold own
  rw [hv, Dict.get?_set]
  by_cases hk : k = k'
  · subst hk
    simp
  · simp [hk, Ne.symm hk]

theorem listening_set (h : s.Consistent) (hv : v.listening) :
    ∀ k' v', Dict.get? (s.vrfsByRdRf.set k v) k' = some v' → v'.listening := by
  intro k' v' hv'
  rw [Dict.get?_set] at hv'
  split at hv'
  · obtain rfl := Option.some.inj hv'
    exact hv
  · exact h.listening k' v' hv'

/-- A VRF is added with its table, or refused. -/
theorem Consistent.addVrfConf (h : s.Consistent) (o : RtOrder)
    (hc : s.vrfsByRdRf.get? (rdRfId c) = none → c.id ∉ s.vrfIds →
      (c.routeFamily.bind vrfTableFamily).isSome ∧ s.MapsKnown c.importMaps) :
    NotRaised (s.addVrfConf o c).1 ∧ (s.addVrfConf o c).2.Consistent := by
  unfold VrfTables.addVrfConf
  split
  · exact ⟨trivial, h⟩
  · next hnew =>
    rw [not_or, Option.not_isSome_iff_eq_none] at hnew
    obtain ⟨hfam, hmaps⟩ := hc hnew.1 hnew.2
    obtain ⟨rf, hrf⟩ := Option.isSome_iff_exists.mp hfam
    have hown : s.own (rdRfId c) = none := by simp [own, hnew.1]
    unfold createAndLinkVrfTable
    simp only [hrf]
    rw [show initImportMapsOf s.importMaps c.importMaps = .ok () from hmaps]
    refine ⟨trivial, ?_, ?_⟩
    · have hatt := (h.attached.create (o := o) hown hrf)
      rw [own_of_set (s := s) (k := rdRfId c) (v := ⟨c, true⟩) (Dict.set_set _ _ _ _)]
      exact hatt.of_eq rfl rfl rfl
    · dsimp only
      rw [Dict.set_set]
      exact listening_set h rfl

/-- An update whose event is handled, or that left the import route targets as they were. -/
theorem Consistent.updateVrfConf (h : s.Consistent) (o : RtOrder)
    (hin : InTurn t s (.update o k kw)) :
    NotRaised (s.updateVrfConf t o k kw).1 ∧ (s.updateVrfConf t o k kw).2.Consistent := by
  unfold VrfTables.updateVrfConf
  cases hv : s.vrfsByRdRf.get? k with
  | none => exact ⟨trivial, h⟩
  | some v =>
    obtain ⟨htakes, hmaps⟩ := hin v hv
    obtain ⟨hrd, hrf⟩ := v.conf.update_unset t kw
    have hid : rdRfId (v.conf.update t kw).1 = rdRfId v.conf := by
      rw [rdRfId, rdRfId, hrd, hrf]
    have hown : s.own k = some v.conf := by simp [own, hv]
    have hlisten := h.listening k v hv
    have hset : ∀ s' : VrfTables,
        s'.vrfsByRdRf = s.vrfsByRdRf.set k { v with conf := (v.conf.update t kw).1 } →
        s'.Attached (Function.update s.own k (some (v.conf.update t kw).1)) → s'.Consistent := by
      intro s' hs hatt
      refine ⟨?_, ?_⟩
      · rw [own_of_set hs]
        exact hatt
      · rw [hs]
        exact listening_set h hlisten
    have hkept : (v.conf.update t kw).1.importRts = v.conf.importRts →
        Consistent { s with
          vrfsByRdRf := s.vrfsByRdRf.set k { v with conf := (v.conf.update t kw).1 } } := by
      intro hrts
      exact hset _ rfl ((h.attached.same_rts hown hid hrts).of_eq rfl rfl rfl)
    dsimp only
    cases he : (v.conf.update t kw).2 with
    | some e =>
      obtain ⟨-, hrts⟩ := VrfConf.update_raised he
      refine ⟨trivial, hkept (hrts.resolve_right ?_)⟩
      rintro ⟨htaken, hlater⟩
      exact hlater (htakes htaken)
    | none =>
      obtain ⟨hpass, hchanges⟩ := VrfConf.update_returned he
      rw [hchanges, List.drop_left]
      cases hevent : VrfConf.changeEvent kw v.conf (v.conf.update t kw).1 with
      | none => exact ⟨trivial, hkept (VrfConf.importRts_changeEvent_none hevent)⟩
      | some change =>
        obtain ⟨hnew, hold, hnames⟩ := VrfConf.importRts_changeEvent_some hevent
        obtain ⟨table, htable⟩ := h.attached.exists_table hown
        obtain ⟨hok, hatt⟩ := h.attached.update (o := o) hown htable hid
        have hknown : initImportMapsOf s.importMaps change.importMaps = .ok () := by
          rw [hnames]
          exact hmaps hpass
        rw [Option.toList_some]
        dsimp only
        rw [if_pos hlisten]
        unfold onChgVrfConf
        simp only [htable, hnew, hold]
        unfold VrfTables.updateVrfTableLinks at hok hatt ⊢
        dsimp only at hok hatt ⊢
        rw [hok]
        dsimp only
        rw [hknown]
        exact ⟨trivial, hset _ rfl (hatt.of_eq rfl rfl rfl)⟩

/-- The configurations popped are those of the families given. -/
theorem popVrfConfs_spec (routeDist : Text) (rfs : List Text) (s : VrfTables)
    (hkey : ∀ k c, s.own k = some c → rdRfId c = k) :
    let r := popVrfConfs routeDist s rfs
    (∀ c ∈ r.2, s.own (rdRfId c) = some c) ∧ (r.2.map rdRfId).Nodup ∧
      (∀ k, r.1.vrfsByRdRf.get? k = if k ∈ r.2.map rdRfId then none else s.vrfsByRdRf.get? k) ∧
      r.1.tables = s.tables ∧ r.1.tablesForRt = s.tablesForRt ∧ r.1.created = s.created := by
  induction rfs generalizing s with
  | nil => simp [popVrfConfs]
  | cons rf rfs ih =>
    unfold popVrfConfs
    cases hv : s.vrfsByRdRf.get? (routeDist, some rf) with
    | none => exact ih s hkey
    | some v =>
      have hown : s.own (routeDist, some rf) = some v.conf := by simp [own, hv]
      have hvk := hkey _ _ hown
      dsimp only
      generalize hs' : ({ s with
        vrfsByRdRf := s.vrfsByRdRf.erase (routeDist, some rf)
        vrfIds := s.vrfIds.erase v.conf.id } : VrfTables) = s'
      have hget : ∀ k, s'.vrfsByRdRf.get? k =
          if (routeDist, some rf) = k then none else s.vrfsByRdRf.get? k := by
        intro k
        rw [← hs']
        exact Dict.get?_erase _ _ _
      have hown' : ∀ k c, s'.own k = some c → k ≠ (routeDist, some rf) ∧ s.own k = some c := by
        intro k c hc
        unfold own at hc ⊢
        rw [hget] at hc
        by_cases hk : (routeDist, some rf) = k
        · simp [hk] at hc
        · exact ⟨Ne.symm hk, by simpa [hk] using hc⟩
      obtain ⟨hmem, hnd, hrest, ht, hi, hcr⟩ := ih s' fun k c hc => hkey k c (hown' k c hc).2
      have htables : s'.tables = s.tables ∧ s'.tablesForRt = s.tablesForRt ∧
          s'.created = s.created := by
        rw [← hs']
        exact ⟨rfl, rfl, rfl⟩
      refine ⟨?_, ?_, ?_, ht.trans htables.1, hi.trans htables.2.1, hcr.trans htables.2.2⟩
      · rw [List.forall_mem_cons]
        exact ⟨hvk.symm ▸ hown, fun c hc => (hown' _ _ (hmem c hc)).2⟩
      · rw [List.map_cons, List.nodup_cons]
        refine ⟨fun hin => ?_, hnd⟩
        obtain ⟨c, hc, hck⟩ := List.mem_map.mp hin
        exact (hown' _ _ (hmem c hc)).1 (hck.trans hvk)
      · intro k
        simp only [hrest, hget, List.map_cons, List.mem_cons, hvk]
        by_cases hk : (routeDist, some rf) = k
        · simp [hk]
        · simp [hk, Ne.symm hk]

/-- The tables of configurations are removed one after the other. -/
theorem Attached.removeAll {own : RdRfId → Option Rtconf.VrfConf} {cs : List Rtconf.VrfConf}
    (h : s.Attached own) (hcs : ∀ c ∈ cs, own (rdRfId c) = some c) (hnd : (cs.map rdRfId).Nodup) :
    (removeAll o s cs).1 = .ok () ∧
      (removeAll o s cs).2.vrfsByRdRf = s.vrfsByRdRf ∧
      (removeAll o s cs).2.Attached fun k => if k ∈ cs.map rdRfId then none else own k := by
  induction cs generalizing s own with
  | nil => exact ⟨rfl, rfl, by simpa [VrfTables.removeAll] using h⟩
  | cons c cs ih =>
    obtain ⟨hc, hrest⟩ := List.forall_mem_cons.mp hcs
    rw [List.map_cons, List.nodup_cons] at hnd
    obtain ⟨table, ht⟩ := h.exists_table hc
    have hfam : (c.routeFamily.bind vrfTableFamily).isSome :=
      Option.isSome_iff_exists.mpr ⟨_, h.family _ _ ht⟩
    obtain ⟨hok, hatt⟩ := h.remove (o := o) hc hfam
    have hvrfs : (s.removeVrfByVrfConf o c).2.vrfsByRdRf = s.vrfsByRdRf := by
      unfold removeVrfByVrfConf
      split
      · rfl
      · split <;> rfl
    have hrest' : ∀ c' ∈ cs, Function.update own (rdRfId c) none (rdRfId c') = some c' := by
      intro c' hc'
      have hne : rdRfId c' ≠ rdRfId c := fun he => hnd.1 (he ▸ List.mem_map_of_mem hc')
      simpa [hne] using hrest c' hc'
    unfold VrfTables.removeAll
    generalize s.removeVrfByVrfConf o c = r at hok hatt hvrfs
    obtain ⟨res, s'⟩ := r
    obtain rfl : res = .ok () := hok
    obtain ⟨hok', hvrfs', hatt'⟩ := ih hatt hrest' hnd.2
    refine ⟨hok', hvrfs'.trans hvrfs, ?_⟩
    have hsame : (fun k => if k ∈ (c :: cs).map rdRfId then none else own k) =
        fun k => if k ∈ cs.map rdRfId then none else Function.update own (rdRfId c) none k := by
      funext k
      simp only [List.map_cons, List.mem_cons]
      by_cases hk : k = rdRfId c
      · simp [hk]
      · simp [hk]
    rw [hsame]
    exact hatt'

theorem Consistent.removeVrfConf (h : s.Consistent) (o : RtOrder) (routeDist : Text)
    (vrfRfs : List Text) : NotRaised (s.removeVrfConf o routeDist vrfRfs).1 ∧
      (s.removeVrfConf o routeDist vrfRfs).2.Consistent := by
  obtain ⟨hmem, hnd, hget, ht, hi, hc⟩ := popVrfConfs_spec routeDist vrfRfs s h.attached.key
  obtain ⟨hok, hvrfs, hatt⟩ := (h.attached.of_eq ht hi hc).removeAll (o := o) hmem hnd
  unfold VrfTables.removeVrfConf
  dsimp only
  generalize VrfTables.removeAll o _ _ = r at hok hvrfs hatt ⊢
  obtain ⟨res, s'⟩ := r
  obtain rfl : res = .ok () := hok
  dsimp only at hvrfs hatt ⊢
  refine ⟨trivial, ?_, ?_⟩
  · have hown : s'.own = fun k => if k ∈ (popVrfConfs routeDist s vrfRfs).2.map rdRfId then none
        else s.own k := by
      funext k
      unfold own
      rw [hvrfs, hget]
      split <;> rfl
    rw [hown]
    exact hatt
  · intro k v hv
    rw [hvrfs, hget] at hv
    split at hv
    · cases hv
    · exact h.listening k v hv

theorem Consistent.step (h : s.Consistent) (op : VrfOp) (hin : InTurn t s op) :
    NotRaised (s.step t op).1 ∧ (s.step t op).2.Consistent := by
  cases op with
  | create o uuid kw =>
    cases hc : VrfConf.create t uuid kw with
    | error e =>
      simp only [VrfTables.step, hc]
      exact ⟨trivial, h⟩
    | ok c =>
      simp only [VrfTables.step, hc]
      refine h.addVrfConf o fun hnew hid => ?_
      obtain ⟨hfam, hmaps⟩ := hin c hc hnew hid
      obtain ⟨f, hf⟩ := Option.ne_none_iff_exists'.mp hfam
      refine ⟨?_, hmaps⟩
      have hsup : f ∈ supportedVrfRf := List.contains_iff_mem.mp (VrfConf.routeFamily_create hc hf)
      have hall : ∀ f ∈ supportedVrfRf, (vrfTableFamily f).isSome := by decide
      rw [hf]
      exact hall f hsup
  | update o k kw => exact h.updateVrfConf o hin
  | remove o routeDist vrfRfs => exact h.removeVrfConf o routeDist vrfRfs
  | removeById id =>
    have hid : id ∉ s.vrfIds := hin
    simp only [VrfTables.step, removeVrfConfById, if_neg hid]
    exact ⟨trivial, h⟩
  | createImportMap name =>
    exact ⟨trivial, h.attached.of_eq rfl rfl rfl, h.listening⟩

end Steps

/-- The last operation raised nothing and the index is right. -/
def Right (r : Except VrfError Unit × VrfTables) : Prop := NotRaised r.1 ∧ r.2.Indexed

/-- The run of operations, with what each of them raises. -/
def next (t : Texts) (r : Except VrfError Unit × VrfTables) (op : VrfOp) :
    Except VrfError Unit × VrfTables :=
  r.2.step t op

/-- In every run of operations in turn the index lists exactly the tables that import a route
target, and none of them raises. -/
theorem indexed_of_inTurn (t : Texts) (ops : List VrfOp)
    (h : EveryStep (next t) (fun r op => InTurn t r.2 op) (.ok (), init) ops) :
    Throughout (next t) Right (.ok (), init) ops := by
  have hinv : Throughout (next t) (fun r => NotRaised r.1 ∧ r.2.Consistent) (.ok (), init) ops :=
    throughout_of_everyStep ⟨trivial, consistent_init⟩
      (fun r op hr hop => hr.2.step op hop) h
  exact hinv.mono fun r hr => ⟨hr.1, hr.2.indexed⟩

/-- Some order of every set. -/
noncomputable def anyOrder : RtOrder := ⟨Finset.toList, fun _ _ => Finset.mem_toList⟩

/-- A VRF is created with one import route target, updated and removed. -/
noncomputable def createUpdateRemove (kw : Kwargs) : List VrfOp :=
  [.create anyOrder [] (VrfConf.oneRt "65000:1"),
    .update anyOrder ("65000:1".toList, some "ipv4".toList) kw,
    .remove anyOrder "65000:1".toList supportedVrfRf]

theorem vrfsByRdRf_create :
    (init.step VrfConf.plainTexts (.create anyOrder [] (VrfConf.oneRt "65000:1"))).2.vrfsByRdRf.get?
      ("65000:1".toList, some "ipv4".toList) = some ⟨VrfConf.oneRtConf, true⟩ := by
  decide +kernel

/-- The run with another route target in the update is in turn. -/
theorem indexed_createUpdateRemove :
    Throughout (next VrfConf.plainTexts) Right (.ok (), init)
      (createUpdateRemove ((VrfConf.oneRt "65000:2").set "route_family" (.str "ipv4".toList))) := by
  apply indexed_of_inTurn
  refine ⟨?_, ?_, trivial, trivial⟩
  · intro c hc _ _
    have hconf : VrfConf.create VrfConf.plainTexts [] (VrfConf.oneRt "65000:1") =
        .ok VrfConf.oneRtConf := rfl
    obtain rfl := Except.ok.inj (hconf.symm.trans hc)
    exact ⟨by decide, rfl⟩
  · intro v hv
    obtain rfl := Option.some.inj (vrfsByRdRf_create.symm.trans hv)
    refine ⟨fun _ => ?_, fun _ => rfl⟩
    unfold VrfConf.LaterPass
    decide +kernel

/-- The metric is refused when the import route targets are taken: the table stays listed for the
old one. -/
theorem not_indexed_badMed :
    ¬ Throughout (next VrfConf.plainTexts) Right (.ok (), init)
      (createUpdateRemove VrfConf.withBadMed) := by
  rintro ⟨-, ⟨-, hbefore⟩, ⟨-, hafter⟩, -⟩
  have hv := vrfsByRdRf_create
  have htable : (init.step VrfConf.plainTexts
      (.create anyOrder [] (VrfConf.oneRt "65000:1"))).2.tables.get?
        ("65000:1".toList, some "ipv4".toList) = some ⟨0, ⟨1, 1⟩⟩ := by
    decide +kernel
  have hkeys : (init.step VrfConf.plainTexts
      (.create anyOrder [] (VrfConf.oneRt "65000:1"))).2.tables.keys =
        [("65000:1".toList, some "ipv4".toList)] := by
    decide +kernel
  have hraised : (VrfConf.oneRtConf.update VrfConf.plainTexts VrfConf.withBadMed).2 ≠ none := by
    decide +kernel
  have htaken : "65000:1".toList ∉
      (VrfConf.oneRtConf.update VrfConf.plainTexts VrfConf.withBadMed).1.importRts := by
    decide +kernel
  dsimp only [next] at hbefore hafter
  generalize (init.step VrfConf.plainTexts
    (.create anyOrder [] (VrfConf.oneRt "65000:1"))).2 = s at hv htable hkeys hbefore hafter
  obtain ⟨e, he⟩ := Option.ne_none_iff_exists'.mp hraised
  have hlisted := (hbefore.mem_iff "65000:1".toList ⟨1, 1⟩ ⟨0, ⟨1, 1⟩⟩).mpr
    ⟨_, _, htable, hv, rfl, by decide⟩
  have hstep : (s.step VrfConf.plainTexts (.update anyOrder ("65000:1".toList,
      some "ipv4".toList) VrfConf.withBadMed)).2 = { s with
        vrfsByRdRf := s.vrfsByRdRf.set ("65000:1".toList, some "ipv4".toList)
          ⟨(VrfConf.oneRtConf.update VrfConf.plainTexts VrfConf.withBadMed).1, true⟩ } := by
    simp only [VrfTables.step, updateVrfConf, hv, he]
  rw [hstep] at hafter
  obtain ⟨k, v, ht, hv', -, hrt⟩ :=
    (hafter.mem_iff "65000:1".toList ⟨1, 1⟩ ⟨0, ⟨1, 1⟩⟩).mp hlisted
  have hk : k ∈ s.tables.keys := Dict.mem_keys_iff.mpr (Option.isSome_iff_exists.mpr ⟨_, ht⟩)
  rw [hkeys, List.mem_singleton] at hk
  subst hk
  rw [Dict.get?_set_self] at hv'
  obtain rfl := Option.some.inj hv'
  exact htaken hrt

end VrfTables

end Ryu.Bgp
