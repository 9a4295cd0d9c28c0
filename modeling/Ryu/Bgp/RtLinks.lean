import Ryu.Bgp.Path
import Ryu.Lib.Index

/-! # Tables by import route target

The table manager keeps for each route target the VRF tables that import it. As long as every
change of a VRF's import route targets is passed on, a table is listed for exactly the route
targets that its VRF imports. Then its links can be removed without an exception, and none is left.
-/

namespace Ryu.Bgp

/-- What `_tables` knows a VRF table by. -/
structure TableId where
  routeDist : String
  routeFamily : RouteFamily
  deriving DecidableEq, Repr

/-- A key of `_tables_for_rt`: a route target and a route family. -/
abbrev RtRfId := String × RouteFamily

/-- `_tables_for_rt`. -/
abbrev TablesForRt := Dict RtRfId (Finset TableId)

namespace TablesForRt

/-- The tables listed under a key. -/
def tables (index : TablesForRt) (key : RtRfId) : Finset TableId := (index.get? key).getD ∅

/-- `_link_vrf_table`. -/
def linkVrfTable (index : TablesForRt) (table : TableId) (rtList : List String) : TablesForRt :=
  rtList.foldl (fun index rt =>
    index.set (rt, table.routeFamily) (insert table (index.tables (rt, table.routeFamily)))) index

/-- The first loop of `_remove_links_to_vrf_table_for_rts`, with the route targets that it leaves
without a table. A set cannot be updated with `None`. -/
def unlink (table : TableId) : TablesForRt → List String → List String →
    Except PyError (List String) × TablesForRt
  | index, rtsWithNoTable, [] => (.ok rtsWithNoTable, index)
  | index, rtsWithNoTable, rt :: rts =>
    match index.get? (rt, table.routeFamily) with
    | none => (.error (.typeError "'NoneType' object is not iterable"), index)
    | some rtSpecificTables =>
      if rtSpecificTables = ∅ then unlink table index rtsWithNoTable rts
      else
        let left := rtSpecificTables.erase table
        unlink table (index.set (rt, table.routeFamily) left)
          (if left = ∅ then rtsWithNoTable ++ [rt] else rtsWithNoTable) rts

/-- `_remove_links_to_vrf_table_for_rts`. -/
def removeLinksToVrfTable (index : TablesForRt) (table : TableId) (rts : List String) :
    Except PyError Unit × TablesForRt :=
  match unlink table index [] rts with
  | (.error e, index) => (.error e, index)
  | (.ok rtsWithNoTable, index) =>
    (.ok (), rtsWithNoTable.foldl (fun index rt => index.erase (rt, table.routeFamily)) index)

variable {index : TablesForRt} {table t : TableId} {key : RtRfId} {rts : List String}

/-! The index is an inverted index whose keys are those of the table's own family. -/

theorem tables_eq_members (index : TablesForRt) (key : RtRfId) :
    index.tables key = Index.members index key :=
  rfl

theorem linkVrfTable_eq_link (index : TablesForRt) (table : TableId) (rts : List String) :
    index.linkVrfTable table rts =
      Index.link index table (rts.map fun rt => (rt, table.routeFamily)) := by
  unfold linkVrfTable Index.link
  rw [List.foldl_map]
  rfl

theorem takeOut_eq_unlink (index : TablesForRt) (table : TableId) (noted rts : List String) :
    Index.takeOut table index (noted.map fun rt => (rt, table.routeFamily))
        (rts.map fun rt => (rt, table.routeFamily)) =
      ((unlink table index noted rts).1.toOption.map
        (List.map fun rt => (rt, table.routeFamily)), (unlink table index noted rts).2) := by
  induction rts generalizing index noted with
  | nil => rfl
  | cons rt rts ih =>
    rw [List.map_cons]
    unfold unlink Index.takeOut
    cases index.get? (rt, table.routeFamily) with
    | none => rfl
    | some ts =>
      dsimp only
      by_cases hempty : ts = ∅
      · rw [if_pos hempty, if_pos hempty, ih]
      · rw [if_neg hempty, if_neg hempty, ← ih]
        split
        · rw [List.map_append]
          rfl
        · rfl

theorem unlink_eq_removeLinks (index : TablesForRt) (table : TableId) (rts : List String) :
    Index.unlink index table (rts.map fun rt => (rt, table.routeFamily)) =
      ((index.removeLinksToVrfTable table rts).1.toOption.isSome,
        (index.removeLinksToVrfTable table rts).2) := by
  have h := takeOut_eq_unlink index table [] rts
  rw [List.map_nil] at h
  unfold Index.unlink removeLinksToVrfTable
  rw [h]
  cases unlink table index [] rts with
  | mk r index' =>
    cases r with
    | error e => rfl
    | ok noted =>
      dsimp only
      rw [← List.foldl_map]
      rfl

theorem mem_map_routeFamily {rf : RouteFamily} :
    key ∈ rts.map (fun rt => (rt, rf)) ↔ key.2 = rf ∧ key.1 ∈ rts := by
  obtain ⟨rt, rf'⟩ := key
  simp only [List.mem_map, Prod.mk.injEq]
  constructor
  · rintro ⟨rt', h, rfl, rfl⟩
    exact ⟨rfl, h⟩
  · rintro ⟨rfl, h⟩
    exact ⟨rt, h, rfl, rfl⟩

theorem mem_tables_linkVrfTable :
    t ∈ (index.linkVrfTable table rts).tables key ↔
      t ∈ index.tables key ∨ t = table ∧ key.2 = table.routeFamily ∧ key.1 ∈ rts := by
  rw [linkVrfTable_eq_link, tables_eq_members, Index.mem_members_link, mem_map_routeFamily]
  rfl

/-- The links of a table to listed route targets are removed, and nothing else is. -/
theorem removeLinksToVrfTable_ok (hmem : ∀ rt ∈ rts, table ∈ index.tables (rt, table.routeFamily)) :
    (index.removeLinksToVrfTable table rts).1 = .ok () ∧
      ∀ t key, t ∈ TablesForRt.tables (index.removeLinksToVrfTable table rts).2 key ↔
        t ∈ index.tables key ∧ ¬ (t = table ∧ key.2 = table.routeFamily ∧ key.1 ∈ rts) := by
  have hlisted : ∀ key ∈ rts.map (fun rt => (rt, table.routeFamily)),
      (index.get? key).isSome := by
    intro key hkey
    obtain ⟨rt, hrt, rfl⟩ := List.mem_map.mp hkey
    exact Index.isSome_of_mem (hmem rt hrt)
  obtain ⟨hok, hmembers, -⟩ := Index.unlink_ok (t := table) hlisted
  rw [unlink_eq_removeLinks] at hok hmembers
  refine ⟨?_, fun t key => ?_⟩
  · cases hr : (index.removeLinksToVrfTable table rts).1 with
    | error e => simp [hr, Except.toOption] at hok
    | ok _ => rfl
  · rw [tables_eq_members, hmembers, mem_map_routeFamily]
    rfl

end TablesForRt

/-- The links beside the import route targets of the configured VRFs. -/
structure RtLinks where
  tablesForRt : TablesForRt
  importRts : Dict TableId (List String)
  deriving DecidableEq

namespace RtLinks

def init : RtLinks := ⟨.empty, .empty⟩

/-- `create_and_link_vrf_table` for a VRF that is not configured. -/
def addVrf (s : RtLinks) (table : TableId) (rts : List String) : RtLinks :=
  match s.importRts.get? table with
  | some _ => s
  | none => ⟨s.tablesForRt.linkVrfTable table rts, s.importRts.set table rts⟩

/-- An update sets the import route targets; `update_vrf_table_links` is called when listeners are
notified. -/
def setImportRts (s : RtLinks) (table : TableId) (rts : List String) (notified : Bool) :
    Except PyError Unit × RtLinks :=
  match s.importRts.get? table with
  | none => (.ok (), s)
  | some old =>
    if notified then
      let linked := s.tablesForRt.linkVrfTable table (rts.filter fun rt => rt ∉ old)
      let r := linked.removeLinksToVrfTable table (old.filter fun rt => rt ∉ rts)
      (r.1, ⟨r.2, s.importRts.set table rts⟩)
    else (.ok (), { s with importRts := s.importRts.set table rts })

/-- What `remove_vrf_by_vrf_conf` does first: the table is forgotten and its links are removed. -/
def removeVrf (s : RtLinks) (table : TableId) : Except PyError Unit × RtLinks :=
  match s.importRts.get? table with
  | none => (.ok (), s)
  | some rts =>
    let r := s.tablesForRt.removeLinksToVrfTable table rts
    (r.1, ⟨r.2, s.importRts.erase table⟩)

/-- The import route targets of a table; none where there is no table. -/
def imports (s : RtLinks) (table : TableId) : List String := (s.importRts.get? table).getD []

/-- A table is listed for exactly the route targets that it imports. -/
def Linked (s : RtLinks) : Prop :=
  ∀ t key, t ∈ s.tablesForRt.tables key ↔ key.2 = t.routeFamily ∧ key.1 ∈ s.imports t

variable {s : RtLinks} {table : TableId} {rts : List String}

theorem linked_init : init.Linked := by
  intro t key
  simp [init, TablesForRt.tables, imports]

theorem imports_set (s : RtLinks) (index : TablesForRt) (table t : TableId) (rts : List String) :
    imports ⟨index, s.importRts.set table rts⟩ t = if table = t then rts else s.imports t := by
  unfold imports
  rw [Dict.get?_set]
  split <;> rfl

theorem Linked.addVrf (h : s.Linked) (table : TableId) (rts : List String) :
    (s.addVrf table rts).Linked := by
  unfold RtLinks.addVrf
  cases hc : s.importRts.get? table with
  | some _ => exact h
  | none =>
    intro t key
    rw [TablesForRt.mem_tables_linkVrfTable, imports_set, h]
    split
    · next ht =>
      subst ht
      have hnil : s.imports table = [] := by simp [imports, hc]
      rw [hnil]
      simp
    · next ht => simp [Ne.symm ht]

theorem Linked.mem_tables (h : s.Linked) {old : List String}
    (hc : s.importRts.get? table = some old) :
    ∀ rt ∈ old, table ∈ s.tablesForRt.tables (rt, table.routeFamily) := by
  intro rt hrt
  rw [h]
  exact ⟨rfl, by simpa [imports, hc] using hrt⟩

theorem Linked.setImportRts (h : s.Linked) (table : TableId) (rts : List String) :
    (s.setImportRts table rts true).1 = .ok () ∧ (s.setImportRts table rts true).2.Linked := by
  unfold RtLinks.setImportRts
  cases hc : s.importRts.get? table with
  | none => exact ⟨rfl, h⟩
  | some old =>
    have himp : s.imports table = old := by simp [imports, hc]
    have hold := h.mem_tables hc
    have hlisted : ∀ rt ∈ old.filter (fun rt => rt ∉ rts), table ∈
        (s.tablesForRt.linkVrfTable table (rts.filter fun rt => rt ∉ old)).tables
          (rt, table.routeFamily) := by
      intro rt hrt
      rw [TablesForRt.mem_tables_linkVrfTable]
      exact Or.inl (hold rt (List.mem_filter.mp hrt).1)
    obtain ⟨hok, hmem⟩ := TablesForRt.removeLinksToVrfTable_ok hlisted
    simp only [if_true]
    refine ⟨hok, fun t key => ?_⟩
    rw [hmem, TablesForRt.mem_tables_linkVrfTable, imports_set, h]
    split
    · next ht =>
      subst ht
      rw [himp]
      by_cases ho : key.1 ∈ old <;> by_cases hr : key.1 ∈ rts <;> simp [ho, hr]
    · next ht => simp [Ne.symm ht]

/-- A linked table is removed without an exception, and the other tables stay linked. -/
theorem Linked.removeVrf (h : s.Linked) (table : TableId) :
    (s.removeVrf table).1 = .ok () ∧ (s.removeVrf table).2.Linked := by
  unfold RtLinks.removeVrf
  cases hc : s.importRts.get? table with
  | none => exact ⟨rfl, h⟩
  | some old =>
    obtain ⟨hok, hmem⟩ := TablesForRt.removeLinksToVrfTable_ok (h.mem_tables hc)
    refine ⟨hok, fun t key => ?_⟩
    dsimp only
    rw [hmem, h]
    unfold imports
    rw [Dict.get?_erase]
    split
    · next ht =>
      subst ht
      simp [hc]
    · next ht => simp [Ne.symm ht]

end RtLinks

end Ryu.Bgp
