import Ryu.Lib.Run
import Ryu.Packet.Checksum
import Ryu.Packet.ReportGroup

/-! # Membership reports

`igmpv3_report` and `mldv2_report`. A report keeps the numbers that it computed when it was
serialized. Serialized again, it is read back if they are still the numbers there are.
-/

namespace Ryu.Packet

open Bytes

/-! ## Lists of records -/

/-- The loop of `serialize`, with what is left of the records. -/
def serializeRecords (size : ℕ) :
    List ReportGroup → Except PyError (List UInt8) × List ReportGroup
  | [] => (.ok [], [])
  | g :: records =>
    match g.serialize size with
    | (.error e, g) => (.error e, g :: records)
    | (.ok b, g) =>
      match serializeRecords size records with
      | (.error e, records) => (.error e, g :: records)
      | (.ok buf, records) => (.ok (b ++ buf), g :: records)

/-- One record, and the buffer behind its length. -/
def readRecord (size : ℕ) (buf : List UInt8) : Except PyError (ReportGroup × List UInt8) :=
  (ReportGroup.parse size buf).map fun g => (g, buf.drop (g.len size))

/-- The loop of `parser`, with the assertion behind it. -/
def parseRecords (size recordNum : ℕ) (buf : List UInt8) :
    Except PyError (List ReportGroup × List UInt8) :=
  readCounted .assertionError (readRecord size) recordNum buf

/-- What both reports do: a header, the records behind it, and their number where it is zero. -/
def serializeReport (size offset : ℕ) (header : Except PyError (List UInt8)) (recordNum : ℕ)
    (records : List ReportGroup) : Except PyError (List UInt8) × ℕ × List ReportGroup :=
  match header with
  | .error e => (.error e, recordNum, records)
  | .ok buf =>
    match serializeRecords size records with
    | (.error e, records) => (.error e, recordNum, records)
    | (.ok b, records) =>
      match fillCount recordNum records.length offset (buf ++ b) with
      | (x, recordNum) => (x, recordNum, records)

/-- `records_len`. -/
def recordsLen (size : ℕ) (records : List ReportGroup) : ℕ :=
  records.foldl (fun n g => n + g.len size) 0

/-- What the records are on the wire. -/
def recordsWire (size : ℕ) (records : List ReportGroup) : List UInt8 :=
  records.flatMap (ReportGroup.wire size)

/-- The number that a report keeps. -/
def keptNum (recordNum : ℕ) (records : List ReportGroup) : ℕ :=
  if recordNum = 0 then records.length else recordNum

/-- The numbers are to be computed or those there are, and there is room for them. -/
def Counted (recordNum : ℕ) (records : List ReportGroup) : Prop :=
  (recordNum = 0 ∨ recordNum = records.length) ∧ records.length < 2 ^ 16 ∧
    ∀ g ∈ records, g.Counted

section Records

variable {size offset recordNum : ℕ} {records : List ReportGroup} {a c r : List UInt8}
  {header : Except PyError (List UInt8)}

theorem serializeRecords_eq (h : ∀ g ∈ records, g.Valid size)
    (hnum : ∀ g ∈ records, g.filled.num < 2 ^ 16) : serializeRecords size records =
      (.ok (recordsWire size (records.map .filled)), records.map .filled) := by
  induction records with
  | nil => rfl
  | cons g records ih =>
    obtain ⟨hg, h⟩ := List.forall_mem_cons.mp h
    obtain ⟨hgnum, hnum⟩ := List.forall_mem_cons.mp hnum
    simp only [serializeRecords, ReportGroup.serialize_eq hg hgnum, ih h hnum]
    rfl

/-- One record that has no room for its number of sources is enough for an exception. -/
theorem serializeRecords_error (h : ∀ g ∈ records, g.Valid size)
    (hnum : ¬ ∀ g ∈ records, g.filled.num < 2 ^ 16) : ∃ e records',
      serializeRecords size records = (.error e, records') ∧ ∀ g ∈ records', g.Valid size := by
  induction records with
  | nil => exact absurd (fun g hg => absurd hg List.not_mem_nil) hnum
  | cons g records ih =>
    obtain ⟨hg, h⟩ := List.forall_mem_cons.mp h
    by_cases hgnum : g.filled.num < 2 ^ 16
    · obtain ⟨e, records', hrest, hvalid⟩ := ih h fun hall =>
        hnum (List.forall_mem_cons.mpr ⟨hgnum, hall⟩)
      refine ⟨e, g.filled :: records', ?_, List.forall_mem_cons.mpr ⟨hg.filled, hvalid⟩⟩
      simp only [serializeRecords, ReportGroup.serialize_eq hg hgnum, hrest]
    · obtain ⟨e, num, hserialize⟩ := ReportGroup.serialize_error hg hgnum
      refine ⟨e, { g with num := num } :: records, ?_,
        List.forall_mem_cons.mpr ⟨hg.setNum num, h⟩⟩
      simp only [serializeRecords, hserialize]

theorem valid_serializeRecords (h : ∀ g ∈ records, g.Valid size) :
    ∀ g ∈ (serializeRecords size records).2, g.Valid size := by
  by_cases hnum : ∀ g ∈ records, g.filled.num < 2 ^ 16
  · rw [serializeRecords_eq h hnum]
    intro g hg
    obtain ⟨g, hmem, rfl⟩ := List.mem_map.mp hg
    exact (h g hmem).filled
  · obtain ⟨e, records', hrest, hvalid⟩ := serializeRecords_error h hnum
    rw [hrest]
    exact hvalid

/-- The lengths of records whose auxiliary data has its length add up. -/
theorem length_recordsWire (h : ∀ g ∈ records, g.Valid size) :
    (recordsWire size (records.map .filled)).length =
      recordsLen size (records.map .filled) := by
  have hfold : ∀ n, (records.map ReportGroup.filled).foldl (fun n g => n + g.len size) n =
      n + (recordsWire size (records.map .filled)).length := by
    induction records with
    | nil => exact fun n => rfl
    | cons g records ih =>
      obtain ⟨hg, h⟩ := List.forall_mem_cons.mp h
      intro n
      have hlen := ReportGroup.length_wire hg.filled (ReportGroup.filled_auxLen g)
      have hcons : recordsWire size (g.filled :: records.map .filled) =
          g.filled.wire size ++ recordsWire size (records.map .filled) := rfl
      rw [List.map_cons, List.foldl_cons, ih h, hcons, List.length_append, hlen, Nat.add_assoc]
  rw [recordsLen, hfold, Nat.zero_add]

/-- The records are read back exactly if each has as many sources as it says. -/
theorem parseRecords_iff (hsize : 0 < size) (h : ∀ g ∈ records, g.Valid size)
    (hnum : ∀ g ∈ records, g.filled.num < 2 ^ 16) :
    parseRecords size recordNum (recordsWire size (records.map .filled) ++ r) =
        .ok (records.map .padded, c) ↔
      recordNum = records.length ∧ (∀ g ∈ records, g.num = 0 ∨ g.num = g.srcs.length) ∧ c = r := by
  have hnil (x : ReportGroup × List UInt8) : readRecord size [] ≠ .ok x := by
    have hheader : (ReportGroup.packStr size).unpackFrom [] = .error structError := by
      rw [Format.unpackFrom, if_pos]
      simp [ReportGroup.packStr, Format.calcsize]
    rw [readRecord, ReportGroup.parse, hheader]
    simp [bind, Except.bind, Except.map]
  rw [parseRecords, readCounted_eq_ok_iff hnil, recordsWire, List.flatMap_map]
  refine readTimes_flatMap_iff (fun g hg hcounted r => ?_) fun g hg r c hread => ?_
  · have hpadded := ReportGroup.filled_eq_padded hcounted
    have hvalid := (h g hg).filled
    have hlen := ReportGroup.filled_auxLen g
    have hdrop : (g.filled.wire size ++ r).drop (g.filled.len size) = r :=
      List.drop_left' (ReportGroup.length_wire hvalid hlen)
    have hself : g.filled.num = g.filled.srcs.length := congrArg ReportGroup.num hpadded
    rw [readRecord, ReportGroup.parse_wire hsize hvalid hlen hself (hnum g hg) r, ← hpadded]
    exact congrArg (fun r => Except.ok (g.filled, r)) hdrop
  · obtain ⟨g', hparse, heq⟩ := map_eq_ok.1 hread
    obtain ⟨rfl, -⟩ := Prod.mk.inj heq
    have hself := ReportGroup.num_of_parse (h g hg).filled (hnum g hg) hparse
    exact ReportGroup.filled_num_eq_iff.mp hself.symm

/-- There is room for all the numbers that are packed. -/
def Room (recordNum : ℕ) (records : List ReportGroup) : Prop :=
  (∀ g ∈ records, g.filled.num < 2 ^ 16) ∧ keptNum recordNum records < 2 ^ 16

theorem serializeReport_eq (h : ∀ g ∈ records, g.Valid size) (ha : a.length = offset)
    (hheader : recordNum < 2 ^ 16 → header = .ok (a ++ toBytes 2 recordNum))
    (hroom : Room recordNum records) : serializeReport size offset header recordNum records =
      (.ok (a ++ (toBytes 2 (keptNum recordNum records) ++ recordsWire size (records.map .filled))),
        keptNum recordNum records, records.map .filled) := by
  obtain ⟨hnum, hcount⟩ := hroom
  have hlt : recordNum < 2 ^ 16 := by
    rw [keptNum] at hcount
    split at hcount <;> omega
  have hfill := fillCount_ok (c := recordsWire size (records.map .filled)) ha hcount
  simp only [serializeReport, hheader hlt, serializeRecords_eq h hnum, List.length_map,
    List.append_assoc, hfill]
  rfl

theorem room_of_serializeReport {buf : List UInt8} {x : ℕ × List ReportGroup}
    (h : ∀ g ∈ records, g.Valid size)
    (hheader : ¬ recordNum < 2 ^ 16 → ∃ e, header = .error e)
    (hok : serializeReport size offset header recordNum records = (.ok buf, x)) :
    Room recordNum records := by
  unfold serializeReport at hok
  cases header with
  | error e => cases hok
  | ok b =>
    by_cases hnum : ∀ g ∈ records, g.filled.num < 2 ^ 16
    · refine ⟨hnum, ?_⟩
      by_contra hcount
      by_cases hzero : recordNum = 0
      · rw [keptNum, if_pos hzero] at hcount
        simp only [serializeRecords_eq h hnum, List.length_map,
          fillCount_error hzero hcount] at hok
        cases hok
      · rw [keptNum, if_neg hzero] at hcount
        obtain ⟨e, he⟩ := hheader hcount
        cases he
    · obtain ⟨e, records', hrecords, -⟩ := serializeRecords_error h hnum
      simp only [hrecords] at hok
      cases hok

theorem valid_serializeReport (h : ∀ g ∈ records, g.Valid size) :
    ∀ g ∈ (serializeReport size offset header recordNum records).2.2, g.Valid size := by
  have hrecords := valid_serializeRecords h
  unfold serializeReport
  cases header with
  | error e => exact h
  | ok buf =>
    dsimp only
    split
    · next hser => rwa [hser] at hrecords
    · next hser => rwa [hser] at hrecords

/-- What is kept is the number there is if it was to be computed or right. -/
theorem keptNum_eq_iff : keptNum recordNum records = records.length ↔
    recordNum = 0 ∨ recordNum = records.length := by
  rw [keptNum]
  split <;> simp [*]

theorem counted_iff : Counted recordNum records ↔ Room recordNum records ∧
    keptNum recordNum records = records.length ∧
      ∀ g ∈ records, g.num = 0 ∨ g.num = g.srcs.length := by
  rw [Counted, Room, keptNum_eq_iff]
  constructor
  · rintro ⟨hcounted, hlt, hrec⟩
    refine ⟨⟨fun g hg => ?_, ?_⟩, hcounted, fun g hg => (hrec g hg).1⟩
    · rw [ReportGroup.filled_num_eq_iff.mpr (hrec g hg).1]
      exact (hrec g hg).2
    · rwa [keptNum_eq_iff.2 hcounted]
  · rintro ⟨⟨hnum, hcount⟩, hcounted, hrec⟩
    refine ⟨hcounted, keptNum_eq_iff.2 hcounted ▸ hcount, fun g hg => ⟨hrec g hg, ?_⟩⟩
    exact ReportGroup.filled_num_eq_iff.mpr (hrec g hg) ▸ hnum g hg

end Records

/-! ## What is done with a report -/

/-- `list.insert`. -/
def insertAt {α : Type*} (k : ℕ) (a : α) (l : List α) : List α := l.take k ++ a :: l.drop k

/-- A record is added to a report, a source to one of its records, or the report is serialized. -/
inductive Event
  | record (k : ℕ) (g : ReportGroup)
  | source (i k : ℕ) (src : List UInt8)
  | serialize

namespace Event

/-- The records with what is added. -/
def put : Event → List ReportGroup → List ReportGroup
  | record k g, records => insertAt k g records
  | source i k src, records => records.modify i fun g => { g with srcs := insertAt k src g.srcs }
  | serialize, records => records

/-- The numbers of a record that is added are left to be computed. -/
def Fresh (size : ℕ) : Event → Prop
  | record _ g => g.Fresh size
  | source _ _ src => src.length = size
  | serialize => True

variable {size : ℕ} {e : Event} {records : List ReportGroup}

theorem mem_insertAt {α : Type*} {k : ℕ} {a b : α} {l : List α} (h : b ∈ insertAt k a l) :
    b = a ∨ b ∈ l := by
  rw [insertAt, List.mem_append, List.mem_cons] at h
  obtain h | rfl | h := h
  · exact Or.inr (List.mem_of_mem_take h)
  · exact Or.inl rfl
  · exact Or.inr (List.mem_of_mem_drop h)

theorem valid_put (h : ∀ g ∈ records, g.Valid size) (he : e.Fresh size) :
    ∀ g ∈ e.put records, g.Valid size := by
  cases e with
  | record k g =>
    intro g' hg'
    obtain rfl | hmem := mem_insertAt hg'
    · exact he.1
    · exact h g' hmem
  | source i k src =>
    intro g' hg'
    obtain ⟨j, hj⟩ := List.mem_iff_getElem?.mp hg'
    rw [put, List.getElem?_modify] at hj
    obtain ⟨g, hg, heq⟩ := Option.map_eq_some_iff.mp hj
    have hvalid := h g (List.mem_of_getElem? hg)
    split at heq
    · subst heq
      refine ⟨hvalid.type, hvalid.address, fun s hs => ?_, hvalid.aux, hvalid.auxLen⟩
      obtain rfl | hmem := mem_insertAt hs
      · exact he
      · exact hvalid.srcs s hmem
    · exact heq ▸ hvalid
  | serialize => exact h

end Event

/-! ## IGMP -/

/-- An `igmpv3_report`. -/
structure Igmpv3Report where
  msgtype : ℕ
  csum : ℕ
  recordNum : ℕ
  records : List ReportGroup
  deriving DecidableEq, Repr

namespace Igmpv3Report

def packStr : Format := [.num 1, .pad 1, .num 2, .pad 2, .num 2]

def minLen : ℕ := packStr.calcsize

def values (m : Igmpv3Report) : packStr.Values := (m.msgtype, m.csum, m.recordNum, ())

/-- `__len__`. -/
def len (m : Igmpv3Report) : ℕ := minLen + recordsLen 4 m.records

/-- `parser`, with the buffer behind the message and without the class of a payload. -/
def parse (buf : List UInt8) : Except PyError (Igmpv3Report × List UInt8) := do
  let (msgtype, csum, recordNum, ()) ← packStr.unpackFrom buf
  let (records, buf) ← parseRecords 4 recordNum (buf.drop minLen)
  return (⟨msgtype, csum, recordNum, records⟩, buf)

/-- The checksum where it is zero, which is kept. -/
def setCsum (m : Igmpv3Report) (buf : List UInt8) : Except PyError (List UInt8) × Igmpv3Report :=
  if m.csum = 0 then
    ((packInto 2 (checksum buf)).map (packAt buf 2), { m with csum := checksum buf })
  else (.ok buf, m)

/-- `serialize`, with what is left of the report. -/
def serialize (m : Igmpv3Report) : Except PyError (List UInt8) × Igmpv3Report :=
  match serializeReport 4 6 (packStr.pack m.values) m.recordNum m.records with
  | (.error e, recordNum, records) => (.error e, { m with recordNum, records })
  | (.ok buf, recordNum, records) => { m with recordNum, records }.setCsum buf

/-- What is in the report fits, as far as it is not a number of something. -/
structure Valid (m : Igmpv3Report) : Prop where
  msgtype : m.msgtype < 2 ^ 8
  csum : m.csum < 2 ^ 16
  records : ∀ g ∈ m.records, g.Valid 4

/-- The numbers and the checksum are left to be computed. -/
def Fresh (m : Igmpv3Report) : Prop :=
  m.msgtype < 2 ^ 8 ∧ m.csum = 0 ∧ m.recordNum = 0 ∧ ∀ g ∈ m.records, g.Fresh 4

/-- The report with its records padded and their number. -/
def padded (m : Igmpv3Report) : Igmpv3Report :=
  { m with recordNum := m.records.length, records := m.records.map .padded }

/-- What a report is on the wire. -/
def wire (m : Igmpv3Report) : List UInt8 := packStr.bytes m.values ++ recordsWire 4 m.records

/-- Serialized, the report is read back from in front of anything, it has its length, and the
checksum that was computed for it is right. -/
def ReadBack (m : Igmpv3Report) : Prop :=
  ∃ buf m', m.serialize = (.ok buf, m') ∧ m'.len = buf.length ∧
    (m.csum = 0 → checksum buf = 0) ∧
    ∀ r, parse (buf ++ r) = .ok ({ m.padded with csum := m'.csum }, r)

/-- What is left of the report but its checksum when it is serialized. -/
def counted (m : Igmpv3Report) : Igmpv3Report :=
  { m with recordNum := keptNum m.recordNum m.records, records := m.records.map .filled }

/-- What is left of the report when it is serialized. -/
def kept (m : Igmpv3Report) : Igmpv3Report :=
  { m.counted with csum := if m.csum = 0 then checksum m.counted.wire else m.csum }

variable {m m' : Igmpv3Report} {buf : List UInt8}

theorem fits_iff (h : m.Valid) : packStr.Fits m.values ↔ m.recordNum < 2 ^ 16 := by
  have htype := h.msgtype
  have hcsum := h.csum
  simp only [packStr, values, Format.Fits, and_true]
  omega

/-- What is in front of the number of records. -/
def front (m : Igmpv3Report) : List UInt8 :=
  toBytes 1 m.msgtype ++ (List.replicate 1 0 ++ (toBytes 2 m.csum ++ List.replicate 2 0))

theorem bytes_eq (m : Igmpv3Report) :
    packStr.bytes m.values = m.front ++ toBytes 2 m.recordNum := by
  simp [packStr, values, Format.bytes, front]

theorem wire_csum (m : Igmpv3Report) (csum : ℕ) : { m with csum := csum }.wire =
    (toBytes 1 m.msgtype ++ List.replicate 1 0) ++
      (toBytes 2 csum ++ (List.replicate 2 0 ++ (toBytes 2 m.recordNum ++
        recordsWire 4 m.records))) := by
  simp [wire, packStr, values, Format.bytes]

theorem setCsum_eq (m : Igmpv3Report) : m.setCsum m.wire =
    (.ok { m with csum := if m.csum = 0 then checksum m.wire else m.csum }.wire,
      { m with csum := if m.csum = 0 then checksum m.wire else m.csum }) := by
  rw [setCsum]
  split
  · have hpack : packInto 2 (checksum m.wire) = .ok (toBytes 2 (checksum m.wire)) :=
      packInto_eq_ok.2 ⟨checksum_lt _, rfl⟩
    have hwire : packAt m.wire 2 (toBytes 2 (checksum m.wire)) =
        { m with csum := checksum m.wire }.wire := by
      have hold : m.wire = _ := wire_csum m m.csum
      generalize checksum m.wire = csum
      rw [hold, wire_csum]
      exact packAt_replace (by simp) (by simp)
    rw [hpack, ← hwire]
    rfl
  · rfl

theorem serialize_kept (h : m.Valid) (hroom : Room m.recordNum m.records) :
    m.serialize = (.ok m.kept.wire, m.kept) := by
  have hheader (hlt : m.recordNum < 2 ^ 16) :
      packStr.pack m.values = .ok (m.front ++ toBytes 2 m.recordNum) := by
    rw [Format.pack_bytes ((fits_iff h).mpr hlt), bytes_eq]
  have hwire : m.front ++ (toBytes 2 (keptNum m.recordNum m.records) ++
      recordsWire 4 (m.records.map .filled)) = m.counted.wire := by
    rw [wire, bytes_eq, List.append_assoc]
    rfl
  rw [serialize, serializeReport_eq h.records (by simp [front]) hheader hroom]
  simp only [hwire]
  exact setCsum_eq m.counted

theorem room_of_serialize (h : m.Valid) (hok : m.serialize = (.ok buf, m')) :
    Room m.recordNum m.records := by
  have hheader (hlt : ¬ m.recordNum < 2 ^ 16) : ∃ e, packStr.pack m.values = .error e := by
    rw [← fits_iff h, ← Format.isOk_pack_iff] at hlt
    cases hpack : packStr.pack m.values with
    | error e => exact ⟨e, rfl⟩
    | ok b =>
      rw [hpack] at hlt
      exact absurd rfl hlt
  rw [serialize] at hok
  split at hok
  · cases hok
  · next hreport => exact room_of_serializeReport h.records hheader hreport

theorem Valid.kept (h : m.Valid) : m.kept.Valid where
  msgtype := h.msgtype
  csum := by
    have hcsum := h.csum
    have hlt := checksum_lt m.counted.wire
    simp only [Igmpv3Report.kept]
    split <;> omega
  records g' hg' := by
    obtain ⟨g, hg, rfl⟩ := List.mem_map.mp hg'
    exact (h.records g hg).filled

theorem length_kept_wire (h : m.Valid) : m.kept.len = m.kept.wire.length := by
  have hlen := length_recordsWire h.records
  rw [len, wire, List.length_append]
  change minLen + recordsLen 4 (m.records.map .filled) =
    _ + (recordsWire 4 (m.records.map .filled)).length
  rw [hlen]
  simp [packStr, values, Format.bytes, minLen, Format.calcsize]

theorem checksum_wire_iff (h : m.csum = 0) :
    checksum { m with csum := checksum m.wire }.wire = 0 ↔ Folds (wordSum m.wire) := by
  have hold : m.wire = (toBytes 1 m.msgtype ++ List.replicate 1 0) ++ (toBytes 2 0 ++
      (List.replicate 2 0 ++ (toBytes 2 m.recordNum ++ recordsWire 4 m.records))) := by
    rw [← h]
    exact wire_csum m m.csum
  rw [wire_csum, hold]
  exact checksum_filled_iff (by simp)

theorem counted_eq_padded (hnum : keptNum m.recordNum m.records = m.records.length)
    (hrec : ∀ g ∈ m.records, g.num = 0 ∨ g.num = g.srcs.length) : m.counted = m.padded := by
  have hrecords : m.records.map ReportGroup.filled = m.records.map .padded :=
    List.map_congr_left fun g hg => ReportGroup.filled_eq_padded (hrec g hg)
  rw [counted, hnum, hrecords]
  rfl

theorem parse_wire (h : m.Valid) (hlt : m.recordNum < 2 ^ 16) (r : List UInt8) :
    parse (m.wire ++ r) =
      (parseRecords 4 m.recordNum (recordsWire 4 m.records ++ r)).map fun x =>
        ({ m with records := x.1 }, x.2) := by
  have hdrop : (m.wire ++ r).drop minLen = recordsWire 4 m.records ++ r := by
    rw [wire, List.append_assoc]
    exact List.drop_left' (by simp [packStr, values, Format.bytes, minLen, Format.calcsize])
  rw [parse, wire, List.append_assoc, Format.unpackFrom_bytes ((fits_iff h).mpr hlt) trivial,
    ← List.append_assoc]
  change (parseRecords 4 m.recordNum ((m.wire ++ r).drop minLen) >>= _) = _
  rw [hdrop]
  cases parseRecords 4 m.recordNum (recordsWire 4 m.records ++ r) <;> rfl

/-- Serialized in front of anything, the report is read back exactly if its numbers are right. -/
theorem parse_kept_iff (h : m.Valid) (hroom : Room m.recordNum m.records) (r : List UInt8) :
    parse (m.kept.wire ++ r) = .ok ({ m.padded with csum := m.kept.csum }, r) ↔
      keptNum m.recordNum m.records = m.records.length ∧
        ∀ g ∈ m.records, g.num = 0 ∨ g.num = g.srcs.length := by
  have hread : parseRecords 4 (keptNum m.recordNum m.records)
      (recordsWire 4 (m.records.map .filled) ++ r) = .ok (m.records.map .padded, r) ↔ _ :=
    parseRecords_iff (by decide) h.records hroom.1
  rw [parse_wire h.kept hroom.2]
  change (parseRecords 4 (keptNum m.recordNum m.records)
    (recordsWire 4 (m.records.map .filled) ++ r)).map _ = _ ↔ _
  constructor
  · intro hparse
    obtain ⟨⟨records, c⟩, hrecords, heq⟩ := map_eq_ok.1 hparse
    obtain ⟨hm, rfl⟩ := Prod.mk.inj heq
    obtain rfl : records = m.records.map .padded := congrArg Igmpv3Report.records hm
    obtain ⟨hnum, hrec, -⟩ := hread.mp hrecords
    exact ⟨hnum, hrec⟩
  · rintro ⟨hnum, hrec⟩
    rw [hread.mpr ⟨hnum, hrec, rfl⟩]
    have hself : Igmpv3Report.mk m.msgtype m.kept.csum (keptNum m.recordNum m.records)
        (m.records.map .padded) = { m.padded with csum := m.kept.csum } := by
      rw [hnum]
      rfl
    exact congrArg (fun m => Except.ok (m, r)) hself

/-- Serialized, a report is read back exactly if its numbers are right and, where its checksum is
computed, the sum of its words folds. -/
theorem readBack_iff_counted (h : m.Valid) : m.ReadBack ↔
    Counted m.recordNum m.records ∧ (m.csum = 0 → Folds (wordSum m.padded.wire)) := by
  rw [counted_iff]
  constructor
  · rintro ⟨buf, m', hserialize, -, hcsum, hparse⟩
    have hroom := room_of_serialize h hserialize
    rw [serialize_kept h hroom] at hserialize
    obtain ⟨hbuf, rfl⟩ := Prod.mk.inj hserialize
    obtain rfl := Except.ok.inj hbuf
    obtain ⟨hnum, hrec⟩ := (parse_kept_iff h hroom []).mp (hparse [])
    refine ⟨⟨hroom, hnum, hrec⟩, fun hzero => ?_⟩
    have hright := hcsum hzero
    rw [kept, if_pos hzero, counted_eq_padded hnum hrec] at hright
    exact (checksum_wire_iff (m := m.padded) hzero).mp hright
  · rintro ⟨⟨hroom, hnum, hrec⟩, hfolds⟩
    refine ⟨m.kept.wire, m.kept, serialize_kept h hroom, length_kept_wire h, fun hzero => ?_,
      fun r => (parse_kept_iff h hroom r).mpr ⟨hnum, hrec⟩⟩
    rw [kept, if_pos hzero, counted_eq_padded hnum hrec]
    exact (checksum_wire_iff (m := m.padded) hzero).mpr (hfolds hzero)

/-- One event. -/
def step (m : Igmpv3Report) : Event → Igmpv3Report
  | .serialize => m.serialize.2
  | e => { m with records := e.put m.records }

/-- Where it is serialized, the report is read back. -/
def Right (m : Igmpv3Report) (e : Event) : Prop := e = .serialize → m.ReadBack

/-- Where it is serialized, the numbers of the report are right, and the sum of its words folds if
its checksum is computed. -/
def Meets (m : Igmpv3Report) (e : Event) : Prop :=
  e = .serialize →
    Counted m.recordNum m.records ∧ (m.csum = 0 → Folds (wordSum m.padded.wire))

theorem Valid.serialize (h : m.Valid) : m.serialize.2.Valid := by
  have hrecords : ∀ g ∈ (serializeReport 4 6 (packStr.pack m.values) m.recordNum m.records).2.2,
      g.Valid 4 := valid_serializeReport h.records
  rw [Igmpv3Report.serialize]
  split
  · next hreport =>
    rw [hreport] at hrecords
    exact ⟨h.msgtype, h.csum, hrecords⟩
  · next buf recordNum records hreport =>
    rw [hreport] at hrecords
    rw [setCsum]
    split
    · exact ⟨h.msgtype, checksum_lt buf, hrecords⟩
    · exact ⟨h.msgtype, h.csum, hrecords⟩

theorem Valid.step {e : Event} (h : m.Valid) (he : e.Fresh 4) : (m.step e).Valid := by
  cases e with
  | record k g => exact ⟨h.msgtype, h.csum, Event.valid_put h.records he⟩
  | source i k src => exact ⟨h.msgtype, h.csum, Event.valid_put h.records he⟩
  | serialize => exact h.serialize

theorem Fresh.valid (h : m.Fresh) : m.Valid where
  msgtype := h.1
  csum := by
    rw [h.2.1]
    decide
  records g hg := (h.2.2.2 g hg).1

/-- A report is read back whenever it is serialized exactly if it meets the condition each time. -/
theorem everyStep_iff (h : m.Fresh) {es : List Event} (hes : ∀ e ∈ es, e.Fresh 4) :
    EveryStep step Right m es ↔ EveryStep step Meets m es := by
  have hstep (m : Igmpv3Report) (e : Event) (hm : m.Valid) (_ : e.Fresh 4) :
      m.Right e ↔ m.Meets e := imp_congr_right fun _ => readBack_iff_counted hm
  exact everyStep_congr (Q := Event.Fresh 4) h.valid (fun _ _ hm he => hm.step he) hstep hes

end Igmpv3Report

/-! ## MLD -/

/-- An `mldv2_report`. -/
structure Mldv2Report where
  recordNum : ℕ
  records : List ReportGroup
  deriving DecidableEq, Repr

namespace Mldv2Report

def packStr : Format := [.pad 2, .num 2]

def minLen : ℕ := packStr.calcsize

def values (m : Mldv2Report) : packStr.Values := (m.recordNum, ())

/-- `__len__`. -/
def len (m : Mldv2Report) : ℕ := minLen + recordsLen 16 m.records

/-- `parser`. -/
def parse (buf : List UInt8) (offset : ℕ) : Except PyError Mldv2Report := do
  let (recordNum, ()) ← packStr.unpackFrom (buf.drop offset)
  let (records, _) ← parseRecords 16 recordNum (buf.drop (offset + minLen))
  return ⟨recordNum, records⟩

/-- `serialize`, with what is left of the report. -/
def serialize (m : Mldv2Report) : Except PyError (List UInt8) × Mldv2Report :=
  match serializeReport 16 2 (packStr.pack m.values) m.recordNum m.records with
  | (x, recordNum, records) => (x, { recordNum, records })

/-- The numbers are left to be computed. -/
def Fresh (m : Mldv2Report) : Prop := m.recordNum = 0 ∧ ∀ g ∈ m.records, g.Fresh 16

/-- The report with its records padded and their number. -/
def padded (m : Mldv2Report) : Mldv2Report := ⟨m.records.length, m.records.map .padded⟩

/-- What a report is on the wire. -/
def wire (m : Mldv2Report) : List UInt8 := packStr.bytes m.values ++ recordsWire 16 m.records

/-- Serialized, the report is read back from between anything, and it has its length. -/
def ReadBack (m : Mldv2Report) : Prop :=
  ∃ buf m', m.serialize = (.ok buf, m') ∧ m'.len = buf.length ∧
    ∀ a r, parse (a ++ (buf ++ r)) a.length = .ok m.padded

/-- What is left of the report when it is serialized. -/
def kept (m : Mldv2Report) : Mldv2Report := ⟨keptNum m.recordNum m.records, m.records.map .filled⟩

variable {m m' : Mldv2Report} {buf : List UInt8}

theorem fits_iff : packStr.Fits m.values ↔ m.recordNum < 2 ^ 16 := by
  simp [packStr, values, Format.Fits]

theorem bytes_eq (m : Mldv2Report) :
    packStr.bytes m.values = List.replicate 2 0 ++ toBytes 2 m.recordNum := by
  simp [packStr, values, Format.bytes]

theorem serialize_kept (h : ∀ g ∈ m.records, g.Valid 16) (hroom : Room m.recordNum m.records) :
    m.serialize = (.ok m.kept.wire, m.kept) := by
  have hheader (hlt : m.recordNum < 2 ^ 16) :
      packStr.pack m.values = .ok (List.replicate 2 0 ++ toBytes 2 m.recordNum) := by
    rw [Format.pack_bytes (fits_iff.2 hlt), bytes_eq]
  rw [serialize, serializeReport_eq h (by simp) hheader hroom, wire, bytes_eq, List.append_assoc]
  rfl

theorem room_of_serialize (h : ∀ g ∈ m.records, g.Valid 16) (hok : m.serialize = (.ok buf, m')) :
    Room m.recordNum m.records := by
  have hheader (hlt : ¬ m.recordNum < 2 ^ 16) : ∃ e, packStr.pack m.values = .error e := by
    rw [← fits_iff, ← Format.isOk_pack_iff] at hlt
    cases hpack : packStr.pack m.values with
    | error e => exact ⟨e, rfl⟩
    | ok b =>
      rw [hpack] at hlt
      exact absurd rfl hlt
  obtain ⟨hbuf, -⟩ := Prod.mk.inj hok
  exact room_of_serializeReport h hheader (Prod.ext hbuf rfl)

theorem length_kept_wire (h : ∀ g ∈ m.records, g.Valid 16) :
    m.kept.len = m.kept.wire.length := by
  have hlen := length_recordsWire h
  rw [len, wire, List.length_append]
  change minLen + recordsLen 16 (m.records.map .filled) =
    _ + (recordsWire 16 (m.records.map .filled)).length
  rw [hlen]
  simp [packStr, values, Format.bytes, minLen, Format.calcsize]

theorem parse_wire (hlt : m.recordNum < 2 ^ 16) (a r : List UInt8) :
    parse (a ++ (m.wire ++ r)) a.length =
      (parseRecords 16 m.recordNum (recordsWire 16 m.records ++ r)).map fun x =>
        { m with records := x.1 } := by
  have hheader : packStr.unpackFrom ((a ++ (m.wire ++ r)).drop a.length) = .ok m.values := by
    rw [List.drop_left, wire, List.append_assoc]
    exact Format.unpackFrom_bytes (fits_iff.2 hlt) trivial _
  have hdrop : (a ++ (m.wire ++ r)).drop (a.length + minLen) = recordsWire 16 m.records ++ r := by
    rw [List.drop_length_add_append, wire, List.append_assoc]
    exact List.drop_left' (by simp [packStr, values, Format.bytes, minLen, Format.calcsize])
  rw [parse, hheader]
  change (parseRecords 16 m.recordNum ((a ++ (m.wire ++ r)).drop (a.length + minLen)) >>= _) = _
  rw [hdrop]
  cases parseRecords 16 m.recordNum (recordsWire 16 m.records ++ r) <;> rfl

/-- Serialized between anything, the report is read back exactly if its numbers are right. -/
theorem parse_kept_iff (h : ∀ g ∈ m.records, g.Valid 16) (hroom : Room m.recordNum m.records)
    (a r : List UInt8) : parse (a ++ (m.kept.wire ++ r)) a.length = .ok m.padded ↔
      keptNum m.recordNum m.records = m.records.length ∧
        ∀ g ∈ m.records, g.num = 0 ∨ g.num = g.srcs.length := by
  have hread (c : List UInt8) : parseRecords 16 (keptNum m.recordNum m.records)
      (recordsWire 16 (m.records.map .filled) ++ r) = .ok (m.records.map .padded, c) ↔ _ :=
    parseRecords_iff (by decide) h hroom.1
  rw [parse_wire hroom.2]
  change (parseRecords 16 (keptNum m.recordNum m.records)
    (recordsWire 16 (m.records.map .filled) ++ r)).map _ = _ ↔ _
  constructor
  · intro hparse
    obtain ⟨⟨records, c⟩, hrecords, heq⟩ := map_eq_ok.1 hparse
    obtain rfl : records = m.records.map .padded := congrArg Mldv2Report.records heq
    obtain ⟨hnum, hrec, -⟩ := (hread c).mp hrecords
    exact ⟨hnum, hrec⟩
  · rintro ⟨hnum, hrec⟩
    rw [(hread r).mpr ⟨hnum, hrec, rfl⟩]
    exact congrArg (fun n => Except.ok (Mldv2Report.mk n (m.records.map .padded))) hnum

/-- Serialized, a report is read back exactly if its numbers are right. -/
theorem readBack_iff_counted (h : ∀ g ∈ m.records, g.Valid 16) :
    m.ReadBack ↔ Counted m.recordNum m.records := by
  rw [counted_iff]
  constructor
  · rintro ⟨buf, m', hserialize, -, hparse⟩
    have hroom := room_of_serialize h hserialize
    rw [serialize_kept h hroom] at hserialize
    obtain ⟨hbuf, rfl⟩ := Prod.mk.inj hserialize
    obtain rfl := Except.ok.inj hbuf
    exact ⟨hroom, (parse_kept_iff h hroom [] []).mp (hparse [] [])⟩
  · rintro ⟨hroom, hright⟩
    exact ⟨m.kept.wire, m.kept, serialize_kept h hroom, length_kept_wire h,
      fun a r => (parse_kept_iff h hroom a r).mpr hright⟩

/-- One event. -/
def step (m : Mldv2Report) : Event → Mldv2Report
  | .serialize => m.serialize.2
  | e => { m with records := e.put m.records }

/-- Where it is serialized, the report is read back. -/
def Right (m : Mldv2Report) (e : Event) : Prop := e = .serialize → m.ReadBack

/-- Where it is serialized, the numbers of the report are right. -/
def Meets (m : Mldv2Report) (e : Event) : Prop := e = .serialize → Counted m.recordNum m.records

theorem valid_step {e : Event} (h : ∀ g ∈ m.records, g.Valid 16) (he : e.Fresh 16) :
    ∀ g ∈ (m.step e).records, g.Valid 16 := by
  cases e with
  | record k g => exact Event.valid_put h he
  | source i k src => exact Event.valid_put h he
  | serialize => exact valid_serializeReport h

/-- A report is read back whenever it is serialized exactly if its numbers are right each time. -/
theorem everyStep_iff (h : m.Fresh) {es : List Event} (hes : ∀ e ∈ es, e.Fresh 16) :
    EveryStep step Right m es ↔ EveryStep step Meets m es := by
  have hvalid : ∀ g ∈ m.records, g.Valid 16 := fun g hg => (h.2 g hg).1
  have hstep (m : Mldv2Report) (e : Event) (hm : ∀ g ∈ m.records, g.Valid 16) (_ : e.Fresh 16) :
      m.Right e ↔ m.Meets e := imp_congr_right fun _ => readBack_iff_counted hm
  exact everyStep_congr (P := fun m => ∀ g ∈ m.records, g.Valid 16) (Q := Event.Fresh 16) hvalid
    (fun _ _ hm he => valid_step hm he) hstep hes

end Mldv2Report

/-- In every run of additions and serializations, from reports whose numbers are left to be
computed, what is serialized is read back exactly if the condition is met each time. -/
theorem readBack_run_iff (m : Igmpv3Report) (es : List Event) (hm : m.Fresh)
    (hes : ∀ e ∈ es, e.Fresh 4) (m' : Mldv2Report) (es' : List Event) (hm' : m'.Fresh)
    (hes' : ∀ e ∈ es', e.Fresh 16) :
    (EveryStep Igmpv3Report.step Igmpv3Report.Right m es ↔
      EveryStep Igmpv3Report.step Igmpv3Report.Meets m es) ∧
    (EveryStep Mldv2Report.step Mldv2Report.Right m' es' ↔
      EveryStep Mldv2Report.step Mldv2Report.Meets m' es') :=
  ⟨Igmpv3Report.everyStep_iff hm hes, Mldv2Report.everyStep_iff hm' hes'⟩

/-- A record of a group without sources. -/
def emptyGroup (address : List UInt8) : ReportGroup := ⟨4, 0, 0, address, [], none⟩

theorem fresh_emptyGroup (address : List UInt8) : (emptyGroup address).Fresh address.length := by
  refine ⟨⟨?_, rfl, fun _ h => absurd h List.not_mem_nil, fun aux h => ?_, Or.inl rfl⟩, rfl, rfl⟩
  · change 4 < 2 ^ 8
    decide
  · exact absurd h (Option.some_ne_none aux).symm

theorem fresh_one : (⟨34, 0, 0, [emptyGroup [224, 0, 0, 9]]⟩ : Igmpv3Report).Fresh :=
  ⟨by decide, rfl, rfl, List.forall_mem_singleton.mpr (fresh_emptyGroup [224, 0, 0, 9])⟩

theorem fresh_one_mldv2 :
    (⟨0, [emptyGroup (List.replicate 16 255)]⟩ : Mldv2Report).Fresh :=
  ⟨rfl, List.forall_mem_singleton.mpr (fresh_emptyGroup (List.replicate 16 255))⟩

theorem readBack_run_once :
    (EveryStep Igmpv3Report.step Igmpv3Report.Right ⟨34, 0, 0, [emptyGroup [224, 0, 0, 9]]⟩
        [.serialize] ↔
      EveryStep Igmpv3Report.step Igmpv3Report.Meets ⟨34, 0, 0, [emptyGroup [224, 0, 0, 9]]⟩
        [.serialize]) ∧
    (EveryStep Mldv2Report.step Mldv2Report.Right ⟨0, [emptyGroup (List.replicate 16 255)]⟩
        [.serialize] ↔
      EveryStep Mldv2Report.step Mldv2Report.Meets ⟨0, [emptyGroup (List.replicate 16 255)]⟩
        [.serialize]) :=
  readBack_run_iff _ [.serialize] fresh_one (List.forall_mem_singleton.mpr trivial) _
    [.serialize] fresh_one_mldv2 (List.forall_mem_singleton.mpr trivial)

/-- A report is serialized, a record is added to it, and it is serialized again. -/
theorem not_readBack_added : ¬ ∀ (m : Igmpv3Report) (es : List Event), m.Fresh →
    (∀ e ∈ es, e.Fresh 4) → EveryStep Igmpv3Report.step Igmpv3Report.Right m es := by
  intro h
  have hroom : Room 0 [emptyGroup [224, 0, 0, 9]] := by
    refine ⟨List.forall_mem_singleton.mpr ?_, ?_⟩ <;> decide
  have hserialize := Igmpv3Report.serialize_kept fresh_one.valid hroom
  have hes : ∀ e ∈ [Event.serialize, .record 1 (emptyGroup [224, 0, 0, 10]), .serialize],
      e.Fresh 4 := by
    simp only [List.forall_mem_cons]
    exact ⟨trivial, fresh_emptyGroup [224, 0, 0, 10], trivial,
      fun _ h => absurd h List.not_mem_nil⟩
  obtain ⟨-, -, hmeets, -⟩ := (Igmpv3Report.everyStep_iff fresh_one hes).mp (h _ _ fresh_one hes)
  have hcounted := (hmeets rfl).1.1
  simp only [Igmpv3Report.step, hserialize] at hcounted
  obtain hzero | hone := hcounted
  · cases hzero
  · cases hone

end Ryu.Packet
