import Ryu.Lib.Counted
import Ryu.Lib.Layout
import Ryu.Lib.Struct

/-! # Group records of membership reports

`igmpv3_report_group` and `mldv2_report_group` differ in the size of their addresses. The number of
sources and the length of the auxiliary data are computed where they are zero, and kept. A record is
read back from what is serialized if its number of sources is the one it has.
-/

namespace Ryu.Packet

open Bytes

/-- A group record, the addresses as `text_to_bin` gives them. -/
structure ReportGroup where
  type : ℕ
  auxLen : ℕ
  num : ℕ
  address : List UInt8
  srcs : List (List UInt8)
  aux : Option (List UInt8)
  deriving DecidableEq, Repr

/-- A number that is zero is computed, packed into the buffer and kept. -/
def fillCount (count n offset : ℕ) (buf : List UInt8) : Except PyError (List UInt8) × ℕ :=
  if count = 0 then ((packInto 2 n).map (packAt buf offset), n) else (.ok buf, count)

theorem fillCount_ok {count n offset : ℕ} {a c : List UInt8} (ha : a.length = offset)
    (hn : (if count = 0 then n else count) < 2 ^ 16) :
    fillCount count n offset (a ++ (toBytes 2 count ++ c)) =
      (.ok (a ++ (toBytes 2 (if count = 0 then n else count) ++ c)),
        if count = 0 then n else count) := by
  rw [fillCount]
  split
  · next hzero =>
    rw [if_pos hzero] at hn
    rw [packInto_eq_ok.2 ⟨hn, rfl⟩]
    exact congrArg (fun b => (Except.ok b, n)) (packAt_replace ha (by simp))
  · rfl

theorem fillCount_error {count n : ℕ} (hzero : count = 0) (hn : ¬ n < 2 ^ 16) (offset : ℕ)
    (buf : List UInt8) : fillCount count n offset buf = (.error structError, n) := by
  have hpack : packInto 2 n = .error structError := if_neg hn
  rw [fillCount, if_pos hzero, hpack]
  rfl

namespace ReportGroup

variable (size : ℕ)

def packStr : Format := [.num 1, .num 1, .num 2, .str size]

def minLen : ℕ := (packStr size).calcsize

/-- `__len__`. -/
def len (g : ReportGroup) : ℕ := minLen size + g.srcs.length * size + g.auxLen * 4

def values (g : ReportGroup) : (packStr size).Values := (g.type, g.auxLen, g.num, g.address, ())

/-- One source. -/
def readSrc (buf : List UInt8) : Except PyError (List UInt8 × List UInt8) :=
  if buf.length < size then .error .assertionError
  else .ok (buf.take size, buf.drop size)

/-- `parser`. -/
def parse (buf : List UInt8) : Except PyError ReportGroup := do
  let (type, auxLen, num, address, ()) ← (packStr size).unpackFrom buf
  let (srcs, buf) ← readCounted .assertionError (readSrc size) num (buf.drop (minLen size))
  if auxLen ≠ 0 then
    let (aux, ()) ← Format.unpackFrom [.str (auxLen * 4)] buf
    return ⟨type, auxLen, num, address, srcs, some aux⟩
  else return ⟨type, auxLen, num, address, srcs, none⟩

/-- Zeros behind, up to a word. -/
def words (aux : List UInt8) : List UInt8 := aux ++ List.replicate ((4 - aux.length % 4) % 4) 0

/-- The auxiliary data behind the sources, with its length where that is computed. -/
def serializeAux (g : ReportGroup) (buf : List UInt8) :
    Except PyError (List UInt8) × ReportGroup :=
  match g.aux with
  | none => (.ok buf, g)
  | some aux =>
    let g := { g with aux := some (words aux) }
    let buf := buf ++ words aux
    if g.auxLen = 0 then
      let auxLen := (words aux).length / 4
      ((packInto 1 auxLen).map (packAt buf 1), { g with auxLen := auxLen })
    else (.ok buf, g)

/-- `serialize`, with what is left of the record. -/
def serialize (g : ReportGroup) : Except PyError (List UInt8) × ReportGroup :=
  match (packStr size).pack (g.values size) with
  | .error e => (.error e, g)
  | .ok buf =>
    let buf := buf ++ g.srcs.flatMap fun src => padRight (src.take size) size
    match fillCount g.num g.srcs.length 2 buf with
    | (.error e, num) => (.error e, { g with num := num })
    | (.ok buf, num) => { g with num := num }.serializeAux buf

/-- Everything but the numbers fits, and the auxiliary data is absent or of 1 to 1020 bytes. Its
length is not computed yet or right. -/
structure Valid (g : ReportGroup) : Prop where
  type : g.type < 2 ^ 8
  address : g.address.length = size
  srcs : ∀ src ∈ g.srcs, src.length = size
  aux : ∀ aux, g.aux = some aux → 1 ≤ aux.length ∧ aux.length ≤ 1020
  auxLen : g.auxLen = 0 ∨ g.auxLen * 4 = (g.aux.getD []).length

/-- The numbers are left to be computed. -/
def Fresh (g : ReportGroup) : Prop := g.Valid size ∧ g.auxLen = 0 ∧ g.num = 0

/-- The number of sources is to be computed or the one there is, and there is room for it. -/
def Counted (g : ReportGroup) : Prop :=
  (g.num = 0 ∨ g.num = g.srcs.length) ∧ g.srcs.length < 2 ^ 16

instance : DecidablePred Counted := fun _ => inferInstanceAs (Decidable (_ ∧ _))

/-- The record with its auxiliary data padded and the numbers there are. -/
def padded (g : ReportGroup) : ReportGroup :=
  { g with
    num := g.srcs.length
    aux := g.aux.map words
    auxLen := ((g.aux.map words).getD []).length / 4 }

/-- What is left of the record when it is serialized: a number of sources that is not zero stays. -/
def filled (g : ReportGroup) : ReportGroup :=
  { g with
    num := if g.num = 0 then g.srcs.length else g.num
    aux := g.aux.map words
    auxLen := ((g.aux.map words).getD []).length / 4 }

/-- What a record is on the wire. -/
def wire (g : ReportGroup) : List UInt8 :=
  (packStr size).bytes (g.values size) ++ (g.srcs.flatten ++ g.aux.getD [])

variable {size} {g g' : ReportGroup} {buf r : List UInt8}

/-! ## What is serialized -/

theorem length_words (aux : List UInt8) : (words aux).length = (aux.length + 3) / 4 * 4 := by
  rw [words, List.length_append, List.length_replicate]
  omega

theorem words_eq_self {aux : List UInt8} (h : aux.length % 4 = 0) : words aux = aux := by
  rw [words, h]
  exact List.append_nil aux

@[simp] theorem words_words (aux : List UInt8) : words (words aux) = words aux :=
  words_eq_self (by rw [length_words]; omega)

/-- The number of sources is left right if it was to be computed or the one there is. -/
theorem filled_num_eq_iff : g.filled.num = g.srcs.length ↔ g.num = 0 ∨ g.num = g.srcs.length := by
  simp only [filled]
  split <;> simp [*]

theorem filled_eq_padded (h : g.num = 0 ∨ g.num = g.srcs.length) : g.filled = g.padded := by
  have hnum := filled_num_eq_iff.2 h
  rw [filled] at hnum ⊢
  dsimp only at hnum
  rw [hnum]
  rfl

@[simp] theorem length_bytes (g : ReportGroup) :
    ((packStr size).bytes (g.values size)).length = minLen size := by
  simp [packStr, values, minLen, Format.bytes, Format.calcsize, Format.length_padRight_take]

theorem length_flatten {l : List (List UInt8)} (h : ∀ b ∈ l, b.length = size) :
    l.flatten.length = l.length * size := by
  induction l with
  | nil => simp
  | cons b l ih =>
    obtain ⟨hb, hl⟩ := List.forall_mem_cons.mp h
    rw [List.flatten_cons, List.length_append, hb, ih hl, List.length_cons]
    ring

theorem flatMap_srcs (h : g.Valid size) :
    (g.srcs.flatMap fun src => padRight (src.take size) size) = g.srcs.flatten := by
  have hmap : g.srcs.map (fun src => padRight (src.take size) size) = g.srcs := by
    refine (List.map_congr_left fun src hsrc => ?_).trans (List.map_id g.srcs)
    have hlen := h.srcs src hsrc
    rw [List.take_of_length_le hlen.le, padRight_of_le hlen.ge]
    rfl
  rw [List.flatMap_def, hmap]

theorem filled_auxLen (g : ReportGroup) :
    g.filled.auxLen * 4 = (g.filled.aux.getD []).length := by
  cases haux : g.aux with
  | none => simp [filled, haux]
  | some aux =>
    simp only [filled, haux, Option.map_some, Option.getD_some, length_words]
    omega

theorem Valid.filled_auxLen_lt (h : g.Valid size) : g.filled.auxLen < 2 ^ 8 := by
  cases haux : g.aux with
  | none => simp [filled, haux]
  | some aux =>
    have hle := (h.aux aux haux).2
    simp only [filled, haux, Option.map_some, Option.getD_some, length_words]
    omega

theorem Valid.filled (h : g.Valid size) : g.filled.Valid size where
  type := h.type
  address := h.address
  srcs := h.srcs
  aux aux' haux' := by
    obtain ⟨aux, haux, rfl⟩ := Option.map_eq_some_iff.mp haux'
    have hlen := h.aux aux haux
    rw [length_words]
    omega
  auxLen := Or.inr (filled_auxLen g)

theorem Valid.setNum (h : g.Valid size) (num : ℕ) : { g with num := num }.Valid size :=
  ⟨h.type, h.address, h.srcs, h.aux, h.auxLen⟩

/-- A length that is not zero is right, so that nothing is padded. -/
theorem Valid.filled_eq_of_auxLen (h : g.Valid size) (hlen : g.auxLen ≠ 0) :
    g.filled.aux = g.aux ∧ g.filled.auxLen = g.auxLen := by
  have hlen := h.auxLen.resolve_left hlen
  cases haux : g.aux with
  | none =>
    rw [haux, Option.getD_none, List.length_nil] at hlen
    simp only [ReportGroup.filled, haux]
    exact ⟨rfl, by simp; omega⟩
  | some aux =>
    rw [haux, Option.getD_some] at hlen
    have hwords : words aux = aux := words_eq_self (by omega)
    simp only [ReportGroup.filled, haux, Option.map_some, Option.getD_some, hwords]
    exact ⟨trivial, by omega⟩

theorem bytes_num (g : ReportGroup) (num : ℕ) (body : List UInt8) :
    (packStr size).bytes ({ g with num := num }.values size) ++ body =
      (toBytes 1 g.type ++ toBytes 1 g.auxLen) ++
        (toBytes 2 num ++ (padRight (g.address.take size) size ++ body)) := by
  simp [packStr, values, Format.bytes]

theorem packAt_auxLen (g : ReportGroup) (auxLen : ℕ) (body : List UInt8) :
    packAt ((packStr size).bytes (g.values size) ++ body) 1 (toBytes 1 auxLen) =
      (packStr size).bytes ({ g with auxLen := auxLen }.values size) ++ body := by
  have hsplit (n : ℕ) : (packStr size).bytes ({ g with auxLen := n }.values size) ++ body =
      toBytes 1 g.type ++
        (toBytes 1 n ++ (toBytes 2 g.num ++ (padRight (g.address.take size) size ++ body))) := by
    simp [packStr, values, Format.bytes]
  have hold : (packStr size).bytes (g.values size) ++ body = _ := hsplit g.auxLen
  rw [hold, hsplit]
  exact packAt_replace (by simp) (by simp)

theorem Valid.auxLen_lt (h : g.Valid size) : g.auxLen < 2 ^ 8 := by
  obtain hzero | hlen := h.auxLen
  · omega
  · cases haux : g.aux with
    | none =>
      rw [haux, Option.getD_none, List.length_nil] at hlen
      omega
    | some aux =>
      have hle := (h.aux aux haux).2
      rw [haux, Option.getD_some] at hlen
      omega

theorem Valid.fits_iff (h : g.Valid size) :
    (packStr size).Fits (g.values size) ↔ g.num < 2 ^ 16 := by
  have htype := h.type
  have hlen := h.auxLen_lt
  simp only [packStr, values, Format.Fits, and_true]
  omega

theorem Valid.exact (h : g.Valid size) : (packStr size).Exact (g.values size) :=
  ⟨h.address, trivial⟩

/-- The auxiliary data is padded, and its length is right behind it. -/
theorem serializeAux_eq (h : g.Valid size) (body : List UInt8) :
    g.serializeAux ((packStr size).bytes (g.values size) ++ body) =
      (.ok ((packStr size).bytes ({ g with auxLen := g.filled.auxLen }.values size) ++
          (body ++ g.filled.aux.getD [])),
        { g with aux := g.filled.aux, auxLen := g.filled.auxLen }) := by
  obtain ⟨type, auxLen, num, address, srcs, aux⟩ := g
  cases aux with
  | none =>
    obtain rfl : auxLen = 0 := by
      have hlen : auxLen = 0 ∨ auxLen * 4 = 0 := h.auxLen
      omega
    simp [serializeAux, filled, values]
  | some aux =>
    by_cases hzero : auxLen = 0
    · have hpack : packInto 1 ((words aux).length / 4) = .ok (toBytes 1 ((words aux).length / 4)) :=
        packInto_eq_ok.2 ⟨h.filled_auxLen_lt, rfl⟩
      simp only [serializeAux, if_pos hzero, hpack, List.append_assoc]
      exact congrArg (fun b => (Except.ok b, _)) (packAt_auxLen _ _ _)
    · obtain ⟨haux, hlen⟩ := h.filled_eq_of_auxLen hzero
      simp only [serializeAux, if_neg hzero, haux, hlen, List.append_assoc]
      have hwords : words aux = aux := Option.some.inj haux
      rw [hwords]
      rfl

/-- A record is serialized if its number of sources has room, and is then filled. -/
theorem serialize_eq (h : g.Valid size) (hnum : g.filled.num < 2 ^ 16) :
    g.serialize size = (.ok (g.filled.wire size), g.filled) := by
  have hfits : (packStr size).Fits (g.values size) := by
    rw [h.fits_iff]
    simp only [filled] at hnum
    split at hnum <;> omega
  have hcount : fillCount g.num g.srcs.length 2
      ((packStr size).bytes (g.values size) ++ g.srcs.flatten) =
        (.ok ((packStr size).bytes ({ g with num := g.filled.num }.values size) ++
          g.srcs.flatten), g.filled.num) := by
    have hold : (packStr size).bytes (g.values size) ++ g.srcs.flatten = _ := bytes_num g g.num _
    rw [hold, bytes_num]
    exact fillCount_ok (by simp) hnum
  rw [serialize, Format.pack_bytes hfits]
  simp only [flatMap_srcs h, hcount]
  exact serializeAux_eq (h.setNum _) _

/-- Where it has no room nothing is left of the record but its number of sources. -/
theorem serialize_error (h : g.Valid size) (hnum : ¬ g.filled.num < 2 ^ 16) :
    ∃ e num, g.serialize size = (.error e, { g with num := num }) := by
  by_cases hzero : g.num = 0
  · have hfits : (packStr size).Fits (g.values size) := by
      rw [h.fits_iff]
      omega
    have hsrcs : ¬ g.srcs.length < 2 ^ 16 := by
      simpa only [filled, if_pos hzero] using hnum
    rw [serialize, Format.pack_bytes hfits]
    simp only [fillCount_error hzero hsrcs]
    exact ⟨_, _, rfl⟩
  · have hself : g.filled.num = g.num := if_neg hzero
    rw [hself, ← h.fits_iff, ← Format.isOk_pack_iff] at hnum
    rw [serialize]
    cases hpack : (packStr size).pack (g.values size) with
    | error e => exact ⟨e, g.num, rfl⟩
    | ok b =>
      rw [hpack] at hnum
      exact absurd rfl hnum

/-! ## What is read back -/

theorem readSrc_append {src : List UInt8} (h : src.length = size) (r : List UInt8) :
    readSrc size (src ++ r) = .ok (src, r) := by
  rw [readSrc, if_neg, List.take_left' h, List.drop_left' h]
  rw [List.length_append]
  omega

theorem readSrc_nil (hsize : 0 < size) (x : List UInt8 × List UInt8) :
    readSrc size [] ≠ .ok x := by
  have hlt : ([] : List UInt8).length < size := hsize
  rw [readSrc, if_pos hlt]
  simp

theorem readSrcs_iff (hsize : 0 < size) {num : ℕ} {srcs : List (List UInt8)} :
    readCounted .assertionError (readSrc size) num buf = .ok (srcs, r) ↔
      readTimes (readSrc size) num buf = .ok (srcs, r) :=
  readCounted_eq_ok_iff (readSrc_nil hsize)

theorem wire_header (h : g.Valid size) (hlt : g.num < 2 ^ 16) (r : List UInt8) :
    (packStr size).unpackFrom (g.wire size ++ r) = .ok (g.values size) := by
  rw [wire, List.append_assoc]
  exact Format.unpackFrom_bytes (h.fits_iff.mpr hlt) h.exact _

/-- What is read has the number of sources that the record says. -/
theorem num_of_parse (h : g.Valid size) (hlt : g.num < 2 ^ 16)
    (hg : parse size (g.wire size ++ r) = .ok g') : g'.num = g.num := by
  obtain ⟨vals, hheader, hg⟩ := bind_eq_ok.1 hg
  obtain rfl : g.values size = vals := Except.ok.inj ((wire_header h hlt r).symm.trans hheader)
  obtain ⟨⟨srcs, rest⟩, -, hg⟩ := bind_eq_ok.1 hg
  dsimp only [values] at hg
  split at hg
  · obtain ⟨⟨aux, _⟩, -, hg⟩ := bind_eq_ok.1 hg
    obtain rfl := Except.ok.inj hg
    rfl
  · obtain rfl := Except.ok.inj hg
    rfl

/-- A record whose numbers are right is read back. -/
theorem parse_wire (hsize : 0 < size) (h : g.Valid size)
    (hlen : g.auxLen * 4 = (g.aux.getD []).length) (hnum : g.num = g.srcs.length)
    (hlt : g.num < 2 ^ 16) (r : List UInt8) : parse size (g.wire size ++ r) = .ok g := by
  have hdrop : (g.wire size ++ r).drop (minLen size) =
      g.srcs.flatMap id ++ (g.aux.getD [] ++ r) := by
    rw [wire, List.append_assoc, List.drop_left' (length_bytes g), List.append_assoc,
      List.flatMap_id]
  have hsrcs : readCounted .assertionError (readSrc size) g.num
      ((g.wire size ++ r).drop (minLen size)) = .ok (g.srcs, g.aux.getD [] ++ r) := by
    rw [readSrcs_iff hsize, hdrop, hnum]
    have hread := (readTimes_flatMap_iff (r := g.aux.getD [] ++ r) (w := id) (f := id)
      (P := fun _ => True) (l := g.srcs)
      (fun src hsrc _ r => readSrc_append (h.srcs src hsrc) r) fun _ _ _ _ _ => trivial).mpr
        ⟨rfl, fun _ _ => trivial, rfl⟩
    rwa [List.map_id] at hread
  have hheader := wire_header h hlt r
  obtain ⟨type, auxLen, num, address, srcs, aux⟩ := g
  rw [parse, hheader]
  simp only [bind, Except.bind, values, hsrcs]
  cases aux with
  | none =>
    obtain rfl : auxLen = 0 := by
      have hzero : auxLen * 4 = 0 := hlen
      omega
    rfl
  | some aux =>
    have hpos := (h.aux aux rfl).1
    have hfield : auxLen * 4 = aux.length := hlen
    have hne : auxLen ≠ 0 := by omega
    have haux : Format.unpackFrom [.str (auxLen * 4)] (aux ++ r) = .ok (aux, ()) := by
      rw [hfield]
      exact Format.unpackFrom_str r
    rw [if_pos hne, Option.getD_some, haux]
    rfl

theorem length_wire (h : g.Valid size) (hlen : g.auxLen * 4 = (g.aux.getD []).length) :
    (g.wire size).length = g.len size := by
  have hsum : g.srcs.flatten.length = g.srcs.length * size := length_flatten h.srcs
  rw [wire, List.length_append, List.length_append, length_bytes, hsum, len, hlen, Nat.add_assoc]

end ReportGroup

end Ryu.Packet
