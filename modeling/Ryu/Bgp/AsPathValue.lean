import Mathlib.Data.List.Dedup
import Mathlib.Data.List.Perm.Subperm
import Ryu.Lib.Codec
import Ryu.Bgp.AsPath

/-! # The value of an AS_PATH

The octets of a path do not say whether its numbers have two octets or four. `parse_value` takes
them for two-octet segments wherever they can be framed as such. A path of two-octet numbers is
always read back; a path of four-octet numbers is, unless its octets can be framed.
-/

namespace Ryu.Bgp

open Bytes

section Model

/-- `as_pack_str`: `!H` or `!I`. -/
inductive AsPackStr
  | twoOctet
  | fourOctet
  deriving DecidableEq, Repr

def AsPackStr.size : AsPackStr → ℕ
  | .twoOctet => 2
  | .fourOctet => 4

/-- The classes that derive from `_BGPPathAttributeAsPathCommon`. -/
inductive AsPathClass
  | asPath
  | as4Path
  deriving DecidableEq, Repr

def asSet : ℕ := 1
def asSequence : ℕ := 2

/-- Unpack `_SEG_HDR_PACK_STR`: the type of a segment and how many numbers follow. -/
def readSegHdr : List UInt8 → Except PyError ((ℕ × ℕ) × List UInt8)
  | type_ :: numAs :: buf => .ok ((type_.toNat, numAs.toNat), buf)
  | _ => .error structError

/-- One round of `_is_valid_16bit_as_path`. It ends early with an exception, or with `False`. -/
def skip16bitSegment (buf : List UInt8) : Except (Option PyError) (Unit × List UInt8) :=
  match readSegHdr buf with
  | .error e => .error (some e)
  | .ok ((type_, numAs), buf) =>
    if type_ ≠ asSet ∧ type_ ≠ asSequence then .error none
    else if buf.length < numAs * 2 then .error none
    else .ok ((), buf.drop (numAs * 2))

/-- Read one segment. -/
def readSegment (w : AsPackStr) (buf : List UInt8) :
    Except PyError (AsPathSegment × List UInt8) :=
  match readSegHdr buf with
  | .error e => .error e
  | .ok ((type_, numAs), buf) =>
    match readTimes (unpackFrom w.size) numAs buf with
    | .error e => .error e
    | .ok (l, buf) =>
      if type_ = asSet then .ok (.set l.dedup, buf)
      else if type_ = asSequence then .ok (.seq l, buf)
      else .error structError

theorem length_of_readSegHdr {b r : List UInt8} {x : ℕ × ℕ} (h : readSegHdr b = .ok (x, r)) :
    b.length = r.length + 2 := by
  match b, h with
  | _ :: _ :: _, h =>
    obtain ⟨-, rfl⟩ := Prod.mk.inj (Except.ok.inj h)
    rfl

def segment16Decoder : Decoder (Option PyError) UInt8 Unit where
  read := skip16bitSegment
  read_lt := by
    intro b r a h
    unfold skip16bitSegment at h
    split at h
    · cases h
    · next hr =>
      have hlen := length_of_readSegHdr hr
      split at h
      · cases h
      split at h
      · cases h
      obtain ⟨-, rfl⟩ := Prod.mk.inj (Except.ok.inj h)
      rw [List.length_drop]
      omega

def segmentDecoder (w : AsPackStr) : Decoder PyError UInt8 AsPathSegment where
  read := readSegment w
  read_lt := by
    intro b r a h
    unfold readSegment at h
    split at h
    · cases h
    · next hr =>
      have hlen := length_of_readSegHdr hr
      split at h
      · cases h
      · next ht =>
        have hle := length_le_of_readTimes
          (fun hu => (length_of_unpackFrom hu).ge.trans' (Nat.le_add_left _ _)) ht
        split at h
        · obtain ⟨-, rfl⟩ := Prod.mk.inj (Except.ok.inj h)
          omega
        split at h
        · obtain ⟨-, rfl⟩ := Prod.mk.inj (Except.ok.inj h)
          omega
        · cases h

/-- `_is_valid_16bit_as_path`, which `BGPPathAttributeAs4Path` overrides. -/
def AsPathClass.isValid16bitAsPath : AsPathClass → List UInt8 → Except PyError Bool
  | .asPath, buf =>
    match segment16Decoder.readAll buf with
    | .ok _ => .ok true
    | .error none => .ok false
    | .error (some e) => .error e
  | .as4Path, _ => .ok false

/-- `parse_value`. -/
def AsPathClass.parseValue (cls : AsPathClass) (buf : List UInt8) :
    Except PyError (List AsPathSegment × AsPackStr) :=
  match cls.isValid16bitAsPath buf with
  | .error e => .error e
  | .ok valid =>
    let asPackStr := if valid then AsPackStr.twoOctet else .fourOctet
    ((segmentDecoder asPackStr).readAll buf).map (·, asPackStr)

def AsPathSegment.type : AsPathSegment → ℕ
  | .set _ => asSet
  | .seq _ => asSequence

/-- `list(e)`; a set is listed in the order of its iteration. -/
def AsPathSegment.toList : AsPathSegment → List ℕ
  | .set s => s
  | .seq l => l

def serializeSegment (w : AsPackStr) (e : AsPathSegment) : Except PyError (List UInt8) :=
  let l := e.toList
  if l.length = 0 then .ok []
  else
    match packInto 1 e.type, packInto 1 l.length, writeAll (packInto w.size) l with
    | .ok type_, .ok numAs, .ok asNumbers => .ok (type_ ++ numAs ++ asNumbers)
    | .error e, _, _ => .error e
    | _, .error e, _ => .error e
    | _, _, .error e => .error e

/-- `serialize_value`. -/
def serializeAsPath (w : AsPackStr) (value : List AsPathSegment) : Except PyError (List UInt8) :=
  writeAll (serializeSegment w) value

end Model

/-- A segment of 1 to 255 numbers of the size of `w`. -/
structure AsPathSegment.Fits (w : AsPackStr) (s : AsPathSegment) : Prop where
  pos : 0 < s.toList.length
  le : s.toList.length ≤ 255
  lt : ∀ n ∈ s.toList, n < 256 ^ w.size

/-- A set has each of its numbers once. -/
def AsPathSegment.Distinct : AsPathSegment → Prop
  | .set s => s.Nodup
  | .seq _ => True

def AsPathSegment.dedup : AsPathSegment → AsPathSegment
  | .set s => .set s.dedup
  | .seq l => .seq l

theorem AsPathSegment.Distinct.dedup {s : AsPathSegment} (h : s.Distinct) : s.dedup = s := by
  cases s with
  | set s => exact congrArg AsPathSegment.set (List.Nodup.dedup h)
  | seq l => rfl

section RoundTrip

variable {w : AsPackStr} {s : AsPathSegment} {p : List AsPathSegment} {b buf r : List UInt8}

/-- The octets of a segment. -/
def segmentBytes (w : AsPackStr) (s : AsPathSegment) : List UInt8 :=
  UInt8.ofNat s.type :: UInt8.ofNat s.toList.length :: s.toList.flatMap (toBytes w.size)

theorem serializeSegment_ok (h : s.Fits w) : serializeSegment w s = .ok (segmentBytes w s) := by
  have htype : packInto 1 s.type = .ok [UInt8.ofNat s.type] := by
    cases s <;> simp [packInto, toBytes, AsPathSegment.type, asSet, asSequence]
  have hnum : packInto 1 s.toList.length = .ok [UInt8.ofNat s.toList.length] := by
    refine packInto_eq_ok.2 ⟨by have := h.le; omega, ?_⟩
    simp [toBytes]
  have hnumbers : writeAll (packInto w.size) s.toList = .ok (s.toList.flatMap (toBytes w.size)) :=
    writeAll_ok fun n hn => packInto_eq_ok.2 ⟨h.lt n hn, rfl⟩
  have hpos : ¬s.toList.length = 0 := h.pos.ne'
  simp only [serializeSegment, if_neg hpos, htype, hnum, hnumbers]
  rfl

theorem readSegHdr_segmentBytes (h : s.Fits w) (r : List UInt8) :
    readSegHdr (segmentBytes w s ++ r) =
      .ok ((s.type, s.toList.length), s.toList.flatMap (toBytes w.size) ++ r) := by
  have htype : (UInt8.ofNat s.type).toNat = s.type := by
    cases s <;> rfl
  have hnum : (UInt8.ofNat s.toList.length).toNat = s.toList.length := by
    rw [UInt8.toNat_ofNat']
    have := h.le
    omega
  simp only [segmentBytes, List.cons_append, readSegHdr, htype, hnum]

/-- A segment is read back with the size it was written with. -/
theorem readSegment_segmentBytes (h : s.Fits w) (r : List UInt8) :
    readSegment w (segmentBytes w s ++ r) = .ok (s.dedup, r) := by
  have hwrite : writeAll (packInto w.size) s.toList = .ok (s.toList.flatMap (toBytes w.size)) :=
    writeAll_ok fun n hn => packInto_eq_ok.2 ⟨h.lt n hn, rfl⟩
  have hnumbers := readTimes_writeAll (fun n _ b hb => unpackFrom_packInto hb) hwrite r
  rw [readSegment, readSegHdr_segmentBytes h]
  simp only [hnumbers]
  cases s with
  | set t => rfl
  | seq l => rfl

theorem length_numbers (w : AsPackStr) (l : List ℕ) :
    (l.flatMap (toBytes w.size)).length = l.length * w.size := by
  simp [List.length_flatMap]

/-- A segment of two-octet numbers is framed. -/
theorem skip16bitSegment_segmentBytes (h : s.Fits .twoOctet) (r : List UInt8) :
    skip16bitSegment (segmentBytes .twoOctet s ++ r) = .ok ((), r) := by
  have hlen := length_numbers .twoOctet s.toList
  have htype : ¬(s.type ≠ asSet ∧ s.type ≠ asSequence) := by
    cases s <;> simp [AsPathSegment.type]
  have hnot : ¬(s.toList.flatMap (toBytes AsPackStr.twoOctet.size) ++ r).length <
      s.toList.length * 2 := by
    rw [List.length_append, hlen, AsPackStr.size]
    omega
  have hdrop : (s.toList.flatMap (toBytes AsPackStr.twoOctet.size) ++ r).drop
      (s.toList.length * 2) = r := List.drop_left' hlen
  rw [skip16bitSegment, readSegHdr_segmentBytes h]
  simp only [if_neg htype, if_neg hnot, hdrop]

theorem serializeAsPath_ok (h : ∀ s ∈ p, s.Fits w) :
    serializeAsPath w p = .ok (p.flatMap (segmentBytes w)) :=
  writeAll_ok fun s hs => serializeSegment_ok (h s hs)

theorem readAll_serialized (h : ∀ s ∈ p, s.Fits w) (hd : ∀ s ∈ p, s.Distinct) :
    (segmentDecoder w).readAll (p.flatMap (segmentBytes w)) = .ok p := by
  have hread : ∀ s ∈ p, ∀ b, serializeSegment w s = .ok b →
      ∀ r, (segmentDecoder w).read (b ++ r) = .ok (id s, r) := by
    intro s hs b hb r
    rw [serializeSegment_ok (h s hs)] at hb
    obtain rfl := Except.ok.inj hb
    have hread := readSegment_segmentBytes (h s hs) r
    rwa [(hd s hs).dedup] at hread
  rw [Decoder.readAll_writeAll hread (serializeAsPath_ok h), List.map_id]

theorem framed_serialized (h : ∀ s ∈ p, s.Fits .twoOctet) :
    AsPathClass.asPath.isValid16bitAsPath (p.flatMap (segmentBytes .twoOctet)) = .ok true := by
  have hread : ∀ s ∈ p, ∀ b, serializeSegment .twoOctet s = .ok b →
      ∀ r, segment16Decoder.read (b ++ r) = .ok ((), r) := by
    intro s hs b hb r
    rw [serializeSegment_ok (h s hs)] at hb
    obtain rfl := Except.ok.inj hb
    exact skip16bitSegment_segmentBytes (h s hs) r
  have hall := Decoder.readAll_writeAll (f := fun _ => ()) hread
    (serializeAsPath_ok h)
  simp only [AsPathClass.isValid16bitAsPath, hall]

end RoundTrip

section Ambiguity

variable {s : AsPathSegment} {p : List AsPathSegment} {l : List ℕ} {i j m : ℕ} {r : List UInt8}

/-- Four-octet numbers as the two-octet numbers that their octets are. -/
def words (l : List ℕ) : List ℕ := l.flatMap fun v => [v / 65536, v % 65536]

theorem words_toBytes (l : List ℕ) :
    (words l).flatMap (toBytes 2) = l.flatMap (toBytes 4) := by
  induction l with
  | nil => rfl
  | cons v l ih =>
    have hv : toBytes 2 (v / 65536) ++ toBytes 2 (v % 65536) = toBytes 4 v := by
      have hhi : v / 65536 / 256 = v / 16777216 := by omega
      have hlo : UInt8.ofNat (v % 65536 / 256) = UInt8.ofNat (v / 256) := by
        apply UInt8.toNat_inj.mp
        simp only [UInt8.toNat_ofNat']
        omega
      have hlast : UInt8.ofNat (v % 65536) = UInt8.ofNat v := by
        apply UInt8.toNat_inj.mp
        simp only [UInt8.toNat_ofNat']
        omega
      simp [toBytes, hhi, hlo, hlast]
    have hw : words (v :: l) = [v / 65536, v % 65536] ++ words l := rfl
    have hb : (v :: l).flatMap (toBytes 4) = toBytes 4 v ++ l.flatMap (toBytes 4) := rfl
    rw [hw, List.flatMap_append, ih, hb, ← hv]
    simp

theorem length_words (l : List ℕ) : (words l).length = 2 * l.length := by
  induction l with
  | nil => rfl
  | cons v l ih =>
    have hw : words (v :: l) = [v / 65536, v % 65536] ++ words l := rfl
    rw [hw, List.length_append, ih, List.length_cons]
    simp
    omega

theorem getElem?_words (l : List ℕ) (j : ℕ) :
    (words l)[2 * j]? = l[j]?.map (· / 65536) ∧
      (words l)[2 * j + 1]? = l[j]?.map (· % 65536) := by
  induction l generalizing j with
  | nil => simp [words]
  | cons v l ih =>
    have hw : words (v :: l) = v / 65536 :: v % 65536 :: words l := rfl
    cases j with
    | zero => simp [hw]
    | succ j =>
      have hj : 2 * (j + 1) = 2 * j + 1 + 1 := by omega
      rw [hw, hj, List.getElem?_cons_succ, List.getElem?_cons_succ, List.getElem?_cons_succ,
        List.getElem?_cons_succ, List.getElem?_cons_succ]
      exact ih j

/-- The first half of the words holds the numbers themselves, as a list or as a set. -/
def HalfReadsBack (l : List ℕ) : Prop :=
  (words l).take l.length = l ∨
    l.Nodup ∧ ∀ n, n ∈ (words l).take l.length ↔ n ∈ l

/-- Then no number is larger than two octets. -/
theorem HalfReadsBack.lt (h : HalfReadsBack l) (hl : ∀ n ∈ l, n < 256 ^ 4) :
    ∀ n ∈ l, n < 65536 := by
  have hsub : ∀ n ∈ l, n ∈ (words l).take l.length := by
    rcases h with h | ⟨-, h⟩
    · intro n hn
      rwa [h]
    · exact fun n hn => (h n).mpr hn
  intro n hn
  obtain ⟨v, hv, hmem⟩ := List.mem_flatMap.mp (List.mem_of_mem_take (hsub n hn))
  have hlt := hl v hv
  rcases List.mem_cons.mp hmem with rfl | hmem
  · omega
  · obtain rfl := List.mem_singleton.mp hmem
    omega

/-- Then the word behind that half is zero. -/
theorem HalfReadsBack.middle (h : HalfReadsBack l) (hl : ∀ n ∈ l, n < 256 ^ 4)
    (hpos : 0 < l.length) : (words l)[l.length]? = some 0 := by
  have hlt := h.lt hl
  have hhi : ∀ {j}, j < l.length → (words l)[2 * j]? = some 0 := by
    intro j hj
    have hv := hlt l[j] (List.getElem_mem hj)
    rw [(getElem?_words l j).1, List.getElem?_eq_getElem hj, Option.map_some,
      Nat.div_eq_of_lt hv]
  have hlo : ∀ {j} (hj : j < l.length), (words l)[2 * j + 1]? = some l[j] := by
    intro j hj
    have hv := hlt l[j] (List.getElem_mem hj)
    rw [(getElem?_words l j).2, List.getElem?_eq_getElem hj, Option.map_some,
      Nat.mod_eq_of_lt hv]
  obtain ⟨m, hm | hm⟩ := Nat.even_or_odd' l.length
  · -- The word is the upper half of a number.
    rw [hm]
    exact hhi (by omega)
  · -- The word is the lower half of the number in the middle, which is zero.
    have hmid : m < l.length := by omega
    rw [hm, hlo hmid]
    congr 1
    rcases h with h | ⟨hnd, h⟩
    · have hzero : ∀ i (hi : i < l.length), l[i] = 0 := by
        intro i
        induction i using Nat.strongRecOn with
        | ind i ih =>
          intro hi
          have hword : (words l)[i]? = some l[i] := by
            rw [← List.getElem?_eq_getElem hi, ← List.getElem?_take_of_lt hi, h]
          obtain ⟨j, rfl | rfl⟩ := Nat.even_or_odd' i
          · rw [hhi (by omega)] at hword
            exact (Option.some.inj hword).symm
          · rw [hlo (by omega), ih j (by omega)] at hword
            exact (Option.some.inj hword).symm
      exact hzero m hmid
    · -- A set has no room for its own numbers beside the zeros.
      have hsub : l ⊆ 0 :: l.take m := by
        intro n hn
        obtain ⟨i, hi, hget⟩ := List.mem_take_iff_getElem.mp ((h n).mpr hn)
        have hword : (words l)[i]? = some n := hget ▸ List.getElem?_eq_getElem (by omega)
        obtain ⟨j, rfl | rfl⟩ := Nat.even_or_odd' i
        · rw [hhi (by omega)] at hword
          obtain rfl := Option.some.inj hword
          exact List.mem_cons_self
        · rw [hlo (by omega)] at hword
          rw [← Option.some.inj hword]
          apply List.mem_cons_of_mem
          exact List.mem_take_iff_getElem.mpr ⟨j, by omega, rfl⟩
      have hle := (List.subperm_of_subset hnd hsub).length_le
      rw [List.length_cons, List.length_take] at hle
      obtain rfl : m = 0 := by omega
      simpa using hsub (List.getElem_mem hmid)

/-- The segment that is read where the numbers of `s` are taken for two-octet ones. -/
def AsPathSegment.half : AsPathSegment → AsPathSegment
  | .set s => .set ((words s).take s.length)
  | .seq l => .seq ((words l).take l.length)

theorem toList_half (s : AsPathSegment) :
    s.half.toList = (words s.toList).take s.toList.length := by
  cases s <;> rfl

theorem length_half (s : AsPathSegment) : s.half.toList.length = s.toList.length := by
  rw [toList_half, List.length_take, length_words]
  omega

theorem fits_half (hs : s.Fits .fourOctet) : s.half.Fits .twoOctet where
  pos := by rw [length_half]; exact hs.pos
  le := by rw [length_half]; exact hs.le
  lt := by
    intro n hn
    rw [toList_half] at hn
    obtain ⟨v, hv, hmem⟩ := List.mem_flatMap.mp (List.mem_of_mem_take hn)
    have hlt := hs.lt v hv
    simp only [AsPackStr.size] at hlt ⊢
    rcases List.mem_cons.mp hmem with rfl | hmem
    · omega
    · obtain rfl := List.mem_singleton.mp hmem
      omega

/-- The octets of a four-octet segment begin with those of a two-octet segment. -/
theorem segmentBytes_half (s : AsPathSegment) :
    segmentBytes .fourOctet s = segmentBytes .twoOctet s.half ++
      ((words s.toList).drop s.toList.length).flatMap (toBytes 2) := by
  have htype : s.half.type = s.type := by
    cases s <;> rfl
  have hbytes : s.toList.flatMap (toBytes AsPackStr.fourOctet.size) =
      (words s.toList).flatMap (toBytes 2) := (words_toBytes s.toList).symm
  have hsplit : (words s.toList).flatMap (toBytes 2) =
      s.half.toList.flatMap (toBytes 2) ++
        ((words s.toList).drop s.toList.length).flatMap (toBytes 2) := by
    rw [toList_half, ← List.flatMap_append, List.take_append_drop]
  rw [segmentBytes, segmentBytes, htype, length_half, hbytes, hsplit]
  rfl

theorem halfReadsBack_of_eq (hd : s.Distinct) (h : segmentEq s.half.dedup s = true) :
    HalfReadsBack s.toList := by
  cases s with
  | set t =>
    right
    obtain ⟨hst, hts⟩ : _ ∧ _ := by
      simpa [segmentEq, AsPathSegment.half, AsPathSegment.dedup] using h
    refine ⟨hd, fun n => ⟨fun hn => hst ?_, fun hn => List.mem_dedup.mp (hts hn)⟩⟩
    exact List.mem_dedup.mpr hn
  | seq l =>
    left
    have heq : (words l).take l.length = l := by
      simpa [segmentEq, AsPathSegment.half, AsPathSegment.dedup] using h
    exact heq

/-- A zero in place of a header is no segment. -/
theorem not_framed_zero {ws : List ℕ} (h : ws[0]? = some 0) :
    segment16Decoder.readAll (ws.flatMap (toBytes 2) ++ r) = .error none := by
  obtain ⟨ws', rfl⟩ : ∃ ws', ws = 0 :: ws' := by
    cases ws with
    | nil => cases h
    | cons w ws => exact ⟨ws, by rw [Option.some.inj h]⟩
  exact Decoder.readAll_error (List.cons_ne_nil _ _) rfl

/-- Where a path of four-octet numbers is framed, its first segment is misread. -/
theorem misread_of_framed (hp : ∀ t ∈ s :: p, t.Fits .fourOctet) (hd : s.Distinct)
    (hv : AsPathClass.asPath.isValid16bitAsPath ((s :: p).flatMap (segmentBytes .fourOctet)) =
      .ok true) {q : List AsPathSegment} {w : AsPackStr}
    (hq : AsPathClass.asPath.parseValue ((s :: p).flatMap (segmentBytes .fourOctet)) =
      .ok (q, w)) : asPathEq q (s :: p) = false := by
  have hs := hp s List.mem_cons_self
  have hsplit : (s :: p).flatMap (segmentBytes .fourOctet) = segmentBytes .twoOctet s.half ++
      (((words s.toList).drop s.toList.length).flatMap (toBytes 2) ++
        p.flatMap (segmentBytes .fourOctet)) := by
    rw [List.flatMap_cons, segmentBytes_half, List.append_assoc]
  have hskip : segment16Decoder.read ((s :: p).flatMap (segmentBytes .fourOctet)) = .ok ((), _) :=
    hsplit ▸ skip16bitSegment_segmentBytes (fits_half hs) _
  have hread : (segmentDecoder .twoOctet).read ((s :: p).flatMap (segmentBytes .fourOctet)) =
      .ok (s.half.dedup, _) := hsplit ▸ readSegment_segmentBytes (fits_half hs) _
  have hnot : ¬HalfReadsBack s.toList := by
    intro hback
    have hzero := hback.middle hs.lt hs.pos
    have hhead : ((words s.toList).drop s.toList.length)[0]? = some 0 := by
      rw [List.getElem?_drop, Nat.add_zero, hzero]
    rw [AsPathClass.isValid16bitAsPath, Decoder.readAll_ok hskip, not_framed_zero hhead] at hv
    cases hv
  rw [AsPathClass.parseValue, hv] at hq
  simp only [if_true, Decoder.readAll_ok hread] at hq
  obtain ⟨q', hq', heq⟩ := map_eq_ok.1 hq
  obtain ⟨rfl, rfl⟩ := Prod.mk.inj heq
  obtain ⟨q'', -, rfl⟩ := map_eq_ok.1 hq'
  rw [Bool.eq_false_iff]
  intro hpq
  simp only [asPathEq, List.zip_cons_cons, List.all_cons, Bool.and_eq_true] at hpq
  exact hnot (halfReadsBack_of_eq hd hpq.2.1)

end Ambiguity

theorem segmentEq_refl (s : AsPathSegment) : segmentEq s s = true := by
  cases s <;> simp [segmentEq]

theorem asPathEq_refl (p : List AsPathSegment) : asPathEq p p = true := by
  induction p with
  | nil => rfl
  | cons s p ih => simpa [asPathEq, segmentEq_refl] using ih

/-- `parse_value` of what `serialize_value` writes gives the same segments. -/
def ReadsBack (w : AsPackStr) (path : List AsPathSegment) : Prop :=
  ∃ buf, serializeAsPath w path = .ok buf ∧
    ∃ q v, AsPathClass.asPath.parseValue buf = .ok (q, v) ∧ asPathEq q path = true

/-- A path of two-octet numbers is read back. One of four-octet numbers is, if and only if its
octets are not those of two-octet segments. -/
theorem asPath_readsBack (path : List AsPathSegment) (hd : ∀ s ∈ path, s.Distinct) :
    ((∀ s ∈ path, s.Fits .twoOctet) → ReadsBack .twoOctet path) ∧
    ((∀ s ∈ path, s.Fits .fourOctet) → (ReadsBack .fourOctet path ↔
      path = [] ∨ ∃ buf, serializeAsPath .fourOctet path = .ok buf ∧
        AsPathClass.asPath.isValid16bitAsPath buf = .ok false)) := by
  constructor
  · intro hp
    refine ⟨_, serializeAsPath_ok hp, path, .twoOctet, ?_, asPathEq_refl path⟩
    rw [AsPathClass.parseValue, framed_serialized hp]
    simp only [if_true, readAll_serialized hp hd]
    rfl
  · intro hp
    have hser := serializeAsPath_ok hp
    constructor
    · rintro ⟨buf, hbuf, q, v, hq, heq⟩
      obtain rfl := Except.ok.inj (hser.symm.trans hbuf)
      cases path with
      | nil => exact .inl rfl
      | cons s p =>
        right
        refine ⟨_, hser, ?_⟩
        cases hv : AsPathClass.asPath.isValid16bitAsPath
            ((s :: p).flatMap (segmentBytes .fourOctet)) with
        | error e =>
          rw [AsPathClass.parseValue, hv] at hq
          cases hq
        | ok valid =>
          cases valid with
          | false => rfl
          | true =>
            rw [misread_of_framed hp (hd s List.mem_cons_self) hv hq] at heq
            cases heq
    · rintro (rfl | ⟨buf, hbuf, hv⟩)
      · exact ⟨[], rfl, [], .twoOctet, rfl, rfl⟩
      · obtain rfl := Except.ok.inj (hser.symm.trans hbuf)
        refine ⟨_, hser, path, .fourOctet, ?_, asPathEq_refl path⟩
        rw [AsPathClass.parseValue, hv]
        simp only [Bool.false_eq_true, if_false, readAll_serialized hp hd]
        rfl

theorem mixedPath_readsBack :
    ReadsBack .twoOctet [.seq [64500, 1], .set [7, 64501]] ∧
      ReadsBack .fourOctet [.seq [64500, 1], .set [7, 64501]] := by
  have hd : ∀ s ∈ [AsPathSegment.seq [64500, 1], .set [7, 64501]], s.Distinct := by
    simp [AsPathSegment.Distinct]
  have hfits : ∀ w, ∀ s ∈ [AsPathSegment.seq [64500, 1], .set [7, 64501]], s.Fits w := by
    intro w s hs
    have hcases : s = .seq [64500, 1] ∨ s = .set [7, 64501] := by simpa using hs
    rcases hcases with rfl | rfl
    · exact ⟨by decide, by decide, by cases w <;> decide⟩
    · exact ⟨by decide, by decide, by cases w <;> decide⟩
  obtain ⟨htwo, hfour⟩ := asPath_readsBack [.seq [64500, 1], .set [7, 64501]] hd
  exact ⟨htwo (hfits _), (hfour (hfits _)).mpr (.inr ⟨_, by rfl, by decide⟩)⟩

/-- The octets of a sequence of 512 alone are a sequence of one zero and an empty sequence. -/
theorem asPath_512_misread :
    (∀ s ∈ [AsPathSegment.seq [512]], s.Fits .fourOctet ∧ s.Distinct) ∧
      ¬ReadsBack .fourOctet [.seq [512]] := by
  constructor
  · intro s hs
    obtain rfl := List.mem_singleton.mp hs
    exact ⟨⟨by decide, by decide, by decide⟩, trivial⟩
  · rintro ⟨buf, hbuf, q, v, hq, heq⟩
    have hser : serializeAsPath .fourOctet [.seq [512]] = .ok [2, 1, 0, 0, 2, 0] := by decide
    obtain rfl := Except.ok.inj (hser.symm.trans hbuf)
    have hparse : AsPathClass.asPath.parseValue [2, 1, 0, 0, 2, 0] =
        .ok ([.seq [0], .seq []], .twoOctet) := by decide
    obtain ⟨rfl, -⟩ := Prod.mk.inj (Except.ok.inj (hparse.symm.trans hq))
    cases heq

end Ryu.Bgp
