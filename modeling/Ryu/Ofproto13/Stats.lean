import Ryu.Ofproto13.Action
import Ryu.Ofproto13.Property

/-! # Entries of a multipart reply

An entry either has the length of its class or that which the switch wrote in it. The latter also
bounds the list inside, if there is one.
-/

namespace Ryu.Ofproto13

open Prog

variable (reg : Registry) (depth : ℕ)

/-! ## Entries -/

def ofpDescPackStr : Format := [.str 256, .str 256, .str 256, .str 32, .str 256]
def ofpTableStatsPackStr : Format := [.num 1, .pad 3, .num 4, .num 8, .num 8]
def ofpPortStatsPackStr : Format :=
  [.num 4, .pad 4, .num 8, .num 8, .num 8, .num 8, .num 8, .num 8, .num 8, .num 8, .num 8, .num 8,
    .num 8, .num 8, .num 4, .num 4]
def ofpQueueStatsPackStr : Format := [.num 4, .num 4, .num 8, .num 8, .num 8, .num 4, .num 4]
def ofpGroupFeaturesPackStr : Format :=
  [.num 4, .num 4, .num 4, .num 4, .num 4, .num 4, .num 4, .num 4, .num 4, .num 4]
def ofpPortPackStr : Format :=
  [.num 4, .pad 4, .str 6, .pad 2, .str 16, .num 4, .num 4, .num 4, .num 4, .num 4, .num 4, .num 4,
    .num 4]

def OFPDescStats.parser := unpackedEntry ofpDescPackStr 1056
def OFPAggregateStats.parser := unpackedEntry [.num 8, .num 8, .num 4, .pad 4] 24
def OFPTableStats.parser := unpackedEntry ofpTableStatsPackStr 24
def OFPPortStats.parser := unpackedEntry ofpPortStatsPackStr 112
def OFPQueueStats.parser := unpackedEntry ofpQueueStatsPackStr 40
def OFPGroupFeaturesStats.parser := unpackedEntry ofpGroupFeaturesPackStr 40
def OFPMeterFeaturesStats.parser := unpackedEntry [.num 4, .num 4, .num 4, .num 1, .num 1, .pad 2] 16
def OFPPort.parser := unpackedEntry ofpPortPackStr 64
def OFPExperimenterMultipart.parser := unpackedEntry [.num 4, .num 4] 16

namespace OFPFlowStats

def ofpFlowStats0PackStr : Format :=
  [.num 2, .num 1, .pad 1, .num 4, .num 4, .num 2, .num 2, .num 2, .num 2, .pad 4, .num 8, .num 8,
    .num 8]

/-- The length, and where the instructions are: their offset and `inst_length`. -/
def head (buf : List UInt8) (offset : ℕ) : Parse (ℕ × ℕ × ℤ) := do
  let (length, _) ← .of (unpackFrom ofpFlowStats0PackStr buf offset)
  let matchLen ← OFPMatch.parser reg buf (offset + 48)
  let matchLength := roundUp matchLen 8
  pure (length, offset + 48 + matchLength, length - (56 - 8 + matchLength : ℤ))

/-- An instruction of unknown type has no `len`. -/
def instruction (buf : List UInt8) (offset : ℕ) : Parse ℕ := do
  match ← OFPInstruction.parser reg depth buf offset with
  | some len => pure len
  | none => throw (.attributeError "len")

def parser (buf : List UInt8) (offset : ℕ) : Parse ℕ := do
  let (length, start) ← head reg buf offset
  let _ ← Cursor.counted.scan (fun s => instruction reg depth buf s.1) start
  pure length

def Advances (buf : List UInt8) (offset : ℕ) : Prop :=
  ∀ length start, head reg buf offset = pure (length, start) → length ≠ 0 ∧
    Cursor.counted.Each (fun s => instruction reg depth buf s.1)
      (fun s => OFPInstruction.Advances reg depth buf s.1) start

end OFPFlowStats

namespace OFPGroupStats

def ofpGroupStatsPackStr : Format :=
  [.num 2, .pad 2, .num 4, .num 4, .pad 4, .num 8, .num 8, .num 4, .num 4]

/-- `OFPBucketCounter.parser`. -/
def bucketCounter := unpackedEntry [.num 8, .num 8] 16

def parser (buf : List UInt8) (offset : ℕ) : Parse ℕ := do
  let (length, _) ← .of (unpackFrom ofpGroupStatsPackStr buf offset)
  let _ ← (Cursor.upTo (length + offset)).scan (fun o => .of (bucketCounter buf o)) (offset + 40)
  pure length

end OFPGroupStats

namespace OFPGroupDescStats

def parser (buf : List UInt8) (offset : ℕ) : Parse ℕ := do
  let (length, _) ← .of (unpackFrom [.num 2, .num 1, .pad 1, .num 4] buf offset)
  let _ ← (Cursor.within length).scan (fun s => OFPBucket.parser reg depth buf s.1) (offset + 8, 8)
  pure length

def Advances (buf : List UInt8) (offset : ℕ) : Prop :=
  ∀ length vals, unpackFrom [.num 2, .num 1, .pad 1, .num 4] buf offset = .ok (length, vals) →
    length ≠ 0 ∧ (Cursor.within length).Each (fun s => OFPBucket.parser reg depth buf s.1)
      (fun s => OFPBucket.Advances reg depth buf s.1) (offset + 8, 8)

end OFPGroupDescStats

namespace OFPMeterStats

def ofpMeterStatsPackStr : Format :=
  [.num 4, .num 2, .pad 6, .num 4, .num 8, .num 8, .num 4, .num 4]

/-- `OFPMeterBandStats.parser`. -/
def bandStats := unpackedEntry [.num 8, .num 8] 16

def parser (buf : List UInt8) (offset : ℕ) : Parse ℕ := do
  let (_, len, _) ← .of (unpackFrom ofpMeterStatsPackStr buf offset)
  let _ ← (Cursor.within len).scan (fun s => .of (bandStats buf s.1)) (offset + 40, 40)
  pure len

end OFPMeterStats

namespace OFPMeterBandHeader

/-- `_METER_BAND`. -/
def types : ℕ → Option Format
  | 1 => some [.num 2, .num 2, .num 4, .num 4, .pad 4]
  | 2 => some [.num 2, .num 2, .num 4, .num 4, .num 1, .pad 3]
  | 0xffff => some [.num 2, .num 2, .num 4, .num 4, .num 4]
  | _ => none

/-- Every class has a length of 16, and the length in the band is asserted to be that. -/
def parser (buf : List UInt8) (offset : ℕ) : Except PyError ℕ := do
  let (type_, len_, _) ← unpackFrom [.num 2, .num 2, .num 4, .num 4] buf offset
  match types type_ with
  | none => .error (.keyError (toString type_))
  | some fmt => if len_ = 16 then unpackedEntry fmt 16 buf offset else .error .assertionError

end OFPMeterBandHeader

def OFPMeterConfigStats.parser (buf : List UInt8) (offset : ℕ) : Parse ℕ := do
  let (length, _) ← .of (unpackFrom [.num 2, .num 2, .num 4] buf offset)
  let _ ← (Cursor.within length).scan (fun s => .of (OFPMeterBandHeader.parser buf s.1))
    (offset + 8, 8)
  pure length

namespace OFPTableFeaturesStats

def ofpTableFeaturesPackStr : Format :=
  [.num 2, .num 1, .pad 5, .str 32, .num 8, .num 8, .num 4, .num 4]

/-- `buf[offset + 64:offset + length]`. -/
def rest (buf : List UInt8) (offset length : ℕ) : List UInt8 :=
  (buf.take (offset + length)).drop (offset + 64)

def parser (buf : List UInt8) (offset : ℕ) : Parse ℕ := do
  let (length, _) ← .of (unpackFrom ofpTableFeaturesPackStr buf offset)
  let _ ← Cursor.rest.scan OFPTableFeatureProp.parse (rest buf offset length)
  pure length

def Advances (buf : List UInt8) (offset : ℕ) : Prop :=
  ∀ length vals, unpackFrom ofpTableFeaturesPackStr buf offset = .ok (length, vals) →
    length ≠ 0 ∧ Cursor.rest.Each OFPTableFeatureProp.parse OFPTableFeatureProp.Advances
      (rest buf offset length)

end OFPTableFeaturesStats

/-! ## Multipart replies -/

namespace OFPMultipartReply

/-- `_STATS_MSG_TYPES`, the parsers of the bodies. -/
def statsMsgTypes : ℕ → Option (List UInt8 → ℕ → Parse ℕ)
  | 0 => some fun buf offset => .of (OFPDescStats.parser buf offset)
  | 1 => some (OFPFlowStats.parser reg depth)
  | 2 => some fun buf offset => .of (OFPAggregateStats.parser buf offset)
  | 3 => some fun buf offset => .of (OFPTableStats.parser buf offset)
  | 4 => some fun buf offset => .of (OFPPortStats.parser buf offset)
  | 5 => some fun buf offset => .of (OFPQueueStats.parser buf offset)
  | 6 => some OFPGroupStats.parser
  | 7 => some (OFPGroupDescStats.parser reg depth)
  | 8 => some fun buf offset => .of (OFPGroupFeaturesStats.parser buf offset)
  | 9 => some OFPMeterStats.parser
  | 10 => some OFPMeterConfigStats.parser
  | 11 => some fun buf offset => .of (OFPMeterFeaturesStats.parser buf offset)
  | 12 => some OFPTableFeaturesStats.parser
  | 13 => some fun buf offset => .of (OFPPort.parser buf offset)
  | 0xffff => some fun buf offset => .of (OFPExperimenterMultipart.parser buf offset)
  | _ => none

/-- `cls_body_single_struct`. -/
def bodySingleStruct : List ℕ := [0, 2, 8, 0xffff]

/-- A single body is the first of the list, which is empty if the message has no body. -/
def parser (buf : List UInt8) (msgLen : ℕ) : Parse Unit := do
  let (type_, _, _) ← .of (unpackFrom [.num 2, .num 2, .pad 4] buf 8)
  match statsMsgTypes reg depth type_ with
  | none => throw (.attributeError "parser")
  | some body => do
    let _ ← (Cursor.upTo msgLen).scan (body buf) 16
    if type_ ∈ bodySingleStruct ∧ msgLen ≤ 16 then throw (.other "IndexError") else pure ()

/-- The length the switch wrote in an entry that holds nothing by which a scan could be held. -/
def LengthAdvances (fmt : Format) (length : fmt.Values → ℕ) (buf : List UInt8) (offset : ℕ) :
    Prop :=
  ∀ vals, unpackFrom fmt buf offset = .ok vals → length vals ≠ 0

/-- The entry of a body is left, and so are the entries inside. -/
def BodyAdvances : ℕ → List UInt8 → ℕ → Prop
  | 1 => OFPFlowStats.Advances reg depth
  | 6 => LengthAdvances OFPGroupStats.ofpGroupStatsPackStr Prod.fst
  | 7 => OFPGroupDescStats.Advances reg depth
  | 9 => LengthAdvances OFPMeterStats.ofpMeterStatsPackStr (fun vals => vals.2.1)
  | 10 => LengthAdvances [.num 2, .num 2, .num 4] Prod.fst
  | 12 => OFPTableFeaturesStats.Advances
  | _ => fun _ _ => True

def Advances (buf : List UInt8) (msgLen : ℕ) : Prop :=
  ∀ type_ flags, unpackFrom [.num 2, .num 2, .pad 4] buf 8 = .ok (type_, flags, ()) →
    ∀ body, statsMsgTypes reg depth type_ = some body →
      (Cursor.upTo msgLen).Each (body buf) (BodyAdvances reg depth type_ buf) 16

end OFPMultipartReply

/-! ## When the entries are left -/

section

variable {reg depth} {buf : List UInt8} {offset : ℕ}

/-- An entry that is read, and whose length then bounds a scan. -/
theorem moves_sized_entry_iff (fmt : Format) {σ : Type} (length : fmt.Values → ℕ)
    (c : fmt.Values → Cursor σ) (entry : σ → Parse ℕ) (start : fmt.Values → σ)
    (h : ∀ vals, length vals = 0 → ¬ (c vals).more (start vals)) : (do
      let vals ← of (unpackFrom fmt buf offset)
      let _ ← (c vals).scan entry (start vals)
      pure (length vals) : Parse ℕ).Moves ↔ ∀ vals, unpackFrom fmt buf offset = .ok vals →
        length vals ≠ 0 ∧ (c vals).Each entry (fun s => (entry s).Moves) (start vals) := by
  rw [moves_bind_iff]
  simp only [ends_of, true_and, of_eq_pure]
  refine forall_congr' fun vals => forall_congr' fun _ => ?_
  rw [Cursor.moves_sized_iff (h vals), Cursor.ends_scan_iff]

/-- The same, where nothing inside can hold the scan. -/
theorem moves_length_iff (fmt : Format) {σ : Type} (length : fmt.Values → ℕ)
    (c : fmt.Values → Cursor σ) (entry : σ → Parse ℕ) (start : fmt.Values → σ)
    (h : ∀ vals, length vals = 0 → ¬ (c vals).more (start vals)) (he : ∀ s, (entry s).Moves) : (do
      let vals ← of (unpackFrom fmt buf offset)
      let _ ← (c vals).scan entry (start vals)
      pure (length vals) : Parse ℕ).Moves ↔
        OFPMultipartReply.LengthAdvances fmt length buf offset := by
  rw [moves_sized_entry_iff fmt length c entry start h]
  exact forall_congr' fun vals => forall_congr' fun _ => and_iff_left fun s _ _ => he s

theorem OFPGroupStats.moves_parser_iff : (parser buf offset).Moves ↔
    OFPMultipartReply.LengthAdvances ofpGroupStatsPackStr Prod.fst buf offset := by
  refine moves_length_iff ofpGroupStatsPackStr Prod.fst (fun vals => Cursor.upTo (vals.1 + offset))
    (fun o => of (bucketCounter buf o)) (fun _ => offset + 40) (fun vals h => ?_)
    fun _ => moves_unpackedEntry (by decide)
  have hlim : (vals.1 : ℕ) = 0 := h
  simp [Cursor.upTo, hlim]

theorem OFPMeterStats.moves_parser_iff : (parser buf offset).Moves ↔
    OFPMultipartReply.LengthAdvances ofpMeterStatsPackStr (fun vals => vals.2.1) buf offset := by
  refine moves_length_iff ofpMeterStatsPackStr (fun vals => vals.2.1)
    (fun vals => Cursor.within vals.2.1) (fun s => of (bandStats buf s.1))
    (fun _ => (offset + 40, 40)) (fun vals h => ?_) fun _ => moves_unpackedEntry (by decide)
  have hlim : (vals.2.1 : ℕ) = 0 := h
  simp [Cursor.within, hlim]

theorem OFPMeterBandHeader.parser_ne_zero : parser buf offset ≠ .ok 0 := by
  intro h
  obtain ⟨⟨type_, len_, _⟩, -, h⟩ := bind_eq_ok.1 h
  dsimp only at h
  split at h
  · cases h
  · split at h
    · obtain ⟨_, -, h⟩ := bind_eq_ok.1 h
      cases h
    · cases h

theorem OFPMeterConfigStats.moves_parser_iff : (parser buf offset).Moves ↔
    OFPMultipartReply.LengthAdvances [.num 2, .num 2, .num 4] Prod.fst buf offset := by
  refine moves_length_iff [.num 2, .num 2, .num 4] Prod.fst (fun vals => Cursor.within vals.1)
    (fun s => of (OFPMeterBandHeader.parser buf s.1)) (fun _ => (offset + 8, 8)) (fun vals h => ?_)
    fun _ => moves_of.2 OFPMeterBandHeader.parser_ne_zero
  have hlim : (vals.1 : ℕ) = 0 := h
  simp [Cursor.within, hlim]

theorem OFPGroupDescStats.moves_parser_iff :
    (parser reg depth buf offset).Moves ↔ Advances reg depth buf offset := by
  refine (moves_sized_entry_iff [.num 2, .num 1, .pad 1, .num 4] Prod.fst
    (fun vals => Cursor.within vals.1) (fun s => OFPBucket.parser reg depth buf s.1)
    (fun _ => (offset + 8, 8)) fun vals h => ?_).trans ?_
  · have hlim : (vals.1 : ℕ) = 0 := h
    simp [Cursor.within, hlim]
  · simp only [OFPBucket.moves_parser_iff]
    exact ⟨fun h _ _ hread => h _ hread, fun h vals hread => h vals.1 vals.2 hread⟩

theorem OFPTableFeaturesStats.moves_parser_iff :
    (parser buf offset).Moves ↔ Advances buf offset := by
  refine (moves_sized_entry_iff ofpTableFeaturesPackStr Prod.fst (fun _ => Cursor.rest)
    OFPTableFeatureProp.parse (fun vals => rest buf offset vals.1) fun vals h => ?_).trans ?_
  · have hlim : (vals.1 : ℕ) = 0 := h
    have hnil : rest buf offset 0 = [] := by
      rw [rest, List.drop_eq_nil_iff, List.length_take]
      omega
    simp [Cursor.rest, hlim, hnil]
  · simp only [OFPTableFeatureProp.moves_parse_iff]
    exact ⟨fun h _ _ hread => h _ hread, fun h vals hread => h vals.1 vals.2 hread⟩

theorem OFPFlowStats.moves_instruction_iff :
    (instruction reg depth buf offset).Moves ↔ OFPInstruction.Advances reg depth buf offset := by
  refine (OFPInstruction.moves_bind_parser_iff fun _ => rfl).trans ?_
  exact and_iff_left (Or.inr (moves_throw _))

theorem OFPFlowStats.ends_head : (head reg buf offset).Ends := by
  refine ends_bind_iff.2 ⟨ends_of _, fun _ _ => ?_⟩
  exact ends_bind_iff.2 ⟨OFPMatch.parser_ends _ _, fun _ _ => ends_pure _⟩

/-- A flow without a length has no instructions. -/
theorem OFPFlowStats.head_zero {start : ℕ × ℤ} (h : head reg buf offset = pure (0, start)) :
    ¬ Cursor.counted.more start := by
  obtain ⟨⟨length, _⟩, -, h⟩ := bind_eq_pure.1 h
  obtain ⟨matchLen, -, h⟩ := bind_eq_pure.1 h
  have hpair := pure_inj.1 h
  rw [Prod.mk.injEq] at hpair
  obtain ⟨hlen, rfl⟩ := hpair
  have hzero : (length : ℕ) = 0 := hlen
  simp only [Cursor.counted, hzero, decide_eq_true_eq]
  omega

theorem OFPFlowStats.moves_parser_iff :
    (parser reg depth buf offset).Moves ↔ Advances reg depth buf offset := by
  have hsized : ∀ length start, head reg buf offset = pure (length, start) → ((do
      let _ ← Cursor.counted.scan (fun s => instruction reg depth buf s.1) start
      pure length : Parse ℕ).Moves ↔ length ≠ 0 ∧
        Cursor.counted.Each (fun s => instruction reg depth buf s.1)
          (fun s => OFPInstruction.Advances reg depth buf s.1) start) := by
    intro length start hhead
    rw [Cursor.moves_sized_iff (by rintro rfl; exact head_zero hhead), Cursor.ends_scan_iff]
    simp only [moves_instruction_iff]
  rw [parser, moves_bind_iff, and_iff_right ends_head]
  constructor
  · intro h length start hhead
    exact (hsized length start hhead).mp (h _ hhead)
  · rintro h ⟨length, start⟩ hhead
    exact (hsized length start hhead).mpr (h length start hhead)

namespace OFPMultipartReply

theorem moves_body_iff {type_ : ℕ} {body : List UInt8 → ℕ → Parse ℕ}
    (h : statsMsgTypes reg depth type_ = some body) :
    (body buf offset).Moves ↔ BodyAdvances reg depth type_ buf offset := by
  have hfixed : ∀ fmt len, len ≠ 0 → (Moves (of (unpackedEntry fmt len buf offset)) ↔ True) :=
    fun fmt len hlen => iff_true_intro (moves_unpackedEntry hlen)
  unfold statsMsgTypes at h
  split at h
  case h_2 =>
    obtain rfl := Option.some.inj h
    exact OFPFlowStats.moves_parser_iff
  case h_7 =>
    obtain rfl := Option.some.inj h
    exact OFPGroupStats.moves_parser_iff
  case h_8 =>
    obtain rfl := Option.some.inj h
    exact OFPGroupDescStats.moves_parser_iff
  case h_10 =>
    obtain rfl := Option.some.inj h
    exact OFPMeterStats.moves_parser_iff
  case h_11 =>
    obtain rfl := Option.some.inj h
    exact OFPMeterConfigStats.moves_parser_iff
  case h_13 =>
    obtain rfl := Option.some.inj h
    exact OFPTableFeaturesStats.moves_parser_iff
  case h_16 => cases h
  all_goals
    obtain rfl := Option.some.inj h
    exact hfixed _ _ (by decide)

theorem ends_parser_iff {msgLen : ℕ} :
    (parser reg depth buf msgLen).Ends ↔ Advances reg depth buf msgLen := by
  have hbody : ∀ type_, (match statsMsgTypes reg depth type_ with
      | none => throw (.attributeError "parser")
      | some body => do
        let _ ← (Cursor.upTo msgLen).scan (body buf) 16
        if type_ ∈ bodySingleStruct ∧ msgLen ≤ 16 then throw (.other "IndexError") else pure () :
          Parse Unit).Ends ↔ ∀ body, statsMsgTypes reg depth type_ = some body →
            (Cursor.upTo msgLen).Each (body buf) (BodyAdvances reg depth type_ buf) 16 := by
    intro type_
    cases hbody : statsMsgTypes reg depth type_ with
    | none => simp
    | some body =>
      have hlast : (if type_ ∈ bodySingleStruct ∧ msgLen ≤ 16 then throw (.other "IndexError")
          else pure () : Parse Unit).Ends := by
        split
        · exact ends_throw _
        · exact ends_pure _
      simp only [ends_bind_iff, hlast, implies_true, and_true, Cursor.ends_scan_iff,
        moves_body_iff hbody, Option.some.injEq, forall_eq']
  rw [parser, ends_bind_iff]
  simp only [ends_of, true_and, of_eq_pure]
  constructor
  · intro h type_ flags hread
    exact (hbody type_).mp (h _ hread)
  · rintro h ⟨type_, flags, _⟩ hread
    exact (hbody type_).mpr (h type_ flags hread)

end OFPMultipartReply

end

end Ryu.Ofproto13
