import Ryu.Actions.Serialize

/-! # What an action writes

The octets of an action begin with its header, and its length is that of its octets, rounded up
to a multiple of eight. An action whose octets are such a multiple fills its length. The others
leave a gap behind them, which is filled when something is packed there.
-/

namespace Ryu.Actions

open Bytes
open Ofproto13 (Ofp roundUp ofpatSetField ofpatExperimenter nxExperimenterId nxastCt)

theorem le_roundUp (x : ℕ) : x ≤ roundUp x 8 := by
  unfold roundUp
  omega

theorem roundUp_lt (x : ℕ) : roundUp x 8 < x + 8 := by
  unfold roundUp
  omega

theorem dvd_roundUp (x : ℕ) : 8 ∣ roundUp x 8 := by
  unfold roundUp
  omega

theorem roundUp_eq_self {x : ℕ} : roundUp x 8 = x ↔ 8 ∣ x := by
  unfold roundUp
  omega

theorem roundUp_add {x y : ℕ} (h : 8 ∣ x) : roundUp (x + y) 8 = x + roundUp y 8 := by
  unfold roundUp
  omega

section Written

variable (ofp : Ofp)

/-- The item that an action writes into an empty buffer. -/
def OFPAction.Writes (a : OFPAction) (i : Item) : Prop :=
  a.serialize ofp [] 0 = .ok (i.own, i.len)

/-- How long the field is that is set. -/
def setFieldLen (key : String) (value : Value) : ℕ :=
  ((setFieldOxm ofp key value).toOption.map List.length).getD 0

mutual

/-- The length of an action, after it was serialized. -/
def OFPAction.len : OFPAction → ℕ
  | .standard a => a.actionLen
  | .setField key value => roundUp (4 + setFieldLen ofp key value) 8
  | .setFieldOld field => roundUp (8 + field.oxmLen) 8
  | .experimenterUnknown _ data => roundUp (data.getD []).length 8 + 8
  | .nx a => roundUp (10 + a.bodyLen ofp) 8
  | .ct _ _ _ _ _ actions => 24 + lenInside actions

def lenInside : List OFPAction → ℕ
  | [] => 0
  | a :: l => a.len + lenInside l

end

mutual

/-- Each part of an action can be packed by itself, and its length as two octets. A field of the
old interface packs no more than its header says. -/
def OFPAction.Packs : OFPAction → Prop
  | .standard a => a.pack.isOk
  | .setField key value =>
    (setFieldOxm ofp key value).isOk ∧ roundUp (4 + setFieldLen ofp key value) 8 < 256 ^ 2
  | .setFieldOld field =>
    ∃ b, field.serialize [] 0 = .ok b ∧ 4 + b.length ≤ roundUp (8 + field.oxmLen) 8
  | .experimenterUnknown experimenter data =>
    data.isSome ∧ experimenter < 256 ^ 4 ∧ roundUp (data.getD []).length 8 + 8 < 256 ^ 2
  | .nx a => (a.serializeBody ofp).isOk ∧ a.subtype < 256 ^ 2 ∧
      roundUp (10 + a.bodyLen ofp) 8 < 256 ^ 2
  | .ct flags zoneSrc zoneOfsNbits recircTable alg actions =>
    (NXActionCT.head ofp flags zoneSrc zoneOfsNbits recircTable alg).isOk ∧
      PacksInside actions ∧ 24 + lenInside ofp actions < 256 ^ 2

def PacksInside : List OFPAction → Prop
  | [] => True
  | a :: l => a.Packs ∧ PacksInside l

end

mutual

/-- The octets of an action are a multiple of eight. -/
def OFPAction.Fills : OFPAction → Prop
  | .standard _ | .setField .. | .setFieldOld _ => True
  | .experimenterUnknown _ data => 8 ∣ (data.getD []).length
  | .nx a => 8 ∣ 10 + a.bodyLen ofp
  | .ct _ _ _ _ _ actions => LastFills actions

/-- The last action of a list fills its length. -/
def LastFills : List OFPAction → Prop
  | [] => True
  | [a] => a.Fills
  | _ :: a :: l => LastFills (a :: l)

end

mutual

/-- Of the actions inside a `ct`, all but the last one fill their lengths. -/
def OFPAction.Aligned : OFPAction → Prop
  | .ct _ _ _ _ _ actions => AlignedInside actions
  | _ => True

def AlignedInside : List OFPAction → Prop
  | [] => True
  | [a] => a.Aligned
  | a :: b :: l => a.Aligned ∧ a.Fills ofp ∧ AlignedInside (b :: l)

end

end Written

section Lists

variable {ofp : Ofp} {l : List OFPAction}

theorem lenInside_eq (l : List OFPAction) : lenInside ofp l = (l.map (OFPAction.len ofp)).sum := by
  induction l with
  | nil => rfl
  | cons a l ih => rw [lenInside, ih, List.map_cons, List.sum_cons]

theorem packsInside_iff : PacksInside ofp l ↔ ∀ a ∈ l, a.Packs ofp := by
  induction l with
  | nil => simp [PacksInside]
  | cons a l ih => rw [PacksInside, ih, List.forall_mem_cons]

theorem lastFills_iff : LastFills ofp l ↔ ∀ a ∈ l.getLast?, a.Fills ofp := by
  induction l with
  | nil => simp [LastFills]
  | cons a l ih =>
    cases l with
    | nil => simp [LastFills]
    | cons b l => rw [LastFills, ih, List.getLast?_cons_cons]

theorem alignedInside_iff : AlignedInside ofp l ↔
    (∀ a ∈ l, a.Aligned ofp) ∧ ∀ a ∈ l.dropLast, a.Fills ofp := by
  induction l with
  | nil => simp [AlignedInside]
  | cons a l ih =>
    cases l with
    | nil => simp [AlignedInside]
    | cons b l =>
      rw [AlignedInside, ih, List.dropLast_cons_cons]
      constructor
      · rintro ⟨ha, hf, hl, hd⟩
        exact ⟨List.forall_mem_cons.mpr ⟨ha, hl⟩, List.forall_mem_cons.mpr ⟨hf, hd⟩⟩
      · rintro ⟨hl, hd⟩
        obtain ⟨ha, hl⟩ := List.forall_mem_cons.mp hl
        obtain ⟨hf, hd⟩ := List.forall_mem_cons.mp hd
        exact ⟨ha, hf, hl, hd⟩

end Lists

/-! ## Items -/

section Items

variable {ofp : Ofp} {a : OFPAction} {i : Item} {l : List OFPAction} {items : List Item}

/-- The octets of an action begin with its type and its length, of which one is not zero. -/
theorem exists_ne_zero {t n : ℕ} {rest : List UInt8} (hn : 0 < n) (hlt : n < 256 ^ 2) :
    ∃ x ∈ toBytes 2 t ++ (toBytes 2 n ++ rest), x ≠ 0 := by
  by_contra! hall
  have hzero : toBytes 2 n = List.replicate 2 0 := by
    refine List.eq_replicate_iff.mpr ⟨length_toBytes _ _, fun x hx => hall x ?_⟩
    exact List.mem_append_right _ (List.mem_append_left _ hx)
  have hval := ofBytes_toBytes 2 n
  rw [hzero, ofBytes_zeros, Nat.mod_eq_of_lt hlt] at hval
  exact hn.ne hval

/-- What is known of each item: how it begins, and how long it is. -/
structure Framed (i : Item) : Prop where
  begins : ∃ t rest, i.own = toBytes 2 t ++ (toBytes 2 i.len ++ rest)
  len_lt : i.len < 256 ^ 2
  len_eq : i.len = roundUp i.own.length 8

theorem Framed.ne_zero (h : Framed i) : ∃ x ∈ i.own, x ≠ 0 := by
  obtain ⟨t, rest, hown⟩ := h.begins
  have hpos : 0 < i.len := by
    have hle := i.own_le
    rw [hown, List.length_append, length_toBytes] at hle
    omega
  rw [hown]
  exact exists_ne_zero hpos h.len_lt

theorem Framed.full_iff (h : Framed i) : i.Full ↔ 8 ∣ i.own.length := by
  rw [Item.Full, h.len_eq, eq_comm, roundUp_eq_self]

/-- What is packed at the beginning of the octets. -/
theorem pack_header {t n : ℕ} {fmt : Format} {vals : fmt.Values} {b : List UInt8}
    (h : Format.pack (.num 2 :: .num 2 :: fmt) (t, n, vals) = .ok b) :
    n < 256 ^ 2 ∧ ∃ rest, fmt.pack vals = .ok rest ∧ b = toBytes 2 t ++ (toBytes 2 n ++ rest) := by
  rw [Format.pack] at h
  split at h
  · cases h
  · next x hx =>
    obtain ⟨y, hy, rfl⟩ := map_eq_ok.1 h
    obtain ⟨-, rfl⟩ := packInto_eq_ok.1 hx
    rw [Format.pack] at hy
    split at hy
    · cases hy
    · next z hz =>
      obtain ⟨rest, hrest, rfl⟩ := map_eq_ok.1 hy
      obtain ⟨hn, rfl⟩ := packInto_eq_ok.1 hz
      exact ⟨hn, rest, hrest, rfl⟩

theorem header_ok {t n : ℕ} (ht : t < 256 ^ 2) (hn : n < 256 ^ 2) :
    Format.pack [.num 2, .num 2] (t, n, ()) = .ok (toBytes 2 t ++ (toBytes 2 n ++ [])) := by
  simp only [Format.pack, packInto, if_pos ht, if_pos hn]
  rfl

theorem experimenterHeader_ok {n experimenter : ℕ} (hn : n < 256 ^ 2)
    (he : experimenter < 256 ^ 4) : experimenterHeader n experimenter =
      .ok (toBytes 2 ofpatExperimenter ++ (toBytes 2 n ++ toBytes 4 experimenter)) := by
  have ht : ofpatExperimenter < 256 ^ 2 := by decide
  simp only [experimenterHeader, Format.pack, packInto, if_pos ht, if_pos hn, if_pos he]
  rfl

/-! ### Standard actions -/

theorem Standard.length_pack {a : Standard} {b : List UInt8} (h : a.pack = .ok b) :
    b.length = a.actionLen := by
  cases a <;> exact Format.length_pack h

theorem Standard.pack_header {a : Standard} {b : List UInt8} (h : a.pack = .ok b) :
    ∃ t rest, b = toBytes 2 t ++ (toBytes 2 a.actionLen ++ rest) := by
  have hheader : ∀ (fmt : Format) (vals : fmt.Values),
      Format.pack (.num 2 :: .num 2 :: fmt) (a.actionType, a.actionLen, vals) = .ok b →
        ∃ t rest, b = toBytes 2 t ++ (toBytes 2 a.actionLen ++ rest) := by
    intro fmt vals hb
    obtain ⟨-, rest, -, hb⟩ := Actions.pack_header hb
    exact ⟨_, rest, hb⟩
  cases a with
  | decMplsTtl | decNwTtl | copyTtlOut | copyTtlIn | popVlan | popPbb =>
    exact hheader [.pad 4] () h
  | _ => exact hheader _ _ h

theorem Standard.actionLen_eq (a : Standard) :
    a.actionLen < 256 ^ 2 ∧ a.actionLen = roundUp a.actionLen 8 := by
  cases a <;> simp [actionLen, roundUp]

theorem Standard.writes_iff {a : Standard} :
    OFPAction.Writes ofp (.standard a) i ↔ a.pack = .ok i.own ∧ i.len = a.actionLen := by
  rw [OFPAction.Writes, OFPAction.serialize, Standard.serialize]
  cases a.pack with
  | error e => simp [bind, Except.bind]
  | ok b => simp [bind, Except.bind, eq_comm]

theorem Standard.framed {a : Standard} (h : OFPAction.Writes ofp (.standard a) i) :
    Framed i ∧ i.len = a.actionLen ∧ 8 ∣ i.own.length := by
  obtain ⟨hpack, hlen⟩ := writes_iff.1 h
  obtain ⟨hlt, hround⟩ := a.actionLen_eq
  have hown := length_pack hpack
  refine ⟨⟨?_, hlen ▸ hlt, ?_⟩, hlen, ?_⟩
  · rw [hlen]
    exact pack_header hpack
  · rw [hlen, hown]
    exact hround
  · rw [hown, hround]
    exact dvd_roundUp _

theorem Standard.exists_writes {a : Standard} (h : a.pack.isOk) :
    ∃ i, OFPAction.Writes ofp (.standard a) i := by
  obtain ⟨b, hb⟩ := isOk_iff.1 h
  exact ⟨⟨b, a.actionLen, (length_pack hb).le⟩, writes_iff.2 ⟨hb, rfl⟩⟩

/-! ### Actions that set a field -/

/-- The field is packed first, the header before it then, and the padding behind it. -/
theorem OFPActionSetField.serialize_nil {key : String} {value : Value} {oxm : List UInt8}
    (h : setFieldOxm ofp key value = .ok oxm) (hlt : roundUp (4 + oxm.length) 8 < 256 ^ 2) :
    serialize ofp key value [] 0 = .ok
      (toBytes 2 ofpatSetField ++ (toBytes 2 (roundUp (4 + oxm.length) 8) ++
        (oxm ++ List.replicate (roundUp (4 + oxm.length) 8 - (4 + oxm.length)) 0)),
      roundUp (4 + oxm.length) 8) := by
  have ht : ofpatSetField < 256 ^ 2 := by decide
  have hgap : packAt [] (0 + 4) oxm = List.replicate 4 0 ++ oxm :=
    packAt_of_le (Nat.zero_le _)
  have hfield : packAt (packAt [] (0 + 4) oxm) 0
      (toBytes 2 ofpatSetField ++ (toBytes 2 (roundUp (4 + oxm.length) 8) ++ [])) =
        toBytes 2 ofpatSetField ++ (toBytes 2 (roundUp (4 + oxm.length) 8) ++ oxm) := by
    rw [hgap, packAt_start (by simp), List.append_nil, List.append_assoc]
  rw [serialize, h]
  dsimp only [bind, Except.bind]
  rw [header_ok ht hlt]
  dsimp only
  rw [hfield, packAt_end (by simp; omega)]
  simp only [List.append_assoc]

theorem OFPActionSetField.framed {key : String} {value : Value}
    (h : OFPAction.Writes ofp (.setField key value) i) :
    Framed i ∧ i.len = (OFPAction.setField key value).len ofp ∧ 8 ∣ i.own.length := by
  have h : serialize ofp key value [] 0 = .ok (i.own, i.len) := h
  have hok := h
  rw [serialize] at hok
  obtain ⟨oxm, hoxm, hok⟩ := bind_eq_ok.1 hok
  obtain ⟨header, hheader, -⟩ := bind_eq_ok.1 hok
  obtain ⟨hlt, -⟩ := pack_header hheader
  rw [serialize_nil hoxm hlt] at h
  obtain ⟨hown, hlen⟩ := Prod.mk.inj (Except.ok.inj h)
  have hle := le_roundUp (4 + oxm.length)
  have hsize : i.own.length = roundUp (4 + oxm.length) 8 := by
    rw [← hown]
    simp only [List.length_append, length_toBytes, List.length_replicate]
    omega
  have hround : roundUp i.own.length 8 = i.own.length := by
    rw [roundUp_eq_self, hsize]
    exact dvd_roundUp _
  refine ⟨⟨⟨_, _, hlen ▸ hown.symm⟩, hlen ▸ hlt, ?_⟩, ?_, hsize ▸ dvd_roundUp _⟩
  · rw [hround, hsize, hlen]
  · rw [← hlen, OFPAction.len, setFieldLen, hoxm]
    rfl

theorem OFPActionSetField.exists_writes {key : String} {value : Value}
    (h : OFPAction.Packs ofp (.setField key value)) :
    ∃ i, OFPAction.Writes ofp (.setField key value) i := by
  obtain ⟨hok, hlt⟩ := h
  obtain ⟨oxm, hoxm⟩ := isOk_iff.1 hok
  have hlen : setFieldLen ofp key value = oxm.length := by
    rw [setFieldLen, hoxm]
    rfl
  rw [hlen] at hlt
  have hle := le_roundUp (4 + oxm.length)
  have hown : (toBytes 2 ofpatSetField ++ (toBytes 2 (roundUp (4 + oxm.length) 8) ++
      (oxm ++ List.replicate (roundUp (4 + oxm.length) 8 - (4 + oxm.length)) 0))).length ≤
        roundUp (4 + oxm.length) 8 := by
    simp only [List.length_append, length_toBytes, List.length_replicate]
    omega
  exact ⟨⟨_, _, hown⟩, serialize_nil hoxm hlt⟩

end Items

end Ryu.Actions
