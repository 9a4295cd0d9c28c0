import Ryu.Controller.Datapath
import Ryu.Lib.Display

/-! # Version negotiation

`hello_handler` of `ofp_handler` and the version bitmaps of a hello. A datapath moves on
with the version the OpenFlow rule prescribes or is told that the hello failed, unless
a bitmap sets the last bit of a word, which the parser does not read, or the versions
announced make an error message of more than sixteen bits of length.
-/

namespace Ryu.Controller

open Display Numeral

/-- The octets of an `OFPHelloElemVersionBitmap` behind its header. The length in the header
counts the header. -/
structure VersionBitmap where
  body : List UInt8
  fits : 4 + body.length < 2 ^ 16

namespace VersionBitmap

/-- The loop of the parser: words are read while four octets are left. -/
def readBitmaps : List UInt8 → List ℕ
  | a :: b :: c :: d :: rest =>
    (((a.toNat * 256 + b.toNat) * 256 + c.toNat) * 256 + d.toNat) :: readBitmaps rest
  | _ => []

def bitmaps (e : VersionBitmap) : List ℕ := readBitmaps e.body

/-- `OFPHelloElemVersionBitmap.versions`: the parser looks at the shifts of `range(31)`. -/
def versions (e : VersionBitmap) : List ℕ :=
  e.bitmaps.zipIdx.flatMap fun (bitmap, i) =>
    ((List.range 31).filter (bitmap.testBit ·)).map (i * 32 + ·)

/-- The bit of a version is set in its word. -/
def Sets (e : VersionBitmap) (v : ℕ) : Prop :=
  ∃ bitmap, e.bitmaps[v / 32]? = some bitmap ∧ bitmap.testBit (v % 32) = true

end VersionBitmap

/-- A hello the parser makes. Those of OpenFlow 1.0 and 1.2 have no elements. -/
structure OFPHello where
  version : ℕ
  known : version ∈ ofpVersions
  elements : Option (List VersionBitmap)

/-- `getattr(msg, 'elements', None)`, where no elements count as none. -/
def OFPHello.bitmaps (msg : OFPHello) : List VersionBitmap := msg.elements.getD []

def ofpetHelloFailed : ℕ := 0

def ofphfcIncompatible : ℕ := 0

/-- `OFPHandler._hello_failed`. -/
def helloFailed (dp : Datapath) (errorDesc : Text) : Except PyError Datapath :=
  dp.sendMsg (.errorMsg ofpetHelloFailed ofphfcIncompatible errorDesc) true

def noUsableDesc (order : SetOrder) (S : SupportedVersions) (switchVersions : Finset ℕ)
    (negotiated : ℕ) : Text :=
  "no compatible version found: switch versions ".toList ++ set order switchVersions ++
    " controller version ".toList ++ hex 0 S.max ++
    ", the negotiated version is ".toList ++ hex 0 negotiated ++
    ", but no usable version found. ".toList ++
    "If possible, set the switch to use one of OF version ".toList ++ list (sorted S.versions)

def otherUsableDesc (S : SupportedVersions) (switchMax : ℕ) (negotiated usable : Finset ℕ) :
    Text :=
  "no compatible version found: switch versions ".toList ++ hex 0 switchMax ++
    " controller version ".toList ++ hex 0 S.max ++
    ", the negotiated version is ".toList ++ list (sorted negotiated) ++
    " but found usable ".toList ++ list (sorted usable) ++
    ". If possible, set the switch to use one of OF version ".toList ++ list (sorted usable)

def headerDesc (switch controller usable : ℕ) : Text :=
  "no compatible version found: switch ".toList ++ hex 0 switch ++
    " controller ".toList ++ hex 0 controller ++
    ", but found usable ".toList ++ hex 0 usable ++
    ". If possible, set the switch to use OF version ".toList ++ hex 0 usable

def unsupportedDesc (S : SupportedVersions) (version : ℕ) : Text :=
  "unsupported version ".toList ++ hex 0 version ++
    ". If possible, set the switch to use one of the versions ".toList ++
    list (sorted S.versions)

/-- The set made from the versions of the elements. -/
def switchVersions (elements : List VersionBitmap) : Finset ℕ :=
  (elements.flatMap VersionBitmap.versions).toFinset

/-- The branch of `hello_handler` for a hello with elements: the usable versions, or the
description of an error. -/
def usableOfElements (order : SetOrder) (S : SupportedVersions) (elements : List VersionBitmap) :
    Except PyError (Text ⊕ Finset ℕ) := do
  let versions := switchVersions elements
  let usable := versions ∩ S.versions
  let negotiated := versions.filter (· ≤ S.max)
  if negotiated.Nonempty ∧ ¬ usable.Nonempty then do
    let n ← maxOf negotiated
    pure (.inl (noUsableDesc order S versions n))
  else if negotiated.Nonempty ∧ usable.Nonempty then do
    let n ← maxOf negotiated
    let u ← maxOf usable
    if n ≠ u then do
      let m ← maxOf versions
      pure (.inl (otherUsableDesc S m negotiated usable))
    else pure (.inr usable)
  else pure (.inr usable)

/-- The branch for a hello without elements. -/
def usableOfHeader (S : SupportedVersions) (dp : Datapath) (version : ℕ) :
    Except PyError (Text ⊕ Finset ℕ) :=
  let usable := S.versions.filter (· ≤ version)
  if usable.Nonempty then do
    let u ← maxOf usable
    pure (if u ≠ min version dp.ofproto then .inl (headerDesc version dp.ofproto u)
      else .inr usable)
  else pure (.inr usable)

def usableVersions (order : SetOrder) (S : SupportedVersions) (dp : Datapath) (msg : OFPHello) :
    Except PyError (Text ⊕ Finset ℕ) :=
  if msg.bitmaps ≠ [] then usableOfElements order S msg.bitmaps
  else usableOfHeader S dp msg.version

/-- `OFPHandler.hello_handler`. -/
def helloHandler (order : SetOrder) (S : SupportedVersions) (dp : Datapath) (msg : OFPHello) :
    Except PyError Datapath := do
  match ← usableVersions order S dp msg with
  | .inl errorDesc => helloFailed dp errorDesc
  | .inr usable =>
    if ¬ usable.Nonempty then helloFailed dp (unsupportedDesc S msg.version)
    else do
      let version ← maxOf usable
      let dp ← dp.setVersion S version
      { dp with state := .config }.sendMsg .featuresRequest false

/-! ## The rule -/

/-- The bit of a version is set in some bitmap. -/
def OFPHello.Announces (msg : OFPHello) (v : ℕ) : Prop := ∃ e ∈ msg.bitmaps, e.Sets v

/-- The OpenFlow rule: with bitmaps the highest version that both sides have, unless a higher
one that the controller's maximum covers is unsupported; without, the smaller of the two
header versions, if it is supported. -/
def OFPHello.Prescribes (S : SupportedVersions) (msg : OFPHello) (v : ℕ) : Prop :=
  if msg.bitmaps ≠ [] then
    (msg.Announces v ∧ v ∈ S.versions) ∧ (∀ u, msg.Announces u → u ∈ S.versions → u ≤ v) ∧
      ¬ ∃ u, msg.Announces u ∧ v < u ∧ u ≤ S.max ∧ u ∉ S.versions
  else v = min msg.version S.max ∧ v ∈ S.versions

/-- In CONFIG, with the request for features sent under the version. -/
def MovesOn (dp dp' : Datapath) (v : ℕ) : Prop :=
  dp' = { dp with
    ofproto := v
    state := .config
    sendQ := dp.sendQ.map (· ++ [⟨v, .featuresRequest, false⟩]) }

/-- One error is queued behind what was, and the send loop ends with it. -/
def Rejects (dp dp' : Datapath) : Prop :=
  ∃ data q, dp.sendQ = some q ∧
    sendLoop (q ++ [⟨dp.ofproto, .errorMsg ofpetHelloFailed ofphfcIncompatible data, true⟩]) =
      (q ++ [⟨dp.ofproto, .errorMsg ofpetHelloFailed ofphfcIncompatible data, true⟩], true) ∧
    dp' = { dp with
      sendQ := some
        (q ++ [⟨dp.ofproto, .errorMsg ofpetHelloFailed ofphfcIncompatible data, true⟩]) }

/-- The handler returns what the rule prescribes. -/
def Follows (S : SupportedVersions) (msg : OFPHello) (dp : Datapath)
    (r : Except PyError Datapath) : Prop :=
  ∃ dp', r = .ok dp' ∧ ((∃ v, msg.Prescribes S v ∧ MovesOn dp dp' v) ∨
    ((¬ ∃ v, msg.Prescribes S v) ∧ Rejects dp dp'))

/-- The versions of a bitmap are the bits set in it. -/
def VersionBitmap.Exact (e : VersionBitmap) : Prop := ∀ v, v ∈ e.versions ↔ e.Sets v

/-- The error message that lists the announced versions does not fit: one of them is covered by
the controller's maximum, none is supported, and they are too many. -/
def OFPHello.Overflows (S : SupportedVersions) (msg : OFPHello) : Prop :=
  ∃ V : Finset ℕ, (∀ v, v ∈ V ↔ msg.Announces v) ∧ (∀ v ∈ V, v ∉ S.versions) ∧
    (∃ v ∈ V, v ≤ S.max) ∧
    2 ^ 16 ≤ 12 + (183 + ∑ v ∈ V, ((dec v).length + 2) + 3 * S.versions.card)

/-! ## Bitmaps -/

namespace VersionBitmap

variable {e : VersionBitmap} {v : ℕ}

theorem mem_versions_iff : v ∈ e.versions ↔ e.Sets v ∧ v % 32 < 31 := by
  simp only [versions, Sets, List.mem_flatMap, Prod.exists, List.mem_map, List.mem_filter,
    List.mem_range, List.mk_mem_zipIdx_iff_getElem?]
  constructor
  · rintro ⟨bitmap, i, hi, shift, ⟨hs, hb⟩, rfl⟩
    have h1 : (i * 32 + shift) / 32 = i := by omega
    have h2 : (i * 32 + shift) % 32 = shift := by omega
    rw [h1, h2]
    exact ⟨⟨bitmap, hi, hb⟩, hs⟩
  · rintro ⟨⟨bitmap, hi, hb⟩, hs⟩
    exact ⟨bitmap, v / 32, hi, v % 32, ⟨hs, hb⟩, by omega⟩

theorem length_readBitmaps (l : List UInt8) : 4 * (readBitmaps l).length ≤ l.length := by
  induction l using readBitmaps.induct with
  | case1 a b c d rest ih => simp only [readBitmaps, List.length_cons]; omega
  | case2 l h => rw [readBitmaps]; · simp
                 · exact h

/-- The length of an element has sixteen bits. -/
theorem Sets.lt (h : e.Sets v) : v < 2 ^ 19 := by
  obtain ⟨bitmap, hv, -⟩ := h
  have h1 := (List.getElem?_eq_some_iff.mp hv).1
  have h2 := length_readBitmaps e.body
  have h3 := e.fits
  simp only [bitmaps] at h1
  omega

theorem exact_iff : e.Exact ↔ ∀ bitmap ∈ e.bitmaps, bitmap.testBit 31 = false := by
  simp only [Exact, mem_versions_iff, and_iff_left_iff_imp]
  constructor
  · intro h bitmap hb
    obtain ⟨i, hi⟩ := List.mem_iff_getElem?.mp hb
    by_contra ht
    have hm := h (i * 32 + 31) ⟨bitmap, by
      rwa [show (i * 32 + 31) / 32 = i by omega], by
      rw [show (i * 32 + 31) % 32 = 31 by omega]; simpa using ht⟩
    omega
  · rintro h v ⟨bitmap, hv, hb⟩
    have hb' := h bitmap (List.mem_of_getElem? hv)
    have h31 : v % 32 ≠ 31 := by
      intro h31
      rw [h31, hb'] at hb
      exact absurd hb Bool.false_ne_true
    omega

end VersionBitmap

variable {S : SupportedVersions} {order : SetOrder} {msg : OFPHello} {queued : List OFPMessage}
  {V : Finset ℕ} {errorDesc : Text} {n v : ℕ}

theorem mem_switchVersions {elements : List VersionBitmap} :
    v ∈ switchVersions elements ↔ ∃ e ∈ elements, v ∈ e.versions := by
  simp [switchVersions]

theorem mem_switchVersions_iff_announces (h : ∀ e ∈ msg.bitmaps, e.Exact) :
    v ∈ switchVersions msg.bitmaps ↔ msg.Announces v := by
  rw [mem_switchVersions]
  exact exists_congr fun e => and_congr_right fun he => h e he v

theorem switchVersions_lt {elements : List VersionBitmap} (h : v ∈ switchVersions elements) :
    v < 2 ^ 19 := by
  obtain ⟨e, -, he⟩ := mem_switchVersions.1 h
  exact (VersionBitmap.mem_versions_iff.mp he).1.lt

/-! ## The lengths of the descriptions -/

theorem length_supported (S : SupportedVersions) :
    (list (sorted S.versions)).length = 3 * S.versions.card :=
  length_sorted S.nonempty fun n hn => Nat.lt_of_le_of_lt (SupportedVersions.le_six hn) (by decide)

theorem length_noUsableDesc (order : SetOrder) (hV : V.Nonempty) (hn : n ≤ S.max) :
    (noUsableDesc order S V n).length =
      183 + ∑ v ∈ V, ((dec v).length + 2) + 3 * S.versions.card := by
  have hS := SupportedVersions.le_six S.max_mem
  have h1 := length_hex_of_lt (n := S.max) (by omega)
  have h2 := length_hex_of_lt (n := n) (by omega)
  have t1 : "no compatible version found: switch versions ".toList.length = 45 := by simp
  have t2 : " controller version ".toList.length = 20 := by simp
  have t3 : ", the negotiated version is ".toList.length = 28 := by simp
  have t4 : ", but no usable version found. ".toList.length = 31 := by simp
  have t5 : "If possible, set the switch to use one of OF version ".toList.length = 53 := by simp
  unfold noUsableDesc
  simp only [List.length_append, length_set order hV, length_supported, h1, h2, t1, t2, t3, t4, t5]
  omega

theorem card_le_seven (h : ∀ v ∈ V, v ≤ 6) : V.card ≤ 7 := by
  have hs : V ⊆ Finset.range 7 := fun v hv =>
    Finset.mem_range.mpr (Nat.lt_of_le_of_lt (h v hv) (by decide))
  simpa using Finset.card_le_card hs

theorem length_sorted_le (hne : V.Nonempty) (h : ∀ v ∈ V, v ≤ 6) :
    (list (sorted V)).length ≤ 21 := by
  have hc := card_le_seven h
  rw [length_sorted hne fun v hv => Nat.lt_of_le_of_lt (h v hv) (by decide)]
  omega

theorem length_otherUsableDesc {m : ℕ} {negotiated usable : Finset ℕ} (hm : m < 2 ^ 19)
    (hn : negotiated.Nonempty) (hn' : ∀ v ∈ negotiated, v ≤ 6)
    (hu : usable.Nonempty) (hu' : ∀ v ∈ usable, v ≤ 6) :
    12 + (otherUsableDesc S m negotiated usable).length < 2 ^ 16 := by
  have hS := SupportedVersions.le_six S.max_mem
  have h1 := length_hex_of_lt (n := S.max) (by omega)
  have h2 := length_hex_le (n := m) (k := 5) (by decide) (by omega)
  have h3 := length_sorted_le hn hn'
  have h4 := length_sorted_le hu hu'
  have t1 : "no compatible version found: switch versions ".toList.length = 45 := by simp
  have t2 : " controller version ".toList.length = 20 := by simp
  have t3 : ", the negotiated version is ".toList.length = 28 := by simp
  have t4 : " but found usable ".toList.length = 18 := by simp
  have t5 : ". If possible, set the switch to use one of OF version ".toList.length = 55 := by simp
  unfold otherUsableDesc
  simp only [List.length_append, h1, t1, t2, t3, t4, t5]
  omega

theorem length_headerDesc {m u : ℕ} (hn : n < 16) (hm : m < 16) (hu : u < 16) :
    12 + (headerDesc n m u).length < 2 ^ 16 := by
  have h1 := length_hex_of_lt hn
  have h2 := length_hex_of_lt hm
  have h3 := length_hex_of_lt hu
  unfold headerDesc
  simp [h1, h2, h3]

theorem length_unsupportedDesc (hn : n < 16) :
    12 + (unsupportedDesc S n).length < 2 ^ 16 := by
  have h1 := length_hex_of_lt hn
  have h2 := length_sorted_le S.nonempty fun v hv => SupportedVersions.le_six hv
  unfold unsupportedDesc
  simp [h1]
  omega

/-! ## The two outcomes -/

theorem helloFailed_of_lt (h : 12 + errorDesc.length < 2 ^ 16) :
    ∃ dp', helloFailed (.inHandshake S queued) errorDesc = .ok dp' ∧
      Rejects (.inHandshake S queued) dp' := by
  refine ⟨_, sendMsg_of_lt h, errorDesc, _, rfl, ?_, rfl⟩
  exact sendLoop_append (by simp) rfl []

theorem helloFailed_of_le (h : 2 ^ 16 ≤ 12 + errorDesc.length) {dp : Datapath} :
    helloFailed dp errorDesc = .error structError := sendMsg_of_le h

theorem follows_of_rejects {dp : Datapath} {r : Except PyError Datapath}
    (hnone : ¬ ∃ v, msg.Prescribes S v) (h : ∃ dp', r = .ok dp' ∧ Rejects dp dp') :
    Follows S msg dp r := by
  obtain ⟨dp', hr, hd⟩ := h
  exact ⟨dp', hr, .inr ⟨hnone, hd⟩⟩

theorem not_follows_error {dp : Datapath} {e : PyError} : ¬ Follows S msg dp (.error e) := by
  rintro ⟨dp', h, -⟩
  cases h

theorem follows_of_usable {usable : Finset ℕ}
    (hr : usableVersions order S (.inHandshake S queued) msg = .ok (.inr usable))
    (hv : v ∈ usable) (hle : ∀ u ∈ usable, u ≤ v) (hS : v ∈ S.versions)
    (hp : msg.Prescribes S v) :
    Follows S msg (.inHandshake S queued) (helloHandler order S (.inHandshake S queued) msg) := by
  refine ⟨_, ?_, .inl ⟨v, hp, rfl⟩⟩
  unfold helloHandler
  rw [hr]
  have hne : usable.Nonempty := ⟨v, hv⟩
  have hm : maxOf usable = .ok v := maxOf_eq_ok.2 ⟨hv, hle⟩
  simp only [bind, Except.bind, hne, not_true, if_false, hm, Datapath.setVersion, hS, if_true]
  rfl

/-- What the branch for a hello with elements comes to. -/
theorem usableOfElements_cases (order : SetOrder) (S : SupportedVersions)
    (elements : List VersionBitmap) :
    (∃ n ∈ switchVersions elements, n ≤ S.max ∧ (∀ v ∈ switchVersions elements, v ∉ S.versions) ∧
      usableOfElements order S elements =
        .ok (.inl (noUsableDesc order S (switchVersions elements) n))) ∨
    (∃ n ∈ switchVersions elements, n ≤ S.max ∧ n ∉ S.versions ∧
      (∃ u ∈ switchVersions elements, u ∈ S.versions) ∧
      (∀ u ∈ switchVersions elements, u ∈ S.versions → u < n) ∧
      ∃ errorDesc, 12 + errorDesc.length < 2 ^ 16 ∧
        usableOfElements order S elements = .ok (.inl errorDesc)) ∨
    (∃ n ∈ switchVersions elements, n ∈ S.versions ∧
      (∀ v ∈ switchVersions elements, v ≤ S.max → v ≤ n) ∧
      usableOfElements order S elements = .ok (.inr (switchVersions elements ∩ S.versions))) ∨
    ((∀ v ∈ switchVersions elements, S.max < v) ∧
      usableOfElements order S elements = .ok (.inr ∅)) := by
  have hlt : ∀ v ∈ switchVersions elements, v < 2 ^ 19 := fun _ => switchVersions_lt
  unfold usableOfElements
  generalize switchVersions elements = V at hlt ⊢
  by_cases hn : (V.filter (· ≤ S.max)).Nonempty
  · obtain ⟨n, hmax⟩ := exists_maxOf hn
    obtain ⟨hnV, hle⟩ := maxOf_eq_ok.1 hmax
    obtain ⟨hnV, hnS⟩ := Finset.mem_filter.mp hnV
    by_cases hu : (V ∩ S.versions).Nonempty
    · obtain ⟨u, humax⟩ := exists_maxOf hu
      obtain ⟨huV, hule⟩ := maxOf_eq_ok.1 humax
      obtain ⟨huV, huS⟩ := Finset.mem_inter.mp huV
      have hun : u ≤ n := hle u (Finset.mem_filter.mpr ⟨huV, S.le_max huS⟩)
      by_cases heq : n = u
      · subst heq
        right; right; left
        refine ⟨n, hnV, huS, fun v hv hvS => hle v (Finset.mem_filter.mpr ⟨hv, hvS⟩), ?_⟩
        simp [hn, hu, hmax, humax, bind, Except.bind, pure, Except.pure]
      · right; left
        have hlt' : ∀ w ∈ V, w ∈ S.versions → w < n := fun w hw hwS =>
          lt_of_le_of_lt (hule w (Finset.mem_inter.mpr ⟨hw, hwS⟩)) (lt_of_le_of_ne hun (Ne.symm heq))
        obtain ⟨m, hm⟩ := exists_maxOf (s := V) ⟨n, hnV⟩
        refine ⟨n, hnV, hnS, fun h => lt_irrefl n (hlt' n hnV h), ⟨u, huV, huS⟩, hlt',
          otherUsableDesc S m (V.filter (· ≤ S.max)) (V ∩ S.versions), ?_, ?_⟩
        · refine length_otherUsableDesc (hlt m (maxOf_eq_ok.1 hm).1) hn (fun v hv => ?_) hu
            (fun v hv => S.le_six (Finset.mem_inter.mp hv).2)
          exact (Finset.mem_filter.mp hv).2.trans (S.le_six S.max_mem)
        · simp only [hn, hu, hmax, humax, hm, bind, Except.bind, pure, Except.pure, not_true,
            and_false, if_false, and_self, if_true, heq, ne_eq, not_false_eq_true]
    · left
      refine ⟨n, hnV, hnS, fun v hv hvS => hu ⟨v, Finset.mem_inter.mpr ⟨hv, hvS⟩⟩, ?_⟩
      simp only [hn, hu, hmax, bind, Except.bind, pure, Except.pure, not_false_eq_true, and_self,
        if_true]
  · right; right; right
    have hnone : ∀ v ∈ V, S.max < v := fun v hv =>
      not_le.mp fun hle => hn ⟨v, Finset.mem_filter.mpr ⟨hv, hle⟩⟩
    have hempty : V ∩ S.versions = ∅ := Finset.eq_empty_of_forall_notMem fun v hv =>
      absurd (S.le_max (Finset.mem_inter.mp hv).2) (not_le.mpr (hnone v (Finset.mem_inter.mp hv).1))
    refine ⟨hnone, ?_⟩
    simp only [hn, hempty, false_and, if_false, pure, Except.pure]

theorem usableOfHeader_cases (S : SupportedVersions) (queued : List OFPMessage) (msg : OFPHello) :
    (min msg.version S.max ∈ S.versions ∧
      usableOfHeader S (.inHandshake S queued) msg.version =
        .ok (.inr (S.versions.filter (· ≤ msg.version)))) ∨
    (min msg.version S.max ∉ S.versions ∧ ((∃ errorDesc, 12 + errorDesc.length < 2 ^ 16 ∧
      usableOfHeader S (.inHandshake S queued) msg.version = .ok (.inl errorDesc)) ∨
      usableOfHeader S (.inHandshake S queued) msg.version = .ok (.inr ∅))) := by
  have hS := S.le_six S.max_mem
  have hv : msg.version ≤ 6 := by
    have hk := msg.known
    simp only [ofpVersions, Finset.mem_insert, Finset.mem_singleton] at hk
    omega
  unfold usableOfHeader
  by_cases hu : (S.versions.filter (· ≤ msg.version)).Nonempty
  · obtain ⟨u, hmax⟩ := exists_maxOf hu
    obtain ⟨hu', hle⟩ := maxOf_eq_ok.1 hmax
    obtain ⟨huS, huv⟩ := Finset.mem_filter.mp hu'
    by_cases heq : u = min msg.version S.max
    · left
      refine ⟨heq ▸ huS, ?_⟩
      simp [hu, hmax, heq, Datapath.inHandshake, bind, Except.bind, pure, Except.pure]
    · right
      refine ⟨fun hm => heq ?_, .inl ⟨headerDesc msg.version S.max u, ?_, ?_⟩⟩
      · refine le_antisymm (le_min huv (S.le_max huS)) ?_
        exact hle _ (Finset.mem_filter.mpr ⟨hm, min_le_left _ _⟩)
      · exact length_headerDesc (by omega) (by omega) (by omega)
      · simp [hu, hmax, heq, Datapath.inHandshake, bind, Except.bind, pure, Except.pure]
  · right
    refine ⟨fun hm => hu ⟨_, Finset.mem_filter.mpr ⟨hm, min_le_left _ _⟩⟩, .inr ?_⟩
    rw [Finset.not_nonempty_iff_eq_empty] at hu
    simp [hu, pure, Except.pure]

theorem helloHandler_of_desc {dp : Datapath}
    (h : usableVersions order S dp msg = .ok (.inl errorDesc)) :
    helloHandler order S dp msg = helloFailed dp errorDesc := by
  unfold helloHandler
  rw [h]
  rfl

theorem helloHandler_of_empty {dp : Datapath}
    (h : usableVersions order S dp msg = .ok (.inr ∅)) :
    helloHandler order S dp msg = helloFailed dp (unsupportedDesc S msg.version) := by
  unfold helloHandler
  rw [h]
  rfl

theorem version_lt (msg : OFPHello) : msg.version < 16 := by
  have hk := msg.known
  simp only [ofpVersions, Finset.mem_insert, Finset.mem_singleton] at hk
  omega

/-- Without bitmaps the rule is followed. -/
theorem follows_header (h : msg.bitmaps = []) :
    Follows S msg (.inHandshake S queued) (helloHandler order S (.inHandshake S queued) msg) := by
  have hu : usableVersions order S (.inHandshake S queued) msg =
      usableOfHeader S (.inHandshake S queued) msg.version := if_neg (not_not.mpr h)
  have hp (v : ℕ) : msg.Prescribes S v ↔ v = min msg.version S.max ∧ v ∈ S.versions := by
    unfold OFPHello.Prescribes
    rw [if_neg (not_not.mpr h)]
  rcases usableOfHeader_cases S queued msg with
    ⟨hm, hr⟩ | ⟨hm, ⟨errorDesc, hlen, hr⟩ | hr⟩
  · refine follows_of_usable (hu.trans hr) (Finset.mem_filter.mpr ⟨hm, min_le_left _ _⟩)
      (fun u huv => ?_) hm ((hp _).mpr ⟨rfl, hm⟩)
    obtain ⟨huS, huv⟩ := Finset.mem_filter.mp huv
    exact le_min huv (S.le_max huS)
  · rw [helloHandler_of_desc (hu.trans hr)]
    refine follows_of_rejects ?_ (helloFailed_of_lt hlen)
    rintro ⟨v, hv⟩
    obtain ⟨rfl, hv⟩ := (hp v).mp hv
    exact hm hv
  · rw [helloHandler_of_empty (hu.trans hr)]
    refine follows_of_rejects ?_ (helloFailed_of_lt (length_unsupportedDesc (version_lt msg)))
    rintro ⟨v, hv⟩
    obtain ⟨rfl, hv⟩ := (hp v).mp hv
    exact hm hv

/-- With bitmaps that are read in full it is followed unless the error message does not fit. -/
theorem follows_bitmaps_iff (h : msg.bitmaps ≠ []) (hexact : ∀ e ∈ msg.bitmaps, e.Exact) :
    Follows S msg (.inHandshake S queued) (helloHandler order S (.inHandshake S queued) msg) ↔
      ¬ msg.Overflows S := by
  have hu : usableVersions order S (.inHandshake S queued) msg =
      usableOfElements order S msg.bitmaps := if_pos h
  have hV (v : ℕ) := mem_switchVersions_iff_announces (v := v) hexact
  have hp (v : ℕ) : msg.Prescribes S v ↔
      (msg.Announces v ∧ v ∈ S.versions) ∧ (∀ u, msg.Announces u → u ∈ S.versions → u ≤ v) ∧
      ¬ ∃ u, msg.Announces u ∧ v < u ∧ u ≤ S.max ∧ u ∉ S.versions := by
    unfold OFPHello.Prescribes
    rw [if_pos h]
  have hunique {W : Finset ℕ} (hW : ∀ v, v ∈ W ↔ msg.Announces v) :
      W = switchVersions msg.bitmaps :=
    Finset.ext fun v => (hW v).trans (hV v).symm
  rcases usableOfElements_cases order S msg.bitmaps with
    ⟨n, hn, hnS, hnone, hr⟩ | ⟨n, hn, hnS, hnm, ⟨u, hu', huS⟩, hbelow, errorDesc, hlen, hr⟩ |
    ⟨n, hn, hnS, hmax, hr⟩ | ⟨hnone, hr⟩
  · have hlen := length_noUsableDesc order ⟨n, hn⟩ hnS
    have hnp : ¬ ∃ v, msg.Prescribes S v := by
      rintro ⟨v, hv⟩
      obtain ⟨hv, hvS⟩ := ((hp v).mp hv).1
      exact hnone v ((hV v).mpr hv) hvS
    rw [helloHandler_of_desc (hu.trans hr)]
    constructor
    · rintro hf ⟨W, hW, -, -, hlong⟩
      rw [hunique hW, ← hlen] at hlong
      rw [helloFailed_of_le hlong] at hf
      exact not_follows_error hf
    · intro hfits
      refine follows_of_rejects hnp (helloFailed_of_lt (not_le.mp fun hlong => hfits ?_))
      rw [hlen] at hlong
      exact ⟨_, hV, hnone, ⟨n, hn, hnS⟩, hlong⟩
  · rw [helloHandler_of_desc (hu.trans hr)]
    refine iff_of_true (follows_of_rejects ?_ (helloFailed_of_lt hlen)) ?_
    · rintro ⟨v, hv⟩
      obtain ⟨⟨hv, hvS⟩, -, hno⟩ := (hp v).mp hv
      exact hno ⟨n, (hV n).mp hn, hbelow v ((hV v).mpr hv) hvS, hnS, hnm⟩
    · rintro ⟨W, hW, hWS, -⟩
      exact hWS u ((hW u).mpr ((hV u).mp hu')) huS
  · refine iff_of_true (follows_of_usable (hu.trans hr) (Finset.mem_inter.mpr ⟨hn, hnS⟩)
      (fun u hu' => ?_) hnS ((hp n).mpr ⟨⟨(hV n).mp hn, hnS⟩, fun u ha huS => ?_, ?_⟩)) ?_
    · obtain ⟨huV, huS⟩ := Finset.mem_inter.mp hu'
      exact hmax u huV (S.le_max huS)
    · exact hmax u ((hV u).mpr ha) (S.le_max huS)
    · rintro ⟨u, ha, hlt, hle, -⟩
      exact absurd (hmax u ((hV u).mpr ha) hle) (not_le.mpr hlt)
    · rintro ⟨W, hW, hWS, -⟩
      exact hWS n ((hW n).mpr ((hV n).mp hn)) hnS
  · rw [helloHandler_of_empty (hu.trans hr)]
    refine iff_of_true (follows_of_rejects ?_
      (helloFailed_of_lt (length_unsupportedDesc (version_lt msg)))) ?_
    · rintro ⟨v, hv⟩
      obtain ⟨ha, hvS⟩ := ((hp v).mp hv).1
      exact absurd (S.le_max hvS) (not_le.mpr (hnone v ((hV v).mpr ha)))
    · rintro ⟨W, hW, -, ⟨v, hv, hle⟩, -⟩
      exact absurd hle (not_le.mpr (hnone v ((hV v).mpr ((hW v).mp hv))))

/-- What a hello is to come to: the handler returns what the rule prescribes, and the versions
read are those announced. -/
def Negotiates (order : SetOrder) (S : SupportedVersions) (queued : List OFPMessage)
    (msg : OFPHello) : Prop :=
  Follows S msg (.inHandshake S queued) (helloHandler order S (.inHandshake S queued) msg) ∧
    ∀ e ∈ msg.bitmaps, e.Exact

theorem negotiates_iff (order : SetOrder) (S : SupportedVersions) (queued : List OFPMessage)
    (msg : OFPHello) :
    Negotiates order S queued msg ↔
      (∀ e ∈ msg.bitmaps, ∀ bitmap ∈ e.bitmaps, bitmap.testBit 31 = false) ∧
        ¬ msg.Overflows S := by
  simp only [← VersionBitmap.exact_iff]
  by_cases h : msg.bitmaps = []
  · refine iff_of_true ⟨follows_header h, by simp [h]⟩ ⟨by simp [h], ?_⟩
    rintro ⟨V, hV, -, ⟨v, hv, -⟩, -⟩
    obtain ⟨e, he, -⟩ := (hV v).mp hv
    rw [h] at he
    cases he
  · constructor
    · rintro ⟨hf, hexact⟩
      exact ⟨hexact, (follows_bitmaps_iff h hexact).mp hf⟩
    · rintro ⟨hexact, hfits⟩
      exact ⟨(follows_bitmaps_iff h hexact).mpr hfits, hexact⟩

def onlyV13 : SupportedVersions where
  versions := {4}
  nonempty := by decide
  known := by decide

/-- A hello of OpenFlow 1.3 with the bits 4 and 31 in its only word. -/
def helloBit31 : OFPHello where
  version := 4
  known := by decide
  elements := some [⟨[0x80, 0, 0, 0x10], by decide⟩]

/-- The bit of version 31 is not read. -/
theorem helloBit31_misread : ¬ Negotiates .ascending onlyV13 [.hello] helloBit31 := by
  rintro ⟨-, hexact⟩
  have h : 31 ∈ VersionBitmap.versions ⟨[0x80, 0, 0, 0x10], by decide⟩ :=
    (hexact _ (List.mem_singleton.mpr rfl) 31).mpr ⟨0x80000010, rfl, by decide⟩
  revert h
  decide

end Ryu.Controller
