import Ryu.Ofctl.Version

/-! # The wildcards of OpenFlow 1.0

A match of OpenFlow 1.0 has all its fields, and a word that says which of them count. Eight bits of
it are flags of single fields, and two groups of six count the bits of a network that do not. A field
of a dictionary clears bits of its own, so the word tells the fields that were given, and the
dictionary that is written of a match is read as the match.
-/

namespace Ryu.OfctlV10

open Numeral Function

/-- `OFPFW_NW_SRC_SHIFT`, `OFPFW_NW_DST_SHIFT` and `OFPFW_NW_SRC_BITS`. -/
def ofpfwNwSrcShift : ℕ := 8
def ofpfwNwDstShift : ℕ := 14
def ofpfwNwBits : ℕ := 6

/-- The mask of a group of bits, and the count that leaves out a whole address. -/
def ofpfwNwMask (shift : ℕ) : BitVec 32 := ((1 <<< ofpfwNwBits) - 1) <<< shift
def ofpfwNwAll (shift : ℕ) : BitVec 32 := 32 <<< shift

/-- `OFPFW_ALL`. -/
def ofpfwAll : BitVec 32 := (1 <<< 22) - 1

/-- The fields of a match, in the order of `match_to_str`. -/
inductive MatchField
  | inPort | dlSrc | dlDst | dlVlan | dlVlanPcp | dlType | nwTos | nwProto | nwSrc | nwDst
  | tpSrc | tpDst
  deriving DecidableEq, Repr

namespace MatchField

def all : List MatchField :=
  [inPort, dlSrc, dlDst, dlVlan, dlVlanPcp, dlType, nwTos, nwProto, nwSrc, nwDst, tpSrc, tpDst]

/-- The key of a field in a dictionary. -/
def key : MatchField → RestKey
  | inPort => .oxm .inPort
  | dlSrc => .legacy .dlSrc
  | dlDst => .legacy .dlDst
  | dlVlan => .legacy .dlVlan
  | dlVlanPcp => .unknown "dl_vlan_pcp"
  | dlType => .legacy .dlType
  | nwTos => .unknown "nw_tos"
  | nwProto => .legacy .nwProto
  | nwSrc => .legacy .nwSrc
  | nwDst => .legacy .nwDst
  | tpSrc => .legacy .tpSrc
  | tpDst => .legacy .tpDst

/-- The field of a key. -/
def ofKey (k : RestKey) : Option MatchField := all.find? fun f => f.key = k

/-- What `match_to_str` asks the word for. -/
def flag : MatchField → BitVec 32
  | inPort => 1 <<< 0
  | dlVlan => 1 <<< 1
  | dlSrc => 1 <<< 2
  | dlDst => 1 <<< 3
  | dlType => 1 <<< 4
  | nwProto => 1 <<< 5
  | tpSrc => 1 <<< 6
  | tpDst => 1 <<< 7
  | nwSrc => ofpfwNwAll ofpfwNwSrcShift
  | nwDst => ofpfwNwAll ofpfwNwDstShift
  | dlVlanPcp => 1 <<< 20
  | nwTos => 1 <<< 21

/-- A port may be left as the text it was given as, and the addresses are kept in binary. -/
def Attr : MatchField → Type
  | inPort => Value
  | dlSrc | dlDst | nwSrc | nwDst => ℕ
  | dlVlan | dlVlanPcp | dlType | nwTos | nwProto | tpSrc | tpDst => ℤ

end MatchField

/-- `OFPMatch`. -/
structure OFPMatch where
  wildcards : BitVec 32
  attr : (f : MatchField) → f.Attr

section Model

/-- The variables of `to_match` before its loop, and what `OFPMatch` makes of them. -/
def OFPMatch.init : OFPMatch where
  wildcards := ofpfwAll
  attr
    | .inPort => .int 0
    | .dlSrc | .dlDst | .nwSrc | .nwDst => (0 : ℕ)
    | .dlVlan | .dlVlanPcp | .dlType | .nwTos | .nwProto | .tpSrc | .tpDst => (0 : ℤ)

-- The second is `socket.inet_aton`.
variable (ac : AddrConv) (aton : Text → Option ℕ)

/-- `UTIL.ofp_port_from_user`. -/
def ofpPortFromUser : Value → Value := reservedNumFromUser "OFPP_".toList OFPMatch10.ofpp

/-- `UTIL.ofp_port_to_user`; no constant is a text. -/
def ofpPortToUser : Value → Value
  | .int n =>
    match OFPMatch10.ofpp.find? fun x => (x.2 : ℤ) = n with
    | some x => .str x.1
    | none => .int n
  | .str s => .str s

/-- What is left of the word by a network of a length. -/
def nwBits (shift mask : ℕ) : BitVec 32 :=
  (BitVec.ofNat 32 (32 - mask) <<< shift) ||| ~~~ofpfwNwMask shift

/-- A branch of the loop of `to_match`: the variable it sets, and what it leaves of the word. -/
def convert : (f : MatchField) → Value → Except PyError (f.Attr × BitVec 32)
  | .inPort, v => .ok (ofpPortFromUser v, ~~~MatchField.inPort.flag)
  | .dlSrc, v => (OFPMatch10.haddrToBin ac v).map fun n => (n, ~~~MatchField.dlSrc.flag)
  | .dlDst, v => (OFPMatch10.haddrToBin ac v).map fun n => (n, ~~~MatchField.dlDst.flag)
  | .dlVlan, v => (strToInt v).map fun n => (n, ~~~MatchField.dlVlan.flag)
  | .dlVlanPcp, v => (strToInt v).map fun n => (n, ~~~MatchField.dlVlanPcp.flag)
  | .dlType, v => (strToInt v).map fun n => (n, ~~~MatchField.dlType.flag)
  | .nwTos, v => (strToInt v).map fun n => (n, ~~~MatchField.nwTos.flag)
  | .nwProto, v => (strToInt v).map fun n => (n, ~~~MatchField.nwProto.flag)
  | .nwSrc, v => (OFPMatch10.toNetwork aton v).map fun n => (n.1, nwBits ofpfwNwSrcShift n.2)
  | .nwDst, v => (OFPMatch10.toNetwork aton v).map fun n => (n.1, nwBits ofpfwNwDstShift n.2)
  | .tpSrc, v => (strToInt v).map fun n => (n, ~~~MatchField.tpSrc.flag)
  | .tpDst, v => (strToInt v).map fun n => (n, ~~~MatchField.tpDst.flag)

/-- The variable of a field is set, and the word loses bits. -/
def OFPMatch.set (m : OFPMatch) (f : MatchField) (u : f.Attr × BitVec 32) : OFPMatch where
  wildcards := m.wildcards &&& u.2
  attr := update m.attr f u.1

/-- A turn of the loop of `to_match`; a key that is not known is reported and left out. -/
def setField (m : OFPMatch) (k : RestKey) (v : Value) : Except PyError OFPMatch :=
  match MatchField.ofKey k with
  | none => .ok m
  | some f => (convert ac aton f v).map (m.set f)

def setFields : List (RestKey × Value) → OFPMatch → Except PyError OFPMatch
  | [], m => .ok m
  | (k, v) :: es, m =>
    match setField ac aton m k v with
    | .error e => .error e
    | .ok m => setFields es m

/-- `to_match`. -/
def toMatch (attrs : Dict RestKey Value) : Except PyError OFPMatch :=
  setFields ac aton attrs.entries .init

/-- `nw_src_to_str` and `nw_dst_to_str`, of the one group or the other. -/
def nwToStr (shift : ℕ) (wildcards : BitVec 32) (addr : ℕ) : Text :=
  let mask : ℤ := 32 - ((wildcards &&& ofpfwNwMask shift) >>> shift).toNat
  let mask := if mask = 32 then 0 else mask
  ipv4Format.write addr ++ if mask ≠ 0 then '/' :: (Value.int mask).toStr else []

def nwSrcToStr : BitVec 32 → ℕ → Text := nwToStr ofpfwNwSrcShift
def nwDstToStr : BitVec 32 → ℕ → Text := nwToStr ofpfwNwDstShift

/-- What `match_to_str` writes of a field. -/
def toUser (m : OFPMatch) : MatchField → Value
  | .inPort => ofpPortToUser (m.attr .inPort)
  | .dlSrc => .str (ac.binToText .mac (m.attr .dlSrc))
  | .dlDst => .str (ac.binToText .mac (m.attr .dlDst))
  | .dlVlan => .int (m.attr .dlVlan)
  | .dlVlanPcp => .int (m.attr .dlVlanPcp)
  | .dlType => .int (m.attr .dlType)
  | .nwTos => .int (m.attr .nwTos)
  | .nwProto => .int (m.attr .nwProto)
  | .nwSrc => .str (nwSrcToStr m.wildcards (m.attr .nwSrc))
  | .nwDst => .str (nwDstToStr m.wildcards (m.attr .nwDst))
  | .tpSrc => .int (m.attr .tpSrc)
  | .tpDst => .int (m.attr .tpDst)

/-- The field is written. -/
def Shown (m : OFPMatch) (f : MatchField) : Prop := ~~~m.wildcards &&& f.flag ≠ 0#32

instance (m : OFPMatch) (f : MatchField) : Decidable (Shown m f) :=
  inferInstanceAs (Decidable (_ ≠ _))

/-- `match_to_str`. -/
def matchToStr (m : OFPMatch) : Dict RestKey Value :=
  MatchField.all.foldl (fun d f => if Shown m f then d.set f.key (toUser ac m f) else d) Dict.empty

end Model

section Words

variable {f g : MatchField} {w c : BitVec 32} {mask shift : ℕ}

/-- The bits of a field. -/
def MatchField.bits : MatchField → BitVec 32
  | .nwSrc => ofpfwNwMask ofpfwNwSrcShift
  | .nwDst => ofpfwNwMask ofpfwNwDstShift
  | f => f.flag

theorem MatchField.mem_all (f : MatchField) : f ∈ MatchField.all := by
  cases f <;> decide

theorem ofKey_key (f : MatchField) : MatchField.ofKey f.key = some f := by
  cases f <;> decide

theorem ofKey_eq_some {k : RestKey} : MatchField.ofKey k = some f ↔ f.key = k := by
  constructor
  · intro h
    simpa using List.find?_some h
  · rintro rfl
    exact ofKey_key f

theorem key_inj : f.key = g.key ↔ f = g := by
  constructor
  · intro h
    have hf := ofKey_key f
    rw [h, ofKey_key] at hf
    exact (Option.some.inj hf).symm
  · rintro rfl
    rfl

/-- The bits of two fields are apart. -/
theorem bits_and_bits (h : f ≠ g) : f.bits &&& g.bits = 0#32 := by
  revert h
  cases f <;> cases g <;> decide

/-- Each bit of the word belongs to a field. -/
theorem exists_bits : ∀ i < 32, (~~~ofpfwAll).getLsbD i = true ∨
    ∃ f ∈ MatchField.all, f.bits.getLsbD i = true := by
  decide

/-- Words without other bits are the same if they agree on the bits of each field. -/
theorem eq_of_bits {w w' : BitVec 32} (hw : w &&& ~~~ofpfwAll = 0#32) (hw' : w' &&& ~~~ofpfwAll = 0#32)
    (h : ∀ f : MatchField, w &&& f.bits = w' &&& f.bits) : w = w' := by
  apply BitVec.eq_of_getLsbD_eq
  intro i hi
  rcases exists_bits i hi with hout | ⟨f, -, hf⟩
  · have hb := congrArg (fun x => x.getLsbD i) (hw.trans hw'.symm)
    simpa only [BitVec.getLsbD_and, hout, Bool.and_true] using hb
  · have hb := congrArg (fun x => x.getLsbD i) (h f)
    simpa only [BitVec.getLsbD_and, hf, Bool.and_true] using hb

theorem flag_and_bits (f : MatchField) : f.bits &&& f.flag = f.flag := by
  cases f <;> decide

theorem flag_ne_zero (f : MatchField) : f.flag ≠ 0#32 := by
  cases f <;> decide

/-- Only the bits of the field may be cleared. -/
theorem and_bits_of_ne (hc : c ||| f.bits = BitVec.allOnes 32) (h : f ≠ g) :
    c &&& g.bits = g.bits := by
  calc c &&& g.bits = (c &&& g.bits) ||| (f.bits &&& g.bits) := by
        rw [bits_and_bits h, BitVec.or_zero]
    _ = (c ||| f.bits) &&& g.bits := BitVec.and_or_distrib_right.symm
    _ = g.bits := by rw [hc, BitVec.allOnes_and]

/-- The flag is among the bits of the field. -/
theorem and_flag_of_bits (h : w &&& f.bits = c) : w &&& f.flag = c &&& f.flag := by
  rw [← h, BitVec.and_assoc, flag_and_bits]

/-- A field is written if its flag is cleared. -/
theorem shown_iff_flag {m : OFPMatch} : Shown m f ↔ m.wildcards &&& f.flag ≠ f.flag := by
  unfold Shown
  refine not_congr ⟨fun h => ?_, fun h => ?_⟩
  · calc m.wildcards &&& f.flag = (~~~m.wildcards &&& f.flag) ||| (m.wildcards &&& f.flag) := by
          rw [h, BitVec.zero_or]
      _ = (~~~m.wildcards ||| m.wildcards) &&& f.flag := BitVec.and_or_distrib_right.symm
      _ = f.flag := by rw [BitVec.not_or_self, BitVec.allOnes_and]
  · rw [← h, ← BitVec.and_assoc, BitVec.not_and_self]
    exact BitVec.zero_and

theorem nwBits_or (shift mask : ℕ) :
    nwBits shift mask ||| ofpfwNwMask shift = BitVec.allOnes 32 := by
  unfold nwBits
  rw [BitVec.or_assoc, BitVec.not_or_self, BitVec.or_allOnes]

/-- The count of a network, and its highest bit, which is that of a whole address. -/
theorem nwBits_count : ∀ mask ≤ 32, 0 < mask → ∀ shift ∈ [ofpfwNwSrcShift, ofpfwNwDstShift],
    ((nwBits shift mask &&& ofpfwNwMask shift) >>> shift).toNat = 32 - mask ∧
      nwBits shift mask &&& ofpfwNwAll shift = 0#32 := by
  decide

end Words

section Fields

variable {ac : AddrConv} {aton : Text → Option ℕ} {f g : MatchField} {v : Value}
  {u : f.Attr × BitVec 32} {m : OFPMatch}

/-- `socket.inet_aton` gives four bytes, and reads what `socket.inet_ntoa` writes. -/
structure InetAton (aton : Text → Option ℕ) : Prop where
  lt : ∀ {t n}, aton t = some n → n < 2 ^ 32
  ntoa : ∀ n < 2 ^ 32, aton (ipv4Format.write n) = some n

theorem map_eq_ok {α β : Type*} {e : Except PyError α} {f : α → β} {b : β}
    (h : e.map f = .ok b) : ∃ a, e = .ok a ∧ f a = b := by
  cases e with
  | error e => cases h
  | ok a => exact ⟨a, rfl, Except.ok.inj h⟩

theorem haddrToBin_lt {n : ℕ} (h : OFPMatch10.haddrToBin ac v = .ok n) : n < 2 ^ 48 := by
  unfold OFPMatch10.haddrToBin at h
  cases v with
  | int i =>
    dsimp only at h
    split at h
    · next hi =>
      obtain rfl := Except.ok.inj h
      omega
    · cases h
  | str s =>
    dsimp only at h
    split at h
    · next hs =>
      obtain rfl := Except.ok.inj h
      exact (ac.lt_size hs).1
    · cases h

theorem haddrToBin_binToText {n : ℕ} (h : n < 2 ^ 48) :
    OFPMatch10.haddrToBin ac (.str (ac.binToText .mac n)) = .ok n := by
  have hread : ac.textToBin .mac (ac.binToText .mac n) = some (n, none) := ac.text_bin h
  unfold OFPMatch10.haddrToBin
  simp only [hread]

/-- A network that is read has an address of four bytes, and a length of 1 to 32. -/
theorem toNetwork_bounds (haton : InetAton aton) {n : ℕ × ℕ}
    (h : OFPMatch10.toNetwork aton v = .ok n) : n.1 < 2 ^ 32 ∧ 0 < n.2 ∧ n.2 ≤ 32 := by
  unfold OFPMatch10.toNetwork at h
  cases v with
  | int i => cases h
  | str s =>
    dsimp only at h
    split at h
    · cases h
    · next addr haddr =>
      have hlt := haton.lt haddr
      split at h
      · split at h
        · cases h
        · split at h
          · next hmask =>
            obtain rfl := Except.ok.inj h
            dsimp only
            omega
          · cases h
      · obtain rfl := Except.ok.inj h
        exact ⟨hlt, Nat.succ_pos 31, Nat.le_refl 32⟩

/-- A network that is written is read. -/
theorem toNetwork_networkToStr (haton : InetAton aton) {n : ℕ × ℕ} (hn : n.1 < 2 ^ 32)
    (hpos : 0 < n.2) (hle : n.2 ≤ 32) :
    OFPMatch10.toNetwork aton (.str (OFPMatch10.networkToStr n)) = .ok n := by
  have hslash : '/' ∉ ipv4Format.write n.1 :=
    GroupFormat.not_mem_write (by decide) (by decide)
  unfold OFPMatch10.toNetwork OFPMatch10.networkToStr
  by_cases hm : n.2 = 32
  · rw [if_pos hm, List.append_nil]
    simp only [List.splitOn_eq_singleton hslash, List.headD_cons, haton.ntoa n.1 hn]
    rw [← hm]
  · rw [if_neg hm]
    simp only [splitOn_slash hslash (slash_not_mem_dec n.2), List.headD_cons, haton.ntoa n.1 hn,
      int?_dec]
    rw [if_pos ⟨by omega, by omega⟩, Int.toNat_natCast]

theorem ofpPortFromUser_toUser (v : Value) :
    ofpPortFromUser (ofpPortToUser (ofpPortFromUser v)) = ofpPortFromUser v := by
  have hint : ∀ n : ℤ, ofpPortFromUser (ofpPortToUser (.int n)) = .int n := by
    intro n
    unfold ofpPortToUser
    cases hf : OFPMatch10.ofpp.find? fun x => (x.2 : ℤ) = n with
    | none => simp only [hf]; rfl
    | some x =>
      have hx := List.mem_of_find?_eq_some hf
      have hn : (x.2 : ℤ) = n := by simpa using List.find?_some hf
      have hall : ∀ x ∈ OFPMatch10.ofpp, ofpPortFromUser (.str x.1) = .int x.2 := by decide
      simp only [hf]
      rw [hall x hx, hn]
  cases hv : ofpPortFromUser v with
  | int n => exact hint n
  | str s =>
    -- A text that is left is the one that was given.
    cases v with
    | int n => cases hv
    | str t =>
      have ht : s = t := by
        unfold ofpPortFromUser reservedNumFromUser at hv
        dsimp only at hv
        split at hv
        · cases hv
        · split at hv
          · cases hv
          · exact (Value.str.inj hv).symm
      rw [ht] at hv ⊢
      exact hv

/-- What a branch of the loop leaves of the word: all but a flag, or the count of a network. -/
theorem convert_word (haton : InetAton aton) (h : convert ac aton f v = .ok u) :
    f.flag = f.bits ∧ u.2 = ~~~f.bits ∨
      ∃ shift ∈ [ofpfwNwSrcShift, ofpfwNwDstShift], ∃ mask ≤ 32, 0 < mask ∧
        f.flag = ofpfwNwAll shift ∧ f.bits = ofpfwNwMask shift ∧ u.2 = nwBits shift mask := by
  cases f with
  | inPort =>
    obtain rfl := Except.ok.inj h
    exact Or.inl ⟨rfl, rfl⟩
  | nwSrc =>
    obtain ⟨n, hn, rfl⟩ := map_eq_ok h
    obtain ⟨-, hpos, hle⟩ := toNetwork_bounds haton hn
    exact Or.inr ⟨ofpfwNwSrcShift, by simp, n.2, hle, hpos, rfl, rfl, rfl⟩
  | nwDst =>
    obtain ⟨n, hn, rfl⟩ := map_eq_ok h
    obtain ⟨-, hpos, hle⟩ := toNetwork_bounds haton hn
    exact Or.inr ⟨ofpfwNwDstShift, by simp, n.2, hle, hpos, rfl, rfl, rfl⟩
  | _ =>
    obtain ⟨n, -, rfl⟩ := map_eq_ok h
    exact Or.inl ⟨rfl, rfl⟩

theorem convert_or_bits (haton : InetAton aton) (h : convert ac aton f v = .ok u) :
    u.2 ||| f.bits = BitVec.allOnes 32 := by
  rcases convert_word haton h with ⟨-, hu⟩ | ⟨shift, -, mask, -, -, -, hbits, hu⟩
  · rw [hu, BitVec.not_or_self]
  · rw [hu, hbits, nwBits_or]

theorem convert_and_flag (haton : InetAton aton) (h : convert ac aton f v = .ok u) :
    u.2 &&& f.flag = 0#32 := by
  rcases convert_word haton h with ⟨hflag, hu⟩ | ⟨shift, hshift, mask, hle, hpos, hflag, -, hu⟩
  · rw [hu, hflag, BitVec.not_and_self]
    rfl
  · rw [hu, hflag]
    exact (nwBits_count mask hle hpos shift hshift).2

/-- A network is written with the length that the word counts. -/
theorem nwToStr_eq {shift mask addr : ℕ} {w : BitVec 32}
    (hshift : shift ∈ [ofpfwNwSrcShift, ofpfwNwDstShift]) (hpos : 0 < mask) (hle : mask ≤ 32)
    (hw : w &&& ofpfwNwMask shift = nwBits shift mask &&& ofpfwNwMask shift) :
    nwToStr shift w addr = OFPMatch10.networkToStr (addr, mask) := by
  have hcount := (nwBits_count mask hle hpos shift hshift).1
  unfold nwToStr OFPMatch10.networkToStr
  rw [hw, hcount]
  have hmask : (32 : ℤ) - ((32 - mask : ℕ) : ℤ) = mask := by omega
  dsimp only
  rw [hmask]
  by_cases hm : mask = 32
  · subst hm
    rfl
  · have hne : ¬ (mask : ℤ) = 32 := by omega
    have hzero : (mask : ℤ) ≠ 0 := by omega
    rw [if_neg hne, if_pos hzero, if_neg hm, toStr_int]

/-- What is written of a field that was given is read as what was given. -/
theorem convert_toUser (haton : InetAton aton) (h : convert ac aton f v = .ok u)
    (hattr : m.attr f = u.1) (hw : m.wildcards &&& f.bits = u.2 &&& f.bits) :
    convert ac aton f (toUser ac m f) = .ok u := by
  cases f with
  | inPort =>
    obtain rfl := Except.ok.inj h
    unfold toUser convert
    dsimp only
    rw [hattr, ofpPortFromUser_toUser]
  | dlSrc =>
    obtain ⟨n, hn, rfl⟩ := map_eq_ok h
    unfold toUser convert
    dsimp only
    rw [hattr, haddrToBin_binToText (haddrToBin_lt hn)]
    rfl
  | dlDst =>
    obtain ⟨n, hn, rfl⟩ := map_eq_ok h
    unfold toUser convert
    dsimp only
    rw [hattr, haddrToBin_binToText (haddrToBin_lt hn)]
    rfl
  | nwSrc =>
    obtain ⟨n, hn, rfl⟩ := map_eq_ok h
    obtain ⟨hlt, hpos, hle⟩ := toNetwork_bounds haton hn
    unfold toUser convert nwSrcToStr
    dsimp only
    rw [hattr, nwToStr_eq (by simp) hpos hle hw, toNetwork_networkToStr haton hlt hpos hle]
    rfl
  | nwDst =>
    obtain ⟨n, hn, rfl⟩ := map_eq_ok h
    obtain ⟨hlt, hpos, hle⟩ := toNetwork_bounds haton hn
    unfold toUser convert nwDstToStr
    dsimp only
    rw [hattr, nwToStr_eq (by simp) hpos hle hw, toNetwork_networkToStr haton hlt hpos hle]
    rfl
  | _ =>
    obtain ⟨n, -, rfl⟩ := map_eq_ok h
    unfold toUser convert
    dsimp only
    rw [hattr]
    rfl

end Fields

section Loop

variable {ac : AddrConv} {aton : Text → Option ℕ} {f g : MatchField} {k : RestKey} {v : Value}
  {es : List (RestKey × Value)} {attrs : Dict RestKey Value} {m m₀ m₁ : OFPMatch}

theorem setField_cases (h : setField ac aton m k v = .ok m₁) :
    (∀ f : MatchField, f.key ≠ k) ∧ m₁ = m ∨ ∃ (g : MatchField) (u : g.Attr × BitVec 32),
      g.key = k ∧ convert ac aton g v = .ok u ∧ m₁ = m.set g u := by
  unfold setField at h
  cases hk : MatchField.ofKey k with
  | none =>
    simp only [hk] at h
    refine Or.inl ⟨fun f hf => ?_, (Except.ok.inj h).symm⟩
    rw [ofKey_eq_some.2 hf] at hk
    cases hk
  | some g =>
    simp only [hk] at h
    obtain ⟨u, hu, rfl⟩ := map_eq_ok h
    exact Or.inr ⟨g, u, ofKey_eq_some.1 hk, hu, rfl⟩

theorem setFields_cons (h : setFields ac aton ((k, v) :: es) m₀ = .ok m) :
    ∃ m₁, setField ac aton m₀ k v = .ok m₁ ∧ setFields ac aton es m₁ = .ok m := by
  unfold setFields at h
  cases h₁ : setField ac aton m₀ k v with
  | error e =>
    rw [h₁] at h
    cases h
  | ok m₁ =>
    rw [h₁] at h
    exact ⟨m₁, rfl, h⟩

/-- A field leaves the others, and their bits. -/
theorem set_of_ne (haton : InetAton aton) {u : g.Attr × BitVec 32}
    (hu : convert ac aton g v = .ok u) (hne : g ≠ f) :
    (m.set g u).attr f = m.attr f ∧
      (m.set g u).wildcards &&& f.bits = m.wildcards &&& f.bits := by
  refine ⟨update_of_ne (Ne.symm hne) .., ?_⟩
  unfold OFPMatch.set
  rw [BitVec.and_assoc, and_bits_of_ne (convert_or_bits haton hu) hne]

/-- A field that was not set is set to what was read. -/
theorem set_self {u : f.Attr × BitVec 32} (hm : m.wildcards &&& f.bits = f.bits) :
    (m.set f u).attr f = u.1 ∧ (m.set f u).wildcards &&& f.bits = u.2 &&& f.bits := by
  refine ⟨update_self .., ?_⟩
  unfold OFPMatch.set
  rw [BitVec.and_comm m.wildcards, BitVec.and_assoc, hm]

/-- The word only loses bits. -/
theorem setFields_within {c : BitVec 32} (h : setFields ac aton es m₀ = .ok m)
    (hc : m₀.wildcards &&& c = 0#32) : m.wildcards &&& c = 0#32 := by
  induction es generalizing m₀ with
  | nil =>
    obtain rfl := Except.ok.inj h
    exact hc
  | cons e es ih =>
    obtain ⟨m₁, h₁, h⟩ := setFields_cons h
    refine ih h ?_
    rcases setField_cases h₁ with ⟨-, rfl⟩ | ⟨g, u, -, -, rfl⟩
    · exact hc
    · unfold OFPMatch.set
      rw [BitVec.and_assoc, BitVec.and_comm u.2, ← BitVec.and_assoc, hc, BitVec.zero_and]

/-- The loop leaves a field that is not given, and its bits. -/
theorem setFields_absent (haton : InetAton aton) (h : setFields ac aton es m₀ = .ok m)
    (hf : f.key ∉ es.map Prod.fst) :
    m.attr f = m₀.attr f ∧ m.wildcards &&& f.bits = m₀.wildcards &&& f.bits := by
  induction es generalizing m₀ with
  | nil =>
    obtain rfl := Except.ok.inj h
    exact ⟨rfl, rfl⟩
  | cons e es ih =>
    rw [List.map_cons, List.mem_cons, not_or] at hf
    obtain ⟨m₁, h₁, h⟩ := setFields_cons h
    obtain ⟨hattr, hbits⟩ := ih h hf.2
    rcases setField_cases h₁ with ⟨-, rfl⟩ | ⟨g, u, hg, hu, rfl⟩
    · exact ⟨hattr, hbits⟩
    · have hne : g ≠ f := by
        rintro rfl
        exact hf.1 hg
      obtain ⟨hattr₁, hbits₁⟩ := set_of_ne (m := m₀) haton hu hne
      exact ⟨hattr.trans hattr₁, hbits.trans hbits₁⟩

/-- The loop sets a field that is given, and clears bits of its own. -/
theorem setFields_given (haton : InetAton aton) (h : setFields ac aton es m₀ = .ok m)
    (hnd : (es.map Prod.fst).Nodup) (hv : (f.key, v) ∈ es)
    (hm₀ : m₀.wildcards &&& f.bits = f.bits) :
    ∃ u, convert ac aton f v = .ok u ∧ m.attr f = u.1 ∧
      m.wildcards &&& f.bits = u.2 &&& f.bits := by
  induction es generalizing m₀ with
  | nil => cases hv
  | cons e es ih =>
    rw [List.map_cons, List.nodup_cons] at hnd
    obtain ⟨m₁, h₁, hrest⟩ := setFields_cons h
    rcases List.mem_cons.mp hv with rfl | hv
    · obtain ⟨hattr, hbits⟩ := setFields_absent haton hrest hnd.1
      rcases setField_cases h₁ with ⟨hno, -⟩ | ⟨g, u, hg, hu, rfl⟩
      · exact absurd rfl (hno f)
      · obtain rfl := key_inj.1 hg
        obtain ⟨hattr₁, hbits₁⟩ := set_self (u := u) hm₀
        exact ⟨u, hu, hattr.trans hattr₁, hbits.trans hbits₁⟩
    · refine ih hrest hnd.2 hv ?_
      rcases setField_cases h₁ with ⟨-, rfl⟩ | ⟨g, u, hg, hu, rfl⟩
      · exact hm₀
      · have hne : g ≠ f := by
          rintro rfl
          exact hnd.1 (hg ▸ List.mem_map_of_mem hv)
        exact (set_of_ne haton hu hne).2.trans hm₀

/-- The loop raises nothing if no branch does. -/
theorem setFields_ok (h : ∀ e ∈ es, ∀ f : MatchField, f.key = e.1 →
    ∃ u, convert ac aton f e.2 = .ok u) : ∃ m, setFields ac aton es m₀ = .ok m := by
  induction es generalizing m₀ with
  | nil => exact ⟨m₀, rfl⟩
  | cons e es ih =>
    have hfirst : ∃ m₁, setField ac aton m₀ e.1 e.2 = .ok m₁ := by
      unfold setField
      cases hk : MatchField.ofKey e.1 with
      | none => exact ⟨m₀, rfl⟩
      | some f =>
        obtain ⟨u, hu⟩ := h e List.mem_cons_self f (ofKey_eq_some.1 hk)
        dsimp only
        rw [hu]
        exact ⟨_, rfl⟩
    obtain ⟨m₁, h₁⟩ := hfirst
    obtain ⟨m, hm⟩ : ∃ m, setFields ac aton es m₁ = .ok m :=
      ih fun e he => h e (List.mem_cons_of_mem _ he)
    refine ⟨m, ?_⟩
    unfold setFields
    rw [h₁]
    exact hm

end Loop

section Refinement

variable {ac : AddrConv} {aton : Text → Option ℕ} {f g : MatchField} {k : RestKey} {v : Value}
  {es : List (RestKey × Value)} {attrs : Dict RestKey Value} {m m' m₁ : OFPMatch}

/-- The value of a field that counts. -/
def given (m : OFPMatch) (f : MatchField) : Option f.Attr :=
  if Shown m f then some (m.attr f) else none

/-- The length of a network that the word counts. -/
def nwLength (shift : ℕ) (wildcards : BitVec 32) : ℕ :=
  32 - ((wildcards &&& ofpfwNwMask shift) >>> shift).toNat

/-- The fields of a match that count. -/
def fields (m : OFPMatch) : OFPMatch10 Value where
  inPort := given m .inPort
  dlSrc := given m .dlSrc
  dlDst := given m .dlDst
  dlVlan := (given m .dlVlan).map Value.int
  dlVlanPcp := (given m .dlVlanPcp).map Value.int
  dlType := (given m .dlType).map Value.int
  nwTos := (given m .nwTos).map Value.int
  nwProto := (given m .nwProto).map Value.int
  nwSrc := (given m .nwSrc).map fun n => (n, nwLength ofpfwNwSrcShift m.wildcards)
  nwDst := (given m .nwDst).map fun n => (n, nwLength ofpfwNwDstShift m.wildcards)
  tpSrc := (given m .tpSrc).map Value.int
  tpDst := (given m .tpDst).map Value.int

theorem given_congr (hattr : m.attr f = m'.attr f)
    (hbits : m.wildcards &&& f.bits = m'.wildcards &&& f.bits) : given m f = given m' f := by
  have hshown : Shown m f ↔ Shown m' f := by
    rw [shown_iff_flag, shown_iff_flag, and_flag_of_bits hbits, BitVec.and_assoc, flag_and_bits]
  unfold given
  rw [hattr]
  simp only [hshown]

theorem given_set_of_ne (haton : InetAton aton) {u : g.Attr × BitVec 32}
    (hu : convert ac aton g v = .ok u) (hne : g ≠ f) : given (m.set g u) f = given m f :=
  given_congr (set_of_ne haton hu hne).1 (set_of_ne haton hu hne).2

theorem given_set_self (haton : InetAton aton) {u : f.Attr × BitVec 32}
    (hu : convert ac aton f v = .ok u) (hm : m.wildcards &&& f.bits = f.bits) :
    given (m.set f u) f = some u.1 := by
  obtain ⟨hattr, hbits⟩ := set_self (u := u) hm
  have hshown : Shown (m.set f u) f := by
    rw [shown_iff_flag, and_flag_of_bits hbits, BitVec.and_assoc, flag_and_bits,
      convert_and_flag haton hu]
    exact (flag_ne_zero f).symm
  unfold given
  rw [if_pos hshown, hattr]

theorem nwLength_of_bits {shift mask : ℕ} {w : BitVec 32}
    (hshift : shift ∈ [ofpfwNwSrcShift, ofpfwNwDstShift]) (hpos : 0 < mask) (hle : mask ≤ 32)
    (hw : w &&& ofpfwNwMask shift = nwBits shift mask &&& ofpfwNwMask shift) :
    nwLength shift w = mask := by
  unfold nwLength
  rw [hw, (nwBits_count mask hle hpos shift hshift).1]
  omega

theorem nwLength_congr {shift : ℕ} {w w' : BitVec 32}
    (h : w &&& ofpfwNwMask shift = w' &&& ofpfwNwMask shift) :
    nwLength shift w = nwLength shift w' := by
  unfold nwLength
  rw [h]

/-- A key that is of no field is passed over. -/
theorem setField_of_no_key {d : OFPMatch10 Value} (hno : ∀ f : MatchField, f.key ≠ k) :
    OFPMatch10.setField ac aton d k v = .ok d := by
  cases k with
  | oxm f =>
    cases f with
    | inPort => exact absurd rfl (hno .inPort)
    | _ => rfl
  | legacy key =>
    cases key with
    | dlDst => exact absurd rfl (hno .dlDst)
    | dlSrc => exact absurd rfl (hno .dlSrc)
    | dlType => exact absurd rfl (hno .dlType)
    | dlVlan => exact absurd rfl (hno .dlVlan)
    | nwSrc => exact absurd rfl (hno .nwSrc)
    | nwDst => exact absurd rfl (hno .nwDst)
    | nwProto => exact absurd rfl (hno .nwProto)
    | tpSrc => exact absurd rfl (hno .tpSrc)
    | tpDst => exact absurd rfl (hno .tpDst)
  | unknown name =>
    have hpcp : name ≠ "dl_vlan_pcp" := by
      rintro rfl
      exact hno .dlVlanPcp rfl
    have htos : name ≠ "nw_tos" := by
      rintro rfl
      exact hno .nwTos rfl
    unfold OFPMatch10.setField
    simp only [hpcp, htos, if_false]

/-- A turn of the loop sets the field of its key. -/
theorem setField_fields (haton : InetAton aton)
    (hm : ∀ f : MatchField, f.key = k → m.wildcards &&& f.bits = f.bits)
    (h : setField ac aton m k v = .ok m₁) :
    OFPMatch10.setField ac aton (fields m) k v = .ok (fields m₁) := by
  rcases setField_cases h with ⟨hno, rfl⟩ | ⟨g, u, rfl, hu, rfl⟩
  · exact setField_of_no_key hno
  · have hself := given_set_self haton hu (hm g rfl)
    have hbits := (set_self (u := u) (hm g rfl)).2
    have hother : ∀ f, g ≠ f → given (m.set g u) f = given m f :=
      fun f hne => given_set_of_ne haton hu hne
    have hsrc : g ≠ .nwSrc → nwLength ofpfwNwSrcShift (m.set g u).wildcards =
        nwLength ofpfwNwSrcShift m.wildcards :=
      fun hne => nwLength_congr (set_of_ne (m := m) haton hu hne).2
    have hdst : g ≠ .nwDst → nwLength ofpfwNwDstShift (m.set g u).wildcards =
        nwLength ofpfwNwDstShift m.wildcards :=
      fun hne => nwLength_congr (set_of_ne (m := m) haton hu hne).2
    unfold OFPMatch10.setField fields
    cases g with
    | inPort =>
      obtain rfl := Except.ok.inj hu
      rw [hself, hsrc (by simp), hdst (by simp)]
      simp only [MatchField.key, hother, ne_eq, reduceCtorEq, not_false_eq_true]
      rfl
    | nwSrc =>
      obtain ⟨n, hn, rfl⟩ := map_eq_ok hu
      obtain ⟨-, hpos, hle⟩ := toNetwork_bounds haton hn
      have hlen : nwLength ofpfwNwSrcShift (m.set .nwSrc (n.1, nwBits ofpfwNwSrcShift n.2)).wildcards =
          n.2 := nwLength_of_bits (by simp) hpos hle hbits
      rw [hself, hlen, hdst (by simp)]
      simp only [MatchField.key, hother, ne_eq, reduceCtorEq, not_false_eq_true, hn]
      rfl
    | nwDst =>
      obtain ⟨n, hn, rfl⟩ := map_eq_ok hu
      obtain ⟨-, hpos, hle⟩ := toNetwork_bounds haton hn
      have hlen : nwLength ofpfwNwDstShift (m.set .nwDst (n.1, nwBits ofpfwNwDstShift n.2)).wildcards =
          n.2 := nwLength_of_bits (by simp) hpos hle hbits
      rw [hself, hlen, hsrc (by simp)]
      simp only [MatchField.key, hother, ne_eq, reduceCtorEq, not_false_eq_true, hn]
      rfl
    | _ =>
      obtain ⟨n, hn, rfl⟩ := map_eq_ok hu
      rw [hself, hsrc (by simp), hdst (by simp)]
      simp only [MatchField.key, hother, ne_eq, reduceCtorEq, not_false_eq_true, hn]
      rfl

/-- What is read without regard to the word are the fields that count. -/
theorem setFields_fields (haton : InetAton aton) (hnd : (es.map Prod.fst).Nodup)
    (hm : ∀ f : MatchField, f.key ∈ es.map Prod.fst → m.wildcards &&& f.bits = f.bits)
    (h : setFields ac aton es m = .ok m₁) :
    OFPMatch10.setFields ac aton es (fields m) = .ok (fields m₁) := by
  induction es generalizing m with
  | nil =>
    obtain rfl := Except.ok.inj h
    rfl
  | cons e es ih =>
    rw [List.map_cons, List.nodup_cons] at hnd
    obtain ⟨m₂, h₂, hrest⟩ := setFields_cons h
    have hfirst := setField_fields haton (fun f hf => hm f (hf ▸ List.mem_cons_self)) h₂
    have hm₂ : ∀ f : MatchField, f.key ∈ es.map Prod.fst → m₂.wildcards &&& f.bits = f.bits := by
      intro f hf
      have hmf := hm f (List.mem_cons_of_mem _ hf)
      rcases setField_cases h₂ with ⟨-, rfl⟩ | ⟨g, u, hg, hu, rfl⟩
      · exact hmf
      · have hne : g ≠ f := by
          rintro rfl
          exact hnd.1 (hg ▸ hf)
        exact (set_of_ne haton hu hne).2.trans hmf
    unfold OFPMatch10.setFields
    rw [hfirst]
    exact ih hnd.2 hm₂ hrest

theorem toMatch_fields (haton : InetAton aton) (h : toMatch ac aton attrs = .ok m) :
    OFPMatch10.setFields ac aton attrs.entries (OFPMatch10.wildcard Value) = .ok (fields m) := by
  have hinit : fields OFPMatch.init = OFPMatch10.wildcard Value := by
    decide
  rw [← hinit]
  exact setFields_fields haton attrs.nodup_keys (fun f _ => by cases f <;> decide) h

end Refinement

section Claims

variable {ac : AddrConv} {aton : Text → Option ℕ} {f : MatchField} {k : RestKey} {v : Value}
  {attrs : Dict RestKey Value} {m : OFPMatch}

/-- A match as it is made of a dictionary: a field that is given is set and clears bits of its own,
and the others are as they were. -/
structure MadeOf (ac : AddrConv) (aton : Text → Option ℕ) (attrs : Dict RestKey Value)
    (m : OFPMatch) : Prop where
  within : m.wildcards &&& ~~~ofpfwAll = 0#32
  absent : ∀ f : MatchField, attrs.get? f.key = none →
    m.attr f = OFPMatch.init.attr f ∧ m.wildcards &&& f.bits = f.bits
  given : ∀ (f : MatchField) v, attrs.get? f.key = some v → ∃ u, convert ac aton f v = .ok u ∧
    m.attr f = u.1 ∧ m.wildcards &&& f.bits = u.2 &&& f.bits

theorem madeOf_of_toMatch (haton : InetAton aton) (h : toMatch ac aton attrs = .ok m) :
    MadeOf ac aton attrs m where
  within := setFields_within h (by decide)
  absent f hf := by
    have hbits : OFPMatch.init.wildcards &&& f.bits = f.bits := by
      cases f <;> decide
    have hkey : f.key ∉ attrs.entries.map Prod.fst := by
      intro hmem
      have hsome := Dict.mem_keys_iff.mp hmem
      rw [hf] at hsome
      cases hsome
    obtain ⟨hattr, hw⟩ := setFields_absent haton h hkey
    exact ⟨hattr, hw.trans hbits⟩
  given f v hv :=
    setFields_given haton h attrs.nodup_keys (Dict.mem_entries_iff.mpr hv) (by cases f <;> decide)

/-- The word tells the fields that are given. -/
theorem MadeOf.shown_iff (haton : InetAton aton) (h : MadeOf ac aton attrs m) :
    Shown m f ↔ attrs.get? f.key ≠ none := by
  rw [shown_iff_flag]
  cases hf : attrs.get? f.key with
  | none =>
    have hw := and_flag_of_bits (h.absent f hf).2
    rw [flag_and_bits] at hw
    exact iff_of_false (not_not_intro hw) (not_not_intro rfl)
  | some v =>
    obtain ⟨u, hu, -, hbits⟩ := h.given f v hf
    have hw := and_flag_of_bits hbits
    rw [BitVec.and_assoc, flag_and_bits, convert_and_flag haton hu] at hw
    rw [hw]
    exact iff_of_true (flag_ne_zero f).symm (Option.some_ne_none v)

/-- Only fields are written. -/
theorem get?_foldl_shown (fs : List MatchField) (d : Dict RestKey Value) (k : RestKey) :
    (fs.foldl (fun d f => if Shown m f then d.set f.key (toUser ac m f) else d) d).get? k =
      match MatchField.ofKey k with
      | some f => if f ∈ fs ∧ Shown m f then some (toUser ac m f) else d.get? k
      | none => d.get? k := by
  induction fs generalizing d with
  | nil =>
    cases MatchField.ofKey k with
    | none => rfl
    | some f => simp
  | cons g fs ih =>
    rw [List.foldl_cons, ih]
    have hset : (if Shown m g then d.set g.key (toUser ac m g) else d).get? k =
        if Shown m g ∧ g.key = k then some (toUser ac m g) else d.get? k := by
      by_cases hg : Shown m g
      · rw [if_pos hg, Dict.get?_set]
        simp only [hg, true_and]
      · rw [if_neg hg, if_neg fun h => hg h.1]
    rw [hset]
    cases hk : MatchField.ofKey k with
    | none =>
      have hne : ¬ (Shown m g ∧ g.key = k) := by
        rintro ⟨-, hg⟩
        rw [ofKey_eq_some.2 hg] at hk
        cases hk
      exact if_neg hne
    | some f =>
      obtain rfl := ofKey_eq_some.1 hk
      simp only [List.mem_cons, key_inj]
      by_cases hfg : f = g
      · subst hfg
        by_cases hs : Shown m f <;> simp [hs]
      · have hgf : ¬ g = f := fun h => hfg h.symm
        simp only [hfg, hgf, false_or, and_false, if_false]

theorem get?_matchToStr_key (m : OFPMatch) (f : MatchField) :
    (matchToStr ac m).get? f.key = if Shown m f then some (toUser ac m f) else none := by
  unfold matchToStr
  rw [get?_foldl_shown, ofKey_key]
  simp only [MatchField.mem_all, true_and]
  rfl

theorem get?_matchToStr_of_ofKey (m : OFPMatch) (hk : MatchField.ofKey k = none) :
    (matchToStr ac m).get? k = none := by
  unfold matchToStr
  rw [get?_foldl_shown, hk]
  rfl

/-- A field is written exactly if it was given, and then read as what was given. -/
theorem MadeOf.matchToStr (haton : InetAton aton) (h : MadeOf ac aton attrs m) (f : MatchField) :
    attrs.get? f.key = none ∧ (matchToStr ac m).get? f.key = none ∨
      ∃ v u, attrs.get? f.key = some v ∧ convert ac aton f v = .ok u ∧ m.attr f = u.1 ∧
        m.wildcards &&& f.bits = u.2 &&& f.bits ∧
          (matchToStr ac m).get? f.key = some (toUser ac m f) ∧
            convert ac aton f (toUser ac m f) = .ok u := by
  rw [get?_matchToStr_key]
  cases hf : attrs.get? f.key with
  | none =>
    have hshown := (h.shown_iff haton (f := f)).not.mpr (not_not_intro hf)
    exact Or.inl ⟨rfl, if_neg hshown⟩
  | some v =>
    have hshown := (h.shown_iff haton (f := f)).mpr (by simp [hf])
    obtain ⟨u, hu, hattr, hbits⟩ := h.given f v hf
    exact Or.inr ⟨v, u, rfl, hu, hattr, hbits, if_pos hshown,
      convert_toUser haton hu hattr hbits⟩

/-- The match of a dictionary is known from what is read of each field. -/
theorem MadeOf.eq {attrs' : Dict RestKey Value} {m' : OFPMatch} (h : MadeOf ac aton attrs m)
    (h' : MadeOf ac aton attrs' m')
    (hread : ∀ f : MatchField, attrs.get? f.key = none ∧ attrs'.get? f.key = none ∨
      ∃ v v' u, attrs.get? f.key = some v ∧ attrs'.get? f.key = some v' ∧
        convert ac aton f v = .ok u ∧ convert ac aton f v' = .ok u) : m = m' := by
  have hboth : ∀ f, m.attr f = m'.attr f ∧ m.wildcards &&& f.bits = m'.wildcards &&& f.bits := by
    intro f
    rcases hread f with ⟨hf, hf'⟩ | ⟨v, v', u, hv, hv', hu, hu'⟩
    · obtain ⟨hattr, hbits⟩ := h.absent f hf
      obtain ⟨hattr', hbits'⟩ := h'.absent f hf'
      exact ⟨hattr.trans hattr'.symm, hbits.trans hbits'.symm⟩
    · obtain ⟨u₁, hu₁, hattr, hbits⟩ := h.given f v hv
      obtain ⟨u₂, hu₂, hattr', hbits'⟩ := h'.given f v' hv'
      obtain rfl := Except.ok.inj (hu.symm.trans hu₁)
      obtain rfl := Except.ok.inj (hu'.symm.trans hu₂)
      exact ⟨hattr.trans hattr'.symm, hbits.trans hbits'.symm⟩
  have hw := eq_of_bits h.within h'.within fun f => (hboth f).2
  have hattr : m.attr = m'.attr := funext fun f => (hboth f).1
  cases m
  cases m'
  dsimp only at hw hattr
  rw [hw, hattr]

/-- The dictionary of a match has the fields that were given, each of them is read as what was
given, and the match made of it is the match. -/
theorem toMatch_matchToStr (haton : InetAton aton) (h : toMatch ac aton attrs = .ok m) :
    (∀ k, (matchToStr ac m).get? k ≠ none ↔
        attrs.get? k ≠ none ∧ ∃ f : MatchField, f.key = k) ∧
      (∀ (f : MatchField) v, attrs.get? f.key = some v → ∃ w u,
        (matchToStr ac m).get? f.key = some w ∧ convert ac aton f v = .ok u ∧
          convert ac aton f w = .ok u) ∧
      toMatch ac aton (matchToStr ac m) = .ok m := by
  have hmade := madeOf_of_toMatch haton h
  have hfield := hmade.matchToStr haton
  refine ⟨fun k => ?_, fun f v hv => ?_, ?_⟩
  · cases hk : MatchField.ofKey k with
    | none =>
      rw [get?_matchToStr_of_ofKey m hk]
      refine iff_of_false (not_not_intro rfl) ?_
      rintro ⟨-, f, hf⟩
      rw [ofKey_eq_some.2 hf] at hk
      cases hk
    | some f =>
      obtain rfl := ofKey_eq_some.1 hk
      rcases hfield f with ⟨hf, hw⟩ | ⟨v, u, hf, -, -, -, hw, -⟩
      · rw [hf, hw]
        simp
      · rw [hf, hw]
        simp
  · rcases hfield f with ⟨hf, -⟩ | ⟨v', u, hf, hu, -, -, hw, hu'⟩
    · rw [hf] at hv
      cases hv
    · obtain rfl := Option.some.inj (hf.symm.trans hv)
      exact ⟨_, u, hw, hu, hu'⟩
  · obtain ⟨m', hm'⟩ : ∃ m', toMatch ac aton (matchToStr ac m) = .ok m' := by
      refine setFields_ok fun e he f hf => ?_
      have hget := Dict.mem_entries_iff.mp he
      rw [← hf] at hget
      rcases hfield f with ⟨-, hw⟩ | ⟨v, u, -, -, -, -, hw, hu⟩
      · rw [hw] at hget
        cases hget
      · have hval := Option.some.inj (hw.symm.trans hget)
        rw [← hval]
        exact ⟨u, hu⟩
    rw [hm']
    refine congrArg Except.ok ((madeOf_of_toMatch haton hm').eq hmade fun f => ?_)
    rcases hfield f with ⟨hf, hw⟩ | ⟨v, u, hf, hu, -, -, hw, hu'⟩
    · exact Or.inl ⟨hw, hf⟩
    · exact Or.inr ⟨_, v, u, hw, hf, hu', hu⟩

/-- Addresses with all their dots are read. -/
theorem inetAton_read : InetAton ipv4Format.read where
  lt h := GroupFormat.read_lt h
  ntoa _ hn := GroupFormat.read_write hn

/-- A host and a port. -/
def hostAttrs : Dict RestKey Value :=
  (Dict.empty.set MatchField.nwDst.key (.str "10.0.0.1/32".toList)).set MatchField.inPort.key
    (.int 65534)

theorem toMatch_matchToStr_host : ∃ m, toMatch plainConv ipv4Format.read hostAttrs = .ok m ∧
    toMatch plainConv ipv4Format.read (matchToStr plainConv m) = .ok m := by
  cases h : toMatch plainConv ipv4Format.read hostAttrs with
  | error e =>
    have hok : (toMatch plainConv ipv4Format.read hostAttrs).isOk = true := by decide
    rw [h] at hok
    cases hok
  | ok m => exact ⟨m, rfl, (toMatch_matchToStr inetAton_read h).2.2⟩

/-- The host is written without the length that was given, and the port by its name. -/
theorem host_respelled :
    (toMatch plainConv ipv4Format.read hostAttrs).toOption.map (fun m =>
      ((matchToStr plainConv m).get? MatchField.nwDst.key,
        (matchToStr plainConv m).get? MatchField.inPort.key)) =
          some (some (.str "10.0.0.1".toList), some (.str "LOCAL".toList)) ∧
      hostAttrs.get? MatchField.nwDst.key = some (.str "10.0.0.1/32".toList) ∧
        hostAttrs.get? MatchField.inPort.key = some (.int 65534) := by
  decide

end Claims

end Ryu.OfctlV10
