import Ryu.Bgp.RouteDistinguisher
import Ryu.Ofctl.Match

/-! # Labelled VPN prefixes

One length on the wire covers a stack of labels, an RD and an address. The stack ends with the
label that has the bottom bit, or that of a withdrawal, so it is read back if there is a label and
none but the last is one of a withdrawal. The property `prefix` takes off the length the bits of
one label, whatever the stack is.
-/

namespace Ryu.Bgp.Wire

open Bytes Numeral

section Model

/-- `_WITHDRAW_LABELS`, as three octets. -/
def withdrawLabels : List ℕ := [0x800000, 0x000000]

/-- The stack as three octets a label, with the bottom bit on the last. -/
def labelWords (labels : List ℕ) : List ℕ :=
  let labels := labels.map (· <<< 4)
  match labels.getLast? with
  | none => labels
  | some last => if last ∈ withdrawLabels then labels else labels.dropLast ++ [last ||| 1]

/-- `_label_to_bin`, for all labels. -/
def labelsToBin (labels : List ℕ) : List UInt8 := (labelWords labels).flatMap (toBytes 3)

/-- The loop over `_label_from_bin`, up to the bottom of the stack. -/
def splitLabels : List UInt8 → Option (List ℕ × List UInt8)
  | b1 :: b2 :: b3 :: rest =>
    let label := ofBytes [b1, b2, b3]
    if label &&& 1 ≠ 0 ∨ label ∈ withdrawLabels then some ([label], rest)
    else (splitLabels rest).map fun r => (label :: r.1, r.2)
  | _ => none

/-- `_has_no_label`. -/
def hasNoLabel (bin : List UInt8) : Bool :=
  match splitLabels bin with
  | none => true
  | some (labels, _) => ¬bin.length > 3 * labels.length

/-- `LabelledVPNIPAddrPrefix` or `LabelledVPNIP6AddrPrefix`: the bits of all on the wire, and the
tuple of the labels, the RD and the address. -/
structure LabelledVpnPrefix where
  length : ℕ
  addr : List ℕ × RouteDistinguisher × Text
  deriving DecidableEq, Repr

namespace LabelledVpnPrefix

/-- `label_list`. -/
def labelList (n : LabelledVpnPrefix) : List ℕ := n.addr.1

/-- The constructor, with the length of the mask. -/
def init (length : ℤ) (addr : Text) (labels : List ℕ) (routeDist : RouteDist) :
    Except PyError LabelledVpnPrefix :=
  let length := length + 24 * labels.length
  if length > 24 * labels.length then
    match routeDist.resolve with
    | .error e => .error e
    | .ok rd => .ok ⟨(length + 64).toNat, labels, rd, addr⟩
  else .error .assertionError

/-- The constructor as the parser calls it. -/
def ofTuple (length : ℕ) (addr : List ℕ × RouteDistinguisher × Text) :
    Except PyError LabelledVpnPrefix :=
  if length > 24 * addr.1.length ∧ length > 64 then .ok ⟨length, addr⟩ else .error .assertionError

/-- `len(self.addr[:-2])`, of a tuple of three. -/
def prefixes (_ : LabelledVpnPrefix) : ℕ := 3 - 2

def masklen (n : LabelledVpnPrefix) : ℤ := n.length - 64 - 24 * n.prefixes

/-- The property `prefix`. -/
def prefixStr (n : LabelledVpnPrefix) : Text := n.addr.2.2 ++ '/' :: decInt n.masklen

/-- `_table_key` of a VPN table: the properties `route_dist` and `prefix`. -/
def tableKey (n : LabelledVpnPrefix) : Text := n.addr.2.1.formattedStr ++ ':' :: n.prefixStr

end LabelledVpnPrefix

/-- The NLRI of a path that is imported: `IPAddrPrefix` or `IP6AddrPrefix`. -/
structure VrfPrefix where
  length : ℤ
  addr : Text
  deriving DecidableEq, Repr

/-- The property `prefix`. -/
def VrfPrefix.prefixStr (n : VrfPrefix) : Text := n.addr ++ '/' :: decInt n.length

/-- `ip, masklen = prefix.split('/')`, and `int(masklen)`. -/
def splitPrefix (str : Text) : Except PyError (Text × ℤ) :=
  match str.splitOn '/' with
  | [ip, masklen] =>
    match int? masklen with
    | some length => .ok (ip, length)
    | none => .error (.valueError "invalid literal for int() with base 10")
  | _ => .error (.valueError "too many values to unpack (expected 2)")

/-- The NLRI that `import_vpn_path` makes. -/
def LabelledVpnPrefix.importVpnPath (n : LabelledVpnPrefix) : Except PyError VrfPrefix :=
  (splitPrefix n.prefixStr).map fun r => ⟨r.2, r.1⟩

/-- The NLRI that `clone_to_vpn` makes of that of a path with these labels. -/
def VrfPrefix.cloneToVpn (n : VrfPrefix) (labels : List ℕ) (routeDist : RouteDist) :
    Except PyError LabelledVpnPrefix :=
  match splitPrefix n.prefixStr with
  | .error e => .error e
  | .ok (ip, masklen) => LabelledVpnPrefix.init masklen ip labels routeDist

variable (c : AddrConv) (k : AddrKind)

/-- `_prefix_to_bin`. -/
def prefixToBin (rd : RouteDistinguisher) (ip : Text) : Except PyError (List UInt8) :=
  match rd.serialize c with
  | .error e => .error e
  | .ok binrd => (toBin c k ip).map (binrd ++ ·)

/-- `_prefix_from_bin`. -/
def prefixFromBin (binaddr : List UInt8) : Except PyError (RouteDistinguisher × Text) :=
  match RouteDistinguisher.parser c (binaddr.take 8) with
  | .error e => .error e
  | .ok rd => (fromBin c k (binaddr.drop 8)).map (rd, ·)

namespace LabelledVpnPrefix

/-- `_to_bin`. -/
def toBin (addr : List ℕ × RouteDistinguisher × Text) : Except PyError (List UInt8) :=
  (prefixToBin c k addr.2.1 addr.2.2).map (labelsToBin addr.1 ++ ·)

/-- `_from_bin`. -/
def fromBin (bin : List UInt8) : Except PyError (List ℕ × RouteDistinguisher × Text) :=
  if hasNoLabel bin then (prefixFromBin c k bin).map ([], ·)
  else
    match splitLabels bin with
    | none => .error structError
    | some (labels, rest) => (prefixFromBin c k rest).map (labels.map (· >>> 4), ·)

/-- `_AddrPrefix.parser`. -/
def parser : List UInt8 → Except PyError (LabelledVpnPrefix × List UInt8)
  | [] => .error structError
  | length :: rest =>
    let byteLength := (length.toNat + 7) / 8
    match fromBin c k (rest.take byteLength) with
    | .error e => .error e
    | .ok addr => (ofTuple length.toNat addr).map (·, rest.drop byteLength)

/-- `_AddrPrefix.serialize`, beside the NLRI it leaves. -/
def serialize (n : LabelledVpnPrefix) : Except PyError (List UInt8) × LabelledVpnPrefix :=
  match toBin c k n.addr with
  | .error e => (.error e, n)
  | .ok bin =>
    match clearTrailing n.length bin with
    | .error e => (.error e, n)
    | .ok bin =>
      match fromBin c k bin with
      | .error e => (.error e, n)
      | .ok addr => ((packInto 1 n.length).map (· ++ bin), { n with addr := addr })

end LabelledVpnPrefix

/-- The argument is an RD or the text of it. -/
def RouteDist.Denotes (given : RouteDist) (rd : RouteDistinguisher) : Prop :=
  given = .rd rd ∨ given = .str rd.formattedStr

/-- An address with the length of its mask. -/
def routeStr (m v : ℕ) : Text := c.binToText k v ++ '/' :: dec m

/-- The NLRI is made, it is read back as it was, its prefix and its table key are those of the
address and the mask length, and these come back through a VRF. -/
def Preserved (labels : List ℕ) (given : RouteDist) (rd : RouteDistinguisher) (m v : ℕ) : Prop :=
  ∃ n, LabelledVpnPrefix.init m (c.binToText k v) labels given = .ok n ∧ n.labelList = labels ∧
    (∃ buf, n.serialize c k = (.ok buf, n) ∧
      ∀ rest, LabelledVpnPrefix.parser c k (buf ++ rest) = .ok (n, rest)) ∧
    n.prefixStr = routeStr c k m v ∧
    n.tableKey = rd.formattedStr ++ ':' :: routeStr c k m v ∧
    n.importVpnPath = .ok ⟨m, c.binToText k v⟩ ∧
    ∀ given', (∃ rd', given'.resolve = .ok rd') →
      ∃ n', VrfPrefix.cloneToVpn ⟨m, c.binToText k v⟩ n.labelList given' = .ok n' ∧
        n'.prefixStr = routeStr c k m v

/-- The stack can be told from what is behind it: it is not empty, and only its last label may
be one of a withdrawal. -/
def Delimited (labels : List ℕ) : Prop :=
  labels ≠ [] ∧ ∀ x ∈ labels.dropLast, x <<< 4 ∉ withdrawLabels

end Model

section Labels

variable {labels : List ℕ} {x y : ℕ}

theorem labelWords_cons (x y : ℕ) (labels : List ℕ) :
    labelWords (x :: y :: labels) = x <<< 4 :: labelWords (y :: labels) := by
  obtain ⟨last, hlast⟩ : ∃ last, ((y :: labels).map (· <<< 4)).getLast? = some last :=
    ⟨_, List.getLast?_eq_getLast_of_ne_nil (by simp)⟩
  have hlast' : ((x :: y :: labels).map (· <<< 4)).getLast? = some last := by
    rw [List.map_cons, List.map_cons, List.getLast?_cons_cons]
    exact hlast
  rw [labelWords, labelWords]
  simp only [hlast, hlast']
  split <;> simp

theorem labelWords_singleton (x : ℕ) : labelWords [x] =
    [if x <<< 4 ∈ withdrawLabels then x <<< 4 else x <<< 4 ||| 1] := by
  unfold labelWords
  simp only [List.map_cons, List.map_nil, List.getLast?_singleton]
  split <;> rfl

theorem shiftLeft_or_one (x : ℕ) : x <<< 4 ||| 1 = 16 * x + 1 := by
  rw [Nat.shiftLeft_eq, mul_comm]
  exact (Nat.two_pow_add_eq_or_of_lt (i := 4) (by decide) x).symm

/-- A label of 20 bits and the bottom bit have three octets. -/
theorem labelWords_lt : ∀ {labels : List ℕ}, (∀ x ∈ labels, x < 2 ^ 20) →
    ∀ w ∈ labelWords labels, w < 256 ^ 3
  | [], _ => by simp [labelWords]
  | [x], h => by
    have hx := h x List.mem_cons_self
    rw [labelWords_singleton, List.forall_mem_singleton, shiftLeft_or_one, Nat.shiftLeft_eq]
    split <;> omega
  | x :: y :: labels, h => by
    have hx := h x List.mem_cons_self
    rw [labelWords_cons, List.forall_mem_cons, Nat.shiftLeft_eq]
    exact ⟨by omega, labelWords_lt fun z hz => h z (List.mem_cons_of_mem _ hz)⟩

/-- The labels are the words without their last four bits. -/
theorem map_labelWords (labels : List ℕ) : (labelWords labels).map (· >>> 4) = labels := by
  match labels with
  | [] => rfl
  | [x] =>
    rw [labelWords_singleton, List.map_singleton, shiftLeft_or_one, Nat.shiftLeft_eq,
      Nat.shiftRight_eq_div_pow]
    congr 1
    split <;> omega
  | x :: y :: labels =>
    rw [labelWords_cons, List.map_cons, map_labelWords (y :: labels), Nat.shiftLeft_eq,
      Nat.shiftRight_eq_div_pow]
    congr 1
    omega

theorem length_labelWords (labels : List ℕ) : (labelWords labels).length = labels.length := by
  rw [← List.length_map (f := (· >>> 4)), map_labelWords]

theorem length_labelsToBin (labels : List ℕ) :
    (labelsToBin labels).length = 3 * labels.length := by
  have hw : ∀ w ∈ labelWords labels, (toBytes 3 w).length = 3 := fun w _ => length_toBytes 3 w
  rw [labelsToBin, List.length_flatMap, List.map_congr_left hw, List.map_const',
    List.sum_replicate_nat, length_labelWords, mul_comm]

/-- What the loop does with one label. -/
theorem splitLabels_word {w : ℕ} (hw : w < 256 ^ 3) (rest : List UInt8) :
    splitLabels (toBytes 3 w ++ rest) =
      if w &&& 1 ≠ 0 ∨ w ∈ withdrawLabels then some ([w], rest)
      else (splitLabels rest).map fun r => (w :: r.1, r.2) := by
  have hof : ofBytes (toBytes 3 w) = w := (ofBytes_toBytes 3 w).trans (Nat.mod_eq_of_lt hw)
  simp only [toBytes] at hof
  simp only [toBytes, List.cons_append, List.nil_append, splitLabels, hof]

/-- The stack is split from what is behind it. -/
theorem splitLabels_labelsToBin (rest : List UInt8) : ∀ {labels : List ℕ}, Delimited labels →
    (∀ x ∈ labels, x < 2 ^ 20) →
      splitLabels (labelsToBin labels ++ rest) = some (labelWords labels, rest)
  | [], hd, _ => absurd rfl hd.1
  | [x], _, h => by
    have hw := labelWords_lt h
    rw [labelWords_singleton, List.forall_mem_singleton] at hw
    rw [labelsToBin, labelWords_singleton, List.flatMap_singleton, splitLabels_word hw, if_pos]
    split
    · next hx => exact .inr hx
    · left
      rw [shiftLeft_or_one, Nat.and_one_is_mod]
      omega
  | x :: y :: labels, hd, h => by
    have hw := labelWords_lt h
    rw [labelWords_cons, List.forall_mem_cons] at hw
    have hx : x <<< 4 ∉ withdrawLabels := hd.2 x (by simp)
    have hbit : x <<< 4 &&& 1 = 0 := by
      rw [Nat.and_one_is_mod, Nat.shiftLeft_eq]
      omega
    have hd' : Delimited (y :: labels) :=
      ⟨List.cons_ne_nil _ _, fun z hz => hd.2 z (List.mem_cons_of_mem _ hz)⟩
    have ih := splitLabels_labelsToBin rest hd' fun z hz => h z (List.mem_cons_of_mem _ hz)
    rw [labelsToBin] at ih
    rw [labelsToBin, labelWords_cons, List.flatMap_cons, List.append_assoc, splitLabels_word hw.1,
      if_neg (by simp [hbit, hx]), ih]
    rfl

end Labels

section RoundTrip

variable {c : AddrConv} {k : AddrKind} {labels : List ℕ} {rd : RouteDistinguisher} {m v : ℕ}

/-- Bits behind whole octets are cleared on their own. -/
theorem clearTrailing_append (hm : 0 < m) (p a : List UInt8) :
    clearTrailing (8 * p.length + m) (p ++ a) = (clearTrailing m a).map (p ++ ·) := by
  have hb : (8 * p.length + m + 7) / 8 = p.length + (m + 7) / 8 := by omega
  have hb' : p.length + (m + 7) / 8 - 1 = p.length + ((m + 7) / 8 - 1) := by omega
  have hmod : (8 * p.length + m) % 8 = m % 8 := by omega
  unfold clearTrailing
  simp only [hb, hb', hmod]
  rw [List.getElem?_append_right (Nat.le_add_right _ _), Nat.add_sub_cancel_left,
    List.take_length_add_append, List.take_length_add_append]
  split
  · rfl
  · split
    · rfl
    · simp only [Except.map, List.append_assoc]

/-- The NLRI of a stack, an RD, a mask length and an address. -/
def LabelledVpnPrefix.of (c : AddrConv) (k : AddrKind) (labels : List ℕ) (rd : RouteDistinguisher)
    (m v : ℕ) : LabelledVpnPrefix :=
  ⟨24 * labels.length + 64 + m, labels, rd, c.binToText k v⟩

theorem init_eq_ok {length : ℤ} {addr : Text} {given : RouteDist} {n : LabelledVpnPrefix} :
    LabelledVpnPrefix.init length addr labels given = .ok n ↔ 0 < length ∧
      ∃ rd, given.resolve = .ok rd ∧
        n = ⟨(length + 24 * labels.length + 64).toNat, labels, rd, addr⟩ := by
  unfold LabelledVpnPrefix.init
  dsimp only
  split
  · next hl =>
    have h0 : 0 < length := by omega
    split
    · next e he => simp [he]
    · next rd hrd => simp [hrd, h0, eq_comm]
  · next hl =>
    have h0 : ¬0 < length := by omega
    simp [h0]

/-- What the constructor makes of a mask length that is not zero. -/
theorem init_of (hm : 0 < m) {given : RouteDist} (hr : given.resolve = .ok rd) :
    LabelledVpnPrefix.init m (c.binToText k v) labels given = .ok (.of c k labels rd m v) := by
  refine init_eq_ok.2 ⟨by omega, rd, hr, ?_⟩
  unfold LabelledVpnPrefix.of
  congr 1
  omega

theorem fromBin_labelsToBin (hd : Delimited labels) (hl : ∀ x ∈ labels, x < 2 ^ 20)
    {rest : List UInt8} (hrest : rest ≠ []) :
    LabelledVpnPrefix.fromBin c k (labelsToBin labels ++ rest) =
      (prefixFromBin c k rest).map (labels, ·) := by
  have hsplit := splitLabels_labelsToBin rest hd hl
  have hlen : hasNoLabel (labelsToBin labels ++ rest) = false := by
    have hpos := List.length_pos_iff.mpr hrest
    have hlong : (labelsToBin labels ++ rest).length > 3 * (labelWords labels).length := by
      rw [List.length_append, length_labelsToBin, length_labelWords]
      omega
    rw [hasNoLabel, hsplit]
    exact decide_eq_false (not_not.mpr hlong)
  rw [LabelledVpnPrefix.fromBin, hlen, hsplit]
  simp only [Bool.false_eq_true, if_false, map_labelWords]

/-- A stack that is delimited, an RD that fits, a mask length and an address without host bits
are read back, whatever is behind them. -/
theorem parser_serialize (hd : Delimited labels) (hl : ∀ x ∈ labels, x < 2 ^ 20) (hr : rd.Fits c)
    (hm : 0 < m) (hm' : m ≤ 8 * k.size) (hv : v < 256 ^ k.size)
    (hclear : v % 2 ^ (8 * k.size - m) = 0) (htotal : 24 * labels.length + 64 + m < 256) :
    ∃ buf, (LabelledVpnPrefix.of c k labels rd m v).serialize c k =
        (.ok buf, .of c k labels rd m v) ∧
      ∀ rest, LabelledVpnPrefix.parser c k (buf ++ rest) = .ok (.of c k labels rd m v, rest) := by
  obtain ⟨binrd, hbinrd, hrdlen, hrdparse⟩ := RouteDistinguisher.parser_serialize hr
  obtain ⟨bin, hbin, hbinlen, hof⟩ := clearTrailing_toBytes hm' hv
  have hval : ofBytes (padRight bin k.size) = v := by
    rw [hof]
    exact Nat.div_mul_cancel (Nat.dvd_of_mod_eq_zero hclear)
  have hsent : LabelledVpnPrefix.toBin c k (labels, rd, c.binToText k v) =
      .ok (labelsToBin labels ++ (binrd ++ toBytes k.size v)) := by
    rw [LabelledVpnPrefix.toBin, prefixToBin, hbinrd, Ryu.Bgp.toBin, c.text_bin hv]
    rfl
  have hcut : clearTrailing (24 * labels.length + 64 + m)
      (labelsToBin labels ++ (binrd ++ toBytes k.size v)) =
        .ok (labelsToBin labels ++ (binrd ++ bin)) := by
    have htot : 24 * labels.length + 64 + m = 8 * (labelsToBin labels ++ binrd).length + m := by
      rw [List.length_append, length_labelsToBin, hrdlen]
      omega
    rw [htot, ← List.append_assoc, clearTrailing_append hm, hbin, ← List.append_assoc]
    rfl
  have hread : LabelledVpnPrefix.fromBin c k (labelsToBin labels ++ (binrd ++ bin)) =
      .ok (labels, rd, c.binToText k v) := by
    have hne : binrd ++ bin ≠ [] := by
      intro he
      have hlen := congrArg List.length he
      rw [List.length_append, hrdlen] at hlen
      simp at hlen
    rw [fromBin_labelsToBin hd hl hne, prefixFromBin, List.take_left' hrdlen,
      List.drop_left' hrdlen, hrdparse]
    dsimp only
    rw [fromBin_ok (by omega), hval]
    rfl
  have hpack : packInto 1 (24 * labels.length + 64 + m) =
      .ok [UInt8.ofNat (24 * labels.length + 64 + m)] := by
    rw [packInto, if_pos (by omega), toBytes, toBytes, pow_zero, Nat.div_one]
  refine ⟨UInt8.ofNat (24 * labels.length + 64 + m) ::
    (labelsToBin labels ++ (binrd ++ bin)), ?_, ?_⟩
  · rw [LabelledVpnPrefix.serialize, LabelledVpnPrefix.of, hsent]
    dsimp only
    rw [hcut]
    dsimp only
    rw [hread, hpack]
    rfl
  · intro rest
    have hlength : (UInt8.ofNat (24 * labels.length + 64 + m)).toNat =
        24 * labels.length + 64 + m := UInt8.toNat_ofNat_of_lt' htotal
    have hbytes : (labelsToBin labels ++ (binrd ++ bin)).length =
        (24 * labels.length + 64 + m + 7) / 8 := by
      rw [List.length_append, List.length_append, length_labelsToBin, hrdlen, hbinlen]
      omega
    have hofTuple : LabelledVpnPrefix.ofTuple (24 * labels.length + 64 + m)
        (labels, rd, c.binToText k v) = .ok (.of c k labels rd m v) := by
      rw [LabelledVpnPrefix.ofTuple, if_pos (by dsimp only; omega)]
      rfl
    rw [List.cons_append, LabelledVpnPrefix.parser, hlength, List.take_left' hbytes,
      List.drop_left' hbytes, hread]
    dsimp only
    rw [hofTuple]
    rfl

theorem masklen_of (c : AddrConv) (k : AddrKind) (labels : List ℕ) (rd : RouteDistinguisher)
    (m v : ℕ) : (LabelledVpnPrefix.of c k labels rd m v).masklen = m + 24 * labels.length - 24 := by
  unfold LabelledVpnPrefix.masklen LabelledVpnPrefix.of LabelledVpnPrefix.prefixes
  push_cast
  ring

/-- The prefix has the mask length exactly if there is one label. -/
theorem prefixStr_of_iff :
    (LabelledVpnPrefix.of c k labels rd m v).prefixStr = routeStr c k m v ↔ labels.length = 1 := by
  have hmask := masklen_of c k labels rd m v
  constructor
  · intro h
    have hdec := List.tail_eq_of_cons_eq (List.append_cancel_left h)
    have hint := int?_decInt (LabelledVpnPrefix.of c k labels rd m v).masklen
    rw [hdec, int?_dec, Option.some.injEq, hmask] at hint
    omega
  · intro h
    have hm : (LabelledVpnPrefix.of c k labels rd m v).masklen = m := by
      rw [hmask, h]
      ring
    rw [LabelledVpnPrefix.prefixStr, hm, decInt_natCast]
    rfl

/-- NLRIs of one route have one table key exactly if their stacks are of one size. -/
theorem tableKey_of_iff {labels' : List ℕ} :
    (LabelledVpnPrefix.of c k labels rd m v).tableKey =
      (LabelledVpnPrefix.of c k labels' rd m v).tableKey ↔ labels.length = labels'.length := by
  have hmask := masklen_of c k labels rd m v
  have hmask' := masklen_of c k labels' rd m v
  constructor
  · intro h
    have hprefix := List.tail_eq_of_cons_eq (List.append_cancel_left h)
    have hdec := List.tail_eq_of_cons_eq (List.append_cancel_left hprefix)
    have hint := congrArg int? hdec
    rw [int?_decInt, int?_decInt, Option.some.injEq, hmask, hmask'] at hint
    omega
  · intro h
    have hm : (LabelledVpnPrefix.of c k labels rd m v).masklen =
        (LabelledVpnPrefix.of c k labels' rd m v).masklen := by rw [hmask, hmask', h]
    rw [LabelledVpnPrefix.tableKey, LabelledVpnPrefix.prefixStr, hm]
    rfl

theorem splitPrefix_route (hv : v < 256 ^ k.size) :
    splitPrefix (routeStr c k m v) = .ok (c.binToText k v, (m : ℤ)) := by
  rw [splitPrefix, routeStr, splitOn_slash (c.no_slash hv) (not_mem_dec (by decide))]
  simp only [int?_dec]

end RoundTrip

section Claims

variable {c : AddrConv} {k : AddrKind} {labels : List ℕ} {rd : RouteDistinguisher} {m v : ℕ}
  {given : RouteDist}

/-- An RD that is not misread is made, one that fits and has the text of the RD. -/
theorem resolve_of_denotes (hdot : Dotted c) (hr : rd.Fits c) (hg : given.Denotes rd)
    (hm : ¬(given = .str rd.formattedStr ∧ rd.Misread)) :
    ∃ rd', given.resolve = .ok rd' ∧ rd'.Fits c ∧ rd'.formattedStr = rd.formattedStr := by
  rcases hg with rfl | rfl
  · exact ⟨rd, rfl, hr, rfl⟩
  · exact RouteDistinguisher.fromStr_formattedStr hdot hr fun hmis => hm ⟨rfl, hmis⟩

/-- An RD that is misread is not sent. -/
theorem not_serialize_misread (hm : rd.Misread) {n : LabelledVpnPrefix} {buf : List UInt8}
    (hn : LabelledVpnPrefix.init m (c.binToText k v) labels (.str rd.formattedStr) = .ok n) :
    n.serialize c k ≠ (.ok buf, n) := by
  obtain ⟨-, rd', hrd', rfl⟩ := init_eq_ok.1 hn
  obtain ⟨r, hr, hser⟩ := RouteDistinguisher.serialize_misread (c := c) hm
  obtain rfl : rd' = r := Except.ok.inj (hrd'.symm.trans hr)
  have herr : ∃ e, LabelledVpnPrefix.toBin c k (labels, rd', c.binToText k v) = .error e := by
    cases hs : rd'.serialize c with
    | ok b => simp [hs] at hser
    | error e =>
      refine ⟨e, ?_⟩
      rw [LabelledVpnPrefix.toBin, prefixToBin, hs]
      rfl
  obtain ⟨e, he⟩ := herr
  intro h
  rw [LabelledVpnPrefix.serialize, he] at h
  cases h

/-- A labelled VPN prefix is preserved exactly if it has one label, its mask length is not zero,
and its RD is not a text that is misread. -/
theorem preserved_iff (hdot : Dotted c) (hr : rd.Fits c) (hg : given.Denotes rd)
    (hl : ∀ x ∈ labels, x < 2 ^ 20) (hm : m ≤ 8 * k.size) (hv : v < 256 ^ k.size)
    (hclear : v % 2 ^ (8 * k.size - m) = 0) :
    Preserved c k labels given rd m v ↔
      labels.length = 1 ∧ 0 < m ∧ ¬(given = .str rd.formattedStr ∧ rd.Misread) := by
  constructor
  · rintro ⟨n, hn, -, ⟨buf, hser, -⟩, hprefix, -⟩
    obtain ⟨h0, rd', hrd', -⟩ := init_eq_ok.1 hn
    have hpos : 0 < m := by omega
    obtain rfl := Except.ok.inj (hn.symm.trans (init_of hpos hrd'))
    refine ⟨prefixStr_of_iff.1 hprefix, hpos, ?_⟩
    rintro ⟨rfl, hmis⟩
    exact not_serialize_misread hmis hn hser
  · rintro ⟨hone, hpos, hmis⟩
    obtain ⟨rd', hrd', hfits, htext⟩ := resolve_of_denotes hdot hr hg hmis
    have hd : Delimited labels := by
      obtain ⟨x, rfl⟩ := List.length_eq_one_iff.mp hone
      exact ⟨List.cons_ne_nil _ _, by simp⟩
    have htotal : 24 * labels.length + 64 + m < 256 := by
      have hsize : k.size ≤ 16 := by cases k <;> decide
      omega
    have hprefix : ∀ rd, (LabelledVpnPrefix.of c k labels rd m v).prefixStr = routeStr c k m v :=
      fun _ => prefixStr_of_iff.2 hone
    refine ⟨.of c k labels rd' m v, init_of hpos hrd', rfl,
      parser_serialize hd hl hfits hpos hm hv hclear htotal, hprefix rd', ?_, ?_, ?_⟩
    · rw [LabelledVpnPrefix.tableKey, hprefix, ← htext, LabelledVpnPrefix.of]
    · rw [LabelledVpnPrefix.importVpnPath, hprefix, splitPrefix_route hv]
      rfl
    · rintro given' ⟨rd'', hrd''⟩
      have hvrf : VrfPrefix.prefixStr ⟨m, c.binToText k v⟩ = routeStr c k m v := by
        rw [VrfPrefix.prefixStr, decInt_natCast]
        rfl
      refine ⟨.of c k labels rd'' m v, ?_, hprefix rd''⟩
      rw [VrfPrefix.cloneToVpn, hvrf, splitPrefix_route hv]
      exact init_of hpos hrd''

theorem preserved_oneLabel :
    Preserved plainConv .ipv4 [100] (.str "65000:1".toList) (.twoOctetAs 65000 1) 24 0x0a000000 :=
  have hr : (RouteDistinguisher.twoOctetAs 65000 1).Fits plainConv :=
    ⟨⟨by decide, by decide⟩, by decide, by decide⟩
  (preserved_iff dotted_plainConv hr (.inr (by decide)) (by decide) (by decide) (by decide)
    (by decide)).mpr
    ⟨rfl, by decide, fun h => by obtain ⟨n, hn⟩ := h.2; cases hn⟩

/-- With two labels the prefix of 10.0.0.0/24 is 10.0.0.0/48. -/
theorem not_preserved_twoLabels : ¬Preserved plainConv .ipv4 [100, 200] (.str "65000:1".toList)
    (.twoOctetAs 65000 1) 24 0x0a000000 := by
  rintro ⟨n, hn, -, -, hprefix, -⟩
  have hrd : (RouteDist.str "65000:1".toList).resolve = .ok (.twoOctetAs 65000 1) := by decide
  obtain rfl := Except.ok.inj (hn.symm.trans (init_of (by decide) hrd))
  exact absurd (prefixStr_of_iff.1 hprefix) (by decide)

end Claims

section Texts

/-- An RD is made of a text, sent and received as one of the same text, so that the keys of a VPN
table are the same for both. -/
def RouteDistinguisher.TextReadBack (c : AddrConv) (s : Text) : Prop :=
  ∃ r b r', fromStr s = .ok r ∧ r.serialize c = .ok b ∧ parser c b = .ok r' ∧
    r'.formattedStr = s ∧
    ∀ length labels ip,
      LabelledVpnPrefix.tableKey ⟨length, labels, r', ip⟩ =
        LabelledVpnPrefix.tableKey ⟨length, labels, r, ip⟩

open RouteDistinguisher

variable {c : AddrConv} {s : Text}

/-- Exactly the texts that fit a class are read back, those of AS number 65536 apart. -/
theorem textReadBack_iff (hd : Dotted c) : TextReadBack c s ↔ Encodable c s ∧ ¬OnBoundary s := by
  constructor
  · rintro ⟨r, b, r', hr, hb, hr', rfl, -⟩
    refine ⟨⟨r', fits_of_parsed hr', rfl⟩, ?_⟩
    rintro ⟨assigned, hs⟩
    obtain ⟨r'', hr'', hfail⟩ := serialize_misread (c := c) ⟨assigned, rfl⟩
    have hsame : fromStr r'.formattedStr = .ok r'' := by rwa [hs]
    obtain rfl := Except.ok.inj (hr.symm.trans hsame)
    rw [hb] at hfail
    cases hfail
  · rintro ⟨⟨r, hfits, rfl⟩, hb⟩
    have hm : ¬r.Misread := by
      rintro ⟨assigned, rfl⟩
      exact hb ⟨assigned, rfl⟩
    obtain ⟨r', hr', hfits', htext⟩ := fromStr_formattedStr hd hfits hm
    obtain ⟨b, hser, -, hparse⟩ := RouteDistinguisher.parser_serialize hfits'
    exact ⟨r', b, r', hr', hser, hparse, htext, fun _ _ _ => rfl⟩

theorem textReadBack_fourOctet : TextReadBack plainConv "65537:1".toList :=
  have hfits : (RouteDistinguisher.fourOctetAs 65537 1).Fits plainConv :=
    ⟨⟨by decide, by decide⟩, by decide, by decide⟩
  have hb : ¬OnBoundary "65537:1".toList := by
    rintro ⟨assigned, h⟩
    have hfifth := congrArg (fun t : Text => t[4]?) h
    revert hfifth
    have hdec : decInt (1 <<< 16) = "65536".toList := by decide
    rw [hdec]
    exact of_decide_eq_false rfl
  (textReadBack_iff dotted_plainConv).mpr ⟨⟨_, hfits, by decide⟩, hb⟩

/-- The text of AS number 65536 is encodable and not read back. -/
theorem not_textReadBack_boundary :
    Encodable plainConv "65536:1".toList ∧ ¬TextReadBack plainConv "65536:1".toList := by
  have hs : "65536:1".toList = (RouteDistinguisher.fourOctetAs (1 <<< 16) 1).formattedStr := by
    decide
  constructor
  · have hfits : (RouteDistinguisher.fourOctetAs (1 <<< 16) 1).Fits plainConv :=
      ⟨⟨by decide, by decide⟩, by decide, by decide⟩
    exact ⟨_, hfits, hs.symm⟩
  · rintro ⟨r, b, -, hr, hb, -⟩
    obtain ⟨r', hr', hfail⟩ := serialize_misread (c := plainConv) ⟨1, rfl⟩
    rw [hs] at hr
    obtain rfl := Except.ok.inj (hr.symm.trans hr')
    rw [hb] at hfail
    cases hfail

end Texts

end Ryu.Bgp.Wire
