import Ryu.Lib.Bytes
import Ryu.Ofproto.Address
import Ryu.Bgp.InFilter

/-! # NLRIs with host bits

The key of a destination is the text of an NLRI, and the NLRI is an object that outgoing messages
share. To serialize it clears its host bits in place. A table has one destination for each
prefix, kept under the key it was created with, as long as a prefix is always spelled the same
and no destination is built on an NLRI with host bits that is sent.
-/

namespace Ryu.Bgp

open Bytes Numeral

section Model

/-- `IPAddrPrefix` or `IP6AddrPrefix`. -/
structure AddrPrefix where
  length : ℕ
  addr : Text
  deriving DecidableEq, Repr

/-- The property `prefix`, which is also `formatted_nlri_str` and the key in a table. -/
def AddrPrefix.tableKey (n : AddrPrefix) : Text := n.addr ++ '/' :: dec n.length

variable (c : AddrConv) (k : AddrKind)

/-- `_to_bin`. For a text with a mask `text_to_bin` gives a pair, which has no bytes. -/
def toBin (addr : Text) : Except PyError (List UInt8) :=
  match c.textToBin k addr with
  | some (v, none) => .ok (toBytes k.size v)
  | some (_, some _) => .error (.typeError "a bytes-like object is required, not 'tuple'")
  | none => .error (.other "AddrFormatError")

/-- `_from_bin`. -/
def fromBin (bin : List UInt8) : Except PyError Text :=
  if bin.length ≤ k.size then .ok (c.binToText k (ofBytes (padRight bin k.size)))
  else .error .assertionError

/-- `_AddrPrefix.parser`. -/
def AddrPrefix.parser : List UInt8 → Except PyError (AddrPrefix × List UInt8)
  | [] => .error (.other "struct.error")
  | length :: rest =>
    let byteLength := (length.toNat + 7) / 8
    (fromBin c k (rest.take byteLength)).map fun addr =>
      (⟨length.toNat, addr⟩, rest.drop byteLength)

/-- The bytes of the address that are sent: trailing bits in the last octet are cleared. -/
def AddrPrefix.binAddr (n : AddrPrefix) : Except PyError (List UInt8) :=
  let byteLength := (n.length + 7) / 8
  match toBin c k n.addr with
  | .error e => .error e
  | .ok bin =>
    if n.length % 8 = 0 then .ok (bin.take byteLength)
    else
      match bin[byteLength - 1]? with
      | none => .error (.other "IndexError")
      | some last =>
        .ok (bin.take (byteLength - 1) ++ [UInt8.ofNat (last.toNat &&& (0xff00 >>> (n.length % 8)))])

/-- `_AddrPrefix.serialize`, beside the NLRI it leaves. -/
def AddrPrefix.serialize (n : AddrPrefix) : Except PyError (List UInt8) × AddrPrefix :=
  match n.binAddr c k with
  | .error e => (.error e, n)
  | .ok bin =>
    match fromBin c k bin with
    | .error e => (.error e, n)
    | .ok addr => (.ok (UInt8.ofNat n.length :: bin), { n with addr := addr })

/-- The bytes of `bin` up to a length in bits, with trailing bits in the last octet cleared. -/
def clearTrailing (length : ℕ) (bin : List UInt8) : Except PyError (List UInt8) :=
  let byteLength := (length + 7) / 8
  if length % 8 = 0 then .ok (bin.take byteLength)
  else
    match bin[byteLength - 1]? with
    | none => .error (.other "IndexError")
    | some last =>
      .ok (bin.take (byteLength - 1) ++ [UInt8.ofNat (last.toNat &&& (0xff00 >>> (length % 8)))])

/-- The table of unicast prefixes of an address family. -/
def unicastFamily : AddrKind → RouteFamily
  | .ipv6 => rfIPv6Uc
  | _ => rfIPv4Uc

/-- An NLRI as the paths of a table have it. -/
def AddrPrefix.nlri (k : AddrKind) (n : AddrPrefix) : Nlri :=
  unicast (unicastFamily k) (String.ofList n.tableKey)

/-- Where the processor has stopped: in `Destination._process`, or as a destination was removed. -/
inductive Crash
  | process (e : PyError)
  | removal (e : PyError)
  deriving DecidableEq, Repr

/-- A table of unicast prefixes. NLRIs are objects, here by number: every path that is made has
its own. A destination goes by the number of the NLRI it was created for. -/
structure PrefixTable where
  nlris : List AddrPrefix
  destinations : Dict Text ℕ
  dests : Dict ℕ Destination
  destQueue : List ℕ
  crash : Option Crash
  deriving DecidableEq, Repr

def PrefixTable.empty : PrefixTable := ⟨[], Dict.empty, Dict.empty, [], none⟩

def PrefixTable.nlri (t : PrefixTable) (i : ℕ) : AddrPrefix := t.nlris.getD i ⟨0, []⟩

/-- `_get_dest`. -/
def PrefixTable.getDest (t : PrefixTable) (n : AddrPrefix) : Option ℕ :=
  t.destinations.get? n.tableKey

/-- `dest_changed`, which enqueues a destination that is not queued already. -/
def PrefixTable.destChanged (t : PrefixTable) (i : ℕ) : PrefixTable :=
  { t with destQueue := if i ∈ t.destQueue then t.destQueue else t.destQueue ++ [i] }

/-- `learn_path` for a path that is made with its NLRI. -/
def PrefixTable.learn (t : PrefixTable) (n : AddrPrefix) (source : Source) (attrs : PathAttrs)
    (isWithdraw : Bool) : PrefixTable :=
  let i := t.nlris.length
  let path : Path := ⟨i, source, n.nlri k, attrs, isWithdraw⟩
  let t := { t with nlris := t.nlris ++ [n] }
  match t.getDest n with
  | some j =>
    let dest := (t.dests.get? j).getD (Destination.init (n.nlri k))
    { t with dests := t.dests.set j (dest.add path) }.destChanged j
  | none =>
    { t with
      destinations := t.destinations.set n.tableKey i
      dests := t.dests.set i ((Destination.init (n.nlri k)).add path) }.destChanged i

/-- `Table.delete_dest`: the key is computed again. -/
def PrefixTable.deleteDest (t : PrefixTable) (i : ℕ) : PrefixTable :=
  match t.getDest (t.nlri i) with
  | none => { t with crash := some (.removal (.keyError (String.ofList (t.nlri i).tableKey))) }
  | some _ => { t with destinations := t.destinations.erase (t.nlri i).tableKey }

/-- `Destination.process` for the first destination of the queue. -/
def PrefixTable.process (sp : Speaker) (t : PrefixTable) : PrefixTable :=
  match t.destQueue with
  | [] => t
  | i :: rest =>
    let t := { t with destQueue := rest }
    match ((t.dests.get? i).getD (Destination.init ((t.nlri i).nlri k))).processBest sp with
    | (.error e, dest) => { t with dests := t.dests.set i dest, crash := some (.process e) }
    | (.ok _, dest) =>
      let t := { t with dests := t.dests.set i dest }
      if dest.knownPathList = [] ∧ dest.bestPath = none then t.deleteDest i else t

/-- An NLRI is serialized. -/
def PrefixTable.send (t : PrefixTable) (i : ℕ) : PrefixTable :=
  { t with nlris := t.nlris.set i ((t.nlri i).serialize c k).2 }

/-- A `netaddr.IPNetwork` of the family: its address, with all bits, and its prefix length. -/
structure AddrNetwork (k : AddrKind) where
  ip : Fin (256 ^ k.size)
  prefixlen : ℕ

/-- The attributes `update_global_table` sets: origin IGP, and an AS path of one empty segment. -/
def localAttrs : PathAttrs :=
  { noAttrs with origin := some 0, asPath := some [.seq []] }

/-- An NLRI in an UPDATE of a peer, `update_global_table`, an NLRI that is sent, and a run of the
processor. A route waits for its peer in a queue: any NLRI made so far may be sent. -/
inductive PrefixEvent
  | update (peer : ℕ) (buf : List UInt8) (attrs : PathAttrs) (isWithdraw : Bool)
  | network (text : Text) (isWithdraw : Bool)
  | send (i : ℕ)
  | process
  deriving DecidableEq, Repr

variable (ipNetwork : Text → Option (AddrNetwork k))

/-- The NLRI that an event announces or withdraws, if it reads as one. -/
def PrefixEvent.nlri? : PrefixEvent → Option AddrPrefix
  | .update _ buf _ _ => ((AddrPrefix.parser c k buf).toOption).map Prod.fst
  | .network text _ => (ipNetwork text).map fun net => ⟨net.prefixlen, c.binToText k net.ip⟩
  | _ => none

def PrefixEvent.source : PrefixEvent → Source
  | .update peer _ _ _ => .peer peer
  | _ => .nc

def PrefixEvent.attrs : PrefixEvent → PathAttrs
  | .update _ _ attrs w => if w then noAttrs else attrs
  | _ => localAttrs

def PrefixEvent.isWithdraw : PrefixEvent → Bool
  | .update _ _ _ w => w
  | .network _ w => w
  | _ => false

/-- After an exception in it the processor is gone. -/
def prefixStep (sp : Speaker) (t : PrefixTable) (e : PrefixEvent) : PrefixTable :=
  match e with
  | .process => if t.crash = none then t.process k sp else t
  | .send i => t.send c k i
  | e =>
    match e.nlri? c k ipNetwork with
    | none => t
    | some n => t.learn k n e.source e.attrs e.isWithdraw

/-- The number of bits that are not part of the prefix. -/
def AddrPrefix.hostLength (n : AddrPrefix) : ℕ := 8 * k.size - n.length

/-- The address as a number. -/
def AddrPrefix.value (n : AddrPrefix) : ℕ := ((c.textToBin k n.addr).map Prod.fst).getD 0

/-- Two NLRIs are of one prefix, whatever their host bits. -/
def SamePrefix (n n' : AddrPrefix) : Prop :=
  n.length = n'.length ∧
    n.value c k / 2 ^ n.hostLength k = n'.value c k / 2 ^ n'.hostLength k

/-- All bits beyond the prefix length are zero. -/
def HostBitsClear (n : AddrPrefix) : Prop := n.value c k % 2 ^ n.hostLength k = 0

/-- At most one destination for a prefix, each under the key of its NLRI, and none whose removal
raised. -/
structure Keyed (t : PrefixTable) : Prop where
  one : ∀ key key' i i', t.destinations.get? key = some i → t.destinations.get? key' = some i' →
    SamePrefix c k (t.nlri i) (t.nlri i') → key = key'
  stable : ∀ key i, t.destinations.get? key = some i → (t.nlri i).tableKey = key
  removed : ∀ e, t.crash ≠ some (.removal e)

/-- A withdrawal reaches the destination there is for its prefix. -/
def Reaches (t : PrefixTable) (e : PrefixEvent) : Prop :=
  ∀ n, e.nlri? c k ipNetwork = some n → e.isWithdraw → ∀ key i, t.destinations.get? key = some i →
    SamePrefix c k (t.nlri i) n → t.getDest n = some i

/-- What is announced or withdrawn is spelled as the destination of its prefix is, if there is
one; and if the NLRI of a destination is sent, its host bits are zero. -/
def SpelledAlike (t : PrefixTable) (e : PrefixEvent) : Prop :=
  (∀ n, e.nlri? c k ipNetwork = some n → ∀ key i, t.destinations.get? key = some i →
    SamePrefix c k (t.nlri i) n → (t.nlri i).addr = n.addr) ∧
  ∀ key i, t.destinations.get? key = some i → e = .send i → HostBitsClear c k (t.nlri i)

end Model

section Serialize

variable {c : AddrConv} {k : AddrKind} {n n' n'' : AddrPrefix} {v : ℕ}

/-- The text of the address was written by `bin_to_text`. -/
def Printed (c : AddrConv) (k : AddrKind) (n : AddrPrefix) : Prop :=
  ∃ v < 256 ^ k.size, n.addr = c.binToText k v

theorem value_printed (hv : v < 256 ^ k.size) (hn : n.addr = c.binToText k v) :
    n.value c k = v := by
  rw [AddrPrefix.value, hn, c.text_bin hv]
  rfl

/-- What is read of the wire, and what is serialized, has a printed address. -/
theorem fromBin_ok {bin : List UInt8} (h : bin.length ≤ k.size) :
    fromBin c k bin = .ok (c.binToText k (ofBytes (padRight bin k.size))) := if_pos h

/-- An NLRI that is read takes at least the octet of its length. -/
theorem AddrPrefix.parser_lt {b r : List UInt8} {n : AddrPrefix}
    (h : AddrPrefix.parser c k b = .ok (n, r)) : r.length < b.length := by
  cases b with
  | nil => cases h
  | cons length rest =>
    obtain ⟨addr, -, heq⟩ := map_eq_ok.1 h
    obtain ⟨-, rfl⟩ := Prod.mk.inj heq
    rw [List.length_drop, List.length_cons]
    omega

theorem printed_parse {buf rest : List UInt8} (h : AddrPrefix.parser c k buf = .ok (n, rest)) :
    Printed c k n := by
  cases buf with
  | nil => cases h
  | cons length buf =>
    obtain ⟨addr, ha, he⟩ := map_eq_ok.1 h
    cases he
    unfold fromBin at ha
    split at ha
    · next hl =>
      cases ha
      exact ⟨_, ofBytes_padRight_lt hl, rfl⟩
    · cases ha

theorem serialize_ok {bin : List UInt8} (h : n.binAddr c k = .ok bin) (hl : bin.length ≤ k.size) :
    (n.serialize c k).2 = ⟨n.length, c.binToText k (ofBytes (padRight bin k.size))⟩ := by
  unfold AddrPrefix.serialize
  rw [h]
  dsimp only
  rw [fromBin_ok hl]

theorem serialize_error {e : PyError} (h : n.binAddr c k = .error e) :
    (n.serialize c k).2 = n := by
  unfold AddrPrefix.serialize
  rw [h]

theorem binAddr_eq {bin : List UInt8} (h : toBin c k n.addr = .ok bin) :
    n.binAddr c k = clearTrailing n.length bin := by
  unfold AddrPrefix.binAddr clearTrailing
  rw [h]

/-- The bits of a number behind a length are cleared. -/
theorem clearTrailing_toBytes {size length : ℕ} (hl : length ≤ 8 * size) (hv : v < 256 ^ size) :
    ∃ bin, clearTrailing length (toBytes size v) = .ok bin ∧ bin.length = (length + 7) / 8 ∧
      ofBytes (padRight bin size) = v / 2 ^ (8 * size - length) * 2 ^ (8 * size - length) := by
  have hr : 8 * (length / 8) + length % 8 = length := Nat.div_add_mod _ _
  rcases Nat.eq_zero_or_pos (length % 8) with h0 | h0
  · have hb : (length + 7) / 8 = length / 8 := by omega
    have he : 8 * size - length = 8 * size - 8 * (length / 8) := by omega
    refine ⟨(toBytes size v).take (length / 8), ?_, ?_, ?_⟩
    · rw [clearTrailing, if_pos h0, hb]
    · rw [length_take (by omega), hb]
    · rw [ofBytes_pad_take (by omega) hv, he]
  · have hb : (length + 7) / 8 - 1 = length / 8 := by omega
    have hs : length / 8 < size := by omega
    have hget : (toBytes size v)[length / 8]? =
        some (UInt8.ofNat (v / 256 ^ (size - 1 - length / 8))) := getElem?_toBytes hs v
    refine ⟨(toBytes size v).take (length / 8) ++ [UInt8.ofNat
      ((UInt8.ofNat (v / 256 ^ (size - 1 - length / 8))).toNat &&& (0xff00 >>> (length % 8)))],
      ?_, ?_, ?_⟩
    · rw [clearTrailing, if_neg h0.ne', hb, hget]
    · rw [List.length_append, length_take hs.le, List.length_singleton]
      omega
    · rw [ofBytes_pad_mask hs hv (Nat.mod_lt _ (by decide)) hget, hr]

/-- To serialize an NLRI sets its host bits to zero. -/
theorem serialize_printed (hv : v < 256 ^ k.size) (hn : n.addr = c.binToText k v) :
    (n.serialize c k).2 =
      ⟨n.length, c.binToText k (v / 2 ^ n.hostLength k * 2 ^ n.hostLength k)⟩ := by
  have hbin : toBin c k n.addr = .ok (toBytes k.size v) := by
    rw [toBin, hn, c.text_bin hv]
  rcases Nat.lt_or_ge (8 * k.size) n.length with hlt | hle
  · -- a length beyond that of an address leaves all of it, unless an octet is missing
    have he : n.hostLength k = 0 := by
      unfold AddrPrefix.hostLength
      omega
    rw [he, pow_zero, Nat.div_one, Nat.mul_one]
    rcases Nat.eq_zero_or_pos (n.length % 8) with h0 | h0
    · have htake : (toBytes k.size v).take ((n.length + 7) / 8) = toBytes k.size v :=
        List.take_of_length_le (by rw [length_toBytes]; omega)
      have hok : n.binAddr c k = .ok (toBytes k.size v) := by
        rw [binAddr_eq hbin, clearTrailing, if_pos h0, htake]
      rw [serialize_ok hok (length_toBytes ..).le, padRight, length_toBytes, Nat.sub_self,
        List.replicate_zero, List.append_nil, ofBytes_toBytes, Nat.mod_eq_of_lt hv]
    · have hnone : (toBytes k.size v)[(n.length + 7) / 8 - 1]? = none :=
        List.getElem?_eq_none (by rw [length_toBytes]; omega)
      have herr : n.binAddr c k = .error (.other "IndexError") := by
        rw [binAddr_eq hbin, clearTrailing, if_neg h0.ne', hnone]
      rw [serialize_error herr, ← hn]
  · obtain ⟨bin, hok, hlen, hof⟩ := clearTrailing_toBytes hle hv
    rw [serialize_ok ((binAddr_eq hbin).trans hok) (by omega), hof, AddrPrefix.hostLength]

theorem printed_serialize (h : Printed c k n) : Printed c k (n.serialize c k).2 := by
  obtain ⟨v, hv, hn⟩ := h
  rw [serialize_printed hv hn]
  exact ⟨_, lt_of_le_of_lt (Nat.div_mul_le_self _ _) hv, rfl⟩

/-- An NLRI stays as it is exactly if it has no host bits. -/
theorem serialize_eq_iff (h : Printed c k n) :
    (n.serialize c k).2 = n ↔ HostBitsClear c k n := by
  obtain ⟨v, hv, hn⟩ := h
  have hd := Nat.div_add_mod' v (2 ^ n.hostLength k)
  rw [HostBitsClear, value_printed hv hn, serialize_printed hv hn]
  constructor
  · intro he
    have ha : c.binToText k (v / 2 ^ n.hostLength k * 2 ^ n.hostLength k) = n.addr :=
      congrArg AddrPrefix.addr he
    have ht := c.text_bin (lt_of_le_of_lt (Nat.div_mul_le_self v (2 ^ n.hostLength k)) hv)
    rw [ha, hn, c.text_bin hv] at ht
    have hv' : v = v / 2 ^ n.hostLength k * 2 ^ n.hostLength k := by simpa using ht
    omega
  · intro hz
    have hv' : v / 2 ^ n.hostLength k * 2 ^ n.hostLength k = v := by omega
    rw [hv', ← hn]

theorem SamePrefix.symm (h : SamePrefix c k n n') : SamePrefix c k n' n :=
  ⟨h.1.symm, h.2.symm⟩

theorem SamePrefix.refl (c : AddrConv) (k : AddrKind) (n : AddrPrefix) : SamePrefix c k n n :=
  ⟨rfl, rfl⟩

/-- Different NLRIs have different keys. -/
theorem tableKey_inj (h : Printed c k n) : n.tableKey = n'.tableKey ↔ n = n' := by
  obtain ⟨v, hv, hn⟩ := h
  constructor
  · intro he
    unfold AddrPrefix.tableKey at he
    rw [List.append_cons_inj_of_notMem (hn ▸ c.no_slash hv) (not_mem_dec rfl)] at he
    obtain ⟨ha, -, hl⟩ := he
    have hd := nat?_dec n.length
    rw [hl, nat?_dec] at hd
    cases n
    cases n'
    simp only [AddrPrefix.mk.injEq]
    exact ⟨(Option.some.inj hd).symm, ha⟩
  · rintro rfl
    rfl

theorem eq_of_samePrefix (h : SamePrefix c k n n') (ha : n.addr = n'.addr) : n = n' := by
  cases n
  cases n'
  simp only [AddrPrefix.mk.injEq]
  exact ⟨h.1, ha⟩

end Serialize

section Run

variable {c : AddrConv} {k : AddrKind} {t : PrefixTable} {n : AddrPrefix} {source : Source}
  {attrs : PathAttrs} {w : Bool} {i j : ℕ} {key : Text} {sp : Speaker}
  {ipNetwork : Text → Option (AddrNetwork k)}

/-- The destination a path for `n` is added to. -/
def PrefixTable.reached (t : PrefixTable) (n : AddrPrefix) : ℕ :=
  (t.getDest n).getD t.nlris.length

/-- NLRIs are printed, destinations were created for them, and what is queued is in the table. -/
structure Sound (c : AddrConv) (k : AddrKind) (t : PrefixTable) : Prop where
  printed : ∀ i < t.nlris.length, Printed c k (t.nlri i)
  made : ∀ key i, t.destinations.get? key = some i → i < t.nlris.length
  nodup : t.destQueue.Nodup
  queued : ∀ i ∈ t.destQueue, ∃ key, t.destinations.get? key = some i

theorem nlris_learn : (t.learn k n source attrs w).nlris = t.nlris ++ [n] := by
  unfold PrefixTable.learn
  dsimp only
  split <;> rfl

theorem crash_learn : (t.learn k n source attrs w).crash = t.crash := by
  unfold PrefixTable.learn
  dsimp only
  split <;> rfl

theorem destQueue_learn : (t.learn k n source attrs w).destQueue =
    if t.reached n ∈ t.destQueue then t.destQueue else t.destQueue ++ [t.reached n] := by
  unfold PrefixTable.learn PrefixTable.reached PrefixTable.getDest
  dsimp only
  cases t.destinations.get? n.tableKey <;> rfl

theorem get?_learn (key : Text) : (t.learn k n source attrs w).destinations.get? key =
    if n.tableKey = key then some (t.reached n) else t.destinations.get? key := by
  unfold PrefixTable.learn PrefixTable.reached PrefixTable.getDest
  dsimp only
  cases hd : t.destinations.get? n.tableKey with
  | none => exact Dict.get?_set _ _ _ _
  | some j =>
    change t.destinations.get? key = _
    split
    · next he => rw [← he, hd, Option.getD_some]
    · rfl

theorem nlri_learn (h : i < t.nlris.length) : (t.learn k n source attrs w).nlri i = t.nlri i := by
  unfold PrefixTable.nlri
  rw [nlris_learn, List.getD_append _ _ _ _ h]

/-- The NLRI of the destination that is reached is spelled as `n`. -/
theorem nlri_reached (hs : Sound c k t) (hk : Keyed c k t) (hn : Printed c k n) :
    (t.learn k n source attrs w).nlri (t.reached n) = n := by
  unfold PrefixTable.reached PrefixTable.getDest
  cases hd : t.destinations.get? n.tableKey with
  | none =>
    rw [Option.getD_none, PrefixTable.nlri, nlris_learn]
    simp
  | some j =>
    rw [Option.getD_some, nlri_learn (hs.made _ _ hd)]
    exact ((tableKey_inj hn).mp (hk.stable _ _ hd).symm).symm

theorem reached_lt (hs : Sound c k t) : t.reached n < t.nlris.length + 1 := by
  unfold PrefixTable.reached PrefixTable.getDest
  cases hd : t.destinations.get? n.tableKey with
  | none => simp
  | some j => exact Nat.lt_succ_of_lt (hs.made _ _ hd)

theorem Sound.learn (hs : Sound c k t) (hn : Printed c k n) :
    Sound c k (t.learn k n source attrs w) where
  printed := by
    intro i hi
    rw [nlris_learn, List.length_append, List.length_singleton] at hi
    rcases Nat.lt_succ_iff_lt_or_eq.mp hi with hi | rfl
    · rw [nlri_learn hi]
      exact hs.printed i hi
    · rw [PrefixTable.nlri, nlris_learn]
      simpa using hn
  made := by
    intro key i hi
    rw [nlris_learn, List.length_append, List.length_singleton]
    rw [get?_learn] at hi
    split at hi
    · obtain rfl := Option.some.inj hi
      exact reached_lt hs
    · exact Nat.lt_succ_of_lt (hs.made key i hi)
  nodup := by
    rw [destQueue_learn]
    split
    · exact hs.nodup
    · next hq =>
      rw [← List.concat_eq_append]
      exact hs.nodup.concat hq
  queued := by
    intro i hi
    have hmem : i ∈ t.destQueue ∨ i = t.reached n := by
      rw [destQueue_learn] at hi
      split at hi
      · exact .inl hi
      · simpa using hi
    rcases hmem with hi | rfl
    · obtain ⟨key, hkey⟩ := hs.queued i hi
      refine ⟨key, ?_⟩
      rw [get?_learn]
      split
      · next he =>
        rw [PrefixTable.reached, PrefixTable.getDest, he, hkey]
        rfl
      · exact hkey
    · exact ⟨n.tableKey, by rw [get?_learn, if_pos rfl]⟩

/-- A table stays keyed exactly if what is learned is spelled as the destination of its prefix. -/
theorem keyed_learn_iff (hs : Sound c k t) (hk : Keyed c k t) (hn : Printed c k n) :
    Keyed c k (t.learn k n source attrs w) ↔
      ∀ key i, t.destinations.get? key = some i → SamePrefix c k (t.nlri i) n →
        (t.nlri i).addr = n.addr := by
  have hr : (t.learn k n source attrs w).nlri (t.reached n) = n := nlri_reached hs hk hn
  have hold : ∀ key i, t.destinations.get? key = some i →
      (t.learn k n source attrs w).nlri i = t.nlri i :=
    fun key i hi => nlri_learn (hs.made key i hi)
  constructor
  · intro h key i hi hp
    have hkey : (t.learn k n source attrs w).destinations.get? n.tableKey = some (t.reached n) := by
      rw [get?_learn, if_pos rfl]
    rcases eq_or_ne n.tableKey key with rfl | hne
    · rw [(tableKey_inj hn).mp (hk.stable _ i hi).symm]
    · have hi' : (t.learn k n source attrs w).destinations.get? key = some i := by
        rw [get?_learn, if_neg hne, hi]
      refine absurd (h.one _ _ _ _ hkey hi' ?_) hne
      rw [hr, hold key i hi]
      exact hp.symm
  · intro h
    have hnew : ∀ key i, n.tableKey ≠ key → t.destinations.get? key = some i →
        ¬ SamePrefix c k (t.nlri i) n := by
      intro key i hne hi hp
      apply hne
      rw [← hk.stable key i hi, eq_of_samePrefix hp (h key i hi hp)]
    refine ⟨?_, ?_, ?_⟩
    · intro key key' i i' hi hi' hp
      rw [get?_learn] at hi hi'
      split at hi <;> split at hi'
      · next he he' => exact he.symm.trans he'
      · next he he' =>
        obtain rfl := Option.some.inj hi
        rw [hr, hold key' i' hi'] at hp
        exact absurd hp.symm (hnew key' i' he' hi')
      · next he he' =>
        obtain rfl := Option.some.inj hi'
        rw [hr, hold key i hi] at hp
        exact absurd hp (hnew key i he hi)
      · rw [hold key i hi, hold key' i' hi'] at hp
        exact hk.one key key' i i' hi hi' hp
    · intro key i hi
      rw [get?_learn] at hi
      split at hi
      · next he =>
        obtain rfl := Option.some.inj hi
        rw [hr, he]
      · rw [hold key i hi]
        exact hk.stable key i hi
    · rw [crash_learn]
      exact hk.removed

theorem nlri_send (i j : ℕ) : (t.send c k i).nlri j =
    if j = i ∧ i < t.nlris.length then ((t.nlri i).serialize c k).2 else t.nlri j := by
  simp only [PrefixTable.send, PrefixTable.nlri, List.getD_eq_getElem?_getD, List.getElem?_set]
  rcases eq_or_ne i j with rfl | hne
  · split_ifs <;> simp_all
  · simp [hne, hne.symm]

theorem Sound.send (hs : Sound c k t) (i : ℕ) : Sound c k (t.send c k i) where
  printed := by
    intro j hj
    rw [PrefixTable.send, List.length_set] at hj
    rw [nlri_send]
    split
    · next hij => exact printed_serialize (hs.printed i hij.2)
    · exact hs.printed j hj
  made := by
    intro key j hj
    rw [PrefixTable.send, List.length_set]
    exact hs.made key j hj
  nodup := hs.nodup
  queued := hs.queued

/-- To send an NLRI leaves the table keyed exactly if it has no host bits, or no destination was
created for it. -/
theorem keyed_send_iff (hs : Sound c k t) (hk : Keyed c k t) (i : ℕ) :
    Keyed c k (t.send c k i) ↔
      ∀ key, t.destinations.get? key = some i → HostBitsClear c k (t.nlri i) := by
  constructor
  · intro h key hi
    have hlt := hs.made key i hi
    have hp := hs.printed i hlt
    have hkey := h.stable key i hi
    rw [nlri_send, if_pos ⟨rfl, hlt⟩, ← hk.stable key i hi] at hkey
    rw [← serialize_eq_iff hp, ← tableKey_inj (printed_serialize hp), hkey]
  · intro h
    have hsame : ∀ key j, t.destinations.get? key = some j →
        (t.send c k i).nlri j = t.nlri j := by
      intro key j hj
      rw [nlri_send]
      split
      · next hij =>
        obtain ⟨rfl, hlt⟩ := hij
        exact (serialize_eq_iff (hs.printed j hlt)).mpr (h key hj)
      · rfl
    refine ⟨?_, ?_, hk.removed⟩
    · intro key key' j j' hj hj' hp
      rw [hsame key j hj, hsame key' j' hj'] at hp
      exact hk.one key key' j j' hj hj' hp
    · intro key j hj
      rw [hsame key j hj]
      exact hk.stable key j hj

/-- The destination that is removed is found under its key. -/
theorem deleteDest_eq (hk : Keyed c k t) (hi : t.destinations.get? key = some i) :
    t.deleteDest i = { t with destinations := t.destinations.erase key } := by
  have hkey := hk.stable key i hi
  unfold PrefixTable.deleteDest PrefixTable.getDest
  rw [hkey, hi]

theorem sound_deleteDest (hs : Sound c k t) (hk : Keyed c k t)
    (hi : t.destinations.get? key = some i) (hq : i ∉ t.destQueue) :
    Sound c k (t.deleteDest i) ∧ Keyed c k (t.deleteDest i) := by
  rw [deleteDest_eq hk hi]
  have hsub : ∀ key' j, (t.destinations.erase key).get? key' = some j →
      t.destinations.get? key' = some j := by
    intro key' j hj
    rw [Dict.get?_erase] at hj
    split at hj
    · cases hj
    · exact hj
  constructor
  · refine ⟨hs.printed, fun key' j hj => hs.made key' j (hsub key' j hj), hs.nodup, fun j hj => ?_⟩
    obtain ⟨key', hkey'⟩ := hs.queued j hj
    refine ⟨key', ?_⟩
    have hne : key ≠ key' := by
      rintro rfl
      rw [hi] at hkey'
      obtain rfl := Option.some.inj hkey'
      exact hq hj
    rw [Dict.get?_erase, if_neg hne, hkey']
  · exact ⟨fun key₁ key₂ i₁ i₂ h₁ h₂ => hk.one key₁ key₂ i₁ i₂ (hsub _ _ h₁) (hsub _ _ h₂),
      fun key' j hj => hk.stable key' j (hsub key' j hj), hk.removed⟩

theorem keyed_process (hs : Sound c k t) (hk : Keyed c k t) (sp : Speaker) :
    Sound c k (t.process k sp) ∧ Keyed c k (t.process k sp) := by
  unfold PrefixTable.process
  split
  · exact ⟨hs, hk⟩
  · next i rest hq =>
    have hnd := hs.nodup
    have hqueued := hs.queued
    rw [hq] at hnd hqueued
    obtain ⟨hi, hrest⟩ := List.nodup_cons.mp hnd
    have hqueued' : ∀ j ∈ rest, ∃ key, t.destinations.get? key = some j :=
      fun j hj => hqueued j (List.mem_cons_of_mem i hj)
    dsimp only
    generalize Destination.processBest sp _ = r
    obtain ⟨e | change, dest⟩ := r
    · exact ⟨⟨hs.printed, hs.made, hrest, hqueued'⟩, hk.one, hk.stable, fun e h => by cases h⟩
    · have hs' : Sound c k { t with destQueue := rest, dests := t.dests.set i dest } :=
        ⟨hs.printed, hs.made, hrest, hqueued'⟩
      have hk' : Keyed c k { t with destQueue := rest, dests := t.dests.set i dest } :=
        ⟨hk.one, hk.stable, hk.removed⟩
      dsimp only
      split
      · obtain ⟨key, hkey⟩ := hqueued i List.mem_cons_self
        exact sound_deleteDest hs' hk' hkey hi
      · exact ⟨hs', hk'⟩

theorem printed_nlri? {e : PrefixEvent} (h : e.nlri? c k ipNetwork = some n) : Printed c k n := by
  cases e with
  | update peer buf attrs w =>
    obtain ⟨⟨n', rest⟩, hp, rfl⟩ := Option.map_eq_some_iff.mp h
    exact printed_parse (toOption_eq_some.1 hp)
  | network text w =>
    obtain ⟨net, -, rfl⟩ := Option.map_eq_some_iff.mp h
    exact ⟨net.ip, net.ip.isLt, rfl⟩
  | send i => cases h
  | process => cases h

theorem prefixStep_cases (sp : Speaker) (ipNetwork : Text → Option (AddrNetwork k))
    (e : PrefixEvent) (t : PrefixTable) :
    (e = .process ∧ prefixStep c k ipNetwork sp t e = if t.crash = none then t.process k sp else t) ∨
    (∃ i, e = .send i ∧ prefixStep c k ipNetwork sp t e = t.send c k i) ∨
    (e.nlri? c k ipNetwork = none ∧ (∀ i, e ≠ .send i) ∧ prefixStep c k ipNetwork sp t e = t) ∨
    ∃ n, e.nlri? c k ipNetwork = some n ∧ (∀ i, e ≠ .send i) ∧
      prefixStep c k ipNetwork sp t e = t.learn k n e.source e.attrs e.isWithdraw := by
  cases e with
  | process => exact .inl ⟨rfl, rfl⟩
  | send i => exact .inr (.inl ⟨i, rfl, rfl⟩)
  | update peer buf attrs w =>
    cases hn : PrefixEvent.nlri? c k ipNetwork (.update peer buf attrs w) with
    | none => exact .inr (.inr (.inl ⟨rfl, by simp, by simp only [prefixStep, hn]⟩))
    | some n => exact .inr (.inr (.inr ⟨n, rfl, by simp, by simp only [prefixStep, hn]⟩))
  | network text w =>
    cases hn : PrefixEvent.nlri? c k ipNetwork (.network text w) with
    | none => exact .inr (.inr (.inl ⟨rfl, by simp, by simp only [prefixStep, hn]⟩))
    | some n => exact .inr (.inr (.inr ⟨n, rfl, by simp, by simp only [prefixStep, hn]⟩))

theorem sound_prefixStep (hs : Sound c k t) (hk : Keyed c k t) (e : PrefixEvent) :
    Sound c k (prefixStep c k ipNetwork sp t e) := by
  rcases prefixStep_cases (c := c) sp ipNetwork e t with ⟨-, he⟩ | ⟨i, -, he⟩ | ⟨-, -, he⟩ |
    ⟨n, hn, -, he⟩
  · rw [he]
    split
    · exact (keyed_process hs hk sp).1
    · exact hs
  · rw [he]
    exact hs.send i
  · rwa [he]
  · rw [he]
    exact hs.learn (printed_nlri? hn)

theorem keyed_prefixStep_iff (hs : Sound c k t) (hk : Keyed c k t) (e : PrefixEvent) :
    Keyed c k (prefixStep c k ipNetwork sp t e) ↔ SpelledAlike c k ipNetwork t e := by
  unfold SpelledAlike
  rcases prefixStep_cases (c := c) sp ipNetwork e t with ⟨rfl, he⟩ | ⟨i, rfl, he⟩ |
    ⟨hn, hne, he⟩ | ⟨n, hn, hne, he⟩
  · have hk' : Keyed c k (prefixStep c k ipNetwork sp t .process) := by
      rw [he]
      split
      · exact (keyed_process hs hk sp).2
      · exact hk
    simp [hk', PrefixEvent.nlri?]
  · rw [he, keyed_send_iff hs hk]
    constructor
    · rintro h
      refine ⟨fun n hn => (by cases hn), fun key j hj hij => ?_⟩
      obtain rfl := PrefixEvent.send.inj hij
      exact h key hj
    · rintro ⟨-, h⟩ key hi
      exact h key i hi rfl
  · rw [he]
    simp [hk, hn, hne]
  · rw [he, keyed_learn_iff hs hk (printed_nlri? hn)]
    simp [hn, hne]

theorem reaches_of_spelledAlike (hk : Keyed c k t) {e : PrefixEvent}
    (h : SpelledAlike c k ipNetwork t e) : Reaches c k ipNetwork t e := by
  intro n hn _ key i hi hp
  have he : t.nlri i = n := eq_of_samePrefix hp (h.1 n hn key i hi hp)
  rw [PrefixTable.getDest, ← he, hk.stable key i hi, hi]

theorem sound_empty : Sound c k .empty :=
  ⟨fun i hi => absurd hi (Nat.not_lt_zero i), fun key i hi => (by cases hi), List.nodup_nil,
    fun i hi => (by cases hi)⟩

theorem keyed_empty : Keyed c k .empty :=
  ⟨fun _ _ _ _ hi => (by cases hi), fun _ _ hi => (by cases hi), fun _ h => (by cases h)⟩

end Run

end Ryu.Bgp
