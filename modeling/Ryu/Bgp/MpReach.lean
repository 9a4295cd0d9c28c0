import Ryu.Lib.Struct
import Ryu.Ofproto.Address
import Ryu.Bgp.AddrPrefix
import Ryu.Bgp.Update

/-! # Next hops of MP_REACH_NLRI

The next hops are sent one after the other without any mark. What is received is cut in units of
one size, which the address family and, for an EVPN, the length of all decide. So the next hops
are read back if they are of the family, few enough to be told apart, and not too long in all.
-/

namespace Ryu.Bgp.Wire

open Bytes Numeral

section Model

/-- What an NLRI class does: `isinstance`, `serialize` and `parser`. -/
structure NlriClass (ν : Type) where
  isInstance : ν → Bool
  serialize : ν → Except PyError (List UInt8)
  decoder : Decoder PyError UInt8 ν

/-- `BGPPathAttributeMpReachNLRI`. -/
structure MpReachNlri (ν : Type) where
  afi : ℕ
  safi : ℕ
  nextHopList : List Text
  nlri : List ν
  deriving Repr

def afiIp : ℕ := 1
def afiIp6 : ℕ := 2

/-- The families whose next hops have an RD in front. -/
def vpnFamilies : List RouteFamily := [rfIPv4Vpn, rfIPv6Vpn]

variable {ν : Type} (c : AddrConv) (addrClass : RouteFamily → NlriClass ν)

/-- `netaddr.IPAddress`, of either version. -/
def ipAddress (t : Text) : Option (AddrKind × ℕ) :=
  match c.textToBin .ipv4 t with
  | some (v, none) => some (.ipv4, v)
  | _ =>
    match c.textToBin .ipv6 t with
    | some (v, none) => some (.ipv6, v)
    | _ => none

/-- `netaddr.valid_ipv4` and `netaddr.valid_ipv6`. -/
def validAddr (k : AddrKind) (t : Text) : Bool := (ipAddress c t).any fun a => a.1 = k

/-- `_valid_ip`. -/
def validIp (k : AddrKind) (addr : Text) : Except PyError Bool :=
  match addr.splitOn '/' with
  | [ip] => .ok (validAddr c k ip)
  | [ip, len] =>
    if validAddr c k ip then
      match int? len with
      | some n => .ok (0 ≤ n ∧ n ≤ 8 * k.size)
      | none => .error (.valueError "invalid literal for int() with base 10")
    else .ok false
  | _ => .ok false

/-- The check of one next hop. -/
def checkNextHop (n : Text) : Except PyError Unit := do
  if ← validIp c .ipv4 n then .ok ()
  else if ← validIp c .ipv6 n then .ok ()
  else .error (.valueError "Invalid address for next_hop")

/-- `BGPPathAttributeMpReachNLRI.__init__`. -/
def MpReachNlri.init (afi safi : ℕ) (nextHop : List Text) (nlri : List ν) :
    Except PyError (MpReachNlri ν) := do
  nextHop.forM (checkNextHop c)
  if nlri.all (addrClass ⟨afi, safi⟩).isInstance then .ok ⟨afi, safi, nextHop, nlri⟩
  else .error (.valueError "Invalid NRLI class")

/-- `IPAddress.ipv6()`: an IPv4 address is mapped. -/
def toIpv6 : AddrKind × ℕ → ℕ
  | (.ipv4, v) => 0xffff00000000 + v
  | (_, v) => v

/-- `ip.text_to_bin`. -/
def ipTextToBin (t : Text) : Except PyError (List UInt8) :=
  if ':' ∉ t then toBin c .ipv4 t else toBin c .ipv6 t

/-- One round of the loop in `serialize_next_hop`. -/
def serializeHop (afi safi : ℕ) (nextHop : Text) : Except PyError (List UInt8) := do
  let nextHop ←
    if afi = afiIp6 then
      match ipAddress c nextHop with
      | some a => .ok (c.binToText .ipv6 (toIpv6 a))
      | none => .error (.other "AddrFormatError")
    else .ok nextHop
  let nextHopBin ← ipTextToBin c nextHop
  if (⟨afi, safi⟩ : RouteFamily) ∈ vpnFamilies then .ok (List.replicate 8 0 ++ nextHopBin)
  else .ok nextHopBin

/-- `serialize_next_hop`. -/
def MpReachNlri.serializeNextHop (a : MpReachNlri ν) : Except PyError (List UInt8) :=
  writeAll (serializeHop c a.afi a.safi) a.nextHopList

/-- `serialize_value`. -/
def MpReachNlri.serializeValue (a : MpReachNlri ν) : Except PyError (List UInt8) := do
  let nextHopBin ← a.serializeNextHop c
  let header ← Format.pack [.num 2, .num 1, .num 1] (a.afi, a.safi, nextHopBin.length, ())
  let nlriBin ← writeAll (addrClass ⟨a.afi, a.safi⟩).serialize a.nlri
  .ok (header ++ (nextHopBin ++ (0 :: nlriBin)))

/-- `split_bin_with_len`. -/
def splitBinWithLen (buf : List UInt8) (unitLen : ℕ) : List (List UInt8) :=
  (List.range ((buf.length + unitLen - 1) / unitLen)).map fun i =>
    (buf.drop (unitLen * i)).take unitLen

/-- `bin_to_text`, which takes the octets of an address and no others. -/
def binToText (k : AddrKind) (bin : List UInt8) : Except PyError Text :=
  if bin.length = k.size then .ok (c.binToText k (ofBytes bin)) else .error structError

/-- `parse_next_hop_ipv4` and `parse_next_hop_ipv6`: the end of each unit. -/
def parseNextHop (k : AddrKind) (buf : List UInt8) (unitLen : ℕ) : Except PyError (List Text) :=
  (splitBinWithLen buf unitLen).mapM fun bin => binToText c k (bin.drop (bin.length - k.size))

/-- The next hops by family, and for an EVPN by their length. -/
def parseNextHops (rf : RouteFamily) (nextHopBin : List UInt8) (nextHopLen : ℕ) :
    Except PyError (List Text) :=
  if rf = rfIPv4Vpn then parseNextHop c .ipv4 nextHopBin (8 + 4)
  else if rf = rfIPv6Vpn then parseNextHop c .ipv6 nextHopBin (8 + 16)
  else if rf.afi = afiIp ∨ rf = rfL2Evpn ∧ nextHopLen < 16 then parseNextHop c .ipv4 nextHopBin 4
  else if rf.afi = afiIp6 ∨ rf = rfL2Evpn ∧ nextHopLen ≥ 16 then
    parseNextHop c .ipv6 nextHopBin 16
  else if rf = rfL2vpnFlowspec then .ok []
  else .error (.valueError "Invalid address family")

/-- `parse_value`. -/
def MpReachNlri.parseValue (buf : List UInt8) : Except PyError (MpReachNlri ν) := do
  let v ← Format.unpackFrom [.num 2, .num 1, .num 1] buf
  let rf : RouteFamily := ⟨v.1, v.2.1⟩
  let rest := buf.drop 4
  let nextHopBin := rest.take v.2.2.1
  let rest := rest.drop v.2.2.1
  if rest.take 1 = [0] then
    let nlri ← (addrClass rf).decoder.readAll (rest.drop 1)
    let nextHop ← parseNextHops c rf nextHopBin v.2.2.1
    .ok ⟨rf.afi, rf.safi, nextHop, nlri⟩
  else .error .assertionError

/-- What `text_to_bin` relies on: only IPv6 addresses are written with colons. -/
structure Colons (c : AddrConv) : Prop where
  ipv4 : ∀ t v, c.textToBin .ipv4 t = some (v, none) → ':' ∉ t
  ipv6 : ∀ t v, c.textToBin .ipv6 t = some (v, none) → ':' ∈ t

/-- The address that is sent for a next hop. -/
def sentAddr (afi : ℕ) (t : Text) : AddrKind × ℕ :=
  let a := (ipAddress c t).getD (.ipv4, 0)
  if afi = afiIp6 then (.ipv6, toIpv6 a) else a

/-- The text of the address that is sent. -/
def sentText (afi : ℕ) (t : Text) : Text := c.binToText (sentAddr c afi t).1 (sentAddr c afi t).2

/-- The length of what is sent for an address. -/
def unitLen (rf : RouteFamily) (k : AddrKind) : ℕ := (if rf ∈ vpnFamilies then 8 else 0) + k.size

def sentOctets (rf : RouteFamily) (t : Text) : List UInt8 :=
  List.replicate (if rf ∈ vpnFamilies then 8 else 0) 0 ++
    toBytes (sentAddr c rf.afi t).1.size (sentAddr c rf.afi t).2

/-- What is sent for all next hops. -/
def hopsOctets (rf : RouteFamily) (hops : List Text) : List UInt8 :=
  hops.flatMap (sentOctets c rf)

/-- The next hops are of the family. A family of IPv6 maps IPv4 addresses. An EVPN takes either
version, but four IPv4 addresses are as long as one IPv6 address. -/
inductive Suits (rf : RouteFamily) (hops : List Text) : Prop
  | ipv4 (hafi : rf.afi = afiIp) (h : ∀ t ∈ hops, (sentAddr c rf.afi t).1 = .ipv4)
  | ipv6 (hafi : rf.afi = afiIp6)
  | evpnIpv4 (hrf : rf = rfL2Evpn) (h : ∀ t ∈ hops, (sentAddr c rf.afi t).1 = .ipv4)
    (hlen : hops.length < 4)
  | evpnIpv6 (hrf : rf = rfL2Evpn) (h : ∀ t ∈ hops, (sentAddr c rf.afi t).1 = .ipv6)

/-- NLRIs of the class that are read back as `read` says. -/
structure NlriRead (cls : NlriClass ν) (nlri : List ν) (read : ν → ν) : Prop where
  written : ∀ n ∈ nlri, (cls.serialize n).isOk
  read_back : ∀ n ∈ nlri, ∀ b, cls.serialize n = .ok b → ∀ r,
    cls.decoder.read (b ++ r) = .ok (read n, r)

end Model

section Units

theorem length_splitBinWithLen (buf : List UInt8) (u : ℕ) :
    (splitBinWithLen buf u).length = (buf.length + u - 1) / u := by
  rw [splitBinWithLen, List.length_map, List.length_range]

theorem splitBinWithLen_append {u : ℕ} (hu : 0 < u) {p : List UInt8} (hp : p.length = u)
    (rest : List UInt8) :
    splitBinWithLen (p ++ rest) u = p :: splitBinWithLen rest u := by
  have hcount : ((p ++ rest).length + u - 1) / u = (rest.length + u - 1) / u + 1 := by
    have he : (p ++ rest).length + u - 1 = rest.length + u - 1 + u := by
      rw [List.length_append]
      omega
    rw [he, Nat.add_div_right _ hu]
  rw [splitBinWithLen, hcount, List.range_succ_eq_map, List.map_cons, List.map_map, Nat.mul_zero,
    List.drop_zero, List.take_left' hp]
  congr 1
  apply List.map_congr_left
  intro i _
  have hdrop : u * (i + 1) = p.length + u * i := by rw [hp, Nat.mul_succ, Nat.add_comm]
  simp only [Function.comp_apply, Nat.succ_eq_add_one]
  rw [hdrop, List.drop_length_add_append]

/-- Units of one size are told apart. -/
theorem splitBinWithLen_flatMap {α : Type} {u : ℕ} (hu : 0 < u) {f : α → List UInt8} {l : List α}
    (h : ∀ a ∈ l, (f a).length = u) : splitBinWithLen (l.flatMap f) u = l.map f := by
  induction l with
  | nil =>
    have hzero : ([] : List UInt8).length + u - 1 < u := by
      rw [List.length_nil]
      omega
    rw [List.flatMap_nil, splitBinWithLen, Nat.div_eq_of_lt hzero]
    rfl
  | cons a l ih =>
    rw [List.flatMap_cons, splitBinWithLen_append hu (h a List.mem_cons_self),
      ih fun b hb => h b (List.mem_cons_of_mem _ hb), List.map_cons]

theorem mapM_ok {α β : Type} {f : α → Except PyError β} {g : α → β} {l : List α}
    (h : ∀ a ∈ l, f a = .ok (g a)) : l.mapM f = .ok (l.map g) := by
  induction l with
  | nil => rfl
  | cons a l ih =>
    rw [List.mapM_cons, h a List.mem_cons_self, ih fun b hb => h b (List.mem_cons_of_mem _ hb)]
    rfl

theorem forall_of_mapM {α β : Type} {f : α → Except PyError β} {l : List α} {r : List β}
    (h : l.mapM f = .ok r) : r.length = l.length ∧ ∀ a ∈ l, (f a).isOk := by
  induction l generalizing r with
  | nil =>
    obtain rfl := Except.ok.inj h
    simp
  | cons a l ih =>
    rw [List.mapM_cons] at h
    obtain ⟨b, hb, h⟩ := bind_eq_ok.1 h
    obtain ⟨r', hr', h⟩ := bind_eq_ok.1 h
    obtain rfl := Except.ok.inj h
    obtain ⟨hlen, hok⟩ := ih hr'
    refine ⟨congrArg Nat.succ hlen, List.forall_mem_cons.mpr ⟨?_, hok⟩⟩
    rw [hb]
    rfl

end Units

section Hops

variable {c : AddrConv} {afi safi : ℕ} {rf : RouteFamily} {t : Text} {hops : List Text}

theorem ipAddress_eq_some {a : AddrKind × ℕ} (h : ipAddress c t = some a) :
    (a.1 = .ipv4 ∨ a.1 = .ipv6) ∧ c.textToBin a.1 t = some (a.2, none) := by
  unfold ipAddress at h
  split at h
  · next v hv =>
    obtain rfl := Option.some.inj h
    exact ⟨Or.inl rfl, hv⟩
  · split at h
    · next v hv =>
      obtain rfl := Option.some.inj h
      exact ⟨Or.inr rfl, hv⟩
    · cases h

theorem sentAddr_of {a : AddrKind × ℕ} (h : ipAddress c t = some a) :
    sentAddr c afi t = if afi = afiIp6 then (.ipv6, toIpv6 a) else a := by
  rw [sentAddr, h]
  rfl

theorem toIpv6_lt {a : AddrKind × ℕ} (h : ipAddress c t = some a) :
    toIpv6 a < 256 ^ AddrKind.ipv6.size := by
  obtain ⟨hk, hv⟩ := ipAddress_eq_some h
  have hlt := (c.lt_size hv).1
  obtain ⟨k, v⟩ := a
  rcases hk with rfl | rfl
  · have hsum : (0xffff00000000 : ℕ) + 256 ^ 4 ≤ 256 ^ 16 := by norm_num
    exact lt_of_lt_of_le (Nat.add_lt_add_left hlt _) hsum
  · exact hlt

/-- The address that is sent fits its size, and its version is 4 or 6. -/
theorem sentAddr_lt (h : (ipAddress c t).isSome) :
    (sentAddr c afi t).2 < 256 ^ (sentAddr c afi t).1.size := by
  obtain ⟨a, ha⟩ := Option.isSome_iff_exists.mp h
  rw [sentAddr_of ha]
  split
  · exact toIpv6_lt ha
  · exact (c.lt_size (ipAddress_eq_some ha).2).1

theorem sentAddr_kind (h : (ipAddress c t).isSome) (afi : ℕ) :
    (sentAddr c afi t).1 = .ipv4 ∨ (sentAddr c afi t).1 = .ipv6 := by
  obtain ⟨a, ha⟩ := Option.isSome_iff_exists.mp h
  rw [sentAddr_of ha]
  split
  · exact Or.inr rfl
  · exact (ipAddress_eq_some ha).1

/-- In the family of IPv6 every next hop is sent as an IPv6 address. -/
theorem sentAddr_ipv6 (t : Text) : (sentAddr c afiIp6 t).1 = .ipv6 := rfl

theorem length_sentOctets : (sentOctets c rf t).length = unitLen rf (sentAddr c rf.afi t).1 := by
  rw [sentOctets, List.length_append, List.length_replicate, length_toBytes, unitLen]

theorem ipTextToBin_of {k : AddrKind} {v : ℕ} (hc : Colons c) (hk : k = .ipv4 ∨ k = .ipv6)
    (h : c.textToBin k t = some (v, none)) : ipTextToBin c t = .ok (toBytes k.size v) := by
  have hbin : toBin c k t = .ok (toBytes k.size v) := by rw [toBin, h]
  rcases hk with rfl | rfl
  · rw [ipTextToBin, if_pos (hc.ipv4 t v h), hbin]
  · rw [ipTextToBin, if_neg (not_not.mpr (hc.ipv6 t v h)), hbin]

theorem serializeHop_of (hc : Colons c) (h : (ipAddress c t).isSome) :
    serializeHop c rf.afi rf.safi t = .ok (sentOctets c rf t) := by
  obtain ⟨a, ha⟩ := Option.isSome_iff_exists.mp h
  obtain ⟨hk, hv⟩ := ipAddress_eq_some ha
  have hvpn : ∀ bin : List UInt8,
      (if (⟨rf.afi, rf.safi⟩ : RouteFamily) ∈ vpnFamilies then
        (.ok (List.replicate 8 0 ++ bin) : Except PyError (List UInt8)) else .ok bin) =
      .ok (List.replicate (if rf ∈ vpnFamilies then 8 else 0) 0 ++ bin) := by
    intro bin
    split <;> rfl
  unfold serializeHop sentOctets
  rw [sentAddr_of ha]
  by_cases hafi : rf.afi = afiIp6
  · have hbin := ipTextToBin_of hc (Or.inr rfl) (c.text_bin (toIpv6_lt ha))
    simp only [if_pos hafi, ha, bind, Except.bind, hbin]
    exact hvpn _
  · simp only [if_neg hafi, bind, Except.bind, ipTextToBin_of hc hk hv]
    exact hvpn _

theorem serializeNextHop_of {ν : Type} (hc : Colons c) (h : ∀ t ∈ hops, (ipAddress c t).isSome)
    (nlri : List ν) : MpReachNlri.serializeNextHop c ⟨rf.afi, rf.safi, hops, nlri⟩ =
      .ok (hops.flatMap (sentOctets c rf)) :=
  writeAll_ok fun t ht => serializeHop_of hc (h t ht)

theorem parseNextHop_nil (c : AddrConv) (k : AddrKind) (u : ℕ) :
    parseNextHop c k [] (u + 1) = .ok [] := by
  have hzero : ([] : List UInt8).length + (u + 1) - 1 < u + 1 := by
    rw [List.length_nil]
    omega
  rw [parseNextHop, splitBinWithLen, Nat.div_eq_of_lt hzero]
  rfl

/-- Next hops that are sent as addresses of one version are told apart and read. -/
theorem parseNextHop_flatMap {k : AddrKind} (h : ∀ t ∈ hops, (ipAddress c t).isSome)
    (hk : ∀ t ∈ hops, (sentAddr c rf.afi t).1 = k) :
    parseNextHop c k (hops.flatMap (sentOctets c rf)) (unitLen rf k) =
      .ok (hops.map (sentText c rf.afi)) := by
  have hpos : 0 < unitLen rf k := by
    unfold unitLen
    cases k <;> exact Nat.add_pos_right _ (by decide)
  have hlen : ∀ t ∈ hops, (sentOctets c rf t).length = unitLen rf k := by
    intro t ht
    rw [length_sentOctets, hk t ht]
  rw [parseNextHop, splitBinWithLen_flatMap hpos hlen, List.mapM_map]
  apply mapM_ok
  intro t ht
  have hdrop : (sentOctets c rf t).drop ((sentOctets c rf t).length - k.size) =
      toBytes k.size (sentAddr c rf.afi t).2 := by
    rw [hlen t ht, unitLen, Nat.add_sub_cancel, sentOctets, hk t ht]
    exact List.drop_left' (List.length_replicate ..)
  have hlt : (sentAddr c rf.afi t).2 < 256 ^ (sentAddr c rf.afi t).1.size := sentAddr_lt (h t ht)
  rw [hk t ht] at hlt
  simp only [Function.comp_apply]
  rw [hdrop, binToText, if_pos (length_toBytes ..), ofBytes_toBytes, Nat.mod_eq_of_lt hlt, sentText,
    hk t ht]

end Hops

section Families

variable {c : AddrConv} {rf : RouteFamily} {hops : List Text}

theorem unitLen_of_not_mem (h : rf ∉ vpnFamilies) (k : AddrKind) : unitLen rf k = k.size := by
  rw [unitLen, if_neg h, Nat.zero_add]

theorem length_hopsOctets {k : AddrKind} (hk : ∀ t ∈ hops, (sentAddr c rf.afi t).1 = k) :
    (hopsOctets c rf hops).length = hops.length * unitLen rf k := by
  have hlen : ∀ t ∈ hops, (sentOctets c rf t).length = unitLen rf k := by
    intro t ht
    rw [length_sentOctets, hk t ht]
  rw [hopsOctets, List.length_flatMap, List.map_congr_left hlen, List.map_const',
    List.sum_replicate_nat]

/-- Next hops of the family are read back. -/
theorem parseNextHops_of_suits (h : ∀ t ∈ hops, (ipAddress c t).isSome) (hs : Suits c rf hops) :
    parseNextHops c rf (hopsOctets c rf hops) (hopsOctets c rf hops).length =
      .ok (hops.map (sentText c rf.afi)) := by
  unfold parseNextHops
  cases hs with
  | ipv4 hafi hk =>
    have hread := parseNextHop_flatMap h hk
    by_cases hvpn : rf = rfIPv4Vpn
    · rw [if_pos hvpn]
      rwa [show unitLen rf .ipv4 = 8 + 4 by rw [hvpn]; decide] at hread
    · have hvpn' : rf ≠ rfIPv6Vpn := by
        rintro rfl
        exact absurd hafi (by decide)
      rw [if_neg hvpn, if_neg hvpn', if_pos (.inl hafi)]
      rwa [unitLen_of_not_mem (by simp [vpnFamilies, hvpn, hvpn'])] at hread
  | ipv6 hafi =>
    have hread := parseNextHop_flatMap h fun t _ => hafi ▸ sentAddr_ipv6 t
    have hvpn : rf ≠ rfIPv4Vpn := by
      rintro rfl
      exact absurd hafi (by decide)
    have hevpn : rf ≠ rfL2Evpn := by
      rintro rfl
      exact absurd hafi (by decide)
    have hafi' : rf.afi ≠ afiIp := by
      rw [hafi]
      decide
    by_cases hvpn' : rf = rfIPv6Vpn
    · rw [if_neg hvpn, if_pos hvpn']
      rwa [show unitLen rf .ipv6 = 8 + 16 by rw [hvpn']; decide] at hread
    · rw [if_neg hvpn, if_neg hvpn', if_neg (by simp [hafi', hevpn]), if_pos (.inl hafi)]
      rwa [unitLen_of_not_mem (by simp [vpnFamilies, hvpn, hvpn'])] at hread
  | evpnIpv4 hrf hk hlen =>
    have hread := parseNextHop_flatMap h hk
    have htotal := length_hopsOctets hk
    subst hrf
    have hu : unitLen rfL2Evpn .ipv4 = 4 := by decide
    rw [hu] at hread htotal
    rw [if_neg (by decide), if_neg (by decide), if_pos (.inr ⟨rfl, by omega⟩)]
    exact hread
  | evpnIpv6 hrf hk =>
    have hread := parseNextHop_flatMap h hk
    have htotal := length_hopsOctets hk
    subst hrf
    have hu : unitLen rfL2Evpn .ipv6 = 16 := by decide
    rw [hu] at hread htotal
    rw [if_neg (by decide), if_neg (by decide)]
    cases hops with
    | nil =>
      rw [if_pos (.inr ⟨rfl, Nat.zero_lt_succ 15⟩)]
      exact parseNextHop_nil c .ipv4 3
    | cons t hops =>
      rw [List.length_cons] at htotal
      have hlong : ¬(rfL2Evpn.afi = afiIp ∨
          rfL2Evpn = rfL2Evpn ∧ (hopsOctets c rfL2Evpn (t :: hops)).length < 16) := by
        rintro (hafi | ⟨-, hlt⟩)
        · exact absurd hafi (by decide)
        · omega
      rw [if_neg hlong, if_pos (.inr ⟨rfl, by omega⟩)]
      exact hread

end Families

section Message

variable {ν : Type} {c : AddrConv} {addrClass : RouteFamily → NlriClass ν} {rf : RouteFamily}
  {hops : List Text} {nlri : List ν} {read : ν → ν}

theorem writeAll_isOk {α : Type} {write : α → Except PyError (List UInt8)} {l : List α}
    (h : ∀ a ∈ l, (write a).isOk) : ∃ b, writeAll write l = .ok b := by
  have hw : ∀ a ∈ l, write a = .ok ((write a).toOption.getD []) := by
    intro a ha
    obtain ⟨b, hb⟩ := isOk_iff.1 (h a ha)
    rw [hb]
    rfl
  exact ⟨_, writeAll_ok hw⟩

/-- The header of the value. -/
theorem pack_header {afi safi len : ℕ} (hafi : afi < 256 ^ 2) (hsafi : safi < 256 ^ 1)
    (hlen : len < 256 ^ 1) : Format.pack [.num 2, .num 1, .num 1] (afi, safi, len, ()) =
      .ok (toBytes 2 afi ++ (toBytes 1 safi ++ toBytes 1 len)) := by
  rw [Format.pack_num_of_lt hafi, Format.pack_num_of_lt hsafi, Format.pack_num_of_lt hlen]
  simp [Format.pack, Except.map]

/-- A next hop field of up to 255 octets is sent, and what its octets say is read. -/
theorem parseValue_hops (hc : Colons c) (hafi : rf.afi < 256 ^ 2)
    (hsafi : rf.safi < 256 ^ 1) (h : ∀ t ∈ hops, (ipAddress c t).isSome)
    (hlen : (hopsOctets c rf hops).length < 256 ^ 1) (hn : NlriRead (addrClass rf) nlri read) :
    ∃ buf, MpReachNlri.serializeValue c addrClass ⟨rf.afi, rf.safi, hops, nlri⟩ = .ok buf ∧
      MpReachNlri.parseValue c addrClass buf =
        (parseNextHops c rf (hopsOctets c rf hops) (hopsOctets c rf hops).length).map
          fun nextHop => ⟨rf.afi, rf.safi, nextHop, nlri.map read⟩ := by
  obtain ⟨nlriBin, hnlri⟩ := writeAll_isOk hn.written
  have hpack := pack_header hafi hsafi hlen
  generalize toBytes 2 rf.afi ++ _ = header at hpack
  have hlen4 : header.length = 4 := Format.length_pack hpack
  refine ⟨header ++ (hopsOctets c rf hops ++ (0 :: nlriBin)), ?_, ?_⟩
  · rw [MpReachNlri.serializeValue, serializeNextHop_of hc h]
    dsimp only [bind, Except.bind]
    rw [← hopsOctets, hpack]
    dsimp only
    rw [hnlri]
  · have hread := Decoder.readAll_writeAll hn.read_back hnlri
    rw [MpReachNlri.parseValue, Format.unpackFrom_pack hpack trivial]
    dsimp only [bind, Except.bind]
    rw [List.drop_left' hlen4, List.take_left' rfl, List.drop_left' rfl]
    have hzero : (0 :: nlriBin).take 1 = [0] := rfl
    have hrest : (0 :: nlriBin).drop 1 = nlriBin := rfl
    rw [if_pos hzero, hrest, hread]
    cases parseNextHops c rf (hopsOctets c rf hops) (hopsOctets c rf hops).length <;> rfl

/-- A longer one is not sent. -/
theorem serializeValue_long (hc : Colons c) (h : ∀ t ∈ hops, (ipAddress c t).isSome)
    (hlen : ¬(rf.afi < 256 ^ 2 ∧ rf.safi < 256 ^ 1 ∧ (hopsOctets c rf hops).length < 256 ^ 1)) :
    (MpReachNlri.serializeValue c addrClass ⟨rf.afi, rf.safi, hops, nlri⟩).isOk = false := by
  rw [Bool.eq_false_iff, ne_eq, isOk_iff]
  rintro ⟨buf, hbuf⟩
  obtain ⟨nextHopBin, hbin, hbuf⟩ := bind_eq_ok.1 hbuf
  obtain ⟨header, hheader, -⟩ := bind_eq_ok.1 hbuf
  rw [serializeNextHop_of hc h] at hbin
  obtain rfl := Except.ok.inj hbin
  obtain ⟨hafi, b, hb⟩ := Format.pack_num hheader
  obtain ⟨hsafi, b', hb'⟩ := Format.pack_num hb
  exact hlen ⟨hafi, hsafi, (Format.pack_num hb').1⟩

end Message

section Exact

variable {c : AddrConv} {rf : RouteFamily} {hops : List Text} {k : AddrKind} {u : ℕ}
  {r : List Text}

/-- How many of the next hops are sent as IPv6 addresses. -/
def ipv6Count (c : AddrConv) (afi : ℕ) (hops : List Text) : ℕ :=
  hops.countP fun t => (sentAddr c afi t).1 = .ipv6

theorem ipv6Count_eq_zero (h : ∀ t ∈ hops, (ipAddress c t).isSome) :
    ipv6Count c rf.afi hops = 0 ↔ ∀ t ∈ hops, (sentAddr c rf.afi t).1 = .ipv4 := by
  rw [ipv6Count, List.countP_eq_zero]
  refine forall₂_congr fun t ht => ?_
  rw [decide_eq_true_eq]
  rcases sentAddr_kind (h t ht) rf.afi with hk | hk <;> simp [hk]

theorem ipv6Count_eq_length :
    ipv6Count c rf.afi hops = hops.length ↔ ∀ t ∈ hops, (sentAddr c rf.afi t).1 = .ipv6 := by
  rw [ipv6Count, List.countP_eq_length]
  simp

/-- An IPv6 address is twelve octets longer than one of IPv4. -/
theorem length_hopsOctets_mixed (h : ∀ t ∈ hops, (ipAddress c t).isSome) :
    (hopsOctets c rf hops).length =
      hops.length * unitLen rf .ipv4 + 12 * ipv6Count c rf.afi hops := by
  induction hops with
  | nil => simp [hopsOctets, ipv6Count]
  | cons t hops ih =>
    have ih := ih fun t ht => h t (List.mem_cons_of_mem _ ht)
    have hone : (sentOctets c rf t).length = unitLen rf .ipv4 +
        12 * if (sentAddr c rf.afi t).1 = .ipv6 then 1 else 0 := by
      rw [length_sentOctets]
      have hsize : unitLen rf .ipv6 = unitLen rf .ipv4 + 12 := rfl
      rcases sentAddr_kind (h t List.mem_cons_self) rf.afi with hk | hk
      · simp [hk]
      · simp [hk, hsize]
    rw [hopsOctets] at ih ⊢
    rw [List.flatMap_cons, List.length_append, ih, hone, ipv6Count, ipv6Count, List.countP_cons,
      List.length_cons]
    simp only [decide_eq_true_eq]
    ring

theorem length_of_parseNextHop {buf : List UInt8} (h : parseNextHop c k buf u = .ok r) :
    r.length = (buf.length + u - 1) / u := by
  rw [(forall_of_mapM h).1, length_splitBinWithLen]

/-- No unit is shorter than an address. -/
theorem unit_of_parseNextHop {buf : List UInt8} (h : parseNextHop c k buf u = .ok r) {i : ℕ}
    (hi : i < (buf.length + u - 1) / u) : k.size ≤ ((buf.drop (u * i)).take u).length := by
  have hmem : (buf.drop (u * i)).take u ∈ splitBinWithLen buf u :=
    List.mem_map.mpr ⟨i, List.mem_range.mpr hi, rfl⟩
  obtain ⟨t, ht⟩ := isOk_iff.1 ((forall_of_mapM h).2 _ hmem)
  unfold binToText at ht
  split at ht
  · next hlen =>
    rw [List.length_drop] at hlen
    omega
  · cases ht

/-- Next hops are read back only if they are of the family. -/
theorem suits_of_parseNextHops (h : ∀ t ∈ hops, (ipAddress c t).isSome)
    (hr : parseNextHops c rf (hopsOctets c rf hops) (hopsOctets c rf hops).length =
      .ok (hops.map (sentText c rf.afi))) :
    Suits c rf hops ∨ rf = rfL2vpnFlowspec ∧ hops = [] := by
  have hzero : ipv6Count c rf.afi hops = 0 ↔ ∀ t ∈ hops, (sentAddr c rf.afi t).1 = .ipv4 :=
    ipv6Count_eq_zero h
  have hmixed : (hopsOctets c rf hops).length =
      hops.length * unitLen rf .ipv4 + 12 * ipv6Count c rf.afi hops := length_hopsOctets_mixed h
  have hle : ipv6Count c rf.afi hops ≤ hops.length := List.countP_le_length
  unfold parseNextHops at hr
  split at hr
  · next hrf =>
    have hcount := length_of_parseNextHop hr
    have hu : unitLen rf .ipv4 = 12 := by
      rw [hrf]
      decide
    rw [List.length_map, hmixed, hu] at hcount
    exact .inl (.ipv4 (by rw [hrf]; rfl) (hzero.mp (by omega)))
  · next hvpn =>
    split at hr
    · next hrf => exact .inl (.ipv6 (by rw [hrf]; rfl))
    · next hvpn' =>
      have hu : unitLen rf .ipv4 = 4 := unitLen_of_not_mem (by simp [vpnFamilies, hvpn, hvpn']) _
      rw [hu] at hmixed
      split at hr
      · next hcase =>
        have hcount := length_of_parseNextHop hr
        rw [List.length_map, hmixed] at hcount
        have hall := hzero.mp (by omega)
        rcases hcase with hafi | ⟨hrf, hlt⟩
        · exact .inl (.ipv4 hafi hall)
        · exact .inl (.evpnIpv4 hrf hall (by omega))
      · split at hr
        · next hcase =>
          rcases hcase with hafi | ⟨hrf, hlt⟩
          · exact .inl (.ipv6 hafi)
          · have hcount := length_of_parseNextHop hr
            rw [List.length_map, hmixed] at hcount
            -- one IPv4 address among IPv6 ones leaves a unit of four octets at the end
            have hlast : ipv6Count c rf.afi hops + 1 ≠ hops.length := by
              intro hone
              have hunit := unit_of_parseNextHop hr (i := ipv6Count c rf.afi hops)
                (by rw [hmixed]; omega)
              rw [List.length_take, List.length_drop, hmixed] at hunit
              have hsize : AddrKind.ipv6.size = 16 := rfl
              omega
            exact .inl (.evpnIpv6 hrf (ipv6Count_eq_length.1 (by omega)))
        · split at hr
          · next hrf =>
            exact .inr ⟨hrf, List.map_eq_nil_iff.mp (Except.ok.inj hr).symm⟩
          · cases hr

end Exact

section Claims

variable {ν : Type} {c : AddrConv} {addrClass : RouteFamily → NlriClass ν} {rf : RouteFamily}
  {hops : List Text} {nlri : List ν} {read : ν → ν} {a : MpReachNlri ν}

/-- A next hop that is accepted is an address, unless it is a network. -/
theorem isAddress_of_check {t : Text} (h : checkNextHop c t = .ok ()) (hs : '/' ∉ t) :
    (ipAddress c t).isSome := by
  have hvalid : ∀ k, validIp c k t = .ok (validAddr c k t) := by
    intro k
    rw [validIp, List.splitOn_eq_singleton hs]
  unfold checkNextHop at h
  simp only [hvalid, bind, Except.bind] at h
  cases ha : ipAddress c t with
  | none => simp [validAddr, ha] at h
  | some a => rfl

theorem forM_eq_ok {α : Type} {f : α → Except PyError Unit} {l : List α} (h : l.forM f = .ok ()) :
    ∀ a ∈ l, f a = .ok () := by
  induction l with
  | nil => simp
  | cons a l ih =>
    obtain ⟨⟨⟩, ha, h⟩ := bind_eq_ok.1 h
    exact List.forall_mem_cons.mpr ⟨ha, ih h⟩

theorem init_mpReach (h : MpReachNlri.init c addrClass rf.afi rf.safi hops nlri = .ok a)
    (hs : ∀ t ∈ hops, '/' ∉ t) :
    a = ⟨rf.afi, rf.safi, hops, nlri⟩ ∧ ∀ t ∈ hops, (ipAddress c t).isSome := by
  obtain ⟨⟨⟩, hcheck, h⟩ := bind_eq_ok.1 h
  split at h
  · obtain rfl := Except.ok.inj h
    exact ⟨rfl, fun t ht => isAddress_of_check (forM_eq_ok hcheck t ht) (hs t ht)⟩
  · cases h

/-- The numbers fit their fields. -/
def HeaderFits (c : AddrConv) (rf : RouteFamily) (hops : List Text) : Prop :=
  rf.afi < 256 ^ 2 ∧ rf.safi < 256 ^ 1 ∧ (hopsOctets c rf hops).length < 256 ^ 1

/-- Next hops come back as they were exactly if they are of the family, and fit the field. -/
theorem sameNextHops_iff (hc : Colons c) (hn : NlriRead (addrClass rf) nlri read)
    (h : ∀ t ∈ hops, (ipAddress c t).isSome) :
    (∃ buf, MpReachNlri.serializeValue c addrClass ⟨rf.afi, rf.safi, hops, nlri⟩ = .ok buf ∧
      ∃ a, MpReachNlri.parseValue c addrClass buf = .ok a ∧
        a.nextHopList = hops.map (sentText c rf.afi)) ↔
    HeaderFits c rf hops ∧ (Suits c rf hops ∨ rf = rfL2vpnFlowspec ∧ hops = []) := by
  by_cases hfit : HeaderFits c rf hops
  · obtain ⟨buf, hbuf, hparse⟩ := parseValue_hops hc hfit.1 hfit.2.1 h hfit.2.2 hn
    simp only [hbuf, Except.ok.injEq, exists_eq_left', hparse, map_eq_ok, hfit, true_and]
    constructor
    · rintro ⟨_, ⟨r, hr, rfl⟩, rfl⟩
      exact suits_of_parseNextHops h hr
    · rintro (hs | ⟨rfl, rfl⟩)
      · exact ⟨_, ⟨_, parseNextHops_of_suits h hs, rfl⟩, rfl⟩
      · exact ⟨_, ⟨[], by rfl, rfl⟩, rfl⟩
  · have hfail : (MpReachNlri.serializeValue c addrClass
        ⟨rf.afi, rf.safi, hops, nlri⟩).isOk = false := serializeValue_long hc h hfit
    simp only [hfit, false_and, iff_false]
    rintro ⟨buf, hbuf, -⟩
    rw [hbuf] at hfail
    cases hfail

/-- Next hops of the family come back as they were, those of flow specifications do not come
back, and other families are refused. -/
theorem nextHops_read_back (hc : Colons c) (hn : NlriRead (addrClass rf) nlri read)
    (hinit : MpReachNlri.init c addrClass rf.afi rf.safi hops nlri = .ok a)
    (hs : ∀ t ∈ hops, '/' ∉ t) :
    (¬HeaderFits c rf hops → (a.serializeValue c addrClass).isOk = false) ∧
    (HeaderFits c rf hops → ∃ buf, a.serializeValue c addrClass = .ok buf ∧
      (Suits c rf hops → MpReachNlri.parseValue c addrClass buf =
        .ok ⟨rf.afi, rf.safi, hops.map (sentText c rf.afi), nlri.map read⟩) ∧
      (rf = rfL2vpnFlowspec → MpReachNlri.parseValue c addrClass buf =
        .ok ⟨rf.afi, rf.safi, [], nlri.map read⟩) ∧
      (rf.afi ≠ afiIp → rf.afi ≠ afiIp6 → rf ≠ rfL2Evpn → rf ≠ rfL2vpnFlowspec →
        MpReachNlri.parseValue c addrClass buf =
          .error (.valueError "Invalid address family"))) := by
  obtain ⟨rfl, h⟩ := init_mpReach hinit hs
  constructor
  · exact serializeValue_long hc h
  · intro hfit
    obtain ⟨buf, hbuf, hparse⟩ := parseValue_hops hc hfit.1 hfit.2.1 h hfit.2.2 hn
    refine ⟨buf, hbuf, ?_, ?_, ?_⟩
    · intro hsuits
      rw [hparse, parseNextHops_of_suits h hsuits]
      rfl
    · rintro rfl
      rw [hparse]
      rfl
    · intro hip hip6 hevpn hflow
      have hvpn : rf ≠ rfIPv4Vpn := by
        rintro rfl
        exact hip rfl
      have hvpn' : rf ≠ rfIPv6Vpn := by
        rintro rfl
        exact hip6 rfl
      rw [hparse, parseNextHops, if_neg hvpn, if_neg hvpn', if_neg (by simp [hip, hevpn]),
        if_neg (by simp [hip6, hevpn]), if_neg hflow]
      rfl

/-- The class of the NLRIs of an IPv4 unicast family. -/
def ipv4UnicastClass : NlriClass AddrPrefix where
  isInstance _ := true
  serialize n := (n.serialize plainConv .ipv4).1
  decoder := { read := AddrPrefix.parser plainConv .ipv4, read_lt := AddrPrefix.parser_lt }

theorem colons_plainConv : Colons plainConv where
  ipv4 t v h := by
    obtain ⟨n, hn, -⟩ := Option.map_eq_some_iff.mp h
    intro hmem
    rcases GroupFormat.mem_of_read (F := ipv4Format) hn hmem with hsep | hdigit
    · exact absurd hsep (by decide)
    · exact absurd hdigit (by decide)
  ipv6 t v h := by
    obtain ⟨n, hn, -⟩ := Option.map_eq_some_iff.mp h
    unfold plainBin at hn
    split at hn
    · next ht =>
      rw [ht.2]
      decide
    · exact GroupFormat.sep_mem_of_read (F := ipv6Format) hn

theorem nextHops_read_back_ipv4 : ∃ buf,
    MpReachNlri.serializeValue plainConv (fun _ => ipv4UnicastClass)
      ⟨1, 1, ["192.0.2.1".toList], [⟨8, "10.0.0.0".toList⟩]⟩ = .ok buf ∧
    MpReachNlri.parseValue plainConv (fun _ => ipv4UnicastClass) buf =
      .ok ⟨1, 1, ["192.0.2.1".toList], [⟨8, "10.0.0.0".toList⟩]⟩ := by
  have hn : NlriRead ipv4UnicastClass [⟨8, "10.0.0.0".toList⟩] id :=
    ⟨by decide, by
      intro n hn b hb r
      obtain rfl := List.mem_singleton.mp hn
      have hbuf : ipv4UnicastClass.serialize ⟨8, "10.0.0.0".toList⟩ = .ok [8, 10] := by rfl
      obtain rfl := Except.ok.inj (hb.symm.trans hbuf)
      have hfrom : fromBin plainConv .ipv4 [10] = .ok "10.0.0.0".toList := by rfl
      have hone : ((8 : UInt8).toNat + 7) / 8 = 1 := by decide
      change AddrPrefix.parser plainConv .ipv4 (8 :: 10 :: r) = _
      rw [AddrPrefix.parser, hone, List.take_succ_cons, List.take_zero, hfrom]
      rfl⟩
  have hinit : MpReachNlri.init plainConv (fun _ => ipv4UnicastClass) rfIPv4Uc.afi rfIPv4Uc.safi
      ["192.0.2.1".toList] [⟨8, "10.0.0.0".toList⟩] =
        .ok ⟨1, 1, ["192.0.2.1".toList], [⟨8, "10.0.0.0".toList⟩]⟩ := by rfl
  have hread := nextHops_read_back colons_plainConv hn hinit (by decide)
  obtain ⟨buf, hbuf, hsuits, -⟩ := hread.2 ⟨by decide, by decide, by decide⟩
  exact ⟨buf, hbuf, hsuits (.ipv4 rfl (by decide))⟩

/-- The next hop of a flow specification is not read back. -/
theorem nextHop_dropped : ∃ a buf a',
    MpReachNlri.init plainConv (fun _ => ipv4UnicastClass) 25 134 ["192.0.2.1".toList] [] = .ok a ∧
    a.serializeValue plainConv (fun _ => ipv4UnicastClass) = .ok buf ∧
    MpReachNlri.parseValue plainConv (fun _ => ipv4UnicastClass) buf = .ok a' ∧
    a.nextHopList = ["192.0.2.1".toList] ∧ a'.nextHopList = [] :=
  ⟨_, _, _, rfl, rfl, rfl, rfl, rfl⟩

end Claims

end Ryu.Bgp.Wire
