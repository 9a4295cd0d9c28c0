import Ryu.Packet.Packet

/-! # VRRP

Advertisements of version 2, with IPv4 addresses, and of version 3, whose parser guesses the family
of the addresses by their length: what is behind an advertisement of version 3 is read as part of
it. A checksum is computed once, and kept with the advertisement.
-/

namespace Ryu.Packet

open Bytes

/-- An address, of the family that its text is of. -/
inductive IpAddress
  | v4 (a : BitVec 32)
  | v6 (a : BitVec 128)
  deriving DecidableEq, Repr

structure Vrrp where
  version : ℕ
  type : ℕ
  vrid : ℕ
  priority : ℕ
  countIp : ℕ
  maxAdverInt : ℕ
  checksum : Option ℕ
  ipAddresses : List IpAddress
  authType : Option ℕ
  authData : Option (ℕ × ℕ)
  identification : ℕ
  deriving DecidableEq, Repr

namespace IpAddress

/-- `is_ipv6`. -/
def isIpv6 : IpAddress → Bool
  | v4 _ => false
  | v6 _ => true

/-- `addrconv.ipv4.text_to_bin` and `addrconv.ipv6.text_to_bin`, for the family asked for. -/
def bin : Bool → IpAddress → Except PyError (List UInt8)
  | false, v4 a => .ok (toBytes 4 a.toNat)
  | true, v6 a => .ok (toBytes 16 a.toNat)
  | _, _ => .error (.other "AddrFormatError")

def bytes : IpAddress → List UInt8
  | v4 a => toBytes 4 a.toNat
  | v6 a => toBytes 16 a.toNat

/-- The length of an address of a family. -/
def size (ipv6 : Bool) : ℕ := if ipv6 then 16 else 4

/-- An address of a family is read off. -/
def read (ipv6 : Bool) (b : List UInt8) : Except PyError (IpAddress × List UInt8) :=
  (unpackFrom (size ipv6) b).map fun x =>
    (if ipv6 then v6 (BitVec.ofNat 128 x.1) else v4 (BitVec.ofNat 32 x.1), x.2)

end IpAddress

namespace Vrrp

variable (v : Vrrp)

/-- `is_ipv6`, which the constructor takes from the first address. -/
def isIpv6 : Bool := (v.ipAddresses.head?.map IpAddress.isIpv6).getD false

@[reducible] def packStrV2 : Format := [.num 1, .num 1, .num 1, .num 1, .num 1, .num 1, .num 2]

@[reducible] def packStrV3 : Format := [.num 1, .num 1, .num 1, .num 1, .num 2, .num 2]

@[reducible] def authDataPackStr : Format := [.num 4, .num 4]

/-- `__len__`, of the two versions that there are. -/
def len : ℕ :=
  if v.version = 2 then packStrV2.calcsize + 4 * v.countIp + authDataPackStr.calcsize
  else packStrV3.calcsize + IpAddress.size v.isIpv6 * v.countIp

/-- The constructor. -/
def new (v : Vrrp) : Except PyError Vrrp :=
  if v.ipAddresses.length ≠ v.countIp then .error .assertionError
  else if v.ipAddresses = [] then .error (.other "IndexError")
  else .ok { v with identification := 0 }

/-- `create_version`. -/
def createVersion (version type vrid : ℕ) (priority maxAdverInt : Option ℕ)
    (ipAddresses : List IpAddress) (authType : Option ℕ) (authData : Option (ℕ × ℕ)) :
    Except PyError Vrrp :=
  if version ≠ 2 ∧ version ≠ 3 then .error (.valueError s!"unknown VRRP version {version}")
  else new ⟨version, type, vrid, priority.getD 100, ipAddresses.length,
    maxAdverInt.getD (if version = 2 then 1 else 100), none, ipAddresses, authType, authData, 0⟩

/-- `vrrpv2.parser`. -/
def parserV2 (buf : List UInt8) : Except PyError (Vrrp × List UInt8) :=
  match packStrV2.unpackFrom buf with
  | .error e => .error e
  | .ok (versionType, vrid, priority, countIp, authType, adverInt, checksum, ()) =>
    match readTimes (IpAddress.read false) countIp (buf.drop packStrV2.calcsize) with
    | .error e => .error e
    | .ok (ipAddresses, rest) =>
      match authDataPackStr.unpackFrom rest with
      | .error e => .error e
      | .ok (fst, snd, ()) =>
        (new ⟨versionType >>> 4, versionType &&& 0xf, vrid, priority, countIp, adverInt,
          some checksum, ipAddresses, some authType, some (fst, snd), 0⟩).map fun v =>
            (v, buf.drop v.len)

/-- `vrrpv3.parser`. -/
def parserV3 (buf : List UInt8) : Except PyError (Vrrp × List UInt8) :=
  match packStrV3.unpackFrom buf with
  | .error e => .error e
  | .ok (versionType, vrid, priority, countIp, maxAdverInt, checksum, ()) =>
    if countIp = 0 then .error (.other "ZeroDivisionError")
    else
      let addressLen := (buf.length - packStrV3.calcsize) / countIp
      if addressLen ≠ 4 ∧ addressLen ≠ 16 then
        .error (.valueError
          s!"unknown address version address_len {addressLen} count_ip {countIp}")
      else
        match readTimes (IpAddress.read (addressLen = 16)) countIp
          (buf.drop packStrV3.calcsize) with
        | .error e => .error e
        | .ok (ipAddresses, _) =>
          (new ⟨versionType >>> 4, versionType &&& 0xf, vrid, priority, countIp,
            maxAdverInt &&& 0xfff, some checksum, ipAddresses, none, none, 0⟩).map fun v =>
              (v, buf.drop v.len)

def parser (buf : List UInt8) : Except PyError (Vrrp × List UInt8) :=
  match Format.unpackFrom [.num 1] buf with
  | .error e => .error e
  | .ok (versionType, ()) =>
    if versionType >>> 4 = 2 then parserV2 buf
    else if versionType >>> 4 = 3 then parserV3 buf
    else .error (.keyError (toString (versionType >>> 4)))

/-- `'4s' * count_ip` and the like, packed. -/
def packAddresses (ipv6 : Bool) : Except PyError (List UInt8) :=
  match writeAll (IpAddress.bin ipv6) v.ipAddresses with
  | .error e => .error e
  | .ok b => if v.countIp = v.ipAddresses.length then .ok b else .error structError

/-- The checksum of a buffer in its place, if it has not been computed before. -/
def setChecksum (v : Vrrp) (sum : List UInt8 → Except PyError ℕ) (buf : List UInt8) :
    Except PyError (List UInt8 × Vrrp) :=
  match v.checksum with
  | some _ => .ok (buf, v)
  | none =>
    match sum buf with
    | .error e => .error e
    | .ok checksum => (packInto 2 checksum).map fun b =>
      (buf.take 6 ++ b ++ buf.drop 8, { v with checksum := some checksum })

/-- `vrrpv2.serialize_static`. -/
def serializeV2 : Except PyError (List UInt8 × Vrrp) :=
  if v.isIpv6 then .error .assertionError
  else
    let authType := v.authType.getD 0
    let authData := v.authData.getD (0, 0)
    match packStrV2.pack (v.version <<< 4 ||| v.type, v.vrid, v.priority, v.countIp, authType,
      v.maxAdverInt, v.checksum.getD 0, ()) with
    | .error e => .error e
    | .ok hdr =>
      match v.packAddresses false with
      | .error e => .error e
      | .ok addresses =>
        match authDataPackStr.pack (authData.1, authData.2, ()) with
        | .error e => .error e
        | .ok auth =>
          setChecksum { v with authType := some authType, authData := some authData }
            (fun buf => .ok (Packet.checksum buf)) (hdr ++ addresses ++ auth)

/-- `vrrpv3.serialize_static`, behind a header of a class, and with what `checksum_ip` takes from
it. -/
def serializeV3 (prevIpv6 : Option Bool) (prev : Except PyError IpHeader) :
    Except PyError (List UInt8 × Vrrp) :=
  match prevIpv6 with
  | none => .error (.valueError "Unkown network layer")
  | some ipv6 =>
    if v.ipAddresses = [] then .error (.other "IndexError")
    else if 0xfff < v.maxAdverInt then .error .assertionError
    else
      match packStrV3.pack (v.version <<< 4 ||| v.type, v.vrid, v.priority, v.countIp,
        v.maxAdverInt, v.checksum.getD 0, ()) with
      | .error e => .error e
      | .ok hdr =>
        match v.packAddresses ipv6 with
        | .error e => .error e
        | .ok addresses =>
          setChecksum v (fun buf => match prev with
            | .error e => .error e
            | .ok ipvx => ipvx.checksumIp buf.length buf) (hdr ++ addresses)

def serialize (prevIpv6 : Option Bool) (prev : Except PyError IpHeader) :
    Except PyError (List UInt8 × Vrrp) :=
  if v.version = 2 then v.serializeV2
  else if v.version = 3 then v.serializeV3 prevIpv6 prev
  else .error (.keyError (toString v.version))

/-- `checksum_ok`. -/
def checksumOk (ipvx : Except PyError IpHeader) (buf : List UInt8) : Except PyError Bool :=
  if v.version = 2 then .ok (Packet.checksum buf = 0)
  else
    match ipvx with
    | .error e => .error e
    | .ok ipvx => (ipvx.checksumIp v.len buf).map (· = 0)

/-- `is_valid`, of the two versions that there are. -/
def isValid : Bool :=
  v.type = 1 ∧ 1 ≤ v.vrid ∧ v.vrid ≤ 255 ∧ v.priority ≤ 255 ∧ 1 ≤ v.maxAdverInt ∧
    v.countIp = v.ipAddresses.length ∧
    if v.version = 2 then v.authType = some 0 ∧ v.maxAdverInt ≤ 0xff
    else v.version = 3 ∧ v.maxAdverInt ≤ 0xfff

end Vrrp

/-! ## What is serialized is read back -/

section

variable {v : Vrrp} {ipv6 : Bool} {l : List IpAddress} {b : List UInt8}

theorem IpAddress.bin_family (a : IpAddress) : a.bin a.isIpv6 = .ok a.bytes := by
  cases a <;> rfl

theorem IpAddress.length_bytes (a : IpAddress) : a.bytes.length = size a.isIpv6 := by
  cases a <;> exact length_toBytes ..

theorem IpAddress.read_bytes (a : IpAddress) (r : List UInt8) :
    IpAddress.read a.isIpv6 (a.bytes ++ r) = .ok (a, r) := by
  cases a with
  | v4 a =>
    have hread : unpackFrom 4 (toBytes 4 a.toNat ++ r) = .ok (a.toNat, r) :=
      unpackFrom_toBytes a.isLt r
    rw [read, size, isIpv6, if_neg Bool.false_ne_true, bytes, hread]
    simp [Except.map]
  | v6 a =>
    have hread : unpackFrom 16 (toBytes 16 a.toNat ++ r) = .ok (a.toNat, r) :=
      unpackFrom_toBytes a.isLt r
    rw [read, size, isIpv6, if_pos rfl, bytes, hread]
    simp [Except.map]

/-- The addresses of one family are packed, and read back. -/
theorem IpAddress.readTimes_bytes (h : ∀ a ∈ l, a.isIpv6 = ipv6) :
    writeAll (IpAddress.bin ipv6) l = .ok (l.flatMap bytes) ∧
      (l.flatMap bytes).length = size ipv6 * l.length ∧
      ∀ r, readTimes (IpAddress.read ipv6) l.length (l.flatMap bytes ++ r) = .ok (l, r) := by
  have hbin (a : IpAddress) (ha : a ∈ l) : a.bin ipv6 = .ok a.bytes := h a ha ▸ a.bin_family
  have hwrite : writeAll (IpAddress.bin ipv6) l = .ok (l.flatMap bytes) := writeAll_ok hbin
  refine ⟨hwrite, ?_, readTimes_writeAll (fun a ha b hb r => ?_) hwrite⟩
  · clear hwrite hbin
    induction l with
    | nil => rfl
    | cons a l ih =>
      obtain ⟨ha, hl⟩ := List.forall_mem_cons.mp h
      rw [List.flatMap_cons, List.length_append, ih hl, a.length_bytes, ha, List.length_cons,
        Nat.mul_succ, Nat.add_comm]
  · obtain rfl := Except.ok.inj ((hbin a ha).symm.trans hb)
    exact h a ha ▸ a.read_bytes r

namespace Vrrp

/-- What may be sent: one address at least, all of one family, in fields that have room for them. -/
structure Fits (v : Vrrp) : Prop where
  version : v.version = 2 ∧ v.isIpv6 = false ∧ v.maxAdverInt < 256 ∧
      v.authType.getD 0 < 256 ∧ (v.authData.getD (0, 0)).1 < 2 ^ 32 ∧
      (v.authData.getD (0, 0)).2 < 2 ^ 32 ∨
    v.version = 3 ∧ v.maxAdverInt < 2 ^ 12 ∧ v.authType = none ∧ v.authData = none
  type : v.type < 2 ^ 4
  vrid : v.vrid < 256
  priority : v.priority < 256
  count : v.countIp = v.ipAddresses.length
  countLt : v.countIp < 256
  nonempty : v.ipAddresses ≠ []
  family : ∀ a ∈ v.ipAddresses, a.isIpv6 = v.isIpv6

/-- As `serialize` leaves an advertisement, with a checksum. -/
def sent (v : Vrrp) (checksum : ℕ) : Vrrp :=
  if v.version = 2 then
    { v with
      checksum := some checksum
      authType := some (v.authType.getD 0)
      authData := some (v.authData.getD (0, 0)) }
  else { v with checksum := some checksum }

/-- What is in front of the checksum. -/
def front (v : Vrrp) : List UInt8 :=
  toBytes 1 (v.version <<< 4 ||| v.type) ++ toBytes 1 v.vrid ++ toBytes 1 v.priority ++
    toBytes 1 v.countIp ++ if v.version = 2 then toBytes 1 (v.authType.getD 0) ++
      toBytes 1 v.maxAdverInt else toBytes 2 v.maxAdverInt

/-- What is behind it. -/
def back (v : Vrrp) : List UInt8 :=
  v.ipAddresses.flatMap IpAddress.bytes ++ if v.version = 2 then
    toBytes 4 (v.authData.getD (0, 0)).1 ++ toBytes 4 (v.authData.getD (0, 0)).2 else []

/-- An advertisement with a checksum. -/
def wire (v : Vrrp) (checksum : ℕ) : List UInt8 := v.front ++ (toBytes 2 checksum ++ v.back)

@[simp] theorem length_front (v : Vrrp) : v.front.length = 6 := by
  rw [front]
  split_ifs <;> simp

theorem versionType (h : v.Fits) : v.version <<< 4 ||| v.type < 256 ∧
    (v.version <<< 4 ||| v.type) >>> 4 = v.version ∧
    (v.version <<< 4 ||| v.type) &&& 0xf = v.type := by
  refine ⟨?_, BitFields.shiftRight_shiftLeft_or h.type, BitFields.shiftLeft_or_and h.type⟩
  refine (BitFields.shiftLeft_or_lt_iff (m := 4) h.type).2 ?_
  rcases h.version with ⟨hv, -⟩ | ⟨hv, -⟩ <;> omega

theorem length_wire (h : v.Fits) (checksum : ℕ) : (v.wire checksum).length = v.len := by
  obtain ⟨-, hlen, -⟩ := IpAddress.readTimes_bytes h.family
  rcases h.version with ⟨hv, hipv4, -⟩ | ⟨hv, -⟩
  · rw [hipv4] at hlen
    simp only [wire, back, len, hv, if_pos, List.length_append, hlen, length_front, length_toBytes,
      h.count, IpAddress.size]
    simp [Format.calcsize]
    omega
  · have hne : ¬ v.version = 2 := by omega
    simp only [wire, back, len, if_neg hne, List.length_append, hlen, length_front, length_toBytes,
      h.count, List.length_nil]
    simp [Format.calcsize]
    omega

/-- The checksum is put in its place, unless it is kept. -/
theorem setChecksum_wire {u : Vrrp} (v : Vrrp) (sum : List UInt8 → Except PyError ℕ) {n : ℕ}
    (hsum : sum (v.wire 0) = .ok n) (hn : n < 2 ^ 16) :
    setChecksum u sum (v.wire (u.checksum.getD 0)) =
      .ok (v.wire (u.checksum.getD n), { u with checksum := some (u.checksum.getD n) }) := by
  cases hu : u.checksum with
  | some csum =>
    obtain ⟨_, _, _, _, _, _, _, _, _, _, _⟩ := u
    obtain rfl : _ = some csum := hu
    rfl
  | none =>
    have hput : packInto 2 n = .ok (toBytes 2 n) := by
      rw [packInto, if_pos (show n < 256 ^ 2 from hn)]
    simp only [setChecksum, hu, Option.getD_none]
    rw [hsum]
    simp only
    rw [hput]
    have htake : (v.wire 0).take 6 = v.front := List.take_left' v.length_front
    have hdrop : (v.wire 0).drop 8 = v.back := by
      rw [wire, ← List.append_assoc]
      refine List.drop_left' ?_
      rw [List.length_append, length_front, length_toBytes]
    simp only [Except.map]
    rw [htake, hdrop, List.append_assoc]
    rfl

theorem serializeV2_eq (h : v.Fits) (hv : v.version = 2) (hcsum : v.checksum.getD 0 < 2 ^ 16) :
    v.serializeV2 = .ok (v.wire (v.checksum.getD (Packet.checksum (v.wire 0))),
      v.sent (v.checksum.getD (Packet.checksum (v.wire 0)))) := by
  obtain ⟨-, hipv4, hadver, hauth, hfst, hsnd⟩ | ⟨hv', -⟩ := h.version
  · obtain ⟨haddr, -, -⟩ := IpAddress.readTimes_bytes h.family
    rw [hipv4] at haddr
    have hhdr : packStrV2.Fits (v.version <<< 4 ||| v.type, v.vrid, v.priority, v.countIp,
        v.authType.getD 0, v.maxAdverInt, v.checksum.getD 0, ()) :=
      ⟨(versionType h).1, h.vrid, h.priority, h.countLt, hauth, hadver, hcsum, trivial⟩
    have hdata : authDataPackStr.Fits
        ((v.authData.getD (0, 0)).1, (v.authData.getD (0, 0)).2, ()) := ⟨hfst, hsnd, trivial⟩
    have hwire : packStrV2.bytes (v.version <<< 4 ||| v.type, v.vrid, v.priority, v.countIp,
        v.authType.getD 0, v.maxAdverInt, v.checksum.getD 0, ()) ++
        v.ipAddresses.flatMap IpAddress.bytes ++
        authDataPackStr.bytes ((v.authData.getD (0, 0)).1, (v.authData.getD (0, 0)).2, ()) =
        v.wire (v.checksum.getD 0) := by
      simp [wire, front, back, hv, Format.bytes]
    have hset := setChecksum_wire (u := { v with
        authType := some (v.authType.getD 0)
        authData := some (v.authData.getD (0, 0)) }) v (fun buf => .ok (Packet.checksum buf)) rfl
      (checksum_lt _)
    rw [serializeV2, if_neg (by rw [hipv4]; decide)]
    simp only
    rw [Format.pack_bytes hhdr]
    simp only
    rw [packAddresses, haddr]
    simp only
    rw [if_pos h.count]
    simp only
    rw [Format.pack_bytes hdata]
    simp only
    rw [hwire, hset, sent, if_pos hv]
  · omega

theorem serializeV3_eq (h : v.Fits) (hv : v.version = 3) (hcsum : v.checksum.getD 0 < 2 ^ 16)
    {ipvx : IpHeader} {n : ℕ} (hsum : ipvx.checksumIp v.len (v.wire 0) = .ok n) :
    v.serializeV3 (some v.isIpv6) (.ok ipvx) =
      .ok (v.wire (v.checksum.getD n), v.sent (v.checksum.getD n)) := by
  obtain ⟨hv', -⟩ | ⟨-, hadver, -, -⟩ := h.version
  · omega
  · have hne : ¬ v.version = 2 := by omega
    obtain ⟨haddr, -, -⟩ := IpAddress.readTimes_bytes h.family
    have hhdr : packStrV3.Fits (v.version <<< 4 ||| v.type, v.vrid, v.priority, v.countIp,
        v.maxAdverInt, v.checksum.getD 0, ()) :=
      ⟨(versionType h).1, h.vrid, h.priority, h.countLt, hadver.trans (by decide), hcsum, trivial⟩
    have hwire : packStrV3.bytes (v.version <<< 4 ||| v.type, v.vrid, v.priority, v.countIp,
        v.maxAdverInt, v.checksum.getD 0, ()) ++ v.ipAddresses.flatMap IpAddress.bytes =
        v.wire (v.checksum.getD 0) := by
      simp [wire, front, back, hne, Format.bytes]
    have hset := setChecksum_wire (u := v) v (fun buf => ipvx.checksumIp buf.length buf)
      (by rw [length_wire h]; exact hsum) (IpHeader.checksumIp_lt hsum)
    rw [serializeV3]
    simp only
    rw [if_neg h.nonempty, if_neg (by omega), Format.pack_bytes hhdr]
    simp only
    rw [packAddresses, haddr]
    simp only
    rw [if_pos h.count]
    simp only
    rw [hwire, hset, sent, if_neg hne]

/-- As the parser makes an advertisement of it. -/
def received (v : Vrrp) (checksum : ℕ) : Vrrp := { v.sent checksum with identification := 0 }

theorem received_v2 (hv : v.version = 2) (checksum : ℕ) : v.received checksum =
    ⟨v.version, v.type, v.vrid, v.priority, v.countIp, v.maxAdverInt, some checksum,
      v.ipAddresses, some (v.authType.getD 0), some (v.authData.getD (0, 0)), 0⟩ := by
  rw [received, sent, if_pos hv]

theorem received_v3 (hv : v.version = 3) (hauth : v.authType = none) (hdata : v.authData = none)
    (checksum : ℕ) : v.received checksum =
    ⟨v.version, v.type, v.vrid, v.priority, v.countIp, v.maxAdverInt, some checksum,
      v.ipAddresses, none, none, 0⟩ := by
  rw [received, sent, if_neg (by omega), hauth, hdata]

theorem len_received (v : Vrrp) (checksum : ℕ) : (v.received checksum).len = v.len := by
  rw [received, sent]
  split_ifs <;> rfl

theorem new_received (h : v.Fits) (checksum : ℕ) :
    new (v.received checksum) = .ok (v.received checksum) := by
  have haddr : (v.received checksum).ipAddresses = v.ipAddresses := by
    rw [received, sent]
    split_ifs <;> rfl
  have hcount : (v.received checksum).countIp = v.countIp := by
    rw [received, sent]
    split_ifs <;> rfl
  rw [new, if_neg (by rw [haddr, hcount, h.count]; exact not_not.mpr rfl),
    if_neg (by rw [haddr]; exact h.nonempty)]
  rfl

theorem parserV2_wire (h : v.Fits) (hv : v.version = 2) {checksum : ℕ}
    (hcsum : checksum < 2 ^ 16) : parserV2 (v.wire checksum) = .ok (v.received checksum, []) := by
  obtain ⟨-, hipv4, hadver, hauth, hfst, hsnd⟩ | ⟨hv', -⟩ := h.version
  · obtain ⟨hvt, hversion, htype⟩ := versionType h
    obtain ⟨-, -, hread⟩ := IpAddress.readTimes_bytes h.family
    rw [hipv4, ← h.count] at hread
    have hhdr : packStrV2.Fits (v.version <<< 4 ||| v.type, v.vrid, v.priority, v.countIp,
        v.authType.getD 0, v.maxAdverInt, checksum, ()) :=
      ⟨hvt, h.vrid, h.priority, h.countLt, hauth, hadver, hcsum, trivial⟩
    have hwire : v.wire checksum = packStrV2.bytes (v.version <<< 4 ||| v.type, v.vrid, v.priority,
        v.countIp, v.authType.getD 0, v.maxAdverInt, checksum, ()) ++ v.back := by
      simp [wire, front, hv, Format.bytes]
    have hdata : authDataPackStr.Fits
        ((v.authData.getD (0, 0)).1, (v.authData.getD (0, 0)).2, ()) := ⟨hfst, hsnd, trivial⟩
    have hback : v.back = v.ipAddresses.flatMap IpAddress.bytes ++
        (authDataPackStr.bytes ((v.authData.getD (0, 0)).1, (v.authData.getD (0, 0)).2, ()) ++
          []) := by
      simp [back, hv, Format.bytes]
    have hall : (v.wire checksum).drop (v.received checksum).len = [] := by
      rw [len_received]
      exact List.drop_eq_nil_of_le (length_wire h checksum).le
    have hnew := new_received h checksum
    rw [parserV2, hwire, Format.unpackFrom_bytes hhdr trivial]
    simp only
    rw [List.drop_left' (Format.length_bytes hhdr), hback, hread]
    simp only
    rw [Format.unpackFrom_bytes hdata trivial]
    simp only
    rw [hversion, htype, ← hback, ← hwire, ← received_v2 hv, hnew]
    simp only [Except.map]
    rw [hall]
  · omega

theorem parserV3_wire (h : v.Fits) (hv : v.version = 3) {checksum : ℕ}
    (hcsum : checksum < 2 ^ 16) : parserV3 (v.wire checksum) = .ok (v.received checksum, []) := by
  obtain ⟨hv', -⟩ | ⟨-, hadver, hauth, hdata⟩ := h.version
  · omega
  · have hne : ¬ v.version = 2 := by omega
    obtain ⟨hvt, hversion, htype⟩ := versionType h
    obtain ⟨-, hlen, hread⟩ := IpAddress.readTimes_bytes h.family
    rw [← h.count] at hread hlen
    have hpos : 0 < v.countIp := h.count ▸ List.length_pos_iff.mpr h.nonempty
    have hhdr : packStrV3.Fits (v.version <<< 4 ||| v.type, v.vrid, v.priority, v.countIp,
        v.maxAdverInt, checksum, ()) :=
      ⟨hvt, h.vrid, h.priority, h.countLt, hadver.trans (by decide), hcsum, trivial⟩
    have hwire : v.wire checksum = packStrV3.bytes (v.version <<< 4 ||| v.type, v.vrid, v.priority,
        v.countIp, v.maxAdverInt, checksum, ()) ++ v.back := by
      simp [wire, front, hne, Format.bytes]
    have hback : v.back = v.ipAddresses.flatMap IpAddress.bytes ++ [] := by
      simp [back, hne]
    -- Nothing but the addresses is behind the header, which tells their family.
    have hsize : ((v.wire checksum).length - packStrV3.calcsize) / v.countIp =
        IpAddress.size v.isIpv6 := by
      rw [hwire, List.length_append, Format.length_bytes hhdr, Nat.add_sub_cancel_left, hback,
        List.append_nil, hlen, Nat.mul_div_cancel _ hpos]
    have hfamily : decide (IpAddress.size v.isIpv6 = 16) = v.isIpv6 := by
      cases v.isIpv6 <;> rfl
    have hknown : ¬ (IpAddress.size v.isIpv6 ≠ 4 ∧ IpAddress.size v.isIpv6 ≠ 16) := by
      cases v.isIpv6 <;> decide
    have hadver' : v.maxAdverInt &&& 0xfff = v.maxAdverInt :=
      (Nat.and_two_pow_sub_one_eq_mod _ 12).trans (Nat.mod_eq_of_lt hadver)
    have hall : (v.wire checksum).drop (v.received checksum).len = [] := by
      rw [len_received]
      exact List.drop_eq_nil_of_le (length_wire h checksum).le
    have hnew := new_received h checksum
    have hfirst : packStrV3.unpackFrom (v.wire checksum) = .ok (v.version <<< 4 ||| v.type, v.vrid,
        v.priority, v.countIp, v.maxAdverInt, checksum, ()) := by
      rw [hwire]
      exact Format.unpackFrom_bytes hhdr trivial _
    have hdrop : (v.wire checksum).drop packStrV3.calcsize =
        v.ipAddresses.flatMap IpAddress.bytes ++ [] := by
      rw [hwire, ← hback]
      exact List.drop_left' (Format.length_bytes hhdr)
    rw [parserV3, hfirst]
    simp only
    rw [if_neg hpos.ne', hsize, if_neg hknown, hfamily, hdrop, hread]
    simp only
    rw [hversion, htype, hadver', ← received_v3 hv hauth hdata, hnew]
    simp only [Except.map]
    rw [hall]

/-- What is sent is read back, nothing being behind it. -/
theorem parser_wire (h : v.Fits) {checksum : ℕ} (hcsum : checksum < 2 ^ 16) :
    parser (v.wire checksum) = .ok (v.received checksum, []) := by
  obtain ⟨hvt, hversion, -⟩ := versionType h
  have hfirst : Format.unpackFrom [.num 1] (v.wire checksum) =
      .ok (v.version <<< 4 ||| v.type, ()) := by
    have hfits : Format.Fits [.num 1] (v.version <<< 4 ||| v.type, ()) := ⟨hvt, trivial⟩
    have hwire : v.wire checksum =
        Format.bytes [.num 1] (v.version <<< 4 ||| v.type, ()) ++ (v.wire checksum).drop 1 := by
      simp [wire, front, Format.bytes]
    rw [hwire]
    exact Format.unpackFrom_bytes hfits trivial _
  rw [parser, hfirst]
  simp only
  rw [hversion]
  rcases h.version with ⟨hv, -⟩ | ⟨hv, -⟩
  · rw [if_pos hv, parserV2_wire h hv hcsum]
  · rw [if_neg (by omega), if_pos hv, parserV3_wire h hv hcsum]

end Vrrp

end

/-- Whether the header in front is IPv6, if it is an IP header. -/
def networkLayer {Ω : Type} : Option (LayerItem (Proto Ω)) → Option Bool
  | some (.proto (.ipv4 _)) => some false
  | some (.proto (.ipv6 _)) => some true
  | _ => none

/-- VRRP, which both IP headers know by the number 112. -/
def vrrpClasses : OtherClasses Vrrp where
  types type := if type = 112 then some (.other "vrrp") else none
  parser name buf :=
    if name = "vrrp" then (Vrrp.parser buf).map fun x => (some x.1, none, x.2)
    else .error (.keyError name)
  serialize prev v payload :=
    (v.serialize (networkLayer prev) (ipHeader (fun v => .ok (.unknown v.version)) prev)).map
      fun x => (x.1, x.2, payload)
  len := Vrrp.len
  ipHeader v := .ok (.unknown v.version)

end Ryu.Packet
