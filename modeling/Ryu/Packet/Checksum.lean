import Ryu.Lib.Struct

/-! # Internet checksums

`packet_utils.checksum`, a sum of words with its carries added around, and the checksum of a
payload behind the pseudo header of the IP packet that holds it.
-/

namespace Ryu.Packet

open Bytes

/-- The sum of the words of a buffer, read with the low byte first. An odd byte has a zero
behind it. -/
def wordSum : List UInt8 → ℕ
  | [] => 0
  | [a] => a.toNat
  | a :: b :: data => a.toNat + 256 * b.toNat + wordSum data

/-- `socket.ntohs`. -/
def ntohs (n : ℕ) : ℕ := n % 256 * 256 + n / 256 % 256

/-- `checksum`. -/
def checksum (data : List UInt8) : ℕ :=
  let s := wordSum data
  let s := s % 2 ^ 16 + s / 2 ^ 16
  let s := s + s / 2 ^ 16
  ntohs (0xffff - s % 2 ^ 16)

/-- What the pseudo header takes from an IP packet, the addresses as `text_to_bin` gives them. -/
inductive IpHeader
  | ipv4 (src dst : List UInt8) (proto : ℕ)
  | ipv6 (src dst : List UInt8) (nxt : ℕ)
  /-- A packet of another version. -/
  | unknown (version : ℕ)
  deriving DecidableEq, Repr

namespace IpHeader

/-- The pseudo header in front of so many bytes. -/
def pseudoHeader (ipvx : IpHeader) (length : ℕ) : Except PyError (List UInt8) :=
  match ipvx with
  | .ipv4 src dst proto =>
    Format.pack [.str 4, .str 4, .pad 1, .num 1, .num 2] (src, dst, proto, length, ())
  | .ipv6 src dst nxt =>
    Format.pack [.str 16, .str 16, .num 4, .pad 3, .num 1] (src, dst, length, nxt, ())
  | .unknown version => .error (.valueError s!"Unknown IP version {version}")

/-- `checksum_ip`. -/
def checksumIp (ipvx : IpHeader) (length : ℕ) (payload : List UInt8) : Except PyError ℕ :=
  (ipvx.pseudoHeader length).map fun header => checksum (header ++ payload)

/-- The pseudo header has room for the length and the protocol. -/
def Admits (ipvx : IpHeader) (length : ℕ) : Prop :=
  match ipvx with
  | .ipv4 _ _ proto => proto < 2 ^ 8 ∧ length < 2 ^ 16
  | .ipv6 _ _ nxt => length < 2 ^ 32 ∧ nxt < 2 ^ 8
  | .unknown _ => False

instance (ipvx : IpHeader) (length : ℕ) : Decidable (ipvx.Admits length) :=
  match ipvx with
  | .ipv4 _ _ proto => inferInstanceAs (Decidable (proto < 2 ^ 8 ∧ length < 2 ^ 16))
  | .ipv6 _ _ nxt => inferInstanceAs (Decidable (length < 2 ^ 32 ∧ nxt < 2 ^ 8))
  | .unknown _ => inferInstanceAs (Decidable False)

variable {ipvx : IpHeader} {length n : ℕ} {payload : List UInt8}

theorem isOk_pseudoHeader_iff : (ipvx.pseudoHeader length).isOk ↔ ipvx.Admits length := by
  cases ipvx with
  | ipv4 src dst proto => simp [pseudoHeader, Format.isOk_pack_iff, Format.Fits, Admits]
  | ipv6 src dst nxt => simp [pseudoHeader, Format.isOk_pack_iff, Format.Fits, Admits]
  | unknown version => simp [pseudoHeader, Admits]

end IpHeader

theorem checksum_lt (data : List UInt8) : checksum data < 2 ^ 16 := by
  simp only [checksum, ntohs]
  omega

theorem IpHeader.checksumIp_lt {ipvx : IpHeader} {length n : ℕ} {payload : List UInt8}
    (h : ipvx.checksumIp length payload = .ok n) : n < 2 ^ 16 := by
  obtain ⟨header, -, rfl⟩ := map_eq_ok.1 h
  exact checksum_lt _

theorem IpHeader.isOk_checksumIp_iff {ipvx : IpHeader} {length : ℕ} {payload : List UInt8} :
    (ipvx.checksumIp length payload).isOk ↔ ipvx.Admits length := by
  rw [← isOk_pseudoHeader_iff, checksumIp]
  cases ipvx.pseudoHeader length <;> rfl

/-! ## A checksum in its field -/

/-- A sum of words with its carries added, and the carries of that. -/
def fold (n : ℕ) : ℕ :=
  let s := n % 2 ^ 16 + n / 2 ^ 16
  (s + s / 2 ^ 16) % 2 ^ 16

/-- The carries of the carries do not carry again. -/
def Folds (n : ℕ) : Prop :=
  let s := n % 2 ^ 16 + n / 2 ^ 16
  s % 2 ^ 16 + s / 2 ^ 16 % 2 ^ 16 < 2 ^ 16 ∧
    (s / 2 ^ 16 % 2 ^ 16 = 0 → s / 2 ^ 16 = 0 ∨ n % 2 ^ 16 ≤ s % 2 ^ 16)

theorem fold_lt (n : ℕ) : fold n < 2 ^ 16 := Nat.mod_lt _ (by decide)

theorem split_word (a : ℕ) {b : ℕ} (hb : b < 2 ^ 16) :
    (a * 2 ^ 16 + b) / 2 ^ 16 = a ∧ (a * 2 ^ 16 + b) % 2 ^ 16 = b := by
  omega

theorem fold_eq {a b q t : ℕ} (hb : b < 2 ^ 16) (ht : t < 2 ^ 16) (h : a + b = q * 2 ^ 16 + t) :
    fold (a * 2 ^ 16 + b) = (t + q) % 2 ^ 16 := by
  rw [fold, (split_word a hb).1, (split_word a hb).2, Nat.add_comm b, h, (split_word q ht).1]
  omega

theorem folds_iff {a b q t : ℕ} (hb : b < 2 ^ 16) (ht : t < 2 ^ 16) (h : a + b = q * 2 ^ 16 + t) :
    Folds (a * 2 ^ 16 + b) ↔
      t + q % 2 ^ 16 < 2 ^ 16 ∧ (q % 2 ^ 16 = 0 → q = 0 ∨ b ≤ t) := by
  rw [Folds, (split_word a hb).1, (split_word a hb).2, Nat.add_comm b, h, (split_word q ht).1,
    (split_word q ht).2]

/-- The complement of a sum, added to it, makes all the bits ones, as long as it folds. -/
theorem fold_complement_iff (n : ℕ) : fold (n + (65535 - fold n)) = 65535 ↔ Folds n := by
  obtain ⟨a, b, hb, rfl⟩ : ∃ a b, b < 2 ^ 16 ∧ n = a * 2 ^ 16 + b :=
    ⟨n / 2 ^ 16, n % 2 ^ 16, by omega, by omega⟩
  obtain ⟨q, t, ht, hs⟩ : ∃ q t, t < 2 ^ 16 ∧ a + b = q * 2 ^ 16 + t :=
    ⟨(a + b) / 2 ^ 16, (a + b) % 2 ^ 16, by omega, by omega⟩
  rw [fold_eq hb ht hs, folds_iff hb ht hs]
  generalize hd : 65535 - (t + q) % 2 ^ 16 = d
  by_cases hcarry : b + d < 2 ^ 16
  · rw [Nat.add_assoc]
    by_cases hlt : t + q % 2 ^ 16 < 2 ^ 16
    · rw [fold_eq (q := q) (t := 2 ^ 16 - 1 - q % 2 ^ 16) hcarry (by omega) (by omega)]
      omega
    · rw [fold_eq (q := q + 1) (t := 2 ^ 16 - 1 - q % 2 ^ 16) hcarry (by omega) (by omega)]
      omega
  · have hsum : a * 2 ^ 16 + b + d = (a + 1) * 2 ^ 16 + (b + d - 2 ^ 16) := by omega
    rw [hsum]
    by_cases hzero : q % 2 ^ 16 = 0
    · rw [fold_eq (q := q) (t := 0) (by omega) (by omega) (by omega)]
      omega
    · by_cases hlt : t + q % 2 ^ 16 < 2 ^ 16
      · rw [fold_eq (q := q - 1) (t := 2 ^ 16 - q % 2 ^ 16) (by omega) (by omega) (by omega)]
        omega
      · rw [fold_eq (q := q) (t := 2 ^ 16 - q % 2 ^ 16) (by omega) (by omega) (by omega)]
        omega

theorem folds_of_lt {n : ℕ} (h : n < 2 ^ 32) : Folds n := by
  obtain ⟨a, b, hb, rfl⟩ : ∃ a b, b < 2 ^ 16 ∧ n = a * 2 ^ 16 + b :=
    ⟨n / 2 ^ 16, n % 2 ^ 16, by omega, by omega⟩
  obtain ⟨q, t, ht, hs⟩ : ∃ q t, t < 2 ^ 16 ∧ a + b = q * 2 ^ 16 + t :=
    ⟨(a + b) / 2 ^ 16, (a + b) % 2 ^ 16, by omega, by omega⟩
  rw [folds_iff hb ht hs]
  omega

theorem checksum_eq (data : List UInt8) : checksum data = ntohs (0xffff - fold (wordSum data)) :=
  rfl

theorem ntohs_eq_zero_iff {n : ℕ} (h : n < 2 ^ 16) : ntohs n = 0 ↔ n = 0 := by
  rw [ntohs]
  omega

theorem wordSum_append {a : List UInt8} (h : a.length % 2 = 0) (b : List UInt8) :
    wordSum (a ++ b) = wordSum a + wordSum b := by
  induction a using wordSum.induct with
  | case1 => simp [wordSum]
  | case2 x => simp at h
  | case3 x y a ih =>
    have hlen : a.length % 2 = 0 := by
      simp only [List.length_cons] at h
      omega
    simp only [List.cons_append, wordSum, ih hlen]
    omega

/-- The word of a checksum is the complement that it was made of. -/
theorem wordSum_ntohs {n : ℕ} (h : n < 2 ^ 16) : wordSum (toBytes 2 (ntohs n)) = n := by
  obtain ⟨a, b, ha, hb, rfl⟩ : ∃ a b, a < 256 ∧ b < 256 ∧ n = a * 256 + b :=
    ⟨n / 256, n % 256, by omega, by omega, by omega⟩
  have hswap : ntohs (a * 256 + b) = b * 256 + a := by
    rw [ntohs]
    omega
  have hbytes : toBytes 2 (b * 256 + a) = [UInt8.ofNat b, UInt8.ofNat a] := by
    have hhigh : (b * 256 + a) / 256 = b := by omega
    have hlow : UInt8.ofNat (b * 256 + a) = UInt8.ofNat a := by
      apply UInt8.toNat_inj.mp
      rw [UInt8.toNat_ofNat', UInt8.toNat_ofNat']
      omega
    simp [toBytes, hhigh, hlow]
  rw [hswap, hbytes, wordSum, wordSum, UInt8.toNat_ofNat', UInt8.toNat_ofNat']
  omega

/-- With its checksum in the field that was zero a message has the checksum zero, as long as the
sum of its words folds. -/
theorem checksum_filled_iff {a c : List UInt8} (h : a.length % 2 = 0) :
    checksum (a ++ (toBytes 2 (checksum (a ++ (toBytes 2 0 ++ c))) ++ c)) = 0 ↔
      Folds (wordSum (a ++ (toBytes 2 0 ++ c))) := by
  have hsum (x : List UInt8) (hx : x.length = 2) :
      wordSum (a ++ (x ++ c)) = wordSum a + (wordSum x + wordSum c) := by
    rw [wordSum_append h, wordSum_append (by rw [hx])]
  have hzero : wordSum (toBytes 2 0) = 0 := rfl
  rw [← fold_complement_iff, checksum_eq, checksum_eq, ntohs_eq_zero_iff (by omega),
    hsum _ (by simp), hsum _ (by simp), wordSum_ntohs (by omega), hzero]
  have hfold := fold_lt (wordSum a + (0 + wordSum c))
  have hcomm (n : ℕ) : wordSum a + (n + wordSum c) = wordSum a + (0 + wordSum c) + n := by omega
  rw [hcomm]
  have hlt := fold_lt (wordSum a + (0 + wordSum c) + (65535 - fold (wordSum a + (0 + wordSum c))))
  omega

end Ryu.Packet
