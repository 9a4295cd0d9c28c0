import Mathlib.Data.Int.Notation
import Ryu.Lib.Dict
import Ryu.Lib.Netmask
import Ryu.Ofproto.Address

/-! # The addresses of a router

`AddressData` keeps the networks a router has an address in. What is added is checked against
every network that is there, each way round, so no two of them have an address in common.
-/

namespace Ryu.Router

open Numeral

/-- An IPv4 address; the source keeps its dotted form. -/
abbrev Ip := BitVec 32

/-- `ip_addr_ntoa`. -/
def ipAddrNtoa (ip : Ip) : Text := ipv4Format.write ip.toNat

def uint32Max : ℕ := 0xffffffff
def cookieDefaultId : ℕ := 0

/-- What ends a request: a Python exception, or `CommandFailure` with its message. -/
inductive Failure
  | raised (e : PyError)
  | command (msg : String)
  deriving DecidableEq, Repr

/-- What `nw_addr_aton` returns. -/
structure Network where
  nwAddr : Ip
  netmask : ℕ
  defaultRoute : Ip
  netmask_le : netmask ≤ 32
  nwAddr_eq : nwAddr = networkOf netmask defaultRoute

section Model

-- `socket.inet_aton`, which takes other spellings than the dotted one.
variable (aton : Text → Option Ip)

/-- `ip_addr_aton`. To say what is wrong, it reads the attribute `message` of what was raised,
which is not there. -/
def ipAddrAton (ipStr : Text) : Except PyError Ip :=
  match aton ipStr with
  | some ip => .ok ip
  | none => .error (.attributeError "message")

/-- The length behind a slash; anything but one slash means the whole address. -/
def netmaskOf : List Text → Except PyError ℤ
  | [_, mask] =>
    match int? mask with
    | some n => .ok n
    | none => .error (.attributeError "message")
  | _ => .ok 32

/-- `nw_addr_aton`. -/
def nwAddrAton (nwAddr : Text) (errMsg : String) : Except PyError Network :=
  let ipMask := nwAddr.splitOn '/'
  match ipAddrAton aton (ipMask.headD []) with
  | .error e => .error e
  | .ok defaultRoute =>
    match netmaskOf ipMask with
    | .error e => .error e
    | .ok n =>
      if h : 0 ≤ n ∧ n ≤ 32 then
        .ok ⟨networkOf n.toNat defaultRoute, n.toNat, defaultRoute, by omega, rfl⟩
      else .error (.valueError (errMsg ++ " illegal netmask"))

structure Address where
  addressId : ℕ
  nwAddr : Ip
  netmask : ℕ
  defaultGw : Ip
  netmask_le : netmask ≤ 32
  nwAddr_eq : nwAddr = networkOf netmask defaultGw
  deriving DecidableEq

/-- `Address.__contains__`. -/
def Address.Contains (a : Address) (ip : Ip) : Prop := networkOf a.netmask ip = a.nwAddr

instance (a : Address) (ip : Ip) : Decidable (a.Contains ip) :=
  inferInstanceAs (Decidable (_ = _))

/-- The key of a network in a table. -/
def networkKey (nwAddr : Ip) (netmask : ℕ) : Text := ipAddrNtoa nwAddr ++ '/' :: dec netmask

/-- The next id. It wraps at 32 bits and leaves out the default id. -/
def nextId (id : ℕ) : ℕ :=
  let id := (id + 1) &&& uint32Max
  if id = cookieDefaultId then 1 else id

/-- `AddressData`: a dictionary with a counter. -/
structure AddressData where
  entries : Dict Text Address
  addressId : ℕ

def AddressData.init : AddressData := ⟨Dict.empty, 1⟩

def AddressData.values (ad : AddressData) : List Address := ad.entries.values

/-- The overlap check of `add` for one address that is there. -/
def Overlaps (other : Address) (n : Network) : Prop :=
  other.nwAddr = networkOf other.netmask n.defaultRoute ∨
    n.nwAddr = networkOf n.netmask other.defaultGw

instance (other : Address) (n : Network) : Decidable (Overlaps other n) :=
  inferInstanceAs (Decidable (_ ∨ _))

/-- `AddressData.add`. -/
def AddressData.add (ad : AddressData) (address : Text) : Except Failure (Address × AddressData) :=
  match nwAddrAton aton address "Invalid [address] value." with
  | .error e => .error (.raised e)
  | .ok n =>
    match ad.values.find? (Overlaps · n) with
    | some other =>
      .error (.command ("Address overlaps [address_id=" ++ toString other.addressId ++ "]"))
    | none =>
      let address := ⟨ad.addressId, n.nwAddr, n.netmask, n.defaultRoute, n.netmask_le, n.nwAddr_eq⟩
      .ok (address,
        ⟨ad.entries.set (networkKey n.nwAddr n.netmask) address, nextId ad.addressId⟩)

/-- `AddressData.delete`: the first address with that id. -/
def AddressData.delete (ad : AddressData) (addressId : ℕ) : AddressData :=
  match ad.entries.entries.find? fun x => x.2.addressId = addressId with
  | some x => { ad with entries := ad.entries.erase x.1 }
  | none => ad

/-- `AddressData.get_data` with an id. -/
def AddressData.getById (ad : AddressData) (addrId : ℕ) : Option Address :=
  ad.values.find? fun a => a.addressId = addrId

/-- `AddressData.get_data` with an address. -/
def AddressData.getByIp (ad : AddressData) (ip : Ip) : Option Address :=
  ad.values.find? fun a => a.Contains ip

end Model

section Disjoint

variable {aton : Text → Option Ip} {ad ad' : AddressData} {a b : Address} {ip : Ip} {t : Text}
variable {k : Text}

theorem networkKey_inj {x y : Ip} {m n : ℕ} : networkKey x m = networkKey y n ↔ x = y ∧ m = n := by
  constructor
  · intro h
    have hslash : '/' ∉ ipAddrNtoa y := GroupFormat.not_mem_write (by decide) (by decide)
    unfold networkKey at h
    rw [eq_comm, List.append_cons_inj_of_notMem hslash (not_mem_dec rfl)] at h
    obtain ⟨ha, -, hl⟩ := h
    have hread : ∀ z : Ip, ipv4Format.read (ipAddrNtoa z) = some z.toNat := fun z =>
      GroupFormat.read_write z.isLt
    have hd := nat?_dec n
    rw [hl, nat?_dec] at hd
    have hx := hread y
    rw [ha, hread x] at hx
    exact ⟨BitVec.eq_of_toNat_eq (Option.some.inj hx), Option.some.inj hd⟩
  · rintro ⟨rfl, rfl⟩
    rfl

/-- The check is exact: the networks have an address in common. -/
theorem overlaps_iff {n : Network} :
    Overlaps a n ↔ ∃ ip, a.Contains ip ∧ networkOf n.netmask ip = n.nwAddr := by
  simp only [Overlaps, Address.Contains, a.nwAddr_eq, n.nwAddr_eq, networks_meet_iff]
  rw [eq_comm, or_congr_right eq_comm]

/-- Each address is kept under the key of its network, and the networks are disjoint. -/
structure AddressData.Sound (ad : AddressData) : Prop where
  keyed : ∀ k a, ad.entries.get? k = some a → k = networkKey a.nwAddr a.netmask
  apart : ∀ a ∈ ad.values, ∀ b ∈ ad.values, ∀ ip, a.Contains ip → b.Contains ip → a = b

theorem mem_values : a ∈ ad.values ↔ ∃ k, ad.entries.get? k = some a := by
  rw [AddressData.values, Dict.values, List.mem_map]
  constructor
  · rintro ⟨⟨k, a'⟩, hmem, rfl⟩
    exact ⟨k, Dict.mem_entries_iff.mp hmem⟩
  · rintro ⟨k, hk⟩
    exact ⟨(k, a), Dict.mem_entries_iff.mpr hk, rfl⟩

theorem contains_defaultGw (a : Address) : a.Contains a.defaultGw := a.nwAddr_eq.symm

theorem AddressData.Sound.init : AddressData.init.Sound where
  keyed _ _ h := by cases h
  apart a ha := by cases ha

/-- What an addition that goes through comes to. -/
theorem add_eq_ok (h : ad.add aton t = .ok (a, ad')) :
    (∀ b ∈ ad.values, ∀ ip, b.Contains ip → ¬a.Contains ip) ∧ a.addressId = ad.addressId ∧
      ad' = ⟨ad.entries.set (networkKey a.nwAddr a.netmask) a, nextId ad.addressId⟩ := by
  unfold AddressData.add at h
  split at h
  · cases h
  · next n _ =>
    split at h
    · cases h
    · next hnone =>
      obtain ⟨rfl, rfl⟩ := Prod.mk.inj (Except.ok.inj h)
      refine ⟨fun b hb ip hip hip' => ?_, rfl, rfl⟩
      have hno := List.find?_eq_none.mp hnone b hb
      exact hno (decide_eq_true (overlaps_iff.2 ⟨ip, hip, hip'⟩))

/-- An addition takes no key that is there, since its network would overlap. -/
theorem AddressData.Sound.mem_add (hs : ad.Sound) (h : ad.add aton t = .ok (a, ad')) :
    b ∈ ad'.values ↔ b = a ∨ b ∈ ad.values := by
  obtain ⟨hapart, -, rfl⟩ := add_eq_ok h
  have hfree : ad.entries.get? (networkKey a.nwAddr a.netmask) = none := by
    cases hc : ad.entries.get? (networkKey a.nwAddr a.netmask) with
    | none => rfl
    | some c =>
      obtain ⟨hnw, hmask⟩ := networkKey_inj.1 (hs.keyed _ _ hc)
      refine absurd ?_ (hapart c (mem_values.2 ⟨_, hc⟩) c.defaultGw (contains_defaultGw c))
      rw [Address.Contains, hmask, hnw]
      exact contains_defaultGw c
  rw [mem_values, mem_values]
  constructor
  · rintro ⟨k, hk⟩
    rw [Dict.get?_set] at hk
    split at hk
    · exact .inl (Option.some.inj hk).symm
    · exact .inr ⟨k, hk⟩
  · rintro (rfl | ⟨k, hk⟩)
    · exact ⟨_, Dict.get?_set_self ..⟩
    · refine ⟨k, ?_⟩
      rw [Dict.get?_set, if_neg, hk]
      rintro rfl
      rw [hfree] at hk
      cases hk

theorem AddressData.Sound.add (hs : ad.Sound) (h : ad.add aton t = .ok (a, ad')) : ad'.Sound := by
  have hmem := fun b => hs.mem_add (b := b) h
  obtain ⟨hapart, -, rfl⟩ := add_eq_ok h
  constructor
  · intro k b hb
    rw [Dict.get?_set] at hb
    split at hb
    · next hk =>
      obtain rfl := Option.some.inj hb
      exact hk.symm
    · exact hs.keyed k b hb
  · intro b hb c hc ip hip hip'
    rcases (hmem b).mp hb with hba | hbo
    · rcases (hmem c).mp hc with hca | hco
      · exact hba.trans hca.symm
      · exact absurd (hba ▸ hip) (hapart c hco ip hip')
    · rcases (hmem c).mp hc with hca | hco
      · exact absurd (hca ▸ hip') (hapart b hbo ip hip)
      · exact hs.apart b hbo c hco ip hip hip'

theorem delete_cases (ad : AddressData) (id : ℕ) :
    ad.delete id = ad ∨ ∃ k c, ad.entries.get? k = some c ∧ c.addressId = id ∧
      ad.delete id = { ad with entries := ad.entries.erase k } := by
  unfold AddressData.delete
  split
  · next x hx =>
    right
    have hid : x.2.addressId = id := by simpa using List.find?_some hx
    exact ⟨x.1, x.2, Dict.mem_entries_iff.mp (List.mem_of_find?_eq_some hx), hid, rfl⟩
  · exact .inl rfl

theorem addressId_delete (ad : AddressData) (id : ℕ) : (ad.delete id).addressId = ad.addressId := by
  rcases delete_cases ad id with h | ⟨k, c, -, -, h⟩ <;> rw [h]

theorem get?_of_delete {id : ℕ} (h : (ad.delete id).entries.get? k = some a) :
    ad.entries.get? k = some a := by
  rcases delete_cases ad id with he | ⟨k', c, -, -, he⟩
  · rwa [he] at h
  · rw [he, Dict.get?_erase] at h
    split at h
    · cases h
    · exact h

theorem mem_of_mem_delete {id : ℕ} (h : a ∈ (ad.delete id).values) : a ∈ ad.values := by
  obtain ⟨k, hk⟩ := mem_values.1 h
  exact mem_values.2 ⟨k, get?_of_delete hk⟩

/-- A deletion leaves every address that has another id. -/
theorem mem_delete_of_ne {id : ℕ} (h : a ∈ ad.values) (hid : a.addressId ≠ id) :
    a ∈ (ad.delete id).values := by
  obtain ⟨k, hk⟩ := mem_values.1 h
  rcases delete_cases ad id with he | ⟨k', c, hc, hcid, he⟩
  · rwa [he]
  · rw [he]
    refine mem_values.2 ⟨k, ?_⟩
    rw [Dict.get?_erase, if_neg, hk]
    rintro rfl
    obtain rfl := Option.some.inj (hc.symm.trans hk)
    exact hid hcid

theorem AddressData.Sound.delete (hs : ad.Sound) (id : ℕ) : (ad.delete id).Sound where
  keyed k a h := hs.keyed k a (get?_of_delete h)
  apart a ha b hb := hs.apart a (mem_of_mem_delete ha) b (mem_of_mem_delete hb)

theorem getByIp_eq_some (h : ad.getByIp ip = some a) : a ∈ ad.values ∧ a.Contains ip :=
  ⟨List.mem_of_find?_eq_some h, by simpa using List.find?_some h⟩

/-- The address that matches is the one that is looked up. -/
theorem AddressData.Sound.getByIp (hs : ad.Sound) (ha : a ∈ ad.values) (hip : a.Contains ip) :
    ad.getByIp ip = some a := by
  cases hb : ad.getByIp ip with
  | none => exact absurd (decide_eq_true hip) (List.find?_eq_none.mp hb a ha)
  | some b =>
    obtain ⟨hmem, hbip⟩ := getByIp_eq_some hb
    rw [hs.apart b hmem a ha ip hbip hip]

end Disjoint

end Ryu.Router
