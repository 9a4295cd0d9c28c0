import Ryu.Ofproto13.Match

/-! # The tables of fields

The modules of the versions of OpenFlow list the OXM fields they know, and that of version 1.5 its
OXS fields too. A field is an instance of a class, which says how the header of the field is made.
The class of an experimenter has a header of the experimenter, and the old class of `EXT-256` has
its number behind that.
-/

namespace Ryu.Oxx

open Ofproto13

/-- The classes of `oxm_fields` and `oxs_fields`, by their `_class` or their `experimenter_id`. -/
inductive FieldClass
  | plain (class_ : ℕ)
  | experimenter (experimenterId : ℕ)
  | oldONFExperimenter
  deriving DecidableEq, Repr

/-- What a field is made with. The type has a size. -/
structure FieldDesc where
  cls : FieldClass
  name : String
  arg : ℕ
  size : ℕ
  deriving DecidableEq, Repr

namespace FieldDesc

variable (d : FieldDesc)

/-- `_class`. -/
def class_ : ℕ :=
  match d.cls with
  | .plain c => c
  | .experimenter _ | .oldONFExperimenter => ofpxxcExperimenter

/-- `oxm_field` or `oxs_field`. -/
def field : ℕ :=
  match d.cls with
  | .plain _ | .experimenter _ => d.arg
  | .oldONFExperimenter => 0

/-- `oxm_type` or `oxs_type`. -/
def type_ : ℕ := d.field ||| (d.class_ <<< 7)

def num : OxmNum :=
  match d.cls with
  | .plain _ => .basic d.type_
  | .experimenter id => .experimenter id d.type_
  | .oldONFExperimenter => .experimenter onfExperimenterId d.arg

def expType : ℕ :=
  match d.cls with
  | .plain _ | .experimenter _ => d.field
  | .oldONFExperimenter => 2560

/-- The numbers fit the header, no other class has the numbers of `EXT-256`, and a value with a
mask fits the length. -/
structure Fits (d : FieldDesc) : Prop where
  field_lt : d.field < 128
  plain : ∀ c, d.cls = .plain c → c < ofpxxcExperimenter
  experimenter : ∀ id, d.cls = .experimenter id →
    id < 256 ^ 4 ∧ (id = onfExperimenterId → d.field ≠ 0)
  ext256 : d.cls = .oldONFExperimenter → d.arg = 2560
  size_pos : 0 < d.size
  size_le : d.size ≤ 16

/-- `Fits`, by the class. -/
def fitsB : Bool :=
  d.field < 128 && 0 < d.size && d.size ≤ 16 &&
    match d.cls with
    | .plain c => c < ofpxxcExperimenter
    | .experimenter id => id < 256 ^ 4 && (id ≠ onfExperimenterId || d.field ≠ 0)
    | .oldONFExperimenter => d.arg = 2560

theorem fits_of_fitsB {d : FieldDesc} (h : d.fitsB) : d.Fits := by
  simp only [fitsB, Bool.and_eq_true, decide_eq_true_eq] at h
  obtain ⟨⟨⟨hfield, hpos⟩, hle⟩, hcls⟩ := h
  refine ⟨hfield, fun c hc => ?_, fun id hid => ?_, fun hold => ?_, hpos, hle⟩
  · simpa [hc] using hcls
  · rw [hid] at hcls
    simp only [Bool.and_eq_true, Bool.or_eq_true, decide_eq_true_eq] at hcls
    exact ⟨hcls.1, fun h => hcls.2.resolve_left (not_not.mpr h)⟩
  · simpa [hold] using hcls

end FieldDesc

def openFlowBasic : String → ℕ → ℕ → FieldDesc := FieldDesc.mk (.plain 0x8000)

def onfExperimenter : String → ℕ → ℕ → FieldDesc :=
  FieldDesc.mk (.experimenter onfExperimenterId)

def oldONFExperimenter : String → ℕ → ℕ → FieldDesc := FieldDesc.mk .oldONFExperimenter

def niciraExperimenter : String → ℕ → ℕ → FieldDesc :=
  FieldDesc.mk (.experimenter 0x2320)

def niciraNshExperimenter : String → ℕ → ℕ → FieldDesc :=
  FieldDesc.mk (.experimenter 0x5ad650)

def niciraExtended0 : String → ℕ → ℕ → FieldDesc := FieldDesc.mk (.plain 0)

def niciraExtended1 : String → ℕ → ℕ → FieldDesc := FieldDesc.mk (.plain 1)

/-- `OpenFlowBasic` of `oxs_fields`. -/
def oxsBasic : String → ℕ → ℕ → FieldDesc := FieldDesc.mk (.plain 0x8002)

/-- `oxm_types` of `nicira_ext`, which every version has. -/
def niciraTypes : List FieldDesc :=
  [niciraExtended0 "in_port_nxm" 0 2, niciraExtended0 "eth_dst_nxm" 1 6,
    niciraExtended0 "eth_src_nxm" 2 6, niciraExtended0 "eth_type_nxm" 3 2,
    niciraExtended0 "vlan_tci" 4 2, niciraExtended0 "nw_tos" 5 1,
    niciraExtended0 "ip_proto_nxm" 6 1, niciraExtended0 "ipv4_src_nxm" 7 4,
    niciraExtended0 "ipv4_dst_nxm" 8 4, niciraExtended0 "tcp_src_nxm" 9 2,
    niciraExtended0 "tcp_dst_nxm" 10 2, niciraExtended0 "udp_src_nxm" 11 2,
    niciraExtended0 "udp_dst_nxm" 12 2, niciraExtended0 "icmpv4_type_nxm" 13 1,
    niciraExtended0 "icmpv4_code_nxm" 14 1, niciraExtended0 "arp_op_nxm" 15 2,
    niciraExtended0 "arp_spa_nxm" 16 4, niciraExtended0 "arp_tpa_nxm" 17 4,
    niciraExtended1 "tunnel_id_nxm" 16 8, niciraExtended1 "arp_sha_nxm" 17 6,
    niciraExtended1 "arp_tha_nxm" 18 6, niciraExtended1 "ipv6_src_nxm" 19 16,
    niciraExtended1 "ipv6_dst_nxm" 20 16, niciraExtended1 "icmpv6_type_nxm" 21 1,
    niciraExtended1 "icmpv6_code_nxm" 22 1, niciraExtended1 "nd_target" 23 16,
    niciraExtended1 "nd_sll" 24 6, niciraExtended1 "nd_tll" 25 6, niciraExtended1 "ip_frag" 26 1,
    niciraExtended1 "ipv6_label" 27 4, niciraExtended1 "ip_ecn_nxm" 28 1,
    niciraExtended1 "nw_ttl" 29 1, niciraExtended1 "mpls_ttl" 30 1,
    niciraExtended1 "tun_ipv4_src" 31 4, niciraExtended1 "tun_ipv4_dst" 32 4,
    niciraExtended1 "pkt_mark" 33 4, niciraExtended1 "tcp_flags_nxm" 34 2,
    niciraExtended1 "conj_id" 37 4, niciraExtended1 "tun_gbp_id" 38 2,
    niciraExtended1 "tun_gbp_flags" 39 1, niciraExtended1 "tun_flags" 104 2,
    niciraExtended1 "ct_state" 105 4, niciraExtended1 "ct_zone" 106 2,
    niciraExtended1 "ct_mark" 107 4, niciraExtended1 "ct_label" 108 16,
    niciraExtended1 "tun_ipv6_src" 109 16, niciraExtended1 "tun_ipv6_dst" 110 16,
    niciraExtended1 "_recirc_id" 36 4, niciraExperimenter "_dp_hash" 0 4,
    niciraNshExperimenter "nsh_flags" 1 1, niciraNshExperimenter "nsh_mdtype" 2 1,
    niciraNshExperimenter "nsh_np" 3 1, niciraNshExperimenter "nsh_spi" 4 4,
    niciraNshExperimenter "nsh_si" 5 1, niciraNshExperimenter "nsh_c1" 6 4,
    niciraNshExperimenter "nsh_c2" 7 4, niciraNshExperimenter "nsh_c3" 8 4,
    niciraNshExperimenter "nsh_c4" 9 4, niciraNshExperimenter "nsh_ttl" 10 1,
    niciraExtended1 "reg0" 0 4, niciraExtended1 "reg1" 1 4, niciraExtended1 "reg2" 2 4,
    niciraExtended1 "reg3" 3 4, niciraExtended1 "reg4" 4 4, niciraExtended1 "reg5" 5 4,
    niciraExtended1 "reg6" 6 4, niciraExtended1 "reg7" 7 4, niciraExtended1 "reg8" 8 4,
    niciraExtended1 "reg9" 9 4, niciraExtended1 "reg10" 10 4, niciraExtended1 "reg11" 11 4,
    niciraExtended1 "reg12" 12 4, niciraExtended1 "reg13" 13 4, niciraExtended1 "reg14" 14 4,
    niciraExtended1 "reg15" 15 4, niciraExtended1 "xxreg0" 111 16, niciraExtended1 "xxreg1" 112 16,
    niciraExtended1 "xxreg2" 113 16, niciraExtended1 "xxreg3" 114 16]

/-- The fields the versions from 1.2 on begin with. -/
def basicTypes : List FieldDesc :=
  [openFlowBasic "in_port" 0 4, openFlowBasic "in_phy_port" 1 4, openFlowBasic "metadata" 2 8,
    openFlowBasic "eth_dst" 3 6, openFlowBasic "eth_src" 4 6, openFlowBasic "eth_type" 5 2,
    openFlowBasic "vlan_vid" 6 2, openFlowBasic "vlan_pcp" 7 1, openFlowBasic "ip_dscp" 8 1,
    openFlowBasic "ip_ecn" 9 1, openFlowBasic "ip_proto" 10 1, openFlowBasic "ipv4_src" 11 4,
    openFlowBasic "ipv4_dst" 12 4, openFlowBasic "tcp_src" 13 2, openFlowBasic "tcp_dst" 14 2,
    openFlowBasic "udp_src" 15 2, openFlowBasic "udp_dst" 16 2, openFlowBasic "sctp_src" 17 2,
    openFlowBasic "sctp_dst" 18 2, openFlowBasic "icmpv4_type" 19 1,
    openFlowBasic "icmpv4_code" 20 1, openFlowBasic "arp_op" 21 2, openFlowBasic "arp_spa" 22 4,
    openFlowBasic "arp_tpa" 23 4, openFlowBasic "arp_sha" 24 6, openFlowBasic "arp_tha" 25 6,
    openFlowBasic "ipv6_src" 26 16, openFlowBasic "ipv6_dst" 27 16,
    openFlowBasic "ipv6_flabel" 28 4, openFlowBasic "icmpv6_type" 29 1,
    openFlowBasic "icmpv6_code" 30 1, openFlowBasic "ipv6_nd_target" 31 16,
    openFlowBasic "ipv6_nd_sll" 32 6, openFlowBasic "ipv6_nd_tll" 33 6,
    openFlowBasic "mpls_label" 34 4, openFlowBasic "mpls_tc" 35 1]

/-- The fields from version 1.3 on. -/
def basicTypes13 : List FieldDesc :=
  basicTypes ++ [openFlowBasic "mpls_bos" 36 1, openFlowBasic "pbb_isid" 37 3,
    openFlowBasic "tunnel_id" 38 8, openFlowBasic "ipv6_exthdr" 39 2]

/-- The extensions of versions 1.2 and 1.3. -/
def extTypes : List FieldDesc :=
  [oldONFExperimenter "pbb_uca" 2560 1, onfExperimenter "tcp_flags" 42 2,
    onfExperimenter "actset_output" 43 4]

/-- What has called `generate`, of `oxm_fields` or of `oxs_fields`. -/
inductive Module
  | v1_0
  | v1_2
  | v1_3
  | v1_4
  | v1_5
  | oxs1_5
  deriving DecidableEq, Repr

/-- `oxm_types` or `oxs_types`. -/
def Module.types : Module → List FieldDesc
  | v1_0 => niciraTypes
  | v1_2 => basicTypes ++ extTypes ++ niciraTypes
  | v1_3 => basicTypes13 ++ extTypes ++ niciraTypes
  | v1_4 => basicTypes13 ++ [openFlowBasic "pbb_uca" 41 1, onfExperimenter "tcp_flags" 42 2,
      onfExperimenter "actset_output" 43 4] ++ niciraTypes
  | v1_5 => basicTypes13 ++ [openFlowBasic "pbb_uca" 41 1, openFlowBasic "tcp_flags" 42 2,
      openFlowBasic "actset_output" 43 4, openFlowBasic "packet_type" 44 4] ++ niciraTypes
  | oxs1_5 =>
      [oxsBasic "duration" 0 8, oxsBasic "idle_time" 1 8, oxsBasic "flow_count" 3 4,
        oxsBasic "packet_count" 4 8, oxsBasic "byte_count" 5 8]

theorem fitsB_niciraTypes : niciraTypes.all FieldDesc.fitsB := by decide

theorem fitsB_basicTypes : basicTypes.all FieldDesc.fitsB := by decide

theorem fitsB_types (mod : Module) : mod.types.all FieldDesc.fitsB := by
  cases mod
  · exact fitsB_niciraTypes
  · rw [Module.types, List.all_append, List.all_append, fitsB_niciraTypes, fitsB_basicTypes]
    decide
  · rw [Module.types, basicTypes13, List.all_append, List.all_append, List.all_append,
      fitsB_niciraTypes, fitsB_basicTypes]
    decide
  · rw [Module.types, basicTypes13, List.all_append, List.all_append, List.all_append,
      fitsB_niciraTypes, fitsB_basicTypes]
    decide
  · rw [Module.types, basicTypes13, List.all_append, List.all_append, List.all_append,
      fitsB_niciraTypes, fitsB_basicTypes]
    decide
  · decide

/-- Every field of every table fits its header. -/
theorem Module.fits {mod : Module} {d : FieldDesc} (h : d ∈ mod.types) : d.Fits :=
  FieldDesc.fits_of_fitsB (List.all_eq_true.mp (fitsB_types mod) d h)

end Ryu.Oxx
