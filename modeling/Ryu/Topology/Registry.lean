import Ryu.Topology.LinkState

/-! # The registered switches

What `topology.switches` keeps of the switches: the connection of each datapath id, and the
ports each one reported. Both have the same ids. A port above `OFPP_MAX` of the connection's
protocol version is reserved and no port of the switch.
-/

namespace Ryu.Topology

/-- A connection, as the object that stands for it, with what it negotiated. -/
structure Datapath where
  object : ℕ
  id : ℕ
  version : ℕ
  deriving DecidableEq, Repr

/-- `OFPP_MAX` of a protocol version. -/
def ofppMax (version : ℕ) : ℕ := if version = 1 then 0xff00 else 0xffffff00

/-- An `OFPPort`. -/
structure OFPPort where
  portNo : ℕ
  config : ℕ
  state : ℕ
  deriving DecidableEq, Repr

/-- `is_down`: the bit 0 of the state is `OFPPS_LINK_DOWN`, that of the configuration
`OFPPC_PORT_DOWN`. -/
def OFPPort.isDown (p : OFPPort) : Bool := p.state.testBit 0 || p.config.testBit 0

/-- A `Port`, with the protocol version for `_ofproto`. -/
structure Port where
  dpid : ℕ
  version : ℕ
  desc : OFPPort
  deriving DecidableEq, Repr

namespace Port

def id (p : Port) : PortId := ⟨p.dpid, p.desc.portNo⟩

/-- `is_reserved`. -/
def isReserved (p : Port) : Bool := decide (ofppMax p.version < p.desc.portNo)

end Port

/-- `PortState`: each port under its number. -/
structure PortState where
  ports : Dict ℕ OFPPort
  keyed : ∀ n p, ports.get? n = some p → p.portNo = n

namespace PortState

def empty : PortState := ⟨Dict.empty, fun n p h => by simp at h⟩

/-- `add`, and `modify`. -/
def add (s : PortState) (port : OFPPort) : PortState where
  ports := s.ports.set port.portNo port
  keyed n p h := by
    rw [Dict.get?_set] at h
    split at h
    · next he => exact (Option.some.inj h) ▸ he
    · exact s.keyed n p h

/-- `remove`, of what is there. -/
def remove (s : PortState) (portNo : ℕ) : PortState where
  ports := s.ports.erase portNo
  keyed n p h := by
    rw [Dict.get?_erase] at h
    split at h
    · cases h
    · exact s.keyed n p h

end PortState

/-- `dps` and `port_state`. -/
structure Registry where
  dps : Dict ℕ Datapath
  portState : Dict ℕ PortState
  sync : ∀ id, (dps.get? id).isSome ↔ (portState.get? id).isSome
  keyed : ∀ id dp, dps.get? id = some dp → dp.id = id

namespace Registry

def empty : Registry := ⟨Dict.empty, Dict.empty, fun _ => Iff.rfl, fun id dp h => by simp at h⟩

/-- `_register`. -/
def register (r : Registry) (dp : Datapath) (ports : List OFPPort) : Registry where
  dps := r.dps.set dp.id dp
  portState := r.portState.setdefault dp.id (ports.foldl PortState.add PortState.empty)
  sync id := by
    rw [Dict.get?_set, Dict.get?_setdefault]
    split
    · simp
    · exact r.sync id
  keyed id dp' h := by
    rw [Dict.get?_set] at h
    split at h
    · next he => exact (Option.some.inj h) ▸ he
    · exact r.keyed id dp' h

/-- `_unregister`. -/
def unregister (r : Registry) (dp : Datapath) : Registry :=
  if r.dps.get? dp.id = some dp then
    { dps := r.dps.erase dp.id
      portState := r.portState.erase dp.id
      sync := fun id => by
        rw [Dict.get?_erase, Dict.get?_erase]
        split
        · simp
        · exact r.sync id
      keyed := fun id dp' h => by
        rw [Dict.get?_erase] at h
        split at h
        · cases h
        · exact r.keyed id dp' h }
  else r

/-- The ports of a registered switch become others. -/
def update (r : Registry) (id : ℕ) (ps : PortState) (h : (r.portState.get? id).isSome) :
    Registry where
  dps := r.dps
  portState := r.portState.set id ps
  sync id' := by
    rw [Dict.get?_set]
    split
    · next he => simpa [he, r.sync] using h
    · exact r.sync id'
  keyed := r.keyed

/-- `self.port_state[dpid].add`, and `modify`. -/
def addPort (r : Registry) (dpid : ℕ) (port : OFPPort) : Except PyError Registry :=
  match h : r.portState.get? dpid with
  | none => .error (.keyError "dpid")
  | some ps => .ok (r.update dpid (ps.add port) (by simp [h]))

/-- `self.port_state[dpid].remove`. -/
def removePort (r : Registry) (dpid portNo : ℕ) : Except PyError Registry :=
  match h : r.portState.get? dpid with
  | none => .error (.keyError "dpid")
  | some ps =>
    if (ps.ports.get? portNo).isSome then .ok (r.update dpid (ps.remove portNo) (by simp [h]))
    else .error (.keyError "port_no")

/-- `_get_switch`: the connection, and the ports that are not reserved. -/
def getSwitch (r : Registry) (dpid : ℕ) : Option (Datapath × List Port) :=
  match r.dps.get? dpid, r.portState.get? dpid with
  | some dp, some ps =>
    some (dp, (ps.ports.values.map (Port.mk dp.id dp.version)).filter (!·.isReserved))
  | _, _ => none

/-- `_get_port`. -/
def getPort (r : Registry) (dpid portNo : ℕ) : Option Port :=
  (r.getSwitch dpid).bind fun switch => switch.2.find? fun p => p.desc.portNo = portNo

/-! ## The ports that are not reserved -/

/-- A port of a registered switch that is not reserved. -/
def NonReserved (r : Registry) (q : PortId) : Prop :=
  ∃ dp ps, r.dps.get? q.dpid = some dp ∧ r.portState.get? q.dpid = some ps ∧
    (ps.ports.get? q.portNo).isSome ∧ q.portNo ≤ ofppMax dp.version

variable {r : Registry} {dp : Datapath} {ps : PortState} {dpid portNo : ℕ} {p : Port}
  {q : PortId}

theorem getSwitch_of_get? (hd : r.dps.get? dpid = some dp) (hp : r.portState.get? dpid = some ps) :
    r.getSwitch dpid =
      some (dp, (ps.ports.values.map (Port.mk dpid dp.version)).filter (!·.isReserved)) := by
  have he := r.keyed dpid dp hd
  subst he
  rw [getSwitch, hd, hp]

theorem exists_portState (hd : r.dps.get? dpid = some dp) :
    ∃ ps, r.portState.get? dpid = some ps :=
  Option.isSome_iff_exists.mp ((r.sync dpid).mp (by simp [hd]))

theorem getSwitch_eq_none (hd : r.dps.get? dpid = none) : r.getSwitch dpid = none := by
  rw [getSwitch, hd]

theorem mem_values_iff {port : OFPPort} :
    port ∈ ps.ports.values ↔ ps.ports.get? port.portNo = some port := by
  constructor
  · intro h
    obtain ⟨⟨n, p⟩, he, rfl⟩ := List.mem_map.mp h
    have hg := Dict.mem_entries_iff.mp he
    rwa [ps.keyed n p hg]
  · exact fun h => List.mem_map.mpr ⟨_, Dict.mem_entries_iff.mpr h, rfl⟩

theorem mem_switch_iff :
    p ∈ (ps.ports.values.map (Port.mk dpid dp.version)).filter (!·.isReserved) ↔
      p = ⟨dpid, dp.version, p.desc⟩ ∧ ps.ports.get? p.desc.portNo = some p.desc ∧
        p.desc.portNo ≤ ofppMax dp.version := by
  rw [List.mem_filter, List.mem_map]
  constructor
  · rintro ⟨⟨port, hp, rfl⟩, hr⟩
    exact ⟨rfl, mem_values_iff.1 hp, by simpa [Port.isReserved] using hr⟩
  · rintro ⟨he, hp, hr⟩
    refine ⟨⟨_, mem_values_iff.2 hp, he.symm⟩, ?_⟩
    rw [he]
    simpa [Port.isReserved] using hr

theorem getPort_eq_some : r.getPort dpid portNo = some p ↔
    ∃ dp ps, r.dps.get? dpid = some dp ∧ r.portState.get? dpid = some ps ∧
      p = ⟨dpid, dp.version, p.desc⟩ ∧ ps.ports.get? portNo = some p.desc ∧
        portNo ≤ ofppMax dp.version := by
  constructor
  · intro h
    obtain ⟨⟨dp, l⟩, hs, hf⟩ := Option.bind_eq_some_iff.mp h
    cases hd : r.dps.get? dpid with
    | none =>
      rw [getSwitch_eq_none hd] at hs
      cases hs
    | some dp' =>
      obtain ⟨ps, hp⟩ := exists_portState hd
      rw [getSwitch_of_get? hd hp, Option.some.injEq, Prod.mk.injEq] at hs
      obtain ⟨rfl, rfl⟩ := hs
      have hn : p.desc.portNo = portNo := by simpa using List.find?_some hf
      subst hn
      exact ⟨dp', ps, rfl, hp, mem_switch_iff.1 (List.mem_of_find?_eq_some hf)⟩
  · rintro ⟨dp, ps, hd, hp, he, hg, hm⟩
    have hn : p.desc.portNo = portNo := ps.keyed _ _ hg
    subst hn
    rw [getPort, getSwitch_of_get? hd hp, Option.bind_some]
    have hmem := mem_switch_iff.2 ⟨he, hg, hm⟩
    -- the number determines the port that is found
    have hs : ((ps.ports.values.map (Port.mk dpid dp.version)).filter (!·.isReserved)).find?
        (fun q => decide (q.desc.portNo = p.desc.portNo)) |>.isSome :=
      List.find?_isSome.mpr ⟨p, hmem, by simp⟩
    obtain ⟨q, hq⟩ := Option.isSome_iff_exists.mp hs
    rw [hq]
    obtain ⟨he', hg', -⟩ := mem_switch_iff.1 (List.mem_of_find?_eq_some hq)
    have hqn : q.desc.portNo = p.desc.portNo := by simpa using List.find?_some hq
    rw [hqn, hg, Option.some.injEq] at hg'
    rw [he, he', hg']

theorem id_of_getPort (h : r.getPort dpid portNo = some p) : p.id = ⟨dpid, portNo⟩ := by
  obtain ⟨dp, ps, -, -, he, hg, -⟩ := getPort_eq_some.1 h
  rw [he, Port.id, ps.keyed _ _ hg]

theorem isReserved_of_getPort (h : r.getPort dpid portNo = some p) : p.isReserved = false := by
  obtain ⟨dp, ps, -, -, he, hg, hm⟩ := getPort_eq_some.1 h
  rw [he]
  simpa [Port.isReserved, ps.keyed _ _ hg] using hm

theorem isSome_getPort : (r.getPort dpid portNo).isSome ↔ r.NonReserved ⟨dpid, portNo⟩ := by
  rw [Option.isSome_iff_exists]
  constructor
  · rintro ⟨p, h⟩
    obtain ⟨dp, ps, hd, hp, -, hg, hm⟩ := getPort_eq_some.1 h
    exact ⟨dp, ps, hd, hp, by simp [hg], hm⟩
  · rintro ⟨dp, ps, hd, hp, hg, hm⟩
    obtain ⟨port, hg⟩ := Option.isSome_iff_exists.mp hg
    exact ⟨⟨dpid, dp.version, port⟩, getPort_eq_some.2 ⟨dp, ps, hd, hp, rfl, hg, hm⟩⟩

/-- The ports of a switch, each once. -/
theorem getSwitch_ids (hd : r.dps.get? dpid = some dp) :
    ∃ ports, r.getSwitch dpid = some (dp, ports) ∧ (ports.map Port.id).Nodup ∧
      (∀ p ∈ ports, p.isReserved = false) ∧
      ∀ q, q ∈ ports.map Port.id ↔ q.dpid = dpid ∧ r.NonReserved q := by
  obtain ⟨ps, hp⟩ := exists_portState hd
  refine ⟨_, getSwitch_of_get? hd hp, ?_, fun p hm => ?_, fun q => ?_⟩
  · have hn : (ps.ports.values.map OFPPort.portNo).Nodup := by
      have hk : ps.ports.values.map OFPPort.portNo = ps.ports.keys := by
        rw [Dict.values, Dict.keys, List.map_map]
        exact List.map_congr_left fun e he => ps.keyed _ _ (Dict.mem_entries_iff.mp he)
      exact hk ▸ Dict.nodup_keys' _
    have hl : (ps.ports.values.map (Port.mk dpid dp.version)).map Port.id =
        (ps.ports.values.map OFPPort.portNo).map (PortId.mk dpid) := by
      rw [List.map_map, List.map_map]
      rfl
    have hi : (ps.ports.values.map (Port.mk dpid dp.version)).map Port.id |>.Nodup := by
      rw [hl]
      exact hn.map fun a b h => (PortId.mk.inj h).2
    exact hi.sublist (List.filter_sublist.map _)
  · obtain ⟨-, hr⟩ := List.mem_filter.mp hm
    simpa using hr
  · rw [List.mem_map]
    constructor
    · rintro ⟨p, hm, rfl⟩
      obtain ⟨he, hg, hr⟩ := mem_switch_iff.1 hm
      rw [he]
      exact ⟨rfl, dp, ps, hd, hp, by simp [Port.id, hg], hr⟩
    · rintro ⟨rfl, dp', ps', hd', hp', hg, hr⟩
      obtain rfl : dp = dp' := Option.some.inj (hd.symm.trans hd')
      obtain rfl : ps = ps' := Option.some.inj (hp.symm.trans hp')
      obtain ⟨port, hg⟩ := Option.isSome_iff_exists.mp hg
      have hn := ps.keyed _ _ hg
      refine ⟨⟨q.dpid, dp.version, port⟩, mem_switch_iff.2 ⟨rfl, ?_, ?_⟩, ?_⟩
      · rw [hn]
        exact hg
      · rw [hn]
        exact hr
      · rw [Port.id, hn]

/-! ## What changes -/

theorem nonReserved_congr {r' : Registry} (hd : r'.dps.get? q.dpid = r.dps.get? q.dpid)
    (hp : r'.portState.get? q.dpid = r.portState.get? q.dpid) :
    r'.NonReserved q ↔ r.NonReserved q := by
  rw [NonReserved, NonReserved, hd, hp]

theorem nonReserved_register_of_ne {ports : List OFPPort} (h : q.dpid ≠ dp.id) :
    (r.register dp ports).NonReserved q ↔ r.NonReserved q :=
  nonReserved_congr (Dict.get?_set_of_ne (Ne.symm h)) <| by
    rw [register, Dict.get?_setdefault, if_neg (Ne.symm h)]

theorem nonReserved_iff (hd : r.dps.get? dpid = some dp) (hp : r.portState.get? dpid = some ps)
    (n : ℕ) : r.NonReserved ⟨dpid, n⟩ ↔ (ps.ports.get? n).isSome ∧ n ≤ ofppMax dp.version := by
  constructor
  · rintro ⟨dp₁, ps₁, h1, h2, h3⟩
    obtain rfl : dp = dp₁ := Option.some.inj (hd.symm.trans h1)
    obtain rfl : ps = ps₁ := Option.some.inj (hp.symm.trans h2)
    exact h3
  · exact fun h => ⟨dp, ps, hd, hp, h⟩

/-- A switch that is registered again keeps its ports. -/
theorem nonReserved_register (hp : r.portState.get? dp.id = some ps) (ports : List OFPPort)
    (n : ℕ) : (r.register dp ports).NonReserved ⟨dp.id, n⟩ ↔
      (ps.ports.get? n).isSome ∧ n ≤ ofppMax dp.version := by
  have hp' : (r.register dp ports).portState.get? dp.id = some ps := by
    rw [register, Dict.get?_setdefault, if_pos rfl, hp]
    rfl
  exact nonReserved_iff (Dict.get?_set_self ..) hp' n

theorem nonReserved_unregister (hd : r.dps.get? dp.id = some dp) :
    (r.unregister dp).NonReserved q ↔ q.dpid ≠ dp.id ∧ r.NonReserved q := by
  rw [unregister, if_pos hd]
  by_cases hq : q.dpid = dp.id
  · refine iff_of_false ?_ fun h => h.1 hq
    rintro ⟨dp', ps', h1, -⟩
    rw [hq, Dict.get?_erase, if_pos rfl] at h1
    cases h1
  · rw [and_iff_right hq]
    apply nonReserved_congr
    · exact (Dict.get?_erase _ _ _).trans (if_neg (Ne.symm hq))
    · exact (Dict.get?_erase _ _ _).trans (if_neg (Ne.symm hq))

/-- The ports of a switch become others. -/
theorem nonReserved_update (hd : r.dps.get? dpid = some dp) (h : (r.portState.get? dpid).isSome) :
    (r.update dpid ps h).NonReserved q ↔
      if q.dpid = dpid then (ps.ports.get? q.portNo).isSome ∧ q.portNo ≤ ofppMax dp.version
      else r.NonReserved q := by
  split
  · next he =>
    subst he
    exact nonReserved_iff (r := r.update q.dpid ps h) hd (Dict.get?_set_self ..) q.portNo
  · next hne => exact nonReserved_congr rfl (Dict.get?_set_of_ne (Ne.symm hne))

/-- What `add` and `modify` on `port_state` make of a registered switch. -/
theorem addPort_spec (hd : r.dps.get? dpid = some dp) (port : OFPPort) :
    ∃ r', r.addPort dpid port = .ok r' ∧ r'.dps = r.dps ∧
      (∀ q, r'.NonReserved q ↔
        q = ⟨dpid, port.portNo⟩ ∧ port.portNo ≤ ofppMax dp.version ∨
          q ≠ ⟨dpid, port.portNo⟩ ∧ r.NonReserved q) ∧
      r'.getPort dpid port.portNo =
        if port.portNo ≤ ofppMax dp.version then some ⟨dpid, dp.version, port⟩ else none := by
  obtain ⟨ps, hp⟩ := exists_portState hd
  have hs : (r.portState.get? dpid).isSome := by simp [hp]
  have ha : r.addPort dpid port = .ok (r.update dpid (ps.add port) hs) := by
    unfold addPort
    split
    · next h => simp [h] at hp
    · next ps' h =>
      obtain rfl : ps' = ps := Option.some.inj (h.symm.trans hp)
      rfl
  refine ⟨_, ha, rfl, fun q => ?_, ?_⟩
  · rw [nonReserved_update hd]
    obtain ⟨x, y⟩ := q
    by_cases hx : x = dpid
    · subst hx
      rw [if_pos rfl, nonReserved_iff hd hp, PortState.add, Dict.get?_set]
      by_cases hy : port.portNo = y
      · simp [hy]
      · simp [hy, Ne.symm hy]
    · simp [hx]
  · have hg : ((ps.add port).ports.get? port.portNo) = some port := Dict.get?_set_self ..
    split
    · next hm =>
      exact getPort_eq_some.2 ⟨dp, _, hd, Dict.get?_set_self .., rfl, hg, hm⟩
    · next hm =>
      refine Option.eq_none_iff_forall_ne_some.mpr fun p hc => hm ?_
      obtain ⟨dp', _, hd', -, -, -, hm'⟩ := getPort_eq_some.1 hc
      rwa [Option.some.inj (hd.symm.trans hd')]

theorem addPort_error (hd : r.dps.get? dpid = none) (port : OFPPort) :
    r.addPort dpid port = .error (.keyError "dpid") := by
  unfold addPort
  split
  · rfl
  · next h =>
    have hs := (r.sync dpid).mpr (by simp [h])
    simp [hd] at hs

/-- A port of a registered switch is removed if it is there. -/
theorem removePort_spec (hd : r.dps.get? dpid = some dp) (hp : r.portState.get? dpid = some ps)
    (hn : (ps.ports.get? portNo).isSome) :
    ∃ r', r.removePort dpid portNo = .ok r' ∧ r'.dps = r.dps ∧
      ∀ q, r'.NonReserved q ↔ q ≠ ⟨dpid, portNo⟩ ∧ r.NonReserved q := by
  have hs : (r.portState.get? dpid).isSome := by simp [hp]
  have ha : r.removePort dpid portNo = .ok (r.update dpid (ps.remove portNo) hs) := by
    unfold removePort
    split
    · next h => simp [h] at hp
    · next ps' h =>
      obtain rfl : ps' = ps := Option.some.inj (h.symm.trans hp)
      exact if_pos hn
  refine ⟨_, ha, rfl, fun q => ?_⟩
  rw [nonReserved_update hd]
  obtain ⟨x, y⟩ := q
  by_cases hx : x = dpid
  · subst hx
    rw [if_pos rfl, nonReserved_iff hd hp, PortState.remove, Dict.get?_erase]
    by_cases hy : portNo = y
    · simp [hy]
    · simp [hy, Ne.symm hy]
  · simp [hx]

theorem dps_removePort {r' : Registry} (h : r.removePort dpid portNo = .ok r') : r'.dps = r.dps := by
  unfold removePort at h
  split at h
  · cases h
  · split at h
    · rw [← Except.ok.inj h]
      rfl
    · cases h

theorem removePort_error (r : Registry) (dpid portNo : ℕ)
    (h : ∀ ps, r.portState.get? dpid = some ps → ps.ports.get? portNo = none) :
    ∃ e, r.removePort dpid portNo = .error e := by
  unfold removePort
  split
  · exact ⟨_, rfl⟩
  · next ps hp => exact ⟨_, if_neg (by simp [h ps hp])⟩

end Registry

end Ryu.Topology
