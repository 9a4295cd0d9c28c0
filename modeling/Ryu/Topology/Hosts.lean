import Ryu.Topology.Links

/-! # Hosts on ports between switches

A host is learned on an edge port only, and the hosts that are on no edge port are removed when
a link is discovered. They are removed before the link is recorded: a host on one of its own
two ports stays. So the host table is free of hosts at links exactly as long as no link is
discovered at a port with a host.
-/

namespace Ryu.Topology

namespace Switches

variable {s s' : Switches} {e : Event} {q : PortId} {mac : String} {host : Host}

theorem isEdgePort_iff :
    s.isEdgePort q = true ↔ ∀ l, s.links.has l → q ≠ l.src ∧ q ≠ l.dst := by
  simp only [isEdgePort, List.all_eq_true, Dict.mem_keys_iff, Bool.not_eq_true',
    Bool.or_eq_false_iff, decide_eq_false_iff_not, LinkState.has]

/-- No host is on a port at which a link ends, and no MAC has two hosts. -/
structure HostsAtEdge (s : Switches) : Prop where
  edge : ∀ host ∈ s.hosts.values, ∀ l, s.links.has l → host.port ≠ l.src ∧ host.port ≠ l.dst
  nodup : (s.hosts.values.map Host.mac).Nodup

/-- A link that is discovered has no host on its ports. -/
def NoHostAtNewLink (s : Switches) (e : Event) : Prop :=
  ∀ l, s.Adds e l → ¬s.links.has l →
    ∀ host ∈ s.hosts.values, host.port ≠ l.src ∧ host.port ≠ l.dst

theorem mem_hosts_iff : host ∈ s.hosts.values ↔ ∃ mac, s.hosts.get? mac = some host := by
  simp only [Dict.values, List.mem_map, Prod.exists, exists_eq_right, Dict.mem_entries_iff]

/-- Of every entry of the host table. -/
def AllHosts (s : Switches) (C : String → Host → Prop) : Prop :=
  ∀ mac host, s.hosts.get? mac = some host → C mac host

variable {C : String → Host → Prop}

theorem AllHosts.set (h : s.AllHosts C) (hc : C mac host) :
    AllHosts { s with hosts := s.hosts.set mac host } C := by
  intro m h' hm
  rw [Dict.get?_set] at hm
  split at hm
  · next he =>
    subst he
    rwa [← Option.some.inj hm]
  · exact h m h' hm

theorem AllHosts.learnHost (h : s.AllHosts C) (hc : C host.mac host) :
    (s.learnHost host).AllHosts C := by
  unfold Switches.learnHost
  split
  · next hn =>
    have hs : s.hosts.setdefault host.mac host = s.hosts.set host.mac host := if_neg (by simp [hn])
    rw [hs]
    exact h.set hc
  · split
    · exact h
    · exact h.set hc

theorem AllHosts.updateIp (h : s.AllHosts C) {f : Host → Host} (hf : ∀ m h, C m h → C m (f h))
    (mac : String) : (s.updateIp mac f).AllHosts C := by
  unfold Switches.updateIp
  split
  · exact h
  · next host hm => exact h.set (hf mac host (h mac host hm))

/-- What holds of a host newly seen on an edge port, and does not depend on its addresses, is
kept by host discovery. -/
theorem AllHosts.hostDiscovery (h : s.AllHosts C) (mac : String)
    (hip : ∀ m h ipv4 ipv6, C m h → C m { h with ipv4 := ipv4, ipv6 := ipv6 })
    (hnew : ∀ port, s.isEdgePort port → C mac ⟨mac, port, [], []⟩) (dpid inPort : ℕ)
    (payload : Payload) :
    (s.hostDiscoveryPacketInHandler dpid inPort mac payload).1.AllHosts C := by
  unfold hostDiscoveryPacketInHandler
  split
  · exact h
  · next port _ =>
    split
    · next he =>
      have h1 : (s.learnHost ⟨mac, port.id, [], []⟩).AllHosts C := h.learnHost (hnew _ he)
      cases payload with
      | arp ip => exact h1.updateIp (fun m h hc => hip m h _ _ hc) mac
      | ipv4 ip => exact h1.updateIp (fun m h hc => hip m h _ _ hc) mac
      | ipv6 ip => exact h1.updateIp (fun m h hc => hip m h _ _ hc) mac
      | malformed e => exact h1
      | other => exact h1
    · exact h

/-- Each host is under its own MAC. -/
def Keyed (s : Switches) : Prop := s.AllHosts fun mac host => host.mac = mac

theorem Keyed.nodup (h : s.Keyed) : (s.hosts.values.map Host.mac).Nodup := by
  have hk : s.hosts.values.map Host.mac = s.hosts.keys := by
    rw [Dict.values, Dict.keys, List.map_map]
    exact List.map_congr_left fun e he => h _ _ (Dict.mem_entries_iff.mp he)
  exact hk ▸ Dict.nodup_keys' _

/-- When every host is on an edge port there is none to remove. -/
theorem HostsAtEdge.removeInnerHosts (h : s.HostsAtEdge) : s.removeInnerHosts.hosts = s.hosts := by
  have hnil : s.hosts.values.filter (!s.isEdgePort ·.port) = [] := by
    refine List.filter_eq_nil_iff.mpr fun host hm => ?_
    simp [isEdgePort_iff.2 (h.edge host hm)]
  rw [Switches.removeInnerHosts, hnil]
  rfl

def Event.isFrame : Event → Bool
  | .packetIn _ _ (.frame _ _) _ => true
  | _ => false

theorem exists_of_isFrame (he : Event.isFrame e) : ∃ dpid inPort mac payload now,
    e = .packetIn dpid inPort (.frame mac payload) now := by
  cases e with
  | packetIn dpid inPort data now =>
    cases data with
    | frame mac payload => exact ⟨dpid, inPort, mac, payload, now, rfl⟩
    | lldp | ignored => cases he
  | main | dead | portStatus | lldpLoop | linkLoop => cases he

/-- Hosts come and go by packet-ins of frames, as long as they are on edge ports. -/
theorem HostsAtEdge.hosts_step (h : s.HostsAtEdge) (ht : s.Told) (he : Event.isFrame e = false) :
    (s.step e).hosts = s.hosts := by
  have hdrops (hp : Event.isPacketIn e = false) : (s.step e).hosts = s.hosts := by
    obtain ⟨r, P, hd⟩ := ht.sound.drops_step hp
    exact hd.hosts
  cases e with
  | packetIn dpid inPort data now =>
    cases data with
    | lldp srcDpid srcPortNo =>
      by_cases hr : s.Records dpid inPort srcDpid srcPortNo
      · obtain ⟨s', hs, -, -, -, -, -, hh⟩ := ht.sound.lldp_of_records hr rfl now
        rw [Switches.step, handle, hs, hh, h.removeInnerHosts, ite_self]
      · obtain ⟨s', hs, hd⟩ := ht.sound.lldp_of_not_records hr now
        rw [Switches.step, handle, hs, hd.hosts]
    | ignored => rfl
    | frame mac payload => cases he
  | main | dead | portStatus | lldpLoop | linkLoop => exact hdrops rfl

/-- No host is at a link exactly as long as no link is discovered at a port with a host. -/
theorem hosts_run (evs : List Event) :
    Throughout step HostsAtEdge init evs ↔ EveryStep step NoHostAtNewLink init evs := by
  apply throughout_iff_everyStep_while (I := fun s => s.Told ∧ s.Keyed)
  · rintro s e ⟨ht, hk⟩ hp -
    refine ⟨(ht.step e).1, ?_⟩
    by_cases he : Event.isFrame e
    · obtain ⟨dpid, inPort, mac, payload, now, rfl⟩ := exists_of_isFrame he
      exact AllHosts.hostDiscovery hk mac (fun _ _ _ _ hc => hc) (fun _ _ => rfl) dpid inPort payload
    · have hh := hp.hosts_step ht (Bool.eq_false_iff.mpr he)
      rw [Keyed, AllHosts, hh]
      exact hk
  · rintro s e ⟨ht, hk⟩ hp
    obtain ⟨ht', hl⟩ := ht.step e
    by_cases he : Event.isFrame e
    · obtain ⟨dpid, inPort, mac, payload, now, rfl⟩ := exists_of_isFrame he
      have hlinks := (sameButHosts_hostDiscovery s dpid inPort mac payload).links
      have hall : s.AllHosts fun mac host => host.mac = mac ∧
          ∀ l, s.links.has l → host.port ≠ l.src ∧ host.port ≠ l.dst :=
        fun mac host hm => ⟨hk mac host hm, hp.edge host (mem_hosts_iff.2 ⟨mac, hm⟩)⟩
      have hall' := hall.hostDiscovery mac (fun _ _ _ _ hc => hc)
        (fun port he => ⟨rfl, isEdgePort_iff.1 he⟩) dpid inPort payload
      refine iff_of_true ⟨fun host hm l hl => ?_, ?_⟩ fun l ha => ha.elim
      · obtain ⟨m, hm⟩ := mem_hosts_iff.1 hm
        refine (hall' m host hm).2 l ?_
        rw [← hlinks]
        exact hl
      · exact Keyed.nodup fun m host hm => (hall' m host hm).1
    · have hh := hp.hosts_step ht (Bool.eq_false_iff.mpr he)
      constructor
      · intro h l ha _ host hm
        exact h.edge host (hh ▸ hm) l ((hl l).mpr (.inl ha))
      · intro h
        refine ⟨fun host hm l hl' => ?_, hh ▸ hp.nodup⟩
        rw [hh] at hm
        by_cases hk : s.links.has l
        · exact hp.edge host hm l hk
        · rcases (hl l).mp hl' with ha | ⟨-, hk'⟩
          · exact h l ha hk host hm
          · exact absurd hk' hk
  · exact ⟨told_init, fun mac host hm => by simp [init] at hm⟩
  · exact ⟨fun host hm => by simp [init, Dict.values, Dict.empty] at hm, List.nodup_nil⟩

/-- A host seen on a port before the link at that port is discovered. -/
def hostFirst : List Event :=
  [.main ⟨1, 1, 4⟩ [⟨1, 0, 0⟩], .main ⟨2, 2, 4⟩ [⟨1, 0, 0⟩],
    .packetIn 1 1 (.frame "00:00:00:00:00:01" .other) 0, .packetIn 2 1 (.lldp 1 1) 0]

/-- The host stays in the table. -/
theorem hostFirst_stays : ¬Throughout step HostsAtEdge init hostFirst := by
  intro h
  have hlast := h.last.edge ⟨"00:00:00:00:00:01", ⟨1, 1⟩, [], []⟩ (by decide)
    ⟨⟨1, 1⟩, ⟨2, 1⟩⟩ (by decide)
  exact hlast.1 rfl

end Switches

end Ryu.Topology
