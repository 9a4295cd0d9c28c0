import Mathlib.Data.List.TakeWhile
import Ryu.Lib.History
import Ryu.Topology.Links

/-! # Registered switches and their ports

A datapath id is registered while its latest connection lives. Its ports, those that are not
reserved, are the ports of link discovery, as long as no message is about a switch that is not
registered, no port is deleted or modified that is not known, and a further connection of an id
leaves the ports that are reserved as they are.
-/

namespace Ryu.Topology

namespace Switches

/-- The connection came, no later one of its id did, and it has not ended. -/
def Lives (evs : List Event) (dp : Datapath) : Prop :=
  ∃ pre ports post, evs = pre ++ .main dp ports :: post ∧
    (∀ dp' ports', .main dp' ports' ∈ post → dp'.id ≠ dp.id) ∧ .dead (some dp) ∉ post

/-- The ports of link discovery are those of the registered switches that are not reserved, and
iteration meets each of them once. -/
structure PortsAgree (s : Switches) : Prop where
  has_iff : ∀ q, s.ports.has q ↔ s.registry.NonReserved q
  order : ∃ order : List PortId, s.ports.iter = some (order.map some) ∧ order.Nodup ∧
    ∀ q, q ∈ order ↔ s.registry.NonReserved q

def Event.ofSwitch : Event → Bool
  | .main _ _ | .dead _ | .portStatus _ _ _ => true
  | _ => false

/-- The handler of a connection, a disconnection or a port message does not raise. -/
def NotRaising (s : Switches) (e : Event) : Prop :=
  Event.ofSwitch e → (s.handle e).2 = none

/-- The messages are about what is known. -/
def AboutKnown (s : Switches) : Event → Prop
  | .main dp _ => ∀ old ps, s.registry.dps.get? dp.id = some old →
    s.registry.portState.get? dp.id = some ps → ∀ n, (ps.ports.get? n).isSome →
      (n ≤ ofppMax old.version ↔ n ≤ ofppMax dp.version)
  | .portStatus dp .add _ => (s.registry.dps.get? dp.id).isSome
  | .portStatus dp .delete desc => ∃ ps, s.registry.portState.get? dp.id = some ps ∧
    (ps.ports.get? desc.portNo).isSome
  | .portStatus dp .modify desc => ∃ reg ps, s.registry.dps.get? dp.id = some reg ∧
    s.registry.portState.get? dp.id = some ps ∧
    ((ps.ports.get? desc.portNo).isSome ∨ ofppMax reg.version < desc.portNo)
  | _ => True

variable {s s' : Switches} {e : Event} {q : PortId} {dp : Datapath} {evs : List Event}

/-! ## The latest connection -/

theorem lives_concat : Lives (evs ++ [e]) dp ↔
    (∃ ports, e = .main dp ports) ∨
      Lives evs dp ∧ (∀ dp' ports', e = .main dp' ports' → dp'.id ≠ dp.id) ∧
        e ≠ .dead (some dp) := by
  constructor
  · rintro ⟨pre, ports, post, he, hm, hd⟩
    rcases History.split_concat he with ⟨-, hlast, -⟩ | ⟨post, rfl, rfl⟩
    · exact .inl ⟨ports, hlast⟩
    · refine .inr ⟨⟨pre, ports, post, rfl, fun dp' ports' h => ?_, fun h => ?_⟩, ?_, ?_⟩
      · exact hm dp' ports' (by simp [h])
      · exact hd (by simp [h])
      · rintro dp' ports' rfl
        exact hm dp' ports' (by simp)
      · rintro rfl
        exact hd (by simp)
  · rintro (⟨ports, rfl⟩ | ⟨⟨pre, ports, post, rfl, hm, hd⟩, hme, hde⟩)
    · exact ⟨evs, ports, [], rfl, fun _ _ h => absurd h List.not_mem_nil, List.not_mem_nil⟩
    · refine ⟨pre, ports, post ++ [e], by simp, fun dp' ports' h => ?_, fun h => ?_⟩
      · rcases List.mem_append.mp h with h | h
        · exact hm dp' ports' h
        · exact hme dp' ports' (List.mem_singleton.mp h).symm
      · rcases List.mem_append.mp h with h | h
        · exact hd h
        · exact hde (List.mem_singleton.mp h).symm

/-- Packet-ins and loops leave the switches and their ports. -/
theorem Told.quiet_step (h : s.Told) (he : Event.ofSwitch e = false) :
    (s.step e).registry = s.registry ∧ ∀ q, (s.step e).ports.has q ↔ s.ports.has q := by
  cases e with
  | packetIn dpid inPort data now =>
    cases data with
    | lldp srcDpid srcPortNo =>
      by_cases hr : s.Records dpid inPort srcDpid srcPortNo
      · obtain ⟨s', hs, hreg, -, hp, -⟩ := h.sound.lldp_of_records hr rfl now
        rw [Switches.step, handle, hs]
        exact ⟨hreg, hp⟩
      · obtain ⟨s', hs, hd⟩ := h.sound.lldp_of_not_records hr now
        rw [Switches.step, handle, hs]
        exact ⟨hd.registry, hd.ports⟩
    | ignored => exact ⟨rfl, fun _ => Iff.rfl⟩
    | frame mac payload =>
      have hs := sameButHosts_hostDiscovery s dpid inPort mac payload
      exact ⟨hs.registry, fun q => iff_of_eq (congrArg (PortDataState.has · q) hs.ports)⟩
  | lldpLoop port now =>
    obtain ⟨s', hs, h1⟩ := h.sound.sendLldpPacket port now
    rw [Switches.step, handle, hs]
    exact ⟨h1.registry, h1.ports⟩
  | linkLoop now =>
    obtain ⟨s', hs, h1⟩ := h.sound.linkLoop now
    rw [Switches.step, handle, hs]
    exact ⟨h1.registry, h1.ports⟩
  | main | dead | portStatus => cases he

theorem Sound.dps_portStatus (h : s.Sound) (dp : Datapath) (reason : PortReason) (desc : OFPPort) :
    (s.step (.portStatus dp reason desc)).registry.dps = s.registry.dps := by
  rw [step, handle]
  cases hd : s.registry.dps.get? dp.id with
  | none =>
    cases reason with
    | add | modify => simp only [portStatusHandler, Registry.addPort_error hd]
    | delete =>
      obtain ⟨r', h1, hr, -⟩ := h.portStatus_delete dp desc
      rw [h1.registry]
      exact hr.elim (fun hr => congrArg Registry.dps hr.1) Registry.dps_removePort
  | some reg =>
    obtain ⟨r', ha, hr', -⟩ := Registry.addPort_spec hd desc
    cases reason with
    | add =>
      obtain ⟨s', r₁, hs, ha₁, h1⟩ := h.portStatus_add hd desc
      obtain rfl := Except.ok.inj (ha.symm.trans ha₁)
      rw [hs, h1.registry, hr']
    | modify =>
      obtain ⟨r₁, ha₁, -, h1⟩ := h.portStatus_modify hd desc
      obtain rfl := Except.ok.inj (ha.symm.trans ha₁)
      rw [h1.registry, hr']
    | delete =>
      obtain ⟨r', h1, hr, -⟩ := h.portStatus_delete dp desc
      rw [h1.registry]
      exact hr.elim (fun hr => congrArg Registry.dps hr.1) Registry.dps_removePort

/-- What an event makes of the connections. -/
def dpsAfter (s : Switches) : Event → Dict ℕ Datapath
  | .main dp _ => s.registry.dps.set dp.id dp
  | .dead (some dp) =>
    if s.registry.dps.get? dp.id = some dp then s.registry.dps.erase dp.id else s.registry.dps
  | _ => s.registry.dps

theorem Told.dps_step (h : s.Told) (e : Event) : (s.step e).registry.dps = s.dpsAfter e := by
  cases e with
  | main dp ports =>
    cases hd : s.registry.dps.get? dp.id with
    | none =>
      obtain ⟨s', hs, h1⟩ := h.sound.mainDispatcher_none ports hd
      rw [Switches.step, handle, hs, h1.registry]
      rfl
    | some old =>
      obtain ⟨s', hs, h1⟩ := h.sound.mainDispatcher_some ports hd
      rw [Switches.step, handle, hs, h1.registry]
      rfl
  | dead dp =>
    cases dp with
    | none => rfl
    | some dp =>
      by_cases hd : s.registry.dps.get? dp.id = some dp
      · obtain ⟨ports, hg, -, -, h1⟩ := h.sound.deadDispatcher hd
        rw [Switches.step, handle, h1.registry, dpsAfter, Registry.unregister, if_pos hd, if_pos hd]
      · rw [Switches.step, handle, deadDispatcher_of_ne hd, dpsAfter, if_neg hd]
  | portStatus dp reason desc => exact h.sound.dps_portStatus dp reason desc
  | packetIn | lldpLoop | linkLoop => exact congrArg Registry.dps (h.quiet_step rfl).1

theorem get?_dpsAfter (s : Switches) (e : Event) (id : ℕ) (dp : Datapath) :
    (s.dpsAfter e).get? id = some dp ↔ (dp.id = id ∧ ∃ ports, e = .main dp ports) ∨
      s.registry.dps.get? id = some dp ∧ (∀ dp' ports', e = .main dp' ports' → dp'.id ≠ id) ∧
        e ≠ .dead (some dp) := by
  cases e with
  | main dp' ports =>
    rw [dpsAfter, Dict.get?_set]
    by_cases hid : dp'.id = id
    · rw [if_pos hid, Option.some.injEq]
      constructor
      · rintro rfl
        exact .inl ⟨hid, ports, rfl⟩
      · rintro (⟨-, ports', h⟩ | ⟨-, hn, -⟩)
        · exact (Event.main.inj h).1
        · exact absurd hid (hn dp' ports rfl)
    · rw [if_neg hid]
      constructor
      · refine fun h => .inr ⟨h, ?_, fun hc => by cases hc⟩
        rintro d ports' hc
        rwa [← (Event.main.inj hc).1]
      · rintro (⟨h, ports', hc⟩ | ⟨h, -⟩)
        · exact absurd ((Event.main.inj hc).1 ▸ h) hid
        · exact h
  | dead dp' =>
    have hm : ¬(dp.id = id ∧ ∃ ports, Event.dead dp' = .main dp ports) :=
      fun ⟨_, ports, h⟩ => by cases h
    have hn : ∀ d ports, Event.dead dp' = .main d ports → d.id ≠ id := fun d ports h => by cases h
    rw [or_iff_right hm, and_iff_right hn]
    cases dp' with
    | none => simp [dpsAfter]
    | some d =>
      have hk := s.registry.keyed id dp
      rw [dpsAfter, ne_eq, Event.dead.injEq, Option.some.injEq]
      split
      · next hd =>
        rw [Dict.get?_erase]
        by_cases hid : d.id = id
        · rw [if_pos hid]
          refine iff_of_false (fun hc => by cases hc) fun ⟨h, hne⟩ => hne ?_
          rw [← hid, hd] at h
          exact Option.some.inj h
        · rw [if_neg hid]
          refine (and_iff_left_of_imp fun h he => hid ?_).symm
          rw [he, hk h]
      · next hd =>
        refine (and_iff_left_of_imp fun h he => hd ?_).symm
        rw [he, hk h, h]
  | portStatus | packetIn | lldpLoop | linkLoop => simp [dpsAfter]

theorem run_concat (evs : List Event) (e : Event) : run (evs ++ [e]) = (run evs).step e :=
  List.foldl_append

theorem told_run (evs : List Event) : (run evs).Told := by
  induction evs using List.reverseRecOn with
  | nil => exact told_init
  | append_singleton evs e ih =>
    rw [run_concat]
    exact (ih.step e).1

/-- A datapath id is registered while its latest connection lives. -/
theorem get?_run (evs : List Event) (id : ℕ) (dp : Datapath) :
    (run evs).registry.dps.get? id = some dp ↔ dp.id = id ∧ Lives evs dp := by
  induction evs using List.reverseRecOn with
  | nil =>
    refine iff_of_false (fun h => by cases h) ?_
    rintro ⟨-, pre, ports, post, h, -⟩
    simp at h
  | append_singleton evs e ih =>
    rw [run_concat, (told_run evs).dps_step, get?_dpsAfter, ih, lives_concat]
    constructor
    · rintro (⟨hid, hm⟩ | ⟨⟨hid, hl⟩, hm, hd⟩)
      · exact ⟨hid, .inl hm⟩
      · exact ⟨hid, .inr ⟨hl, hid ▸ hm, hd⟩⟩
    · rintro ⟨hid, hm | ⟨hl, hm, hd⟩⟩
      · exact .inl ⟨hid, hm⟩
      · exact .inr ⟨⟨hid, hl⟩, hid ▸ hm, hd⟩

/-! ## The ports -/

theorem Sound.portsAgree (h : s.Sound) (hq : ∀ q, s.ports.has q ↔ s.registry.NonReserved q) :
    s.PortsAgree := by
  obtain ⟨order, ho⟩ := h.ports
  exact ⟨hq, order, ho.iter, ho.nodup, fun q => (ho.2 q).trans (hq q)⟩

theorem PortsAgree.mainDispatcher_none (hp : s.PortsAgree) {ports : List OFPPort}
    (hd : s.registry.dps.get? dp.id = none) (q : PortId) :
    q.dpid = dp.id ∧ (s.registry.register dp ports).NonReserved q ∨ s.ports.has q ↔
      (s.registry.register dp ports).NonReserved q := by
  rw [hp.has_iff]
  by_cases hq : q.dpid = dp.id
  · have hn : ¬s.registry.NonReserved q := by
      rintro ⟨dp', ps, hd', -⟩
      rw [hq, hd] at hd'
      cases hd'
    rw [or_iff_left hn, and_iff_right hq]
  · rw [Registry.nonReserved_register_of_ne hq]
    simp [hq]

/-- The ports stay as they are when an id is registered again exactly if none of them gets
reserved and none that was is no more. -/
theorem PortsAgree.mainDispatcher_some (hp : s.PortsAgree) {ports : List OFPPort} {old : Datapath}
    (hd : s.registry.dps.get? dp.id = some old) :
    (∀ q, s.ports.has q ↔ (s.registry.register dp ports).NonReserved q) ↔
      s.AboutKnown (.main dp ports) := by
  obtain ⟨ps, hps⟩ := Registry.exists_portState hd
  have hold (n : ℕ) := Registry.nonReserved_iff hd hps n
  have hnew (n : ℕ) := Registry.nonReserved_register hps ports n
  constructor
  · rintro h old' ps' hd' hps' n hn
    obtain rfl : old = old' := Option.some.inj (hd.symm.trans hd')
    obtain rfl : ps = ps' := Option.some.inj (hps.symm.trans hps')
    have hq := h ⟨dp.id, n⟩
    rwa [hp.has_iff, hold, hnew, and_iff_right hn, and_iff_right hn] at hq
  · rintro h ⟨d, n⟩
    rw [hp.has_iff]
    by_cases hdp : d = dp.id
    · subst hdp
      rw [hold, hnew]
      exact and_congr_right fun hn => h old ps hd hps n hn
    · exact (Registry.nonReserved_register_of_ne hdp).symm

theorem PortsAgree.deadDispatcher (h : s.Told) (hp : s.PortsAgree)
    (hd : s.registry.dps.get? dp.id = some dp) :
    (s.deadDispatcher dp).2 = none ∧ ∀ q, (s.deadDispatcher dp).1.ports.has q ↔
      (s.deadDispatcher dp).1.registry.NonReserved q := by
  obtain ⟨ports, hg, hids, ho, h1⟩ := h.sound.deadDispatcher hd
  have hknown : ∀ p ∈ ports, s.ports.has p.id := fun p hm =>
    (hp.has_iff _).mpr ((hids _).mp (List.mem_map_of_mem hm)).2
  have htaken : s.taken ports = ports.map Port.id := by
    refine List.takeWhile_eq_self_iff.mpr fun q hq => ?_
    obtain ⟨p, hm, rfl⟩ := List.mem_map.mp hq
    exact decide_eq_true (hknown p hm)
  refine ⟨ho.mpr hknown, fun q => ?_⟩
  rw [h1.ports, h1.registry, Registry.nonReserved_unregister hd, htaken, hids, hp.has_iff]
  tauto

/-- A port message about a switch that is not registered fails. -/
theorem portStatus_error (h : s.Told) (hd : s.registry.dps.get? dp.id = none)
    (reason : PortReason) (desc : OFPPort) :
    (s.portStatusHandler dp reason desc).2 ≠ none ∧
      ¬s.AboutKnown (.portStatus dp reason desc) := by
  have hp : s.registry.portState.get? dp.id = none := by
    have hs := s.registry.sync dp.id
    rw [hd] at hs
    exact Option.not_isSome_iff_eq_none.mp fun hc => by cases hs.mpr hc
  cases reason with
  | add =>
    simp only [portStatusHandler, Registry.addPort_error hd, AboutKnown, hd]
    exact ⟨Option.some_ne_none _, Bool.false_ne_true⟩
  | modify =>
    simp only [portStatusHandler, Registry.addPort_error hd]
    refine ⟨Option.some_ne_none _, ?_⟩
    rintro ⟨reg, ps, hc, -⟩
    rw [hd] at hc
    cases hc
  | delete =>
    obtain ⟨r', -, -, ho⟩ := h.sound.portStatus_delete dp desc
    obtain ⟨e, he⟩ := Registry.removePort_error s.registry dp.id desc.portNo
      fun ps hc => by
        rw [hp] at hc
        cases hc
    refine ⟨fun hc => ?_, ?_⟩
    · have hr := (ho.mp hc).2
      rw [he] at hr
      cases hr
    · rintro ⟨ps, hc, -⟩
      rw [hp] at hc
      cases hc

theorem PortsAgree.portStatus (h : s.Told) (hp : s.PortsAgree) (dp : Datapath)
    (reason : PortReason) (desc : OFPPort) :
    (s.portStatusHandler dp reason desc).2 = none ∧
      (∀ q, (s.portStatusHandler dp reason desc).1.ports.has q ↔
        (s.portStatusHandler dp reason desc).1.registry.NonReserved q) ↔
      s.AboutKnown (.portStatus dp reason desc) := by
  cases hd : s.registry.dps.get? dp.id with
  | none =>
    obtain ⟨h1, h2⟩ := portStatus_error h hd reason desc
    exact iff_of_false (fun hc => h1 hc.1) h2
  | some reg =>
    obtain ⟨ps, hps⟩ := Registry.exists_portState hd
    have hid := Registry.nonReserved_iff hd hps desc.portNo
    cases reason with
    | add =>
      obtain ⟨s', r', hs, ha, h1⟩ := h.sound.portStatus_add hd desc
      obtain ⟨r₁, ha₁, -, hn, -⟩ := Registry.addPort_spec hd desc
      obtain rfl := Except.ok.inj (ha.symm.trans ha₁)
      rw [hs]
      refine iff_of_true ⟨rfl, fun q => ?_⟩ (by simp [AboutKnown, hd])
      rw [h1.ports, h1.registry, hn, hp.has_iff]
      by_cases hq : q = ⟨dp.id, desc.portNo⟩
      · subst hq
        simp [hid]
      · simp [hq]
    | modify =>
      obtain ⟨r', ha, ho, h1⟩ := h.sound.portStatus_modify hd desc
      obtain ⟨r₁, ha₁, -, hn, -⟩ := Registry.addPort_spec hd desc
      obtain rfl := Except.ok.inj (ha.symm.trans ha₁)
      have hk : s.AboutKnown (.portStatus dp .modify desc) ↔
          ((ps.ports.get? desc.portNo).isSome ∨ ofppMax reg.version < desc.portNo) := by
        simp [AboutKnown, hd, hps]
      rw [ho, hp.has_iff, hid, hk]
      constructor
      · rintro ⟨hle, -⟩
        by_cases hm : desc.portNo ≤ ofppMax reg.version
        · exact .inl (hle hm).1
        · exact .inr (not_le.mp hm)
      · intro hc
        have hle (hm : desc.portNo ≤ ofppMax reg.version) :=
          hc.resolve_right (not_lt.mpr hm)
        refine ⟨fun hm => ⟨hle hm, hm⟩, fun q => ?_⟩
        rw [h1.ports, h1.registry, hn, hp.has_iff]
        by_cases hq : q = ⟨dp.id, desc.portNo⟩
        · subst hq
          simp only [hid, true_and, ne_eq, not_true_eq_false, false_and, or_false]
          exact and_iff_right_of_imp hle
        · simp [hq]
    | delete =>
      obtain ⟨r', h1, hr', ho⟩ := h.sound.portStatus_delete dp desc
      have hk : s.AboutKnown (.portStatus dp .delete desc) ↔
          (ps.ports.get? desc.portNo).isSome := by
        simp [AboutKnown, hps]
      rw [hk]
      rw [hp.has_iff, and_iff_right (id : s.registry.NonReserved _ → _)] at ho
      constructor
      · rintro ⟨hok, -⟩
        have hr := ho.mp hok
        by_contra hc
        obtain ⟨e, he⟩ := Registry.removePort_error s.registry dp.id desc.portNo
          fun ps' hps' => by
            rw [← Option.some.inj (hps.symm.trans hps')]
            simpa using hc
        rw [he] at hr
        cases hr
      · intro hc
        obtain ⟨r₁, hr, -, hn⟩ := Registry.removePort_spec hd hps hc
        have hok := ho.mpr (by rw [hr]; rfl)
        obtain rfl : r₁ = r' := by
          rcases hr' with ⟨-, hn⟩ | hr'
          · exact absurd hok hn
          · exact Except.ok.inj (hr.symm.trans hr')
        refine ⟨hok, fun q => ?_⟩
        rw [h1.ports, h1.registry, hn, hp.has_iff]
        tauto

/-- One step. -/
theorem Told.portsAgree_step (h : s.Told) (hp : s.PortsAgree) (e : Event) :
    s.NotRaising e ∧ (s.step e).PortsAgree ↔ s.AboutKnown e := by
  have hsound := (h.step e).1.sound
  have hagree : (s.step e).PortsAgree ↔
      ∀ q, (s.step e).ports.has q ↔ (s.step e).registry.NonReserved q :=
    ⟨PortsAgree.has_iff, hsound.portsAgree⟩
  have hquiet (he : Event.ofSwitch e = false) : s.NotRaising e ∧
      ∀ q, (s.step e).ports.has q ↔ (s.step e).registry.NonReserved q := by
    obtain ⟨hr, hq⟩ := h.quiet_step he
    refine ⟨fun hc => by simp [he] at hc, fun q => ?_⟩
    rw [hq, hr, hp.has_iff]
  rw [hagree]
  cases e with
  | main dp ports =>
    cases hd : s.registry.dps.get? dp.id with
    | none =>
      obtain ⟨s', hs, h1⟩ := h.sound.mainDispatcher_none ports hd
      have hn : s.NotRaising (.main dp ports) := fun _ => congrArg Prod.snd hs
      refine iff_of_true ⟨hn, fun q => ?_⟩ fun old ps hc => by rw [hd] at hc; cases hc
      rw [Switches.step, handle, hs, h1.ports, h1.registry]
      exact hp.mainDispatcher_none hd q
    | some old =>
      obtain ⟨s', hs, h1⟩ := h.sound.mainDispatcher_some ports hd
      have hn : s.NotRaising (.main dp ports) := fun _ => congrArg Prod.snd hs
      rw [and_iff_right hn, Switches.step, handle, hs, h1.registry, ← hp.mainDispatcher_some hd]
      exact forall_congr' fun q => iff_congr (h1.ports q) Iff.rfl
  | dead dp =>
    cases dp with
    | none => exact iff_of_true ⟨fun _ => rfl, hp.has_iff⟩ trivial
    | some dp =>
      refine iff_of_true ?_ trivial
      by_cases hd : s.registry.dps.get? dp.id = some dp
      · obtain ⟨h1, h2⟩ := hp.deadDispatcher h hd
        exact ⟨fun _ => h1, h2⟩
      · have hs := deadDispatcher_of_ne hd
        refine ⟨fun _ => congrArg Prod.snd hs, ?_⟩
        rw [Switches.step, handle, hs]
        exact hp.has_iff
  | portStatus dp reason desc =>
    rw [← hp.portStatus h]
    exact and_congr_left fun _ => ⟨fun hn => hn rfl, fun hn _ => hn⟩
  | packetIn | lldpLoop | linkLoop => exact iff_of_true (hquiet rfl) trivial

theorem portsAgree_init : PortsAgree init := by
  refine told_init.sound.portsAgree fun q => iff_of_false (fun h => by cases h) ?_
  rintro ⟨dp, ps, hd, -⟩
  cases hd

/-- No handler of a connection, a disconnection or a port message fails and the ports of link
discovery are the ports that are not reserved, exactly as long as the messages are about what is
known; a datapath id is registered while its latest connection lives. -/
theorem ports_run (evs : List Event) :
    ((∀ evs', evs' <+: evs → ∀ id dp,
        (run evs').registry.dps.get? id = some dp ↔ dp.id = id ∧ Lives evs' dp) ∧
      EveryStep step NotRaising init evs ∧ Throughout step PortsAgree init evs) ↔
      EveryStep step AboutKnown init evs := by
  rw [and_iff_right fun evs' _ => get?_run evs']
  exact everyStep_and_throughout_iff (I := Told) (fun s e h => (h.step e).1)
    (fun s e h hp => h.portsAgree_step hp e) told_init portsAgree_init evs

/-- A port is deleted that is not known. -/
def deleteUnknown : List Event :=
  [.main ⟨1, 1, 4⟩ [], .portStatus ⟨1, 1, 4⟩ .delete ⟨1, 0, 0⟩]

/-- The handler raises. -/
theorem deleteUnknown_raises : ¬EveryStep step NotRaising init deleteUnknown := by
  rintro ⟨-, h, -⟩
  exact absurd (h rfl) (by decide)

end Switches

end Ryu.Topology
