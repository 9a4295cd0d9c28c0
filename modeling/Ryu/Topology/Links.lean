import Ryu.Lib.Alternation
import Ryu.Lib.Run
import Ryu.Topology.Steps

/-! # Links of ports that are gone

In every run the link table and its index hold the same links, and observers are told of each
link by turns that it came and that it went. That no link ends at a port that was deleted or
went down is so as long as every link into such a port is known in both directions, and no
link is recorded at a port after that.
-/

namespace Ryu.Topology

namespace Switches

/-- The event tells that a port was deleted or went down, or that its switch left. -/
def Closes (s : Switches) : Event → PortId → Prop
  | .portStatus dp .delete desc, q => q = ⟨dp.id, desc.portNo⟩
  | .portStatus dp .modify desc, q => q = ⟨dp.id, desc.portNo⟩ ∧ desc.isDown
  | .dead (some dp), q => s.registry.dps.get? dp.id = some dp ∧ q.dpid = dp.id
  | _, _ => False

/-- The event tells that a port is up. -/
def Opens : Event → PortId → Prop
  | .portStatus dp .add desc, q => q = ⟨dp.id, desc.portNo⟩ ∧ ¬desc.isDown
  | .portStatus dp .modify desc, q => q = ⟨dp.id, desc.portNo⟩ ∧ ¬desc.isDown
  | .main dp ports, q => q.dpid = dp.id ∧ ∃ p ∈ ports, p.portNo = q.portNo ∧ ¬p.isDown
  | _, _ => False

/-- The ports for which the handler gets to `_link_down`: those that link discovery knows. -/
def TakenDown (s : Switches) : Event → PortId → Prop
  | .portStatus dp .delete desc, q =>
    q = ⟨dp.id, desc.portNo⟩ ∧ s.registry.NonReserved q ∧ s.ports.has q
  | .portStatus dp .modify desc, q => q = ⟨dp.id, desc.portNo⟩ ∧ desc.isDown ∧
    (∃ reg, s.registry.dps.get? dp.id = some reg ∧ desc.portNo ≤ ofppMax reg.version) ∧
    s.ports.has q
  | .dead (some dp), q => s.registry.dps.get? dp.id = some dp ∧
    ∃ ports, s.registry.getSwitch dp.id = some (dp, ports) ∧ q ∈ s.taken ports
  | _, _ => False

/-- The links that an event takes out. -/
def TakesOut (s : Switches) (e : Event) (l : Link) : Prop :=
  match e with
  | .linkLoop now => s.timedOut now l
  | e => s.TakenDown e l.src ∨ s.TakenDown e l.dst ∧ s.links.has l.rev

def Event.isPacketIn : Event → Bool
  | .packetIn _ _ _ _ => true
  | _ => false

variable {s s' : Switches} {e : Event} {q q' : PortId}

theorem Drops.of_handle {r : Registry} {P : PortId → Prop} {gone : Link → Prop}
    (h : Drops s s' r P gone) (hs : (s.handle e).1 = s')
    (hg : ∀ l, s.links.has l → (gone l ↔ s.TakesOut e l)) :
    ∃ r P, Drops s (s.step e) r P (s.TakesOut e) := by
  refine ⟨r, P, ?_⟩
  rw [step, hs]
  exact h.congr (fun _ => Iff.rfl) hg

/-- Every event but a packet-in takes links out at most. -/
theorem Sound.drops_step (h : s.Sound) (he : Event.isPacketIn e = false) :
    ∃ r P, Drops s (s.step e) r P (s.TakesOut e) := by
  have h0 : Drops s s s.registry s.ports.has fun _ => False :=
    h.drops_withPorts h.ports fun _ => Iff.rfl
  cases e with
  | main dp ports =>
    cases hd : s.registry.dps.get? dp.id with
    | none =>
      obtain ⟨s', hs, h1⟩ := h.mainDispatcher_none ports hd
      exact h1.of_handle (congrArg Prod.fst hs) (by simp [TakesOut, TakenDown])
    | some old =>
      obtain ⟨s', hs, h1⟩ := h.mainDispatcher_some ports hd
      exact h1.of_handle (congrArg Prod.fst hs) (by simp [TakesOut, TakenDown])
  | dead dp =>
    cases dp with
    | none => exact h0.of_handle rfl (by simp [TakesOut, TakenDown])
    | some dp =>
      by_cases hd : s.registry.dps.get? dp.id = some dp
      · obtain ⟨ports, hg, -, -, h1⟩ := h.deadDispatcher hd
        exact h1.of_handle rfl fun l hl => by simp [TakesOut, TakenDown, hd, hg]
      · exact h0.of_handle (congrArg Prod.fst (deadDispatcher_of_ne hd))
          (by simp [TakesOut, TakenDown, hd])
  | portStatus dp reason desc =>
    cases reason with
    | add =>
      cases hd : s.registry.dps.get? dp.id with
      | none =>
        refine h0.of_handle ?_ (by simp [TakesOut, TakenDown])
        simp only [handle, portStatusHandler, Registry.addPort_error hd]
      | some reg =>
        obtain ⟨s', r', hs, -, h1⟩ := h.portStatus_add hd desc
        exact h1.of_handle (congrArg Prod.fst hs) (by simp [TakesOut, TakenDown])
    | delete =>
      obtain ⟨r', h1, -⟩ := h.portStatus_delete dp desc
      refine h1.of_handle rfl fun l hl => ?_
      simp only [TakesOut, TakenDown]
      grind
    | modify =>
      cases hd : s.registry.dps.get? dp.id with
      | none =>
        refine h0.of_handle ?_ (by simp [TakesOut, TakenDown, hd])
        simp only [handle, portStatusHandler, Registry.addPort_error hd]
      | some reg =>
        obtain ⟨r', -, -, h1⟩ := h.portStatus_modify hd desc
        refine h1.of_handle rfl fun l hl => ?_
        simp only [TakesOut, TakenDown, hd, Option.some.injEq, exists_eq_left']
        grind
  | packetIn dpid inPort data now => cases he
  | lldpLoop port now =>
    obtain ⟨s', hs, h1⟩ := h.sendLldpPacket port now
    exact h1.of_handle (congrArg Prod.fst hs) (by simp [TakesOut, TakenDown])
  | linkLoop now =>
    obtain ⟨s', hs, h1⟩ := h.linkLoop now
    exact h1.of_handle (congrArg Prod.fst hs) fun _ _ => Iff.rfl

/-- The link that an event records. -/
def Adds (s : Switches) : Event → Link → Prop
  | .packetIn dpid inPort (.lldp srcDpid srcPortNo) _, l =>
    s.Records dpid inPort srcDpid srcPortNo ∧ l = ⟨⟨srcDpid, srcPortNo⟩, ⟨dpid, inPort⟩⟩
  | _, _ => False

/-- The tables are well formed and what was told of the links is so. -/
structure Told (s : Switches) : Prop where
  sound : s.Sound
  announced : ∀ l, Announces (s.news l) (s.links.has l)

theorem told_init : Told init where
  sound := ⟨PortDataState.wellFormed_empty, LinkState.wellFormed_empty,
    fun l hl => by simp [init, LinkState.empty, LinkState.has] at hl⟩
  announced l := announces_nil fun hl => by simp [init, LinkState.empty, LinkState.has] at hl

variable {r : Registry} {P : PortId → Prop} {gone : Link → Prop}

theorem Told.drops (h : s.Told) (hd : Drops s s' r P gone) : s'.Told where
  sound := hd.sound
  announced l := by
    by_cases hg : gone l ∧ s.links.has l
    · rw [hd.told l hg.1 hg.2]
      exact (h.announced l).off hg.2 fun hc => ((hd.links l).mp hc).1 hg.1
    · rw [hd.silent l hg]
      refine (h.announced l).congr ((hd.links l).trans ?_).symm
      exact and_iff_right_of_imp fun hl hc => hg ⟨hc, hl⟩

theorem Told.sameButHosts (h : s.Told) (hs : SameButHosts s s') : s'.Told where
  sound := by
    obtain ⟨h1, h2, h3⟩ := h.sound
    exact ⟨hs.ports ▸ h1, hs.links ▸ h2, hs.links ▸ h3⟩
  announced l := by
    rw [hs.news, hs.links]
    exact h.announced l

/-- What every event makes of the link table. -/
theorem Told.step (h : s.Told) (e : Event) : (s.step e).Told ∧
    ∀ l, (s.step e).links.has l ↔ s.Adds e l ∨ ¬s.TakesOut e l ∧ s.links.has l := by
  have hdrops (he : Event.isPacketIn e = false) (ha : ∀ l, ¬s.Adds e l) : (s.step e).Told ∧
      ∀ l, (s.step e).links.has l ↔ s.Adds e l ∨ ¬s.TakesOut e l ∧ s.links.has l := by
    obtain ⟨r, P, hd⟩ := h.sound.drops_step he
    exact ⟨h.drops hd, fun l => (hd.links l).trans (or_iff_right (ha l)).symm⟩
  cases e with
  | packetIn dpid inPort data now =>
    cases data with
    | lldp srcDpid srcPortNo =>
      by_cases hr : s.Records dpid inPort srcDpid srcPortNo
      · obtain ⟨s', hs, hreg, hsound, hp, hl, hn, hh⟩ :=
          h.sound.lldp_of_records hr rfl now
        rw [Switches.step, handle, hs]
        refine ⟨⟨hsound, fun l => ?_⟩, fun l => ?_⟩
        · rw [hn]
          split
          · next hk =>
            obtain ⟨rfl, hk⟩ := hk
            exact (h.announced _).on hk ((hl _).mpr (.inl rfl))
          · next hk =>
            rw [List.append_nil]
            refine (h.announced l).congr ((hl l).trans ?_).symm
            refine or_iff_right_of_imp fun he => ?_
            subst he
            exact by_contra fun hc => hk ⟨rfl, hc⟩
        · rw [hl]
          simp [Adds, hr, TakesOut, TakenDown]
      · obtain ⟨s', hs, hd⟩ := h.sound.lldp_of_not_records hr now
        rw [Switches.step, handle, hs]
        refine ⟨h.drops hd, fun l => (hd.links l).trans ?_⟩
        simp [Adds, hr, TakesOut, TakenDown]
    | ignored => exact ⟨h, fun l => by
      simp [Adds, TakesOut, TakenDown, Switches.step, handle]⟩
    | frame mac payload =>
      have hs := sameButHosts_hostDiscovery s dpid inPort mac payload
      refine ⟨h.sameButHosts hs, fun l => ?_⟩
      simp only [Adds, TakesOut, TakenDown, false_and, or_self, not_false_iff, true_and, false_or]
      exact iff_of_eq (congrArg (LinkState.has · l) hs.links)
  | main => exact hdrops rfl fun _ => id
  | dead => exact hdrops rfl fun _ => id
  | portStatus => exact hdrops rfl fun _ => id
  | lldpLoop => exact hdrops rfl fun _ => id
  | linkLoop => exact hdrops rfl fun _ => id

/-! ## Ports that are gone -/

/-- The application, and of each port if the last thing told of it is that it is gone. -/
structure Watched where
  app : Switches
  gone : PortId → Prop

def Watched.init : Watched := ⟨Switches.init, fun _ => False⟩

def watch (w : Watched) (e : Event) : Watched where
  app := w.app.step e
  gone q := w.app.Closes e q ∨ w.gone q ∧ ¬Opens e q

/-- The table and the index hold the same links, the notices of a link come by turns and say
what is so, and no link has an end at a port that is gone. -/
structure LinksSound (w : Watched) : Prop where
  agrees : w.app.links.Agrees
  announced : ∀ l, Announces (w.app.news l) (w.app.links.has l)
  noneGone : ∀ l, w.app.links.has l → ¬w.gone l.src ∧ ¬w.gone l.dst

/-- A port that goes is known to link discovery if a link ends at it, and each link that leads
to it is known in the other direction; no link is recorded at a port that is gone. -/
structure Clears (w : Watched) (e : Event) : Prop where
  src : ∀ l, w.app.links.has l → w.app.Closes e l.src → w.app.TakenDown e l.src
  dst : ∀ l, w.app.links.has l → w.app.Closes e l.dst →
    w.app.TakenDown e l.dst ∧ w.app.links.has l.rev
  record : ∀ l, w.app.Adds e l → ¬w.gone l.src ∧ ¬w.gone l.dst

theorem closes_dpid (h : s.Closes e q) (h' : s.Closes e q') : q.dpid = q'.dpid := by
  cases e with
  | portStatus dp reason desc =>
    cases reason with
    | add => exact h.elim
    | delete => exact congrArg PortId.dpid (h.trans h'.symm)
    | modify => exact congrArg PortId.dpid (h.1.trans h'.1.symm)
  | dead dp =>
    cases dp with
    | none => exact h.elim
    | some dp => exact h.2.trans h'.2.symm
  | main | packetIn | lldpLoop | linkLoop => exact h.elim

theorem closes_of_takenDown (h : s.TakenDown e q) : s.Closes e q := by
  cases e with
  | portStatus dp reason desc =>
    cases reason with
    | add => exact h.elim
    | delete => exact h.1
    | modify => exact ⟨h.1, h.2.1⟩
  | dead dp =>
    cases dp with
    | none => exact h.elim
    | some dp =>
      obtain ⟨hd, ports, hg, hq⟩ := h
      obtain ⟨ports', hg', -, -, hids⟩ := Registry.getSwitch_ids hd
      obtain rfl : ports' = ports := (Prod.mk.inj (Option.some.inj (hg'.symm.trans hg))).2
      exact ⟨hd, ((hids q).mp ((List.takeWhile_sublist _).subset hq)).1⟩
  | main | packetIn | lldpLoop | linkLoop => exact h.elim

/-- A link at a port that is closed goes for that port alone. -/
theorem takesOut_iff_of_closes (hc : s.Closes e q) (l : Link) :
    s.TakesOut e l ↔ s.TakenDown e l.src ∨ s.TakenDown e l.dst ∧ s.links.has l.rev := by
  cases e with
  | linkLoop => exact hc.elim
  | _ => exact Iff.rfl

theorem closes_opens_of_adds {l : Link} (h : s.Adds e l) (q : PortId) :
    ¬s.Closes e q ∧ ¬Opens e q := by
  cases e with
  | packetIn dpid inPort data now => exact ⟨id, id⟩
  | main | dead | portStatus | lldpLoop | linkLoop => exact h.elim

/-- No link ends at a port that is gone exactly as long as every step sees to it. -/
theorem links_run (evs : List Event) :
    Throughout watch LinksSound Watched.init evs ↔ EveryStep watch Clears Watched.init evs := by
  apply throughout_iff_everyStep (I := fun w => w.app.Told)
  · exact fun w e h => (h.step e).1
  · intro w e ht hw
    obtain ⟨ht', hl⟩ := ht.step e
    constructor
    · intro h
      refine ⟨fun l hk hc => ?_, fun l hk hc => ?_, fun l ha => ?_⟩
      · by_contra hn
        refine (h.noneGone l ((hl l).mpr (.inr ⟨fun ho => ?_, hk⟩))).1 (.inl hc)
        rcases (takesOut_iff_of_closes hc l).mp ho with ho | ⟨ho, -⟩
        · exact hn ho
        · exact ht.sound.apart l hk (closes_dpid hc (closes_of_takenDown ho))
      · by_contra hn
        refine (h.noneGone l ((hl l).mpr (.inr ⟨fun ho => ?_, hk⟩))).2 (.inl hc)
        rcases (takesOut_iff_of_closes hc l).mp ho with ho | ho
        · exact ht.sound.apart l hk (closes_dpid (closes_of_takenDown ho) hc)
        · exact hn ho
      · obtain ⟨h1, h2⟩ := h.noneGone l ((hl l).mpr (.inl ha))
        have hco := closes_opens_of_adds ha
        exact ⟨fun hg => h1 (.inr ⟨hg, (hco _).2⟩), fun hg => h2 (.inr ⟨hg, (hco _).2⟩)⟩
    · intro hc
      refine ⟨ht'.sound.links.agrees, ht'.announced, fun l hl' => ?_⟩
      rcases (hl l).mp hl' with ha | ⟨hn, hk⟩
      · have hco := closes_opens_of_adds ha
        obtain ⟨h1, h2⟩ := hc.record l ha
        exact ⟨fun hg => hg.elim (hco _).1 fun hg => h1 hg.1,
          fun hg => hg.elim (hco _).1 fun hg => h2 hg.1⟩
      · obtain ⟨h1, h2⟩ := hw.noneGone l hk
        refine ⟨?_, ?_⟩
        · rintro (hcl | ⟨hg, -⟩)
          · exact hn ((takesOut_iff_of_closes hcl l).mpr (.inl (hc.src l hk hcl)))
          · exact h1 hg
        · rintro (hcl | ⟨hg, -⟩)
          · exact hn ((takesOut_iff_of_closes hcl l).mpr (.inr (hc.dst l hk hcl)))
          · exact h2 hg
  · exact told_init
  · refine ⟨told_init.sound.links.agrees, told_init.announced, fun l hl => ⟨id, id⟩⟩

/-- A link that is known one way only, and whose far port is deleted. -/
def oneWay : List Event :=
  [.main ⟨1, 1, 4⟩ [⟨1, 0, 0⟩], .main ⟨2, 2, 4⟩ [⟨1, 0, 0⟩], .packetIn 2 1 (.lldp 1 1) 0,
    .portStatus ⟨2, 2, 4⟩ .delete ⟨1, 0, 0⟩]

/-- The link stays in the table when the port it leads to is deleted. -/
theorem oneWay_stays : ¬Throughout watch LinksSound Watched.init oneWay := by
  intro h
  have hlast := h.last.noneGone ⟨⟨1, 1⟩, ⟨2, 1⟩⟩ (by decide)
  exact hlast.2 (.inl rfl)

end Switches

end Ryu.Topology
