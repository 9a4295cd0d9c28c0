import Ryu.Topology.Switches

/-! # What the handlers do to ports and links

Every handler takes ports and links in and out of tables that agree, and sends one notice of
each link it takes out. What holds of a single action holds of the loops over ports and links.
-/

namespace Ryu.Topology

/-- What a notice says of a link: that it is there, or that it is not. -/
def Notice.news (link : Link) : Notice → Option Bool
  | .linkAdd l => if l = link then some true else none
  | .linkDelete l => if l = link then some false else none
  | _ => none

namespace Switches

open Outcome

/-- What the notices sent say of a link. -/
def news (s : Switches) (link : Link) : List Bool := s.sent.filterMap (Notice.news link)

/-- The tables of ports and links are well formed, and links are between switches. -/
structure Sound (s : Switches) : Prop where
  ports : s.ports.WellFormed
  links : s.links.WellFormed
  apart : ∀ l, s.links.has l → l.src.dpid ≠ l.dst.dpid

/-- The registry and the ports become these, and links go, each with a notice. -/
structure Drops (s s' : Switches) (r : Registry) (P : PortId → Prop) (gone : Link → Prop) :
    Prop where
  registry : s'.registry = r
  hosts : s'.hosts = s.hosts
  sound : s'.Sound
  ports : ∀ q, s'.ports.has q ↔ P q
  links : ∀ l, s'.links.has l ↔ ¬gone l ∧ s.links.has l
  told : ∀ l, gone l → s.links.has l → s'.news l = s.news l ++ [false]
  silent : ∀ l, ¬(gone l ∧ s.links.has l) → s'.news l = s.news l

variable {s s' s'' : Switches} {r r' : Registry} {P Q : PortId → Prop} {gone gone' : Link → Prop} {l : Link}
  {n : Notice} {port : Port} {q : PortId}

@[simp] theorem registry_send : (s.send n).registry = s.registry := rfl

@[simp] theorem ports_send : (s.send n).ports = s.ports := rfl

@[simp] theorem links_send : (s.send n).links = s.links := rfl

@[simp] theorem registry_withPorts {ports : PortDataState} :
    (s.withPorts ports).registry = s.registry := rfl

@[simp] theorem links_withPorts {ports : PortDataState} :
    (s.withPorts ports).links = s.links := rfl

theorem news_send : (s.send n).news l = s.news l ++ (n.news l).toList := by
  rw [news, send, List.filterMap_append]
  cases h : n.news l <;> simp [h, news]

theorem Drops.congr (h : Drops s s' r P gone) (hP : ∀ q, P q ↔ Q q)
    (hg : ∀ l, s.links.has l → (gone l ↔ gone' l)) : Drops s s' r Q gone' where
  registry := h.registry
  hosts := h.hosts
  sound := h.sound
  ports q := (h.ports q).trans (hP q)
  links l := (h.links l).trans (and_congr_left fun hl => not_congr (hg l hl))
  told l hg' hl := h.told l ((hg l hl).mpr hg') hl
  silent l hn := h.silent l fun hc => hn ⟨(hg l hc.2).mp hc.1, hc.2⟩

/-- Nothing but the order of the ports changes. -/
theorem Sound.drops_withPorts (h : s.Sound) {ports : PortDataState} (hw : ports.WellFormed)
    (hP : ∀ q, ports.has q ↔ P q) : Drops s (s.withPorts ports) s.registry P fun _ => False where
  registry := rfl
  hosts := rfl
  sound := ⟨hw, h.links, h.apart⟩
  ports := hP
  links _ := (and_iff_right not_false).symm
  told _ hg := hg.elim
  silent _ _ := rfl

/-- The registry changes and an event that tells nothing of links is sent. -/
theorem Sound.drops_registry (h : s.Sound) (r : Registry) (closed : List Datapath)
    (hn : ∀ l, n.news l = none) :
    Drops s (send { s with registry := r, closed := closed } n) r s.ports.has fun _ => False where
  registry := rfl
  hosts := rfl
  sound := ⟨h.ports, h.links, h.apart⟩
  ports _ := Iff.rfl
  links _ := (and_iff_right not_false).symm
  told _ hg := hg.elim
  silent l _ := by
    rw [news_send, hn, Option.toList_none, List.append_nil]
    rfl

theorem Drops.withRegistry (h : Drops s s' r P gone) (r' : Registry) :
    Drops s { s' with registry := r' } r' P gone :=
  ⟨rfl, h.hosts, ⟨h.sound.ports, h.sound.links, h.sound.apart⟩, h.ports, h.links, h.told, h.silent⟩

theorem Drops.trans (h : Drops s s' r P gone) (h' : Drops s' s'' r' Q gone') :
    Drops s s'' r' Q fun l => gone l ∨ gone' l where
  registry := h'.registry
  hosts := h'.hosts.trans h.hosts
  sound := h'.sound
  ports := h'.ports
  links l := by
    rw [h'.links, h.links]
    tauto
  told l hg hl := by
    by_cases hgl : gone l
    · rw [h'.silent l fun hc => ((h.links l).mp hc.2).1 hgl, h.told l hgl hl]
    · have hl' : s'.links.has l := (h.links l).mpr ⟨hgl, hl⟩
      rw [h'.told l (hg.resolve_left hgl) hl', h.silent l fun hc => hgl hc.1]
  silent l hn := by
    have h1 : ¬(gone l ∧ s.links.has l) := fun hc => hn ⟨.inl hc.1, hc.2⟩
    have h2 : ¬(gone' l ∧ s'.links.has l) := fun hc => hn ⟨.inr hc.1, ((h.links l).mp hc.2).2⟩
    rw [h'.silent l h2, h.silent l h1]

/-! ## Links of a port that is gone -/

/-- A notice of each link of a list without repetitions. -/
theorem filterMap_news {links : List Link} (hn : links.Nodup) (l : Link) :
    (links.map Notice.linkDelete).filterMap (Notice.news l) =
      if l ∈ links then [false] else [] := by
  induction links with
  | nil => rfl
  | cons x links ih =>
    obtain ⟨hx, hn⟩ := List.nodup_cons.mp hn
    rw [List.map_cons, List.filterMap_cons, ih hn]
    by_cases he : x = l
    · subst he
      simp [Notice.news, hx]
    · simp [Notice.news, he, Ne.symm he]

theorem Sound.moveFront (h : s.Sound) (q : PortId) :
    ∃ ports, (s.ports.moveFront q).lift s.withPorts = (s.withPorts ports, none) ∧
      ports.WellFormed ∧ ∀ p, ports.has p ↔ s.ports.has p := by
  have hm := h.ports.moveFront q
  refine ⟨(s.ports.moveFront q).1, ?_, hm.wellFormed, hm.has_iff⟩
  rw [hm.eq]
  rfl

theorem forEach_revLinkDown (h : s.ports.WellFormed) (q : PortId) (revs : List PortId) :
    ∃ ports, forEach (revLinkDown q) s revs =
        ({ s with ports := ports, sent := s.sent ++ revs.map fun d => .linkDelete ⟨d, q⟩ }, none) ∧
      ports.WellFormed ∧ ∀ p, ports.has p ↔ s.ports.has p := by
  induction revs generalizing s with
  | nil => exact ⟨s.ports, by simp [forEach], h, fun _ => Iff.rfl⟩
  | cons d revs ih =>
    have hm := h.moveFront d
    obtain ⟨ports, hs, hw, hp⟩ :=
      ih (s := (s.send (.linkDelete ⟨d, q⟩)).withPorts (s.ports.moveFront d).1) hm.wellFormed
    refine ⟨ports, ?_, hw, fun p => (hp p).trans (hm.has_iff p)⟩
    have hr : revLinkDown q s d =
        ((s.send (.linkDelete ⟨d, q⟩)).withPorts (s.ports.moveFront d).1, none) := by
      change lift (s.ports.moveFront d) (s.send (.linkDelete ⟨d, q⟩)).withPorts = _
      rw [hm.eq]
      rfl
    rw [forEach, hr, andThen_none, hs]
    simp [send, withPorts]

/-- The links that leave a port go, and those that come in and have a reverse. -/
theorem Sound.linkDown (h : s.Sound) (q : PortId) :
    ∃ s', s.linkDown q = (s', none) ∧
      Drops s s' s.registry s.ports.has fun l => l.src = q ∨ l.dst = q ∧ s.links.has l.rev := by
  obtain ⟨links, dsts, revs, hs, hw, hdn, hd, hrn, hr, hl⟩ := h.links.portDeleted q
  obtain ⟨ports, hf, hpw, hp⟩ := forEach_revLinkDown h.ports q revs (s := { s with
    links := links, sent := s.sent ++ dsts.map fun dst => .linkDelete ⟨q, dst⟩ })
  have hdown : s.linkDown q = forEach (revLinkDown q) { s with
      links := links, sent := s.sent ++ dsts.map fun dst => .linkDelete ⟨q, dst⟩ } revs := by
    rw [Switches.linkDown, hs]
  -- the links of which a notice is sent
  let out : List Link := dsts.map (Link.mk q) ++ revs.map fun d => ⟨d, q⟩
  have hmem (l : Link) : l ∈ out ↔ (l.src = q ∨ l.dst = q ∧ s.links.has l.rev) ∧ s.links.has l := by
    obtain ⟨a, b⟩ := l
    simp only [out, List.mem_append, List.mem_map, Link.mk.injEq, hd, hr, Link.rev]
    constructor
    · rintro (⟨d, hd, rfl, rfl⟩ | ⟨d, ⟨hd, hd'⟩, rfl, rfl⟩)
      · exact ⟨.inl rfl, hd⟩
      · exact ⟨.inr ⟨rfl, hd⟩, hd'⟩
    · rintro ⟨rfl | ⟨rfl, hv⟩, hk⟩
      · exact .inl ⟨b, hk, rfl, rfl⟩
      · exact .inr ⟨a, ⟨hv, hk⟩, rfl, rfl⟩
  have hout : out.Nodup := by
    refine List.nodup_append.mpr ⟨hdn.map fun a b he => (Link.mk.inj he).2,
      hrn.map fun a b he => (Link.mk.inj he).1, fun a ha b hb he => ?_⟩
    obtain ⟨d, hd', rfl⟩ := List.mem_map.mp ha
    obtain ⟨e, -, rfl⟩ := List.mem_map.mp hb
    exact h.links.noLoop _ ((hd d).mp hd') (congrArg Link.dst he).symm
  have hnews (l : Link) : (s.sent ++ (dsts.map fun dst => Notice.linkDelete ⟨q, dst⟩) ++
      revs.map fun d => Notice.linkDelete ⟨d, q⟩).filterMap (Notice.news l) =
        s.news l ++ if l ∈ out then [false] else [] := by
    rw [← filterMap_news hout, List.append_assoc, List.filterMap_append, news]
    simp only [out, List.map_append, List.map_map]
    rfl
  refine ⟨_, hdown.trans hf, rfl, rfl, ⟨hpw, hw, fun l hl' => ?_⟩, hp, hl, fun l hg hk => ?_,
    fun l hn => ?_⟩
  · exact h.apart l ((hl l).mp hl').2
  · refine (hnews l).trans ?_
    rw [if_pos ((hmem l).mpr ⟨hg, hk⟩)]
  · refine (hnews l).trans ?_
    rw [if_neg fun hc => hn ((hmem l).mp hc), List.append_nil]

/-! ## Ports that come and go -/

theorem Sound.portAdded (h : s.Sound) (port : Port) :
    ∃ s', s.portAdded port = (s', none) ∧
      Drops s s' s.registry (fun q => q = port.id ∨ s.ports.has q) fun _ => False := by
  have hp := h.ports.addPort port.id port.desc.isDown
  refine ⟨s.withPorts (s.ports.addPort port.id port.desc.isDown).1, ?_,
    h.drops_withPorts hp.wellFormed hp.has_iff⟩
  rw [Switches.portAdded, hp.eq]
  rfl

theorem Sound.portGone (h : s.Sound) (hp : s.ports.has port.id) :
    ∃ s', s.portGone port = (s', none) ∧ Drops s s' s.registry (fun q => q ≠ port.id ∧ s.ports.has q)
      fun l => l.src = port.id ∨ l.dst = port.id ∧ s.links.has l.rev := by
  have hd := h.ports.delPort port.id
  have h1 := h.drops_withPorts hd.wellFormed hd.has_iff
  obtain ⟨s', hs, h2⟩ := h1.sound.linkDown port.id
  refine ⟨s', ?_, (h1.trans h2).congr (fun q => ?_) fun l hl => ?_⟩
  · have hr : s.ports.delPort port.id = ((s.ports.delPort port.id).1, none) :=
      Prod.ext rfl (hd.ok_iff.mpr hp)
    rw [Switches.portGone, hr, lift_none, andThen_none]
    exact hs
  · exact hd.has_iff q
  · exact false_or _ ▸ Iff.rfl

theorem portGone_error (hp : ¬s.ports.has port.id) :
    s.portGone port = (s, some (.keyError "port")) := by
  have hd : s.ports.delPort port.id = (s.ports, some (.keyError "port")) := if_neg hp
  rw [portGone, hd]
  rfl

theorem forPorts_eq {f : Switches → Port → Outcome Switches} {ports : List Port}
    (h : ∀ p ∈ ports, p.isReserved = false) (s : Switches) :
    forPorts f s ports = forEach f s ports :=
  forEach_congr (fun s p hp => by rw [h p hp]; rfl) s

theorem Sound.forEach_portAdded (h : s.Sound) (ports : List Port) :
    ∃ s', forEach Switches.portAdded s ports = (s', none) ∧
      Drops s s' s.registry (fun q => q ∈ ports.map Port.id ∨ s.ports.has q) fun _ => False := by
  induction ports generalizing s with
  | nil => exact ⟨s, rfl, (h.drops_withPorts h.ports fun q => by simp)⟩
  | cons port ports ih =>
    obtain ⟨s₁, hs₁, h1⟩ := h.portAdded port
    obtain ⟨s₂, hs₂, h2⟩ := ih h1.sound
    refine ⟨s₂, by rw [forEach, hs₁, andThen_none, hs₂], ?_⟩
    rw [h1.registry] at h2
    refine (h1.trans h2).congr (fun q => ?_) fun l hl => or_self_iff
    rw [h1.ports, List.map_cons, List.mem_cons]
    tauto

/-- The ports of a loop that go: those up to one that is not known. -/
def taken (s : Switches) (ports : List Port) : List PortId :=
  (ports.map Port.id).takeWhile fun q => decide (s.ports.has q)

theorem takeWhile_congr {α : Type*} {p q : α → Bool} {l : List α} (h : ∀ a ∈ l, p a = q a) :
    l.takeWhile p = l.takeWhile q := by
  induction l with
  | nil => rfl
  | cons a l ih =>
    rw [List.takeWhile_cons, List.takeWhile_cons, h a List.mem_cons_self,
      ih fun b hb => h b (List.mem_cons_of_mem a hb)]

theorem Sound.forEach_portGone (h : s.Sound) {ports : List Port}
    (hn : (ports.map Port.id).Nodup) :
    ((forEach Switches.portGone s ports).2 = none ↔ ∀ p ∈ ports, s.ports.has p.id) ∧
      Drops s (forEach Switches.portGone s ports).1 s.registry
        (fun q => q ∉ s.taken ports ∧ s.ports.has q)
        fun l => l.src ∈ s.taken ports ∨ l.dst ∈ s.taken ports ∧ s.links.has l.rev := by
  induction ports generalizing s with
  | nil => exact ⟨by simp [forEach], h.drops_withPorts h.ports (by simp [taken]) |>.congr
      (fun _ => Iff.rfl) (by simp [taken])⟩
  | cons port ports ih =>
    rw [List.map_cons] at hn
    obtain ⟨hp, hn⟩ := List.nodup_cons.mp hn
    rw [forEach]
    by_cases hh : s.ports.has port.id
    · obtain ⟨s₁, hs₁, h1⟩ := h.portGone hh
      obtain ⟨ho, h2⟩ := ih h1.sound hn
      have hsame (q : PortId) (hq : q ∈ ports.map Port.id) : s₁.ports.has q ↔ s.ports.has q := by
        refine (h1.ports q).trans (and_iff_right ?_)
        rintro rfl
        exact hp hq
      have htaken : s.taken (port :: ports) = port.id :: s₁.taken ports := by
        rw [taken, List.map_cons, List.takeWhile_cons_of_pos (by simpa using hh), taken]
        congr 1
        exact takeWhile_congr fun q hq => by simp only [hsame q hq]
      have hnot : port.id ∉ s₁.taken ports :=
        fun hc => hp ((List.takeWhile_sublist _).subset hc)
      rw [hs₁, andThen_none, htaken]
      rw [h1.registry] at h2
      refine ⟨ho.trans ?_, (h1.trans h2).congr (fun q => ?_) fun l hl => ?_⟩
      · rw [List.forall_mem_cons, and_iff_right hh]
        exact forall₂_congr fun p hp => hsame p.id (List.mem_map_of_mem hp)
      · rw [h1.ports, List.mem_cons]
        tauto
      · have hrev := h1.links l.rev
        simp only [Link.rev, List.mem_cons] at hrev ⊢
        grind
    · have htaken : s.taken (port :: ports) = [] :=
        List.takeWhile_cons_of_neg (by simpa using hh)
      rw [portGone_error hh, andThen_some, htaken]
      refine ⟨iff_of_false (fun hc => by cases hc) fun hc => hh (hc port List.mem_cons_self), ?_⟩
      exact h.drops_withPorts h.ports (by simp) |>.congr (fun _ => Iff.rfl) (by simp)

/-! ## Links that time out -/

theorem Sound.expire (h : s.Sound) (hl : s.links.has l) (now : ℚ) (deleted : List Link) :
    ∃ s', Switches.expire now deleted s l = (s', none) ∧
      Drops s s' s.registry s.ports.has (· = l) := by
  obtain ⟨links, hs, hw, hh⟩ := h.links.linkDown hl
  -- the link goes, with its notice
  have h1 : Drops s (send { s with links := links } (.linkDelete l)) s.registry s.ports.has
      (· = l) := by
    refine ⟨rfl, rfl, ⟨h.ports, hw, fun k hk => h.apart k ((hh k).mp hk).2⟩, fun _ => Iff.rfl, hh,
      fun k hk _ => ?_, fun k hk => ?_⟩
    · rw [news_send, hk]
      simp [Notice.news, news]
    · have hne : l ≠ k := by
        rintro rfl
        exact hk ⟨rfl, hl⟩
      rw [news_send]
      simp [Notice.news, news, hne]
  rw [Switches.expire, hs, lift_none, andThen_none]
  dsimp only
  split
  · exact ⟨_, rfl, h1⟩
  · -- the reverse link is made to expire, and the far port to be probed
    have h2 : Drops s { send { s with links := links } (.linkDelete l) with
        links := links.revLinkSetTimestamp l.rev (now - linkTimeout) } s.registry s.ports.has
        (· = l) :=
      ⟨rfl, rfl, ⟨h.ports, hw.revLinkSetTimestamp _ _, fun k hk =>
        h1.sound.apart k (LinkState.has_revLinkSetTimestamp.mp hk)⟩, fun _ => Iff.rfl,
        fun k => LinkState.has_revLinkSetTimestamp.trans (h1.links k), h1.told, h1.silent⟩
    split
    · obtain ⟨ports, hm, hpw, hp⟩ := h2.sound.moveFront l.dst
      refine ⟨_, hm, (h2.trans (h2.sound.drops_withPorts hpw hp)).congr (fun _ => Iff.rfl) ?_⟩
      exact fun k hk => or_false _ ▸ Iff.rfl
    · exact ⟨_, rfl, h2⟩

theorem Sound.forEach_expire (h : s.Sound) {links : List Link} (hn : links.Nodup)
    (hl : ∀ l ∈ links, s.links.has l) (now : ℚ) (deleted : List Link) :
    ∃ s', forEach (Switches.expire now deleted) s links = (s', none) ∧
      Drops s s' s.registry s.ports.has (· ∈ links) := by
  induction links generalizing s with
  | nil => exact ⟨s, rfl, (h.drops_withPorts h.ports fun _ => Iff.rfl).congr (fun _ => Iff.rfl)
      (by simp)⟩
  | cons l links ih =>
    obtain ⟨hx, hn⟩ := List.nodup_cons.mp hn
    obtain ⟨s₁, hs₁, h1⟩ := h.expire (hl l List.mem_cons_self) now deleted
    have hl₁ : ∀ k ∈ links, s₁.links.has k := by
      intro k hk
      refine (h1.links k).mpr ⟨?_, hl k (List.mem_cons_of_mem l hk)⟩
      rintro rfl
      exact hx hk
    obtain ⟨s₂, hs₂, h2⟩ := ih h1.sound hn hl₁
    refine ⟨s₂, by rw [forEach, hs₁, andThen_none, hs₂], ?_⟩
    rw [h1.registry] at h2
    exact (h1.trans h2).congr h1.ports fun k hk => List.mem_cons.symm

/-- The links that are not seen for too long. -/
def timedOut (s : Switches) (now : ℚ) (l : Link) : Prop :=
  ∃ t, s.links.times.get? l = some t ∧ t + linkTimeout < now

theorem Sound.linkLoop (h : s.Sound) (now : ℚ) :
    ∃ s', s.linkLoop now = (s', none) ∧
      Drops s s' s.registry s.ports.has (s.timedOut now) := by
  have hm (l : Link) : l ∈ (s.links.times.entries.filter fun e =>
      e.2 + linkTimeout < now).map Prod.fst ↔ s.timedOut now l := by
    rw [List.mem_map]
    constructor
    · rintro ⟨⟨k, t⟩, he, rfl⟩
      obtain ⟨he, ht⟩ := List.mem_filter.mp he
      exact ⟨t, Dict.mem_entries_iff.mp he, by simpa using ht⟩
    · rintro ⟨t, he, ht⟩
      exact ⟨(l, t), List.mem_filter.mpr ⟨Dict.mem_entries_iff.mpr he, by simpa using ht⟩, rfl⟩
  have hn : ((s.links.times.entries.filter fun e =>
      e.2 + linkTimeout < now).map Prod.fst).Nodup :=
    s.links.times.nodup_keys.sublist (List.filter_sublist.map _)
  obtain ⟨s', hs, hd⟩ := h.forEach_expire hn (fun l hl => by
    obtain ⟨t, ht, -⟩ := (hm l).mp hl
    simp [LinkState.has, ht]) now _
  exact ⟨s', hs, hd.congr (fun _ => Iff.rfl) fun l _ => hm l⟩

/-! ## The handlers -/

/-- The first connection of a datapath id: its ports are added. -/
theorem Sound.mainDispatcher_none (h : s.Sound) {dp : Datapath} (ports : List OFPPort)
    (hd : s.registry.dps.get? dp.id = none) :
    ∃ s', s.mainDispatcher dp ports = (s', none) ∧
      Drops s s' (s.registry.register dp ports)
        (fun q => q.dpid = dp.id ∧ (s.registry.register dp ports).NonReserved q ∨ s.ports.has q)
        fun _ => False := by
  obtain ⟨l, hg, hn, hr, hids⟩ :=
    Registry.getSwitch_ids (r := s.registry.register dp ports)
      (Dict.get?_set_self s.registry.dps dp.id dp)
  have h1 := h.drops_registry (s.registry.register dp ports) s.closed
    (n := .switchEnter dp.id) fun _ => rfl
  obtain ⟨s', hs, h2⟩ := h1.sound.forEach_portAdded l
  refine ⟨s', ?_, (h1.trans h2).congr (fun q => ?_) fun _ _ => or_self_iff⟩
  · rw [mainDispatcher, hd]
    dsimp only
    rw [hg, Option.elim_some, forPorts_eq hr]
    exact hs
  · exact or_congr_left (hids q)

/-- A further connection of a datapath id. -/
theorem Sound.mainDispatcher_some (h : s.Sound) {dp old : Datapath} (ports : List OFPPort)
    (hd : s.registry.dps.get? dp.id = some old) :
    ∃ s', s.mainDispatcher dp ports = (s', none) ∧
      Drops s s' (s.registry.register dp ports) s.ports.has fun _ => False := by
  refine ⟨_, by rw [mainDispatcher, hd], ?_⟩
  exact h.drops_registry (s.registry.register dp ports) (s.closed ++ [old])
    (n := .switchReconnected dp.id) fun _ => rfl

/-- The end of the connection that is registered. -/
theorem Sound.deadDispatcher (h : s.Sound) {dp : Datapath}
    (hd : s.registry.dps.get? dp.id = some dp) :
    ∃ ports, s.registry.getSwitch dp.id = some (dp, ports) ∧
      (∀ q, q ∈ ports.map Port.id ↔ q.dpid = dp.id ∧ s.registry.NonReserved q) ∧
      ((s.deadDispatcher dp).2 = none ↔ ∀ p ∈ ports, s.ports.has p.id) ∧
      Drops s (s.deadDispatcher dp).1 (s.registry.unregister dp)
        (fun q => q ∉ s.taken ports ∧ s.ports.has q)
        fun l => l.src ∈ s.taken ports ∨ l.dst ∈ s.taken ports ∧ s.links.has l.rev := by
  obtain ⟨ports, hg, hn, hr, hids⟩ := Registry.getSwitch_ids hd
  have h1 := h.drops_registry (s.registry.unregister dp) s.closed
    (n := .switchLeave dp.id) fun _ => rfl
  obtain ⟨ho, h2⟩ := h1.sound.forEach_portGone hn
  have he : s.deadDispatcher dp = forEach Switches.portGone (send { s with
      registry := s.registry.unregister dp } (.switchLeave dp.id)) ports := by
    rw [Switches.deadDispatcher, hg]
    exact (if_pos rfl).trans (forPorts_eq hr _)
  rw [he]
  exact ⟨ports, hg, hids, ho, (h1.trans h2).congr (fun q => Iff.rfl) fun l hl => or_iff_right id⟩

/-- The end of a connection that is not registered, or no more. -/
theorem deadDispatcher_of_ne {dp : Datapath} (hd : s.registry.dps.get? dp.id ≠ some dp) :
    s.deadDispatcher dp = (s, none) := by
  rw [deadDispatcher]
  split
  · rfl
  · next switch hg =>
    refine if_neg fun he => hd ?_
    cases hr : s.registry.dps.get? dp.id with
    | none =>
      rw [Registry.getSwitch_eq_none hr] at hg
      cases hg
    | some dp' =>
      obtain ⟨l, hg', -⟩ := Registry.getSwitch_ids hr
      rw [← he, ← Option.some.inj (hg'.symm.trans hg)]

section PortStatus

variable {dp reg : Datapath}

/-- A port of a registered switch is added. -/
theorem Sound.portStatus_add (h : s.Sound) (hd : s.registry.dps.get? dp.id = some reg)
    (desc : OFPPort) :
    ∃ s' r', s.portStatusHandler dp .add desc = (s', none) ∧
      s.registry.addPort dp.id desc = .ok r' ∧
      Drops s s' r'
        (fun q => q = ⟨dp.id, desc.portNo⟩ ∧ desc.portNo ≤ ofppMax reg.version ∨ s.ports.has q)
        fun _ => False := by
  obtain ⟨r', ha, -, -, hg⟩ := Registry.addPort_spec hd desc
  have h1 := h.drops_registry r' s.closed (n := .portAdd ⟨dp.id, desc.portNo⟩) fun _ => rfl
  by_cases hm : desc.portNo ≤ ofppMax reg.version
  · rw [if_pos hm] at hg
    have hr := Registry.isReserved_of_getPort hg
    obtain ⟨s', hs, h2⟩ := h1.sound.portAdded ⟨dp.id, reg.version, desc⟩
    refine ⟨s', r', ?_, ha, (h1.trans h2).congr (fun q => ?_) fun _ _ => or_self_iff⟩
    · simp only [portStatusHandler, ha, registry_send, hg, hr]
      exact hs
    · exact or_congr_left (and_iff_left hm).symm
  · rw [if_neg hm] at hg
    refine ⟨_, r', ?_, ha, h1.congr (fun q => ?_) fun _ _ => Iff.rfl⟩
    · simp only [portStatusHandler, ha, registry_send, hg]
    · simp [hm]

/-- A port is set down or up, and its links go down with it. -/
theorem Sound.setDown (h : s.Sound) (q : PortId) (down : Bool) {r : Outcome Switches}
    (hr : ((s.ports.setDown q down).lift s.withPorts).andThen
      (fun s => if down then s.linkDown q else (s, none)) = r) :
    (r.2 = none ↔ s.ports.has q) ∧ Drops s r.1 s.registry s.ports.has fun l =>
      (down ∧ s.ports.has q) ∧ (l.src = q ∨ l.dst = q ∧ s.links.has l.rev) := by
  have hsd := h.ports.setDown q down
  have h1 := h.drops_withPorts hsd.wellFormed hsd.has_iff
  subst hr
  by_cases hp : s.ports.has q
  · have hok : s.ports.setDown q down = ((s.ports.setDown q down).1, none) :=
      Prod.ext rfl (hsd.ok_iff.mpr hp)
    rw [hok, lift_none, andThen_none]
    cases down with
    | true =>
      obtain ⟨s', hs, h2⟩ := h1.sound.linkDown q
      rw [if_pos rfl, hs]
      refine ⟨iff_of_true rfl hp, (h1.trans h2).congr hsd.has_iff fun l hl => ?_⟩
      exact (iff_of_eq (false_or _)).trans (and_iff_right ⟨rfl, hp⟩).symm
    | false => exact ⟨iff_of_true rfl hp, h1.congr (fun _ => Iff.rfl) (by simp)⟩
  · obtain ⟨e, he⟩ := Option.ne_none_iff_exists'.mp (mt hsd.ok_iff.mp hp)
    have herr : s.ports.setDown q down = ((s.ports.setDown q down).1, some e) :=
      Prod.ext rfl he
    rw [herr, lift_some, andThen_some]
    exact ⟨iff_of_false (fun hc => by cases hc) hp, h1.congr (fun _ => Iff.rfl) (by simp [hp])⟩

/-- A port of a registered switch is modified. -/
theorem Sound.portStatus_modify (h : s.Sound) (hd : s.registry.dps.get? dp.id = some reg)
    (desc : OFPPort) :
    ∃ r', s.registry.addPort dp.id desc = .ok r' ∧
      ((s.portStatusHandler dp .modify desc).2 = none ↔
        (desc.portNo ≤ ofppMax reg.version → s.ports.has ⟨dp.id, desc.portNo⟩)) ∧
      Drops s (s.portStatusHandler dp .modify desc).1 r' s.ports.has fun l =>
        (desc.isDown ∧ desc.portNo ≤ ofppMax reg.version ∧ s.ports.has ⟨dp.id, desc.portNo⟩) ∧
          (l.src = ⟨dp.id, desc.portNo⟩ ∨ l.dst = ⟨dp.id, desc.portNo⟩ ∧ s.links.has l.rev) := by
  obtain ⟨r', ha, -, -, hg⟩ := Registry.addPort_spec hd desc
  have h1 := h.drops_registry r' s.closed (n := .portModify ⟨dp.id, desc.portNo⟩) fun _ => rfl
  refine ⟨r', ha, ?_⟩
  by_cases hm : desc.portNo ≤ ofppMax reg.version
  · rw [if_pos hm] at hg
    have hr := Registry.isReserved_of_getPort hg
    have he : ((s.ports.setDown ⟨dp.id, desc.portNo⟩ desc.isDown).lift
        (send { s with registry := r' } (.portModify ⟨dp.id, desc.portNo⟩)).withPorts).andThen
          (fun s => if desc.isDown then s.linkDown ⟨dp.id, desc.portNo⟩ else (s, none)) =
        s.portStatusHandler dp .modify desc := by
      simp only [portStatusHandler, ha, registry_send, hg, hr]
      rfl
    obtain ⟨ho, h2⟩ := h1.sound.setDown ⟨dp.id, desc.portNo⟩ desc.isDown he
    refine ⟨ho.trans ⟨fun hq _ => hq, fun hq => hq hm⟩, (h1.trans h2).congr (fun _ => Iff.rfl) ?_⟩
    intro l hl
    rw [false_or, and_iff_right hm]
    rfl
  · rw [if_neg hm] at hg
    have he : s.portStatusHandler dp .modify desc =
        (send { s with registry := r' } (.portModify ⟨dp.id, desc.portNo⟩), none) := by
      simp only [portStatusHandler, ha, registry_send, hg]
    rw [he]
    exact ⟨iff_of_true rfl fun hc => absurd hc hm, h1.congr (fun _ => Iff.rfl) (by simp [hm])⟩

/-- The end of the handler of a deleted port, behind what is done for link discovery. -/
theorem Drops.removePort (h : Drops s s' s.registry P gone) (dpid portNo : ℕ) :
    ∃ r', Drops s (s'.removePort dpid portNo).1 r' P gone ∧
      (r' = s.registry ∧ (s'.removePort dpid portNo).2 ≠ none ∨
        s.registry.removePort dpid portNo = .ok r') ∧
      ((s'.removePort dpid portNo).2 = none ↔ (s.registry.removePort dpid portNo).isOk) := by
  rw [Switches.removePort, h.registry]
  cases hp : s.registry.removePort dpid portNo with
  | error e =>
    have he : (some e : Option PyError) ≠ none := Option.some_ne_none e
    exact ⟨_, h, .inl ⟨rfl, he⟩, iff_of_false he Bool.false_ne_true⟩
  | ok r' => exact ⟨r', h.withRegistry r', .inr rfl, iff_of_true rfl rfl⟩

/-- A port is deleted: if link discovery has it its links go down, and if nothing failed it
leaves `port_state`. -/
theorem Sound.portStatus_delete (h : s.Sound) (dp : Datapath) (desc : OFPPort) :
    ∃ r', Drops s (s.portStatusHandler dp .delete desc).1 r'
        (fun q => ¬(q = ⟨dp.id, desc.portNo⟩ ∧ s.registry.NonReserved q) ∧ s.ports.has q)
        (fun l => (s.registry.NonReserved ⟨dp.id, desc.portNo⟩ ∧
            s.ports.has ⟨dp.id, desc.portNo⟩) ∧
          (l.src = ⟨dp.id, desc.portNo⟩ ∨ l.dst = ⟨dp.id, desc.portNo⟩ ∧ s.links.has l.rev)) ∧
      (r' = s.registry ∧ (s.portStatusHandler dp .delete desc).2 ≠ none ∨
        s.registry.removePort dp.id desc.portNo = .ok r') ∧
      ((s.portStatusHandler dp .delete desc).2 = none ↔
        (s.registry.NonReserved ⟨dp.id, desc.portNo⟩ → s.ports.has ⟨dp.id, desc.portNo⟩) ∧
          (s.registry.removePort dp.id desc.portNo).isOk) := by
  have h1 := h.drops_registry s.registry s.closed (n := .portDelete ⟨dp.id, desc.portNo⟩)
    fun _ => rfl
  cases hg : s.registry.getPort dp.id desc.portNo with
  | none =>
    have hn : ¬s.registry.NonReserved ⟨dp.id, desc.portNo⟩ := by
      rw [← Registry.isSome_getPort, hg]
      exact Bool.false_ne_true
    have he : s.portStatusHandler dp .delete desc =
        (s.send (.portDelete ⟨dp.id, desc.portNo⟩)).removePort dp.id desc.portNo := by
      simp only [portStatusHandler, registry_send, hg, andThen_none]
    rw [he]
    obtain ⟨r', h2, hr, ho⟩ := h1.removePort dp.id desc.portNo
    refine ⟨r', h2.congr (fun q => ?_) (by simp [hn]), hr, ho.trans (by simp [hn])⟩
    refine (and_iff_right ?_).symm
    rintro ⟨rfl, hc⟩
    exact hn hc
  | some port =>
    have hid := Registry.id_of_getPort hg
    have hres := Registry.isReserved_of_getPort hg
    have hn : s.registry.NonReserved ⟨dp.id, desc.portNo⟩ := by
      rw [← Registry.isSome_getPort, hg]
      rfl
    by_cases hp : s.ports.has ⟨dp.id, desc.portNo⟩
    · obtain ⟨s₁, hs₁, h2⟩ := h1.sound.portGone (hid.symm ▸ hp)
      have hgone : (s.send (.portDelete ⟨dp.id, desc.portNo⟩)).portGone port = (s₁, none) := hs₁
      have he : s.portStatusHandler dp .delete desc = s₁.removePort dp.id desc.portNo := by
        simp only [portStatusHandler, registry_send, hg, hres, Bool.false_eq_true, if_false,
          hgone, andThen_none]
      rw [he]
      obtain ⟨r', h3, hr, ho⟩ := (h1.trans h2).removePort dp.id desc.portNo
      refine ⟨r', h3.congr (fun q => ?_) fun l hl => ?_, hr, ho.trans ?_⟩
      · rw [hid]
        refine and_congr_left fun hq => not_congr ⟨fun he => ⟨he, he ▸ hn⟩, And.left⟩
      · rw [hid]
        exact (iff_of_eq (false_or _)).trans (and_iff_right ⟨hn, hp⟩).symm
      · exact (and_iff_right fun _ => hp).symm
    · have he : s.portStatusHandler dp .delete desc =
          (s.send (.portDelete ⟨dp.id, desc.portNo⟩), some (.keyError "port")) := by
        have hgone : (s.send (.portDelete ⟨dp.id, desc.portNo⟩)).portGone port =
            (s.send (.portDelete ⟨dp.id, desc.portNo⟩), some (.keyError "port")) :=
          portGone_error (by rwa [hid])
        simp only [portStatusHandler, registry_send, hg, hres, Bool.false_eq_true, if_false,
          hgone, andThen_some]
      rw [he]
      refine ⟨s.registry, h1.congr (fun q => ?_) (by simp [hp]), .inl ⟨rfl, ?_⟩, ?_⟩
      · refine (and_iff_right_of_imp fun hq => ?_).symm
        rintro ⟨rfl, -⟩
        exact hp hq
      · exact Option.some_ne_none _
      · exact iff_of_false (Option.some_ne_none _) fun hc => hp (hc.1 hn)

end PortStatus

section Lldp

variable {dpid inPort srcDpid srcPortNo : ℕ}

/-- An LLDP packet-in tells of a link between ports that are found, on different switches. -/
def Records (s : Switches) (dpid inPort srcDpid srcPortNo : ℕ) : Prop :=
  srcDpid ≠ dpid ∧ s.registry.NonReserved ⟨srcDpid, srcPortNo⟩ ∧
    s.registry.NonReserved ⟨dpid, inPort⟩

theorem dpid_of_getPort {r : Registry} (h : r.getPort srcDpid srcPortNo = some port) :
    port.dpid = srcDpid :=
  congrArg PortId.dpid (Registry.id_of_getPort h)

/-- An LLDP packet-in that tells of no link. -/
theorem Sound.lldp_of_not_records (h : s.Sound)
    (hn : ¬s.Records dpid inPort srcDpid srcPortNo) (now : ℚ) :
    ∃ s', s.lldpPacketInHandler dpid inPort srcDpid srcPortNo now = (s', none) ∧
      Drops s s' s.registry s.ports.has fun _ => False := by
  have h0 : Drops s s s.registry s.ports.has fun _ => False :=
    h.drops_withPorts h.ports fun _ => Iff.rfl
  cases hsrc : s.registry.getPort srcDpid srcPortNo with
  | none => exact ⟨s, by simp only [lldpPacketInHandler, hsrc], h0⟩
  | some src =>
    by_cases he : src.dpid = dpid
    · exact ⟨s, by simp only [lldpPacketInHandler, hsrc, he, if_true], h0⟩
    · cases hdst : s.registry.getPort dpid inPort with
      | none =>
        have hl := h.ports.lldpReceived src.id
        refine ⟨s.withPorts (s.ports.lldpReceived src.id).1, ?_,
          h.drops_withPorts hl.wellFormed hl.has_iff⟩
        simp only [lldpPacketInHandler, hsrc, he, if_false, registry_withPorts, hdst]
      | some dst =>
        refine absurd ⟨?_, ?_, ?_⟩ hn
        · rwa [← dpid_of_getPort hsrc]
        · rw [← Registry.isSome_getPort, hsrc]
          rfl
        · rw [← Registry.isSome_getPort, hdst]
          rfl

/-- An LLDP packet-in that tells of a link. -/
theorem Sound.lldp_of_records (h : s.Sound) (hr : s.Records dpid inPort srcDpid srcPortNo)
    (hl : l = ⟨⟨srcDpid, srcPortNo⟩, ⟨dpid, inPort⟩⟩) (now : ℚ) :
    ∃ s', s.lldpPacketInHandler dpid inPort srcDpid srcPortNo now = (s', none) ∧
      s'.registry = s.registry ∧ s'.Sound ∧ (∀ q, s'.ports.has q ↔ s.ports.has q) ∧
      (∀ k, s'.links.has k ↔ k = l ∨ s.links.has k) ∧
      (∀ k, s'.news k = s.news k ++ if k = l ∧ ¬s.links.has l then [true] else []) ∧
      s'.hosts = if s.links.has l then s.hosts else s.removeInnerHosts.hosts := by
  obtain ⟨hne, hsrc, hdst⟩ := hr
  obtain ⟨src, hsrc⟩ := Option.isSome_iff_exists.mp (Registry.isSome_getPort.mpr hsrc)
  obtain ⟨dst, hdst⟩ := Option.isSome_iff_exists.mp (Registry.isSome_getPort.mpr hdst)
  have he : ¬src.dpid = dpid := by rwa [dpid_of_getPort hsrc]
  have hrec := h.ports.lldpReceived src.id
  -- the state in which the link is recorded
  obtain ⟨s₁, hs₁, hreg, hports, hlinks, hnews, hhosts⟩ : ∃ s₁ : Switches,
      s₁ = (if s.links.has l then s.withPorts (s.ports.lldpReceived src.id).1
        else ((s.withPorts (s.ports.lldpReceived src.id).1).send (.linkAdd l)).removeInnerHosts) ∧
      s₁.registry = s.registry ∧ s₁.ports = (s.ports.lldpReceived src.id).1 ∧
      s₁.links = s.links ∧
      (∀ k, s₁.news k = s.news k ++ if k = l ∧ ¬s.links.has l then [true] else []) ∧
      s₁.hosts = if s.links.has l then s.hosts else s.removeInnerHosts.hosts := by
    by_cases hk : s.links.has l
    · refine ⟨_, rfl, ?_⟩
      simp only [hk, if_true]
      exact ⟨rfl, rfl, rfl, fun k => by simp [news, withPorts], rfl⟩
    · refine ⟨_, rfl, ?_⟩
      simp only [hk, if_false]
      refine ⟨rfl, rfl, rfl, fun k => ?_, rfl⟩
      refine (news_send (n := .linkAdd l)).trans ?_
      by_cases hkl : k = l
      · subst hkl
        simp [Notice.news, news, withPorts]
      · simp [Notice.news, news, withPorts, hkl, Ne.symm hkl]
  have hids : Link.mk src.id dst.id = l := by
    rw [hl, Registry.id_of_getPort hsrc, Registry.id_of_getPort hdst]
  have hhandler : s.lldpPacketInHandler dpid inPort srcDpid srcPortNo now =
      if (s.links.updateLink src.id dst.id now).2 then
        ({ s₁ with links := (s.links.updateLink src.id dst.id now).1 }, none)
      else (s₁.ports.moveFront dst.id).lift
        (withPorts { s₁ with links := (s.links.updateLink src.id dst.id now).1 }) := by
    simp only [lldpPacketInHandler, hsrc, he, if_false, registry_withPorts, hdst, hids,
      links_withPorts, ← hs₁, hlinks]
  have hapart : ∀ k, (s.links.updateLink src.id dst.id now).1.has k ↔ k = l ∨ s.links.has k := by
    intro k
    rw [LinkState.has_updateLink, hids]
  have hs₂ : Sound { s₁ with links := (s.links.updateLink src.id dst.id now).1 } := by
    have hd : src.id.dpid ≠ dst.id.dpid := by
      rw [Registry.id_of_getPort hsrc, Registry.id_of_getPort hdst]
      exact hne
    refine ⟨hports ▸ hrec.wellFormed, h.links.updateLink fun hc => hd (hc ▸ rfl), fun k hk => ?_⟩
    rcases (hapart k).mp hk with rfl | hk
    · rw [hl]
      exact hne
    · exact h.apart k hk
  rw [hhandler]
  split
  · exact ⟨_, rfl, hreg, hs₂, fun q => by rw [hports]; exact hrec.has_iff q, hapart, hnews, hhosts⟩
  · obtain ⟨ports, hm, hw, hp⟩ := hs₂.moveFront dst.id
    refine ⟨_, hm, hreg, ⟨hw, hs₂.links, hs₂.apart⟩, fun q => (hp q).trans ?_, hapart, hnews,
      hhosts⟩
    rw [hports]
    exact hrec.has_iff q

end Lldp

/-- Sending LLDP packets moves ports about. -/
theorem Sound.sendLldpPacket (h : s.Sound) (q : PortId) (now : ℚ) :
    ∃ s', s.sendLldpPacket q now = (s', none) ∧
      Drops s s' s.registry s.ports.has fun _ => False := by
  have hl := h.ports.lldpSent q now
  exact ⟨_, rfl, h.drops_withPorts hl.wellFormed hl.has_iff⟩

/-- Nothing but the hosts changes. -/
structure SameButHosts (s s' : Switches) : Prop where
  registry : s'.registry = s.registry
  ports : s'.ports = s.ports
  links : s'.links = s.links
  news : ∀ l, s'.news l = s.news l

theorem SameButHosts.trans (h : SameButHosts s s') (h' : SameButHosts s' s'') :
    SameButHosts s s'' where
  registry := h'.registry.trans h.registry
  ports := h'.ports.trans h.ports
  links := h'.links.trans h.links
  news l := (h'.news l).trans (h.news l)

theorem sameButHosts_send {hosts : Dict String Host} (hn : ∀ l, n.news l = none) :
    SameButHosts s (send { s with hosts := hosts } n) := by
  refine ⟨rfl, rfl, rfl, fun l => ?_⟩
  rw [news_send, hn, Option.toList_none, List.append_nil]
  rfl

theorem sameButHosts_updateIp (s : Switches) (mac : String) (f : Host → Host) :
    SameButHosts s (s.updateIp mac f) := by
  unfold updateIp
  split <;> exact ⟨rfl, rfl, rfl, fun _ => rfl⟩

theorem sameButHosts_learnHost (s : Switches) (host : Host) :
    SameButHosts s (s.learnHost host) := by
  unfold learnHost
  split
  · exact sameButHosts_send fun _ => rfl
  · split
    · exact ⟨rfl, rfl, rfl, fun _ => rfl⟩
    · exact sameButHosts_send fun _ => rfl

theorem sameButHosts_learnIp (s : Switches) (mac : String) (payload : Payload) :
    SameButHosts s (s.learnIp mac payload).1 := by
  cases payload with
  | arp ip => exact sameButHosts_updateIp s mac _
  | ipv4 ip => exact sameButHosts_updateIp s mac _
  | ipv6 ip => exact sameButHosts_updateIp s mac _
  | malformed e => exact ⟨rfl, rfl, rfl, fun _ => rfl⟩
  | other => exact ⟨rfl, rfl, rfl, fun _ => rfl⟩

/-- Host discovery does nothing to ports and links. -/
theorem sameButHosts_hostDiscovery (s : Switches) (dpid inPort : ℕ) (mac : String)
    (payload : Payload) :
    SameButHosts s (s.hostDiscoveryPacketInHandler dpid inPort mac payload).1 := by
  unfold hostDiscoveryPacketInHandler
  split
  · exact ⟨rfl, rfl, rfl, fun _ => rfl⟩
  · split
    · exact (sameButHosts_learnHost s _).trans (sameButHosts_learnIp _ mac payload)
    · exact ⟨rfl, rfl, rfl, fun _ => rfl⟩

end Switches

end Ryu.Topology
