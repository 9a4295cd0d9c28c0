import Ryu.Stp.Roles

/-! # The two ends of a link

Each end holds the last message of the other one and both bridges agree on the root. A message
carries the cost of the port that sends it, and the receiver takes off the cost of its own port
instead, so that beside a root bridge with a costly port both ends can be designated. A message also
leaves out the system ID extensions, so that at equal costs neither end may be. Apart from these
the ends never have the same role, unless it is that of the root port.
-/

namespace Ryu.Stp

/-- The number of an identifier as it is announced, without the system ID extension. -/
def BridgeId.announced (i : BridgeId) : ℕ := encodeBridgeId i.priority 0 i.macAddr

theorem BridgeId.announced_le (i : BridgeId) : i.announced ≤ i.value := encodeBridgeId_mono ..

/-- The port generates the message, as it is received. -/
def Bridge.Announces (b : Bridge) (p : Port) (m : Received) : Prop :=
  ∃ flags buf pkt, p.generateConfigBpdu b.bridgeId flags = .ok buf ∧
    ConfigurationBPDUs.parser buf = .ok (some pkt) ∧ m = Received.ofBpdu pkt

/-- A port that is not disabled, started with the priority of its bridge, holds a message. -/
structure End (b : Bridge) (p : Port) (m : Received) : Prop where
  mem : p ∈ b.ports
  enabled : p.state ≠ .disable
  started : p.portPriority = b.rootVector
  holds : p.received = some m

/-- Each port holds what the other one generates, and the bridges agree on the root. -/
structure Link (a b : Bridge) (pa pb : Port) (ma mb : Received) : Prop where
  fst : End a pa ma
  snd : End b pb mb
  fstAnnounces : a.Announces pa mb
  sndAnnounces : b.Announces pb ma
  distinct : a.bridgeId.value ≠ b.bridgeId.value
  agree : a.rootVector.rootId.value = b.rootVector.rootId.value

variable {a b : Bridge} {p pa pb r : Port} {m ma mb m₀ : Received}

/-- What a message tells of the bridge and the port it comes from. -/
structure Bridge.Tells (b : Bridge) (p : Port) (m : Received) : Prop where
  root : m.rootId.value = p.portPriority.rootId.announced
  cost : m.rootPathCost = p.portPriority.rootPathCost + p.pathCost
  bridge : m.designatedBridgeId.value = b.bridgeId.announced
  port : m.designatedPortId = p.portId

theorem Bridge.Announces.tells (h : b.Announces p m) (hp : p ∈ b.ports) : b.Tells p m := by
  obtain ⟨flags, buf, pkt, hgen, hparse, rfl⟩ := h
  unfold Port.generateConfigBpdu ConfigurationBPDUs.create at hgen
  split_ifs at hgen with hchecked
  have hno := b.portNo_le p hp
  have hread := ConfigurationBPDUs.parser_serialize
    ⟨hchecked, Nat.zero_lt_succ _, Nat.zero_lt_succ _, Nat.lt_succ_of_le hno⟩ hgen
  obtain rfl := Option.some.inj (Except.ok.inj (hparse.symm.trans hread))
  exact ⟨rfl, rfl, rfl, rfl⟩

namespace End

theorem heard (e : End b p m) : p.heard = some m := by
  rw [Port.heard, if_neg e.enabled, e.holds]

/-- No message held is about a better root. -/
theorem rootVector_le (e : End b p m) : b.rootVector.rootId.value ≤ m.rootId.value := by
  cases hn : b.nearest with
  | none =>
    rw [Bridge.rootVector_of_none hn]
    by_contra hlt
    have hc : (p, m) ∈ b.candidates := Bridge.mem_candidates.mpr ⟨e.mem, e.heard, not_le.mp hlt⟩
    rw [Bridge.candidates_of_none hn] at hc
    exact List.not_mem_nil hc
  | some x =>
    rw [Bridge.rootVector_of_some (r := x.1) hn]
    have hx := Bridge.mem_candidates.mp (Bridge.mem_of_nearest hn)
    by_cases hlt : m.rootId.value < b.bridgeId.value
    · have hc : (p, m) ∈ b.candidates := Bridge.mem_candidates.mpr ⟨e.mem, e.heard, hlt⟩
      have hle := Bridge.rank_le_of_nearest (y := (p, m)) hn hc
      by_contra hgt
      exact absurd (rank_lt.2 (Or.inl (not_le.mp hgt))) (not_lt.mpr hle)
    · exact hx.2.2.le.trans (not_lt.mp hlt)

end End

namespace Link

variable (l : Link a b pa pb ma mb)
include l

theorem symm : Link b a pb pa mb ma :=
  ⟨l.snd, l.fst, l.sndAnnounces, l.fstAnnounces, l.distinct.symm, l.agree.symm⟩

theorem fstTells : a.Tells pa mb := l.fstAnnounces.tells l.fst.mem

theorem sndTells : b.Tells pb ma := l.sndAnnounces.tells l.snd.mem

/-- The message from the other end is about the root agreed on. -/
theorem root : ma.rootId.value = a.rootVector.rootId.value := by
  apply le_antisymm
  · calc ma.rootId.value = b.rootVector.rootId.announced := by
          rw [l.sndTells.root, l.snd.started]
      _ ≤ b.rootVector.rootId.value := BridgeId.announced_le _
      _ = a.rootVector.rootId.value := l.agree.symm
  · exact l.fst.rootVector_le

theorem root_eq : ma.rootId.value = mb.rootId.value := by
  rw [l.root, l.symm.root, l.agree]

theorem cost : mb.rootPathCost = a.rootVector.rootPathCost + pa.pathCost := by
  rw [l.fstTells.cost, l.fst.started]

/-- A bridge has no root port just if its identifier is that of the root. -/
theorem nearest_eq_none : a.nearest = none ↔ a.bridgeId.value = mb.rootId.value := by
  rw [← l.root_eq, l.root]
  cases hn : a.nearest with
  | none => simp [Bridge.rootVector_of_none hn]
  | some x =>
    have hx := Bridge.mem_candidates.mp (Bridge.mem_of_nearest hn)
    rw [Bridge.rootVector_of_some (r := x.1) hn]
    simp only [reduceCtorEq, false_iff]
    exact hx.2.2.ne'

/-- The comparison at a port that is not the root port: what is sent, under the full identifier,
against what is held. -/
theorem isNearer_iff (h : a.nearest = some (r, m₀)) :
    a.isNearer m₀ pa ↔
      pathRank mb.rootPathCost a.bridgeId.value pa.portId.value <
        pathRank ma.rootPathCost ma.designatedBridgeId.value ma.designatedPortId.value := by
  have hv := Bridge.rootVector_of_some h
  have hroot : ma.rootId.value = m₀.rootId.value := by rw [l.root, hv]; rfl
  have hcost : mb.rootPathCost = m₀.rootPathCost + pa.pathCost := by rw [l.cost, hv]; rfl
  unfold Bridge.isNearer
  rw [l.fst.holds]
  simp only [hroot, ne_eq, not_true_eq_false, false_or, compareRootPath_eq_superior, pathRank_lt,
    hcost]
  push_cast
  constructor
  · rintro (h | ⟨h, h'⟩)
    · left; omega
    · right; exact ⟨by omega, h'⟩
  · rintro (h | ⟨h, h'⟩)
    · left; omega
    · right; exact ⟨by omega, h'⟩

end Link

/-- The port is the first with the best message about a better root. -/
def Bridge.IsNearest (b : Bridge) (p : Port) : Prop := ∃ x ∈ b.nearest, p.portNo = x.1.portNo

/-- The end is below the other one by its full identifier and its port, of the one announced. -/
def Below (b : Bridge) (p : Port) (m : Received) : Prop :=
  toLex (b.bridgeId.value, p.portId.value) <
    toLex (m.designatedBridgeId.value, m.designatedPortId.value)

/-- What keeps the two ends apart: a root bridge announces no greater cost on the link than the
other end does, and of two ends at the same cost one is below the other. -/
structure Apart (a b : Bridge) (pa pb : Port) (ma mb : Received) : Prop where
  fstRoot : a.bridgeId.value = mb.rootId.value → mb.rootPathCost ≤ ma.rootPathCost
  sndRoot : b.bridgeId.value = ma.rootId.value → ma.rootPathCost ≤ mb.rootPathCost
  tie : a.bridgeId.value ≠ mb.rootId.value → b.bridgeId.value ≠ ma.rootId.value →
    ¬ a.IsNearest pa → ¬ b.IsNearest pb → ma.rootPathCost = mb.rootPathCost →
    Below a pa ma ∨ Below b pb mb

/-- Not both ends are designated, and not both are blocked. -/
def OneDesignated (a b : Bridge) (pa pb : Port) : Prop :=
  ¬ (a.role pa = some .designatedPort ∧ b.role pb = some .designatedPort) ∧
    ¬ (a.role pa = some .nonDesignatedPort ∧ b.role pb = some .nonDesignatedPort)

theorem Apart.symm (h : Apart a b pa pb ma mb) : Apart b a pb pa mb ma :=
  ⟨h.sndRoot, h.fstRoot, fun hb ha hpb hpa hc => (h.tie ha hb hpa hpb hc.symm).symm⟩

theorem OneDesignated.symm (h : OneDesignated a b pa pb) : OneDesignated b a pb pa :=
  ⟨fun h' => h.1 h'.symm, fun h' => h.2 h'.symm⟩

namespace Link

variable (l : Link a b pa pb ma mb)
include l

/-- The end is nearer to the root by what is sent and what is held. -/
def Nearer (_ : Link a b pa pb ma mb) : Prop :=
  pathRank mb.rootPathCost a.bridgeId.value pa.portId.value <
    pathRank ma.rootPathCost ma.designatedBridgeId.value ma.designatedPortId.value

theorem nearer_iff : l.Nearer ↔ mb.rootPathCost < ma.rootPathCost ∨
    mb.rootPathCost = ma.rootPathCost ∧ Below a pa ma := by
  unfold Nearer Below
  rw [pathRank_lt, Prod.Lex.toLex_lt_toLex]
  norm_cast

theorem role_of_root (h : a.bridgeId.value = mb.rootId.value) :
    a.role pa = some .designatedPort :=
  Bridge.role_of_none (l.nearest_eq_none.mpr h) l.fst.mem l.fst.enabled

theorem role_of_not_root (h : a.bridgeId.value ≠ mb.rootId.value) :
    (a.IsNearest pa ∧ a.role pa = some .rootPort) ∨
      (¬ a.IsNearest pa ∧ ((l.Nearer ∧ a.role pa = some .designatedPort) ∨
        (¬ l.Nearer ∧ a.role pa = some .nonDesignatedPort))) := by
  obtain ⟨x, hx⟩ := Option.ne_none_iff_exists'.mp (mt l.nearest_eq_none.mp h)
  have hrole := Bridge.role_of_some (r := x.1) hx l.fst.mem l.fst.enabled
  have hnear : a.IsNearest pa ↔ pa.portNo = x.1.portNo := by
    simp [Bridge.IsNearest, hx]
  by_cases hno : pa.portNo = x.1.portNo
  · left
    exact ⟨hnear.mpr hno, by rw [hrole, if_pos hno]⟩
  · right
    rw [if_neg hno] at hrole
    constructor
    · exact mt hnear.mp hno
    · by_cases hn : l.Nearer
      · left
        exact ⟨hn, by rw [hrole, if_pos ((l.isNearer_iff hx).mpr hn)]⟩
      · right
        exact ⟨hn, by rw [hrole, if_neg (mt (l.isNearer_iff hx).mp hn)]⟩

/-- The ends are never both nearer: what an end announces of itself is at most what it is. -/
theorem not_both_nearer : ¬ (l.Nearer ∧ l.symm.Nearer) := by
  rintro ⟨h, h'⟩
  rw [nearer_iff] at h h'
  unfold Below at h h'
  rw [Prod.Lex.toLex_lt_toLex] at h h'
  have hb := b.bridgeId.announced_le
  have ha := a.bridgeId.announced_le
  rw [l.sndTells.bridge, l.sndTells.port] at h
  rw [l.fstTells.bridge, l.fstTells.port] at h'
  omega

/-- The end of the root port at its bridge holds the cost from there, and announces more. -/
theorem cost_le_of_nearest (h : a.IsNearest pa) : ma.rootPathCost ≤ mb.rootPathCost := by
  obtain ⟨x, hx, hno⟩ := h
  have hc := Bridge.mem_candidates.mp (Bridge.mem_of_nearest hx)
  have hp : pa = x.1 := List.inj_on_of_nodup_map a.nodup l.fst.mem hc.1 hno
  have hm : x.2 = ma := by
    have hheard := l.fst.heard
    rw [hp, hc.2.1] at hheard
    exact Option.some.inj hheard
  rw [l.cost, Bridge.rootVector_of_some (r := x.1) hx, hm]
  exact Nat.le_add_right _ _

/-- Beside the root bridge: the other end is designated just if it announces less. -/
theorem oneDesignated_of_root (h : a.bridgeId.value = mb.rootId.value) :
    OneDesignated a b pa pb ↔ Apart a b pa pb ma mb := by
  have hroot := l.root_eq
  have hb : b.bridgeId.value ≠ ma.rootId.value := by
    rw [hroot, ← h]
    exact l.distinct.symm
  have ha := l.role_of_root h
  have hapart : Apart a b pa pb ma mb ↔ mb.rootPathCost ≤ ma.rootPathCost :=
    ⟨fun h' => h'.fstRoot h, fun h' => ⟨fun _ => h', fun h' => absurd h' hb,
      fun h' => absurd h h'⟩⟩
  -- what the root bridge announces is below the other identifier
  have hbelow : ¬ Below b pb mb := by
    obtain ⟨x, hx⟩ := Option.ne_none_iff_exists'.mp (mt l.symm.nearest_eq_none.mp hb)
    have hlt := (Bridge.mem_candidates.mp (Bridge.mem_of_nearest hx)).2.2
    have hroot : mb.rootId.value = x.2.rootId.value := by
      rw [l.symm.root, Bridge.rootVector_of_some (r := x.1) hx]
      rfl
    have hannounced := a.bridgeId.announced_le
    unfold Below
    rw [Prod.Lex.toLex_lt_toLex, l.fstTells.bridge]
    omega
  rw [hapart]
  unfold OneDesignated
  rcases l.symm.role_of_not_root hb with ⟨hn, hr⟩ | ⟨-, ⟨hw, hr⟩ | ⟨hw, hr⟩⟩
  · have hle := l.symm.cost_le_of_nearest hn
    simp [ha, hr, hle]
  · rw [nearer_iff] at hw
    have hlt : ma.rootPathCost < mb.rootPathCost := hw.resolve_right fun h' => hbelow h'.2
    simp [ha, hr, hlt]
  · rw [nearer_iff, not_or] at hw
    have hle : mb.rootPathCost ≤ ma.rootPathCost := not_lt.mp hw.1
    simp [ha, hr, hle]

/-- Away from the root bridge: the ends differ unless neither is below the other. -/
theorem oneDesignated_of_not_root (ha : a.bridgeId.value ≠ mb.rootId.value)
    (hb : b.bridgeId.value ≠ ma.rootId.value) :
    OneDesignated a b pa pb ↔ Apart a b pa pb ma mb := by
  have hapart : Apart a b pa pb ma mb ↔ (¬ a.IsNearest pa → ¬ b.IsNearest pb →
      ma.rootPathCost = mb.rootPathCost → Below a pa ma ∨ Below b pb mb) :=
    ⟨fun h => h.tie ha hb, fun h => ⟨fun h' => absurd h' ha, fun h' => absurd h' hb,
      fun _ _ => h⟩⟩
  rw [hapart]
  unfold OneDesignated
  rcases l.role_of_not_root ha with ⟨hna, hra⟩ | ⟨hna, ha⟩
  · simp [hna, hra]
  rcases l.symm.role_of_not_root hb with ⟨hnb, hrb⟩ | ⟨hnb, hb⟩
  · simp [hnb, hrb]
  have hboth := l.not_both_nearer
  have hiff := l.nearer_iff
  have hiff' := l.symm.nearer_iff
  rcases ha with ⟨hwa, hra⟩ | ⟨hwa, hra⟩ <;> rcases hb with ⟨hwb, hrb⟩ | ⟨hwb, hrb⟩
  · exact absurd ⟨hwa, hwb⟩ hboth
  · have hbelow : ma.rootPathCost = mb.rootPathCost → Below a pa ma := fun he =>
      ((hiff.mp hwa).resolve_left (by omega)).2
    rw [hra, hrb]
    constructor
    · intro _ _ _ he
      exact Or.inl (hbelow he)
    · simp
  · have hbelow : ma.rootPathCost = mb.rootPathCost → Below b pb mb := fun he =>
      ((hiff'.mp hwb).resolve_left (by omega)).2
    rw [hra, hrb]
    constructor
    · intro _ _ _ he
      exact Or.inr (hbelow he)
    · simp
  · rw [hiff, not_or] at hwa
    rw [hiff', not_or] at hwb
    have he : ma.rootPathCost = mb.rootPathCost :=
      le_antisymm (not_lt.mp hwb.1) (not_lt.mp hwa.1) |>.symm
    have hneither : ¬ (Below a pa ma ∨ Below b pb mb) := by
      rintro (h | h)
      · exact hwa.2 ⟨he.symm, h⟩
      · exact hwb.2 ⟨he, h⟩
    simp only [hra, hrb, and_self, not_true_eq_false, and_false, false_iff]
    exact fun h => hneither (h hna hnb he)

end Link

/-- The two ends of a link never have the same role other than that of the root port, just if
they are kept apart. -/
theorem oneDesignated_iff_apart (l : Link a b pa pb ma mb) :
    OneDesignated a b pa pb ↔ Apart a b pa pb ma mb := by
  by_cases ha : a.bridgeId.value = mb.rootId.value
  · exact l.oneDesignated_of_root ha
  · by_cases hb : b.bridgeId.value = ma.rootId.value
    · constructor
      · exact fun h => ((l.symm.oneDesignated_of_root hb).mp h.symm).symm
      · exact fun h => ((l.symm.oneDesignated_of_root hb).mpr h.symm).symm
    · exact l.oneDesignated_of_not_root ha hb

section Parallel

/-! Two links between the same bridges. The root bridge has a slow port, of the cost 200000, on the
first one and a fast one, of the cost 20000, on the second. -/

def seconds (messageAge : ℕ) : Times := ⟨messageAge * 256, 20 * 256, 2 * 256, 15 * 256⟩

def rootId : BridgeId := ⟨0x8000, 0, 1⟩

def otherId : BridgeId := ⟨0x8000, 0, 2⟩

/-- What the root bridge announces on a port. -/
def fromRoot (portNo pathCost : ℕ) : Received :=
  ⟨rootId, pathCost, rootId, ⟨128, portNo⟩, seconds 1⟩

/-- What the other bridge announces on the first link. -/
def fromOther (pathCost : ℕ) : Received :=
  ⟨rootId, 20000 + pathCost, otherId, ⟨128, 1⟩, seconds 2⟩

def rootEnd (portNo pathCost : ℕ) (received : Option Received) : Port :=
  ⟨true, ⟨rootId, 0, none⟩, seconds 0, ⟨128, portNo⟩, pathCost, .listen, .designatedPort, received,
    false⟩

def otherEnd (portNo pathCost : ℕ) (received : Received) : Port :=
  ⟨true, (fromRoot 2 20000).priority, seconds 1, ⟨128, portNo⟩, pathCost, .listen, .designatedPort,
    some received, false⟩

/-- The ends of the first link, by the cost of the port of the other bridge. -/
def slowRootEnd (pathCost : ℕ) : Port := rootEnd 1 200000 (some (fromOther pathCost))

def slowOtherEnd (pathCost : ℕ) : Port := otherEnd 1 pathCost (fromRoot 1 200000)

def rootBridge (pathCost : ℕ) : Bridge where
  bridgeId := rootId
  bridgeTimes := seconds 0
  rootPriority := ⟨rootId, 0, none⟩
  rootTimes := seconds 0
  ports := [slowRootEnd pathCost, rootEnd 2 20000 none]
  nodup := by simp [slowRootEnd, rootEnd, Port.portNo]
  portNo_le := by simp [slowRootEnd, rootEnd, Port.portNo, maxPortNo]

def otherBridge (pathCost : ℕ) : Bridge where
  bridgeId := otherId
  bridgeTimes := seconds 0
  rootPriority := (fromRoot 2 20000).priority
  rootTimes := seconds 1
  ports := [slowOtherEnd pathCost, otherEnd 2 20000 (fromRoot 2 20000)]
  nodup := by simp [slowOtherEnd, otherEnd, Port.portNo]
  portNo_le := by simp [slowOtherEnd, otherEnd, Port.portNo, maxPortNo]

theorem link_sameCost : Link (rootBridge 200000) (otherBridge 200000) (slowRootEnd 200000)
    (slowOtherEnd 200000) (fromOther 200000) (fromRoot 1 200000) where
  fst := ⟨List.mem_cons_self, by decide, by decide, rfl⟩
  snd := ⟨List.mem_cons_self, by decide, by decide, rfl⟩
  fstAnnounces := ⟨0, _, _, rfl, rfl, rfl⟩
  sndAnnounces := ⟨0, _, _, rfl, rfl, rfl⟩
  distinct := by decide
  agree := by decide

theorem link_otherCost : Link (rootBridge 20000) (otherBridge 20000) (slowRootEnd 20000)
    (slowOtherEnd 20000) (fromOther 20000) (fromRoot 1 200000) where
  fst := ⟨List.mem_cons_self, by decide, by decide, rfl⟩
  snd := ⟨List.mem_cons_self, by decide, by decide, rfl⟩
  fstAnnounces := ⟨0, _, _, rfl, rfl, rfl⟩
  sndAnnounces := ⟨0, _, _, rfl, rfl, rfl⟩
  distinct := by decide
  agree := by decide

theorem oneDesignated_iff_apart_sameCost :
    OneDesignated (rootBridge 200000) (otherBridge 200000) (slowRootEnd 200000)
        (slowOtherEnd 200000) ↔
      Apart (rootBridge 200000) (otherBridge 200000) (slowRootEnd 200000) (slowOtherEnd 200000)
        (fromOther 200000) (fromRoot 1 200000) :=
  oneDesignated_iff_apart link_sameCost

/-- With a fast port at the other end of the slow link both ends are designated. -/
theorem both_designated :
    ¬ ∀ a b pa pb ma mb, Link a b pa pb ma mb → OneDesignated a b pa pb := by
  intro h
  have hone := h _ _ _ _ _ _ link_otherCost
  exact hone.1 ⟨by decide, by decide⟩

end Parallel

/-! ## Identifiers at the other end -/

/-- The message of `_generate_config_bpdu`. -/
def Port.configBpdu (p : Port) (bridgeId : BridgeId) (flags : ℕ) : ConfigurationBPDUs where
  flags := flags
  rootPriority := p.portPriority.rootId.priority
  rootSystemIdExtension := 0
  rootMacAddress := p.portPriority.rootId.macAddr
  rootPathCost := p.portPriority.rootPathCost + p.pathCost
  bridgePriority := bridgeId.priority
  bridgeSystemIdExtension := 0
  bridgeMacAddress := bridgeId.macAddr
  portPriority := p.portId.priority
  portNumber := p.portNo
  messageAge := p.portTimes.messageAge + 256
  maxAge := p.portTimes.maxAge
  helloTime := p.portTimes.helloTime
  forwardDelay := p.portTimes.forwardDelay

/-- The message of the port passes its checks, and its values have room in their fields. -/
def Port.Announceable (p : Port) (bridgeId : BridgeId) (flags : ℕ) : Prop :=
  (p.configBpdu bridgeId flags).checkParameters ∧
    ConfigurationBPDUs.packStr.Fits (p.configBpdu bridgeId flags).values

/-- The port generates a message, and what is received has the identifiers of root, bridge and
port. -/
def Bridge.Recognised (b : Bridge) (p : Port) (flags : ℕ) : Prop :=
  ∃ buf pkt, p.generateConfigBpdu b.bridgeId flags = .ok buf ∧
    ConfigurationBPDUs.parser buf = .ok (some pkt) ∧
    (Received.ofBpdu pkt).rootId.value = p.portPriority.rootId.value ∧
    (Received.ofBpdu pkt).designatedBridgeId.value = b.bridgeId.value ∧
    (Received.ofBpdu pkt).designatedPortId.value = p.portId.value

theorem BridgeId.announced_eq_iff {i : BridgeId} :
    i.announced = i.value ↔ i.systemIdExtension = 0 := by
  rw [announced, value, encodeBridgeId_eq, encodeBridgeId_eq]
  omega

theorem ConfigurationBPDUs.serialize_eq_ok_iff {m : ConfigurationBPDUs} :
    (∃ buf, m.serialize = .ok buf) ↔ packStr.Fits m.values := by
  have hbase : Format.pack basePackStr (0, 0, 0, ()) = .ok [0, 0, 0, 0] := rfl
  rw [serialize, hbase, ← Format.isOk_pack_iff]
  cases packStr.pack m.values with
  | error e => simp [Except.map]
  | ok buf => simp [Except.map]

theorem Port.generateConfigBpdu_eq (p : Port) (i : BridgeId) (flags : ℕ) :
    p.generateConfigBpdu i flags =
      match (p.configBpdu i flags).create with
      | .error e => .error e
      | .ok m => m.serialize := rfl

theorem Port.announceable_iff {i : BridgeId} {flags : ℕ} :
    p.Announceable i flags ↔ ∃ buf, p.generateConfigBpdu i flags = .ok buf := by
  rw [Announceable, generateConfigBpdu_eq, ConfigurationBPDUs.create]
  by_cases h : (p.configBpdu i flags).checkParameters
  · rw [if_pos h]
    simp only [h, true_and, ConfigurationBPDUs.serialize_eq_ok_iff]
  · simp [h]

theorem Port.parser_generated {flags : ℕ} {buf : List UInt8} (hp : p ∈ b.ports)
    (h : p.generateConfigBpdu b.bridgeId flags = .ok buf) :
    ConfigurationBPDUs.parser buf = .ok (some (p.configBpdu b.bridgeId flags).inSeconds) := by
  rw [generateConfigBpdu_eq, ConfigurationBPDUs.create] at h
  split_ifs at h with hchecked
  have hno := b.portNo_le p hp
  exact ConfigurationBPDUs.parser_serialize
    ⟨hchecked, Nat.zero_lt_succ _, Nat.zero_lt_succ _, Nat.lt_succ_of_le hno⟩ h

/-- A message that can be sent is received with the identifiers of its sender exactly if neither
the root nor the bridge has a system ID extension. -/
theorem recognised_iff (b : Bridge) (p : Port) (flags : ℕ) (hp : p ∈ b.ports) :
    b.Recognised p flags ↔ p.Announceable b.bridgeId flags ∧
      p.portPriority.rootId.systemIdExtension = 0 ∧ b.bridgeId.systemIdExtension = 0 := by
  rw [Port.announceable_iff, ← BridgeId.announced_eq_iff, ← BridgeId.announced_eq_iff]
  constructor
  · rintro ⟨buf, pkt, hgen, hparse, hroot, hbridge, -⟩
    rw [Port.parser_generated hp hgen] at hparse
    obtain rfl := Option.some.inj (Except.ok.inj hparse)
    exact ⟨⟨buf, hgen⟩, hroot, hbridge⟩
  · rintro ⟨⟨buf, hgen⟩, hroot, hbridge⟩
    exact ⟨buf, _, hgen, Port.parser_generated hp hgen, hroot, hbridge, rfl⟩

theorem recognised_iff_root :
    (rootBridge 200000).Recognised (slowRootEnd 200000) 0 ↔
      (slowRootEnd 200000).Announceable (rootBridge 200000).bridgeId 0 ∧
        (slowRootEnd 200000).portPriority.rootId.systemIdExtension = 0 ∧
        (rootBridge 200000).bridgeId.systemIdExtension = 0 :=
  recognised_iff (rootBridge 200000) (slowRootEnd 200000) 0 List.mem_cons_self

/-- A bridge with the system ID extension 1, its own root, and its port. -/
def extendedBridge : Bridge where
  bridgeId := ⟨0x8000, 1, 1⟩
  bridgeTimes := seconds 0
  rootPriority := ⟨⟨0x8000, 1, 1⟩, 0, none⟩
  rootTimes := seconds 0
  ports := [{ rootEnd 1 200000 none with portPriority := ⟨⟨0x8000, 1, 1⟩, 0, none⟩ }]
  nodup := by decide
  portNo_le := by decide

theorem not_recognised_extended :
    ¬ ∀ (b : Bridge) (p : Port) (flags : ℕ), p ∈ b.ports →
      (∀ i ∈ [p.portPriority.rootId, b.bridgeId], i.priority % 4096 = 0 ∧
        i.systemIdExtension < 4096) →
      p.Announceable b.bridgeId flags → b.Recognised p flags := by
  intro h
  have hport : { rootEnd 1 200000 none with portPriority := ⟨⟨0x8000, 1, 1⟩, 0, none⟩ } ∈
      extendedBridge.ports := List.mem_cons_self
  obtain ⟨buf, pkt, hgen, hparse, hroot, -⟩ := h extendedBridge _ 0 hport (by decide)
    (Port.announceable_iff.2 ⟨_, rfl⟩)
  rw [Port.parser_generated hport hgen] at hparse
  obtain rfl := Option.some.inj (Except.ok.inj hparse)
  exact absurd hroot (by decide)

end Ryu.Stp
