import Mathlib.Algebra.Order.Field.Rat
import Mathlib.Tactic.Linarith
import Ryu.Lib.Agenda
import Ryu.Lib.Run
import Ryu.Topology.PortData

/-! # The sending loop of link discovery

A pass of `lldp_loop` sends LLDP on the ports that wait for it. It goes through the ports in
the order that `PortDataState` keeps and ends at the first one whose time has not come, so that
a port behind that one must not be waiting.
-/

namespace Ryu.Topology

/-- `LLDP_SEND_PERIOD_PER_PORT`. -/
def lldpSendPeriodPerPort : ℚ := 9 / 10

/-- The operations on a `PortDataState`. -/
inductive PortOp where
  | addPort (port : PortId) (isDown : Bool)
  | lldpSent (port : PortId) (now : ℚ)
  | lldpReceived (port : PortId)
  | moveFront (port : PortId)
  | setDown (port : PortId) (isDown : Bool)
  | delPort (port : PortId)
  | clear
  deriving DecidableEq

namespace PortDataState

/-- `clear`. -/
def clear (_ : PortDataState) : PortDataState := ⟨Dict.empty, Ring.empty⟩

def act (s : PortDataState) : PortOp → Outcome PortDataState
  | .addPort port isDown => s.addPort port isDown
  | .lldpSent port now => s.lldpSent port now
  | .lldpReceived port => s.lldpReceived port
  | .moveFront port => s.moveFront port
  | .setDown port isDown => s.setDown port isDown
  | .delPort port => s.delPort port
  | .clear => (s.clear, none)

/-- What is left, also if the operation raised. -/
def step (s : PortDataState) (op : PortOp) : PortDataState := (s.act op).1

/-- `items`. -/
def items (s : PortDataState) : Option (List (PortId × PortData)) :=
  s.iter >>= List.mapM fun key => key.bind fun port => (s.data.get? port).map (port, ·)

end PortDataState

/-! ## The loop -/

/-- What a scan gathers: the ports without a timestamp, and those with one that is due. -/
structure Gathered where
  portsNow : List PortId
  ports : List PortId
  timeout : Option ℚ

/-- The scan of `lldp_loop`. -/
def gather (now : ℚ) : List (PortId × PortData) → Gathered
  | [] => ⟨[], [], none⟩
  | (key, data) :: items =>
    match data.timestamp with
    | none => { gather now items with portsNow := key :: (gather now items).portsNow }
    | some timestamp =>
      let expire := timestamp + lldpSendPeriodPerPort
      if expire ≤ now then { gather now items with ports := key :: (gather now items).ports }
      else ⟨[], [], some (expire - now)⟩

namespace PortDataState

/-- `send_lldp_packet` at a time `now`, with the port on which a packet goes out. The datapaths
that are connected are known by the version they speak. -/
def sendLldpPacket (dps : ℕ → Option ℕ) (s : PortDataState) (port : PortId) (now : ℚ) :
    PortDataState × Option PortId :=
  match s.lldpSent port now with
  | (s, some _) => (s, none)
  | (s, none) =>
    match s.data.get? port, dps port.dpid with
    | some data, some version =>
      if data.isDown then (s, none)
      else if version = 1 ∨ 3 ≤ version then (s, some port)
      else (s, none)
    | _, _ => (s, none)

/-- One of the loops over the ports gathered. Others use the ports after each packet. -/
def sendAll (dps : ℕ → Option ℕ) (clock : PortId → ℚ) (meanwhile : PortId → List PortOp) :
    PortDataState → List PortId → PortDataState × List PortId
  | s, [] => (s, [])
  | s, port :: ports =>
    let (s, out) := s.sendLldpPacket dps port (clock port)
    let (s, outs) := sendAll dps clock meanwhile ((meanwhile port).foldl step s) ports
    (s, out.toList ++ outs)

/-- A pass of `lldp_loop` that starts at `now`, and the ports it sends LLDP on. The loop sleeps
only after the ports of the second loop, and `meanwhile` tells what others do then. -/
def pass (s : PortDataState) (dps : ℕ → Option ℕ) (clock : PortId → ℚ)
    (meanwhile : PortId → List PortOp) (now : ℚ) : PortDataState × List PortId :=
  let gathered := gather now (s.items.getD [])
  let (s, out) := sendAll dps clock (fun _ => []) s gathered.portsNow
  let (s, out') := sendAll dps clock meanwhile s gathered.ports
  (s, out ++ out')

/-- The port is live, and it has no timestamp or one that is a period old. -/
def Waits (s : PortDataState) (now : ℚ) (port : PortId) : Prop :=
  ∃ data, s.data.get? port = some data ∧ data.isDown = false ∧
    ∀ timestamp ∈ data.timestamp, timestamp + lldpSendPeriodPerPort ≤ now

end PortDataState

/-- The operation does not take the port away and does not put it down. -/
def PortOp.Spares (port : PortId) : PortOp → Prop
  | .addPort p isDown => p = port → isDown = false
  | .setDown p isDown => p = port → isDown = false
  | .delPort p => p ≠ port
  | .clear => False
  | _ => True

namespace PortDataState

/-- At every time, a pass sends LLDP on every port that waits, if its datapath can be sent to and
nobody takes the port away during the pass. -/
def Prompt (s : PortDataState) : Prop :=
  ∀ dps clock meanwhile now port, s.Waits now port →
    (∃ version, dps port.dpid = some version ∧ (version = 1 ∨ 3 ≤ version)) →
    (∀ q, ∀ op ∈ meanwhile q, PortOp.Spares port op) →
    port ∈ (s.pass dps clock meanwhile now).2

/-- The ports in the order in which the loop goes through them. -/
def order (s : PortDataState) : List PortId := (s.items.getD []).map Prod.fst

/-- The timestamp of a port. One without is ahead of all times. -/
def key (s : PortDataState) (port : PortId) : WithBot ℚ :=
  ((s.data.get? port).bind (·.timestamp)).elim ⊥ (↑)

def Live (s : PortDataState) (port : PortId) : Prop :=
  ∃ data, s.data.get? port = some data ∧ data.isDown = false

/-- What an operation must respect, since it leaves the port where it stands, or puts it last: a
known port that `add_port` makes live has no later timestamp ahead of it, and the clock that
stamps a live port is behind no timestamp. -/
def InTurn (s : PortDataState) : PortOp → Prop
  | .addPort port isDown => s.has port → isDown = false →
      ∀ q ∈ s.order.takeWhile (· ≠ port), s.key q ≤ s.key port
  | .lldpSent port now => s.Live port → ∀ q ∈ s.order, q ≠ port → s.key q ≤ (now : WithBot ℚ)
  | _ => True

/-! ## What an operation does -/

variable {s : PortDataState} {port q : PortId} {l : List PortId} {now : ℚ}

/-- What becomes of the data of a port. -/
def dataAfter (op : PortOp) (q : PortId) (data : Option PortData) : Option PortData :=
  match op with
  | .addPort port isDown =>
    if port = q then some { data.getD ⟨isDown, none, 0⟩ with isDown := isDown } else data
  | .lldpSent port now =>
    if port = q then data.map fun d => { d with timestamp := some now, sent := d.sent + 1 } else data
  | .lldpReceived port => if port = q then data.map ({ · with sent := 0 }) else data
  | .moveFront port => if port = q then data.map ({ · with timestamp := none }) else data
  | .setDown port isDown =>
    if port = q then data.map ({ · with isDown := isDown, timestamp := none }) else data
  | .delPort port => if port = q then none else data
  | .clear => none

/-- What becomes of the order. -/
def orderAfter (s : PortDataState) (l : List PortId) : PortOp → List PortId
  | .addPort port _ => if s.has port then l else port :: l
  | .lldpSent port _ => if s.has port then l.erase port ++ [port] else l
  | .lldpReceived _ => l
  | .moveFront port => if s.has port then port :: l.erase port else l
  | .setDown port isDown => if s.has port ∧ isDown = false then port :: l.erase port else l
  | .delPort port => l.erase port
  | .clear => []

theorem has_iff : s.has port ↔ ∃ d, s.data.get? port = some d := Option.isSome_iff_exists

theorem not_has_iff : ¬s.has port ↔ s.data.get? port = none := Option.not_isSome_iff_eq_none

theorem update_of_get? {d : PortData} (h : s.data.get? port = some d) (f : PortData → PortData) :
    s.update port f = ({ s with data := s.data.set port (f d) }, none) := by
  rw [update, h]

theorem update_of_not_has (h : ¬s.has port) (f : PortData → PortData) :
    s.update port f = (s, some (.keyError "port")) := by
  rw [update, not_has_iff.1 h]

theorem Ordered.set (h : s.Ordered l) (hp : s.has port) (d : PortData) :
    Ordered { s with data := s.data.set port d } l := by
  obtain ⟨hr, hm⟩ := h
  refine ⟨hr, fun q => (hm q).trans ?_⟩
  by_cases hq : port = q
  · subst hq
    simpa [has] using hp
  · simp [has, Dict.get?_set, hq]

theorem Ordered.removeKey (h : s.Ordered l) (hp : s.has port) :
    ∃ ring ns, s.removeKey port = ({ s with ring := ring }, none) ∧
      ring.Holds (l.erase port) ns := by
  obtain ⟨⟨ns, hr⟩, hm⟩ := h
  obtain ⟨ring, ns', hrem, hr'⟩ := hr.remove ((hm port).mpr hp)
  exact ⟨ring, ns', by rw [PortDataState.removeKey, hrem], hr'⟩

theorem Ordered.moveFrontKey (h : s.Ordered l) (hp : s.has port) :
    ∃ ring, s.moveFrontKey port = ({ s with ring := ring }, none) ∧
      Ordered { s with ring := ring } (port :: l.erase port) := by
  obtain ⟨ring, ns, hrem, hr⟩ := h.removeKey hp
  have hn : port ∉ l.erase port := h.nodup.not_mem_erase
  refine ⟨ring.prepend port, by rw [PortDataState.moveFrontKey, hrem]; rfl,
    ⟨_, hr.prepend hn⟩, fun q => ?_⟩
  rw [(List.perm_cons_erase ((h.2 port).mpr hp)).symm.mem_iff]
  exact h.2 q

theorem Ordered.moveLastKey (h : s.Ordered l) (hp : s.has port) :
    ∃ ring, s.moveLastKey port = ({ s with ring := ring }, none) ∧
      Ordered { s with ring := ring } (l.erase port ++ [port]) := by
  obtain ⟨ring, ns, hrem, hr⟩ := h.removeKey hp
  have hn : port ∉ l.erase port := h.nodup.not_mem_erase
  refine ⟨ring.append port, by rw [PortDataState.moveLastKey, hrem]; rfl,
    ⟨_, hr.append hn⟩, fun q => ?_⟩
  rw [List.mem_append, List.mem_singleton, or_comm, ← List.mem_cons,
    (List.perm_cons_erase ((h.2 port).mpr hp)).symm.mem_iff]
  exact h.2 q

/-- What an operation leaves. -/
structure After (s : PortDataState) (l : List PortId) (op : PortOp) (r : Outcome PortDataState) :
    Prop where
  ordered : r.1.Ordered (s.orderAfter l op)
  get? : ∀ q, r.1.data.get? q = dataAfter op q (s.data.get? q)

/-- An operation on a port that is not known changes nothing. -/
theorem Ordered.after_unknown (h : s.Ordered l) {op : PortOp} (e : Option PyError)
    (hp : ¬s.has port) (hl : s.orderAfter l op = l) (hd : dataAfter op port none = none)
    (hne : ∀ q, port ≠ q → ∀ d, dataAfter op q d = d) : After s l op (s, e) where
  ordered := (congrArg s.Ordered hl).mpr h
  get? q := by
    by_cases hq : port = q
    · subst hq
      rw [not_has_iff.1 hp, hd]
    · rw [hne q hq]

/-- The data of a known port are set, wherever the port comes to stand. -/
theorem after_set {op : PortOp} {d : PortData} {ring : Ring PortId}
    (h : Ordered ⟨s.data.set port d, ring⟩ (s.orderAfter l op))
    (hd : dataAfter op port (s.data.get? port) = some d)
    (hne : ∀ q, port ≠ q → ∀ d, dataAfter op q d = d) :
    After s l op (⟨s.data.set port d, ring⟩, none) where
  ordered := h
  get? q := by
    by_cases hq : port = q
    · subst hq
      rw [hd, Dict.get?_set_self]
    · rw [hne q hq, Dict.get?_set_of_ne hq]

theorem Ordered.notMem (h : s.Ordered l) (hp : ¬s.has port) : port ∉ l :=
  fun hc => hp ((h.2 port).mp hc)

theorem Ordered.act (h : s.Ordered l) (op : PortOp) : After s l op (s.act op) := by
  cases op with
  | addPort port isDown =>
    have hne : ∀ q, port ≠ q → ∀ d, dataAfter (.addPort port isDown) q d = d :=
      fun q hq d => by simp [dataAfter, hq]
    rw [PortDataState.act, addPort]
    by_cases hp : s.has port
    · obtain ⟨d, hd⟩ := has_iff.1 hp
      rw [if_pos (by exact hp), update_of_get? hd]
      exact after_set (by simpa [orderAfter, hp] using h.set hp _) (by simp [dataAfter, hd]) hne
    · have hn := h.notMem hp
      obtain ⟨⟨ns, hr⟩, hm⟩ := h
      rw [if_neg (by exact hp)]
      have hl : s.orderAfter l (.addPort port isDown) = port :: l := by simp [orderAfter, hp]
      refine after_set ⟨?_, fun q => ?_⟩ (by simp [dataAfter, not_has_iff.1 hp]) hne
      · exact ⟨_, hl ▸ hr.prepend hn⟩
      · rw [hl]
        by_cases hq : port = q
        · subst hq
          simp [has]
        · simpa [has, Dict.get?_set, hq, Ne.symm hq] using hm q
  | lldpSent port now =>
    have hne : ∀ q, port ≠ q → ∀ d, dataAfter (.lldpSent port now) q d = d :=
      fun q hq d => by simp [dataAfter, hq]
    rw [PortDataState.act, lldpSent]
    by_cases hp : s.has port
    · obtain ⟨d, hd⟩ := has_iff.1 hp
      have hs := h.set hp { d with timestamp := some now, sent := d.sent + 1 }
      obtain ⟨ring, hmove, hs⟩ := hs.moveLastKey (has_iff.2 ⟨_, Dict.get?_set_self ..⟩)
      rw [update_of_get? hd, Outcome.andThen_none, hmove]
      exact after_set (by simpa [orderAfter, hp] using hs) (by simp [dataAfter, hd]) hne
    · rw [update_of_not_has hp]
      exact h.after_unknown _ hp (by simp [orderAfter, hp]) (by simp [dataAfter]) hne
  | lldpReceived port =>
    have hne : ∀ q, port ≠ q → ∀ d, dataAfter (.lldpReceived port) q d = d :=
      fun q hq d => by simp [dataAfter, hq]
    rw [PortDataState.act, lldpReceived]
    by_cases hp : s.has port
    · obtain ⟨d, hd⟩ := has_iff.1 hp
      rw [update_of_get? hd]
      exact after_set (h.set hp _) (by simp [dataAfter, hd]) hne
    · rw [update_of_not_has hp]
      exact h.after_unknown _ hp rfl (by simp [dataAfter]) hne
  | moveFront port =>
    have hne : ∀ q, port ≠ q → ∀ d, dataAfter (.moveFront port) q d = d :=
      fun q hq d => by simp [dataAfter, hq]
    rw [PortDataState.act, moveFront]
    by_cases hp : s.has port
    · obtain ⟨d, hd⟩ := has_iff.1 hp
      have hs := h.set hp { d with timestamp := none }
      obtain ⟨ring, hmove, hs⟩ := hs.moveFrontKey (has_iff.2 ⟨_, Dict.get?_set_self ..⟩)
      rw [if_pos (by exact hp), update_of_get? hd, Outcome.andThen_none, hmove]
      exact after_set (by simpa [orderAfter, hp] using hs) (by simp [dataAfter, hd]) hne
    · rw [if_neg (by exact hp)]
      exact h.after_unknown _ hp (by simp [orderAfter, hp]) (by simp [dataAfter]) hne
  | setDown port isDown =>
    have hne : ∀ q, port ≠ q → ∀ d, dataAfter (.setDown port isDown) q d = d :=
      fun q hq d => by simp [dataAfter, hq]
    rw [PortDataState.act, setDown]
    by_cases hp : s.has port
    · obtain ⟨d, hd⟩ := has_iff.1 hp
      have hs := h.set hp { d with isDown := isDown, timestamp := none }
      rw [update_of_get? hd, Outcome.andThen_none]
      cases isDown with
      | true => exact after_set (by simpa [orderAfter] using hs) (by simp [dataAfter, hd]) hne
      | false =>
        obtain ⟨ring, hmove, hs⟩ := hs.moveFrontKey (has_iff.2 ⟨_, Dict.get?_set_self ..⟩)
        rw [if_neg Bool.false_ne_true, hmove]
        exact after_set (by simpa [orderAfter, hp] using hs) (by simp [dataAfter, hd]) hne
    · rw [update_of_not_has hp]
      exact h.after_unknown _ hp (by simp [orderAfter, hp]) (by simp [dataAfter]) hne
  | delPort port =>
    have hne : ∀ q, port ≠ q → ∀ d, dataAfter (.delPort port) q d = d :=
      fun q hq d => by simp [dataAfter, hq]
    rw [PortDataState.act, delPort]
    by_cases hp : s.has port
    · rw [if_pos (by exact hp)]
      obtain ⟨⟨ns, hr⟩, hm⟩ := h
      obtain ⟨ring, ns', hrem, hr'⟩ := hr.remove ((hm port).mpr hp)
      rw [PortDataState.removeKey, hrem]
      refine ⟨⟨⟨_, hr'⟩, fun q => ?_⟩, fun q => ?_⟩
      · rw [orderAfter, hr.nodup_keys.mem_erase_iff, hm]
        by_cases hq : port = q
        · simp [has, Dict.get?_erase, hq]
        · simp [has, Dict.get?_erase, hq, Ne.symm hq]
      · rw [Dict.get?_erase, dataAfter]
    · rw [if_neg (by exact hp)]
      exact h.after_unknown _ hp (List.erase_of_not_mem (h.notMem hp)) (by simp [dataAfter]) hne
  | clear =>
    refine ⟨⟨⟨[], Ring.holds_empty⟩, fun q => ?_⟩, fun q => rfl⟩
    simp [orderAfter, PortDataState.act, clear, has]

theorem WellFormed.step (h : s.WellFormed) (op : PortOp) : (s.step op).WellFormed := by
  obtain ⟨l, h⟩ := h
  exact ⟨_, (h.act op).ordered⟩

theorem live_iff : s.Live port ↔ (s.data.get? port).map (·.isDown) = some false := by
  simp [Live]

/-- A live port stays so. -/
theorem WellFormed.live_step (h : s.WellFormed) (op : PortOp) (hl : s.Live port)
    (hop : op.Spares port) : (s.step op).Live port := by
  obtain ⟨l, h⟩ := h
  obtain ⟨d, hd, hdown⟩ := hl
  have hget := (h.act op).get? port
  rw [hd] at hget
  rw [live_iff, PortDataState.step, hget]
  cases op with
  | addPort p isDown | setDown p isDown =>
    by_cases hp : p = port
    · simp [dataAfter, hp, hop hp]
    · simp [dataAfter, hp, hdown]
  | lldpSent p now | lldpReceived p | moveFront p =>
    by_cases hp : p = port <;> simp [dataAfter, hp, hdown]
  | delPort p =>
    have hp : p ≠ port := hop
    simp [dataAfter, hp, hdown]
  | clear => exact absurd hop id

/-! ## The scan -/

theorem Ordered.items (h : s.Ordered l) :
    ∃ items, s.items = some items ∧ items.map Prod.fst = l ∧
      ∀ x ∈ items, s.data.get? x.1 = some x.2 := by
  rw [PortDataState.items, h.iter]
  have hm : ∀ port ∈ l, s.has port := fun port hp => (h.2 port).mp hp
  clear h
  induction l with
  | nil => exact ⟨[], rfl, rfl, by simp⟩
  | cons port l ih =>
    obtain ⟨items, hi, hfst, hget⟩ := ih fun q hq => hm q (List.mem_cons_of_mem port hq)
    obtain ⟨d, hd⟩ := has_iff.1 (hm port List.mem_cons_self)
    refine ⟨(port, d) :: items, ?_, by simp [hfst], by simpa [hd] using hget⟩
    simp only [Option.bind_eq_bind, Option.bind_some] at hi
    simp [List.mapM_cons, hd, hi]

theorem Ordered.order_eq (h : s.Ordered l) : s.order = l := by
  obtain ⟨items, hi, hfst, -⟩ := h.items
  rw [order, hi, Option.getD_some, hfst]

theorem key_of_get? {d : PortData} (h : s.data.get? port = some d) :
    s.key port = d.timestamp.elim ⊥ (↑) := by
  rw [key, h, Option.bind_some]

theorem key_le_iff {d : PortData} (h : s.data.get? port = some d) (now : ℚ) :
    s.key port ≤ ((now - lldpSendPeriodPerPort : ℚ) : WithBot ℚ) ↔
      ∀ t ∈ d.timestamp, t + lldpSendPeriodPerPort ≤ now := by
  rw [key_of_get? h]
  cases d.timestamp with
  | none => exact iff_of_true bot_le (by simp)
  | some t =>
    simp only [Option.mem_def, Option.some.injEq, forall_eq', ← le_sub_iff_add_le]
    exact WithBot.coe_le_coe

theorem waits_iff : s.Waits now port ↔
    s.Live port ∧ s.key port ≤ ((now - lldpSendPeriodPerPort : ℚ) : WithBot ℚ) := by
  constructor
  · rintro ⟨d, hd, hdown, ht⟩
    exact ⟨⟨d, hd, hdown⟩, (key_le_iff hd now).mpr ht⟩
  · rintro ⟨⟨d, hd, hdown⟩, ht⟩
    exact ⟨d, hd, hdown, (key_le_iff hd now).mp ht⟩

/-- The loop gathers the ports that are due, up to the first one that is not. -/
theorem mem_gather_iff {items : List (PortId × PortData)}
    (h : ∀ x ∈ items, s.data.get? x.1 = some x.2) (now : ℚ) (port : PortId) :
    port ∈ (gather now items).portsNow ∨ port ∈ (gather now items).ports ↔
      port ∈ dueScan s.key (now - lldpSendPeriodPerPort) (items.map Prod.fst) := by
  induction items with
  | nil => simp [gather, dueScan]
  | cons x items ih =>
    obtain ⟨q, d⟩ := x
    obtain ⟨hq, h⟩ := List.forall_mem_cons.mp h
    have hle := key_le_iff hq now
    cases ht : d.timestamp with
    | none =>
      have hdue := hle.mpr (by simp [ht])
      simp [gather, ht, dueScan_cons_of_le hdue, ← ih h, or_assoc]
    | some t =>
      have hle : s.key q ≤ _ ↔ t + lldpSendPeriodPerPort ≤ now := hle.trans (by simp [ht])
      by_cases hexp : t + lldpSendPeriodPerPort ≤ now
      · simp [gather, ht, hexp, dueScan_cons_of_le (hle.mpr hexp), ← ih h, or_left_comm]
      · simp [gather, ht, hexp, dueScan_cons_of_lt (not_le.mp (mt hle.mp hexp))]

/-! ## The loops that send -/

section Sending

variable {dps : ℕ → Option ℕ} {clock : PortId → ℚ} {meanwhile : PortId → List PortOp}
  {ports : List PortId}

theorem sendLldpPacket_fst : (s.sendLldpPacket dps port now).1 = s.step (.lldpSent port now) := by
  unfold sendLldpPacket
  rw [PortDataState.step, PortDataState.act]
  generalize s.lldpSent port now = r
  obtain ⟨s', _ | e⟩ := r
  · dsimp only
    split
    · split_ifs <;> rfl
    · rfl
  · rfl

theorem sendLldpPacket_snd (h : (s.sendLldpPacket dps port now).2 = some q) : q = port := by
  unfold sendLldpPacket at h
  generalize s.lldpSent port now = r at h
  obtain ⟨s', _ | e⟩ := r
  · dsimp only at h
    split at h
    · split_ifs at h
      · exact (Option.some.inj h).symm
    · cases h
  · cases h

theorem WellFormed.sendLldpPacket (h : s.WellFormed) (hl : s.Live port)
    (hdp : ∃ version, dps port.dpid = some version ∧ (version = 1 ∨ 3 ≤ version)) :
    (s.sendLldpPacket dps port now).2 = some port := by
  have hp : s.has port := has_iff.2 (hl.imp fun d hd => hd.1)
  have hok : (s.lldpSent port now).2 = none := (h.lldpSent port now).ok_iff.mpr hp
  obtain ⟨d, hd, hdown⟩ := h.live_step (.lldpSent port now) hl trivial
  obtain ⟨version, hv, hv'⟩ := hdp
  rw [PortDataState.step, PortDataState.act] at hd
  unfold PortDataState.sendLldpPacket
  rcases hs : s.lldpSent port now with ⟨s', _ | e⟩
  · rw [hs] at hd
    simp [hd, hdown, hv, hv']
  · rw [hs] at hok
    cases hok

theorem mem_of_mem_sendAll (h : q ∈ (sendAll dps clock meanwhile s ports).2) : q ∈ ports := by
  induction ports generalizing s with
  | nil => cases h
  | cons port ports ih =>
    obtain hq | hq := List.mem_append.mp h
    · exact List.mem_cons.mpr (.inl (sendLldpPacket_snd (Option.mem_toList.mp hq)))
    · exact List.mem_cons_of_mem port (ih hq)

/-- A live port that is left alone stays live, and is sent on if it is gathered. -/
theorem WellFormed.sendAll (h : s.WellFormed) (hl : s.Live port)
    (hdp : ∃ version, dps port.dpid = some version ∧ (version = 1 ∨ 3 ≤ version))
    (clock : PortId → ℚ) (hm : ∀ q, ∀ op ∈ meanwhile q, PortOp.Spares port op)
    (ports : List PortId) :
    (sendAll dps clock meanwhile s ports).1.WellFormed ∧
      (sendAll dps clock meanwhile s ports).1.Live port ∧
      (port ∈ ports → port ∈ (sendAll dps clock meanwhile s ports).2) := by
  induction ports generalizing s with
  | nil => exact ⟨h, hl, id⟩
  | cons q ports ih =>
    have hstep : ∀ ops : List PortOp, (∀ op ∈ ops, PortOp.Spares port op) → ∀ t : PortDataState,
        t.WellFormed → t.Live port → (ops.foldl PortDataState.step t).WellFormed ∧
        (ops.foldl PortDataState.step t).Live port := by
      intro ops
      induction ops with
      | nil => exact fun _ t ht hl => ⟨ht, hl⟩
      | cons op ops ihops =>
        intro hops t ht hl
        obtain ⟨hop, hops⟩ := List.forall_mem_cons.mp hops
        exact ihops hops _ (ht.step op) (ht.live_step op hl hop)
    have h1 : (s.sendLldpPacket dps q (clock q)).1.WellFormed := by
      rw [sendLldpPacket_fst]
      exact h.step _
    have hl1 : (s.sendLldpPacket dps q (clock q)).1.Live port := by
      rw [sendLldpPacket_fst]
      exact h.live_step _ hl trivial
    obtain ⟨h2, hl2⟩ := hstep (meanwhile q) (hm q) _ h1 hl1
    obtain ⟨h3, hl3, hin⟩ := ih h2 hl2
    refine ⟨h3, hl3, fun hp => List.mem_append.mpr ?_⟩
    obtain rfl | hp := List.mem_cons.mp hp
    · exact .inl (Option.mem_toList.mpr (h.sendLldpPacket hl hdp))
    · exact .inr (hin hp)

end Sending

/-! ## The order -/

/-- Every port that waits is sent on exactly if no live port stands behind one that was sent on
later. -/
theorem Ordered.prompt_iff (h : s.Ordered l) : s.Prompt ↔ InOrder s.Live s.key l := by
  obtain ⟨items, hi, rfl, hget⟩ := h.items
  rw [inOrder_iff_mem_dueScan h.nodup]
  constructor
  · intro hp t port hport hl ht
    have hwaits : s.Waits (t + lldpSendPeriodPerPort) port := by
      rw [waits_iff, add_sub_cancel_right]
      exact ⟨hl, ht⟩
    have hout := hp (fun _ => some 4) (fun _ => 0) (fun _ => []) _ port hwaits ⟨4, rfl, by decide⟩
      (fun _ op hop => absurd hop List.not_mem_nil)
    rw [pass, hi] at hout
    have hmem := (mem_gather_iff hget _ port).mp
      ((List.mem_append.mp hout).imp mem_of_mem_sendAll mem_of_mem_sendAll)
    rwa [add_sub_cancel_right] at hmem
  · intro hs dps clock meanwhile now port hwaits hdp hm
    obtain ⟨hl, ht⟩ := waits_iff.1 hwaits
    have hport : port ∈ items.map Prod.fst := (h.2 port).mpr (has_iff.2 (hl.imp fun d hd => hd.1))
    have hgather := (mem_gather_iff hget now port).mpr (hs _ port hport hl ht)
    have hwf : s.WellFormed := ⟨_, h⟩
    have hnone : ∀ q, ∀ op ∈ (fun _ => [] : PortId → List PortOp) q, PortOp.Spares port op :=
      fun _ op hop => absurd hop List.not_mem_nil
    obtain ⟨hwf1, hl1, hin1⟩ := hwf.sendAll hl hdp clock hnone (gather now items).portsNow
    obtain ⟨-, -, hin2⟩ := hwf1.sendAll hl1 hdp clock hm (gather now items).ports
    rw [pass, hi]
    exact List.mem_append.mpr (hgather.imp hin1 hin2)

section Step

variable {op : PortOp}

theorem Ordered.live_step_iff (h : s.Ordered l) : (s.step op).Live q ↔
    (dataAfter op q (s.data.get? q)).map (·.isDown) = some false := by
  rw [live_iff, step, (h.act op).get?]

theorem Ordered.key_step (h : s.Ordered l) : (s.step op).key q =
    ((dataAfter op q (s.data.get? q)).bind (·.timestamp)).elim ⊥ (↑) := by
  rw [key, step, (h.act op).get?]

/-- The other ports keep their data. -/
theorem Ordered.step_of_ne (h : s.Ordered l) (hne : ∀ q, port ≠ q → ∀ d, dataAfter op q d = d)
    (hq : q ≠ port) :
    ((s.step op).Live q ↔ s.Live q) ∧ (s.step op).key q = s.key q := by
  rw [h.live_step_iff, h.key_step, hne q hq.symm, live_iff, key]
  exact ⟨Iff.rfl, rfl⟩

/-- An operation that changes neither the order nor what it rests on. -/
theorem Ordered.inOrder_step (h : s.Ordered l) (hs : InOrder s.Live s.key l)
    (hl : s.orderAfter l op = l)
    (hd : ∀ q, (dataAfter op q (s.data.get? q)).map (fun d => (d.isDown, d.timestamp)) =
      (s.data.get? q).map fun d => (d.isDown, d.timestamp)) :
    InOrder (s.step op).Live (s.step op).key (s.orderAfter l op) := by
  have hlive (q : PortId) : (s.step op).Live q ↔ s.Live q := by
    rw [h.live_step_iff, live_iff]
    have hq := congrArg (Option.map Prod.fst) (hd q)
    rw [Option.map_map, Option.map_map] at hq
    exact iff_of_eq (congrArg (· = some false) hq)
  have hkey (q : PortId) : (s.step op).key q = s.key q := by
    rw [h.key_step, key]
    have hq := congrArg (Option.bind · Prod.snd) (hd q)
    rw [Option.bind_map, Option.bind_map] at hq
    exact congrArg (Option.elim · ⊥ WithBot.some) hq
  rw [hl]
  refine List.Pairwise.imp (fun hle hb => ?_) hs
  rw [hkey, hkey]
  exact hle ((hlive _).mp hb)

/-- So does one on a port that is not known. -/
theorem Ordered.inOrder_step_of_not_has (h : s.Ordered l) (hs : InOrder s.Live s.key l)
    (hp : ¬s.has port) (hl : s.orderAfter l op = l) (hd : dataAfter op port none = none)
    (hne : ∀ q, port ≠ q → ∀ d, dataAfter op q d = d) :
    InOrder (s.step op).Live (s.step op).key (s.orderAfter l op) := by
  refine h.inOrder_step hs hl fun q => ?_
  by_cases hq : port = q
  · subst hq
    rw [not_has_iff.1 hp, hd]
  · rw [hne q hq]

/-- An operation keeps the ports in order exactly if it is in turn. -/
theorem Ordered.inOrder_step_iff (h : s.Ordered l) (hs : InOrder s.Live s.key l) (op : PortOp) :
    InOrder (s.step op).Live (s.step op).key (s.orderAfter l op) ↔ s.InTurn op := by
  have hd := h.nodup
  cases op with
  | addPort port isDown =>
    have hne : ∀ q, port ≠ q → ∀ d, dataAfter (.addPort port isDown) q d = d :=
      fun q hq d => if_neg hq
    have hlive := fun b (_ : b ∈ l) hb => (h.step_of_ne (q := b) hne hb).1
    by_cases hp : s.has port
    · have hkey : ∀ b, (s.step (.addPort port isDown)).key b = s.key b := fun b => by
        by_cases hb : b = port
        · obtain ⟨d, hd⟩ := has_iff.1 hp
          subst hb
          simp [h.key_step, key_of_get? hd, dataAfter, hd]
        · exact (h.step_of_ne hne hb).2
      have hlp : (s.step (.addPort port isDown)).Live port ↔ isDown = false := by
        simp [h.live_step_iff, dataAfter]
      have hl : s.orderAfter l (.addPort port isDown) = l := if_pos hp
      rw [hl, hs.inPlace_iff hlive (fun b _ _ => hkey b) hd ((h.2 port).mpr hp) (hkey port).le, hlp,
        InTurn, h.order_eq, hkey]
      exact ⟨fun hc _ => hc, fun hc => hc hp⟩
    · have hn := h.notMem hp
      have hl : s.orderAfter l (.addPort port isDown) = port :: l.erase port := by
        rw [List.erase_of_not_mem hn]
        exact if_neg hp
      have hkey := fun b (_ : b ∈ l) hb => (h.step_of_ne (q := b) hne hb).2
      rw [hl]
      refine iff_of_true (hs.moveToFront hlive hkey hd ?_) fun hc => absurd hc hp
      simp [h.key_step, dataAfter, not_has_iff.1 hp]
  | lldpSent port now =>
    have hne : ∀ q, port ≠ q → ∀ d, dataAfter (.lldpSent port now) q d = d :=
      fun q hq d => if_neg hq
    by_cases hp : s.has port
    · obtain ⟨d, hdp⟩ := has_iff.1 hp
      have hl : s.orderAfter l (.lldpSent port now) = l.erase port ++ [port] := if_pos hp
      have hkp : (s.step (.lldpSent port now)).key port = (now : WithBot ℚ) := by
        simp [h.key_step, dataAfter, hdp]
      have hlp : (s.step (.lldpSent port now)).Live port ↔ s.Live port := by
        simp [h.live_step_iff, live_iff, dataAfter, hdp]
      rw [hl, hs.moveToEnd_iff (fun b _ hb => (h.step_of_ne hne hb).1)
        (fun b _ hb => (h.step_of_ne hne hb).2) hd, hlp, hkp, InTurn, h.order_eq]
    · refine iff_of_true ?_ fun hc => absurd (has_iff.2 (hc.imp fun d hd => hd.1)) hp
      exact h.inOrder_step_of_not_has hs hp (if_neg hp) (if_pos rfl) hne
  | lldpReceived port =>
    refine iff_of_true (h.inOrder_step hs rfl fun q => ?_) trivial
    rw [dataAfter]
    split
    · rw [Option.map_map]
      rfl
    · rfl
  | moveFront port =>
    have hne : ∀ q, port ≠ q → ∀ d, dataAfter (.moveFront port) q d = d := fun q hq d => if_neg hq
    refine iff_of_true ?_ trivial
    by_cases hp : s.has port
    · have hl : s.orderAfter l (.moveFront port) = port :: l.erase port := if_pos hp
      rw [hl]
      refine hs.moveToFront (fun b _ hb => (h.step_of_ne hne hb).1)
        (fun b _ hb => (h.step_of_ne hne hb).2) hd ?_
      obtain ⟨d, hdp⟩ := has_iff.1 hp
      simp [h.key_step, dataAfter, hdp]
    · exact h.inOrder_step_of_not_has hs hp (if_neg hp) (if_pos rfl) hne
  | setDown port isDown =>
    have hne : ∀ q, port ≠ q → ∀ d, dataAfter (.setDown port isDown) q d = d :=
      fun q hq d => if_neg hq
    have hlive := fun b (_ : b ∈ l) hb => (h.step_of_ne (q := b) hne hb).1
    have hkey := fun b (_ : b ∈ l) hb => (h.step_of_ne (q := b) hne hb).2
    refine iff_of_true ?_ trivial
    by_cases hp : s.has port
    · obtain ⟨d, hdp⟩ := has_iff.1 hp
      have hkp : (s.step (.setDown port isDown)).key port = ⊥ := by
        simp [h.key_step, dataAfter, hdp]
      cases isDown with
      | true =>
        -- the port stays where it is, and counts no more
        have hl : s.orderAfter l (.setDown port true) = l := if_neg (by simp)
        have hlp : ¬(s.step (.setDown port true)).Live port := by
          simp [h.live_step_iff, dataAfter, hdp]
        rw [hl, hs.inPlace_iff hlive hkey hd ((h.2 port).mpr hp) (hkp ▸ bot_le)]
        exact fun hc => absurd hc hlp
      | false =>
        have hl : s.orderAfter l (.setDown port false) = port :: l.erase port := if_pos ⟨hp, rfl⟩
        rw [hl]
        exact hs.moveToFront hlive hkey hd hkp
    · exact h.inOrder_step_of_not_has hs hp (if_neg fun hc => hp hc.1) (if_pos rfl) hne
  | delPort port =>
    have hne : ∀ q, port ≠ q → ∀ d, dataAfter (.delPort port) q d = d := fun q hq d => if_neg hq
    exact iff_of_true (hs.erase_congr (fun b _ hb => (h.step_of_ne hne hb).1)
      (fun b _ hb => (h.step_of_ne hne hb).2) hd) trivial
  | clear => exact iff_of_true List.Pairwise.nil trivial

end Step

/-- In a run of operations every port that waits is sent on, whenever a pass is made, exactly if
every operation is in turn. -/
theorem throughout_prompt_iff (ops : List PortOp) :
    Throughout step Prompt empty ops ↔ EveryStep step InTurn empty ops := by
  refine throughout_iff_everyStep (I := WellFormed) (fun s op h => h.step op)
    (fun s op h hs => ?_) wellFormed_empty ?_ ops
  · obtain ⟨l, h⟩ := h
    have hstep : (s.step op).Ordered (s.orderAfter l op) := (h.act op).ordered
    rw [hstep.prompt_iff]
    exact h.inOrder_step_iff (h.prompt_iff.mp hs) op
  · have h : empty.Ordered [] := ⟨⟨[], Ring.holds_empty⟩, fun port => by simp [has, empty]⟩
    exact h.prompt_iff.mpr List.Pairwise.nil

/-- Two ports are sent on. One goes down, and its port is added again: it waits, and is passed
over for as long as the other has been sent on within the period. -/
theorem pass_passes_over :
    let s := [PortOp.addPort ⟨1, 1⟩ false, .addPort ⟨1, 2⟩ false, .lldpSent ⟨1, 1⟩ 0,
      .lldpSent ⟨1, 2⟩ 0, .setDown ⟨1, 2⟩ true, .addPort ⟨1, 2⟩ false].foldl step empty
    s.Waits (1 / 2) ⟨1, 2⟩ ∧
      (s.pass (fun _ => some 4) (fun _ => 1 / 2) (fun _ => []) (1 / 2)).2 = [] :=
  ⟨⟨⟨false, none, 1⟩, by decide +kernel, rfl, fun _ h => by cases h⟩, by decide +kernel⟩

end PortDataState

end Ryu.Topology
