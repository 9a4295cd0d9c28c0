import Ryu.Igmp.Snooper

/-! # What the messages make of the flow entries

The entries that the messages leave, message by message, and what a report sends.
-/

namespace Ryu.Igmp

open Snooper

variable {sent l : List Sent} {port p q : ℕ} {dst d : String} {g : Group}

section Entry

/-- What one message does to an entry. -/
def Sent.effect (port : ℕ) (dst : String) (e : Option (List ActionOutput)) :
    Sent → Option (List ActionOutput)
  | .setFlowEntry actions p d => if p = port ∧ d = dst then some actions else e
  | .delFlowEntry p d => if p = port ∧ d = dst then none else e
  | .packetOut _ _ _ => e
  | .groupStateChanged _ _ _ _ => e

theorem entry_append : entry port dst (sent ++ l) =
    l.foldl (Sent.effect port dst) (entry port dst sent) := by
  rw [entry, List.foldl_append]
  congr 1
  funext e m
  cases m <;> rfl

theorem foldl_del (ports : List ℕ) (e : Option (List ActionOutput)) :
    (ports.map (Sent.delFlowEntry · d)).foldl (Sent.effect port dst) e =
      if port ∈ ports ∧ d = dst then none else e := by
  induction ports generalizing e with
  | nil => simp
  | cons p ports ih =>
    rw [List.map_cons, List.foldl_cons, ih]
    by_cases hd : d = dst
    · by_cases hp : port = p
      · simp [Sent.effect, hd, hp]
      · simp [Sent.effect, hd, hp, Ne.symm hp]
    · simp [Sent.effect, hd]

/-- A removed group takes the entries of the querier's port and of its members along. -/
theorem foldl_remove (q : ℕ) (d : String) (g : Group) (e : Option (List ActionOutput)) :
    (removeMulticastGroup q d g).foldl (Sent.effect port dst) e =
      if d = dst ∧ (port = q ∨ port ∈ g.ports.keys) then none else e := by
  have hleave : ∀ e, ((g.leave.map fun leave =>
      Sent.packetOut (.received leave.data) leave.inPort [outputTo q]).toList).foldl
        (Sent.effect port dst) e = e := by
    intro e
    cases g.leave <;> rfl
  rw [removeMulticastGroup, List.foldl_append, List.foldl_append, foldl_del, hleave]
  by_cases hd : d = dst
  · by_cases hp : port = q
    · simp [Sent.effect, hd, hp]
    · simp [Sent.effect, hd, hp, Ne.symm hp]
  · simp [Sent.effect, hd]

theorem foldl_removes (q : ℕ) (groups : List (String × Group)) (e : Option (List ActionOutput)) :
    (groups.flatMap fun (d, g) => removeMulticastGroup q d g).foldl (Sent.effect port dst) e =
      if ∃ e ∈ groups, e.1 = dst ∧ (port = q ∨ port ∈ e.2.ports.keys) then none else e := by
  induction groups generalizing e with
  | nil => simp
  | cons dg groups ih =>
    rw [List.flatMap_cons, List.foldl_append, foldl_remove, ih]
    by_cases h : dg.1 = dst ∧ (port = q ∨ port ∈ dg.2.ports.keys)
    · simp [h]
    · by_cases h' : ∃ e ∈ groups, e.1 = dst ∧ (port = q ∨ port ∈ e.2.ports.keys)
      · have hex : ∃ e ∈ dg :: groups, e.1 = dst ∧ (port = q ∨ port ∈ e.2.ports.keys) :=
          h'.imp fun e he => ⟨List.mem_cons_of_mem _ he.1, he.2⟩
        rw [if_pos h', if_pos hex]
      · have hex : ¬ ∃ e ∈ dg :: groups, e.1 = dst ∧ (port = q ∨ port ∈ e.2.ports.keys) := by
          rintro ⟨e, he, hm⟩
          rcases List.mem_cons.mp he with rfl | he
          · exact h hm
          · exact h' ⟨e, he, hm⟩
        rw [if_neg h', if_neg hex, if_neg h]

end Entry

section Group

/-- The entry that brings a port's own reports to the controller. -/
def toController (size : ℕ) : List ActionOutput := [⟨.controller, some size⟩]

theorem outputs_ne (size : ℕ) (g : Group) : g.outputs ≠ toController size := by
  intro h
  have hmem : (⟨.controller, some size⟩ : ActionOutput) ∈ g.outputs := by
    rw [h]
    exact List.mem_singleton_self _
  obtain ⟨n, -, hn⟩ := List.mem_map.mp hmem
  cases hn

theorem keys_setPort (g : Group) (p : ℕ) (f f' : PortFlags) :
    (g.setPort p f).ports.keys = (g.setPort p f').ports.keys := by
  simp only [Group.setPort, Dict.keys, Dict.set, Assoc.keys_insert]

end Group

namespace Snooper

variable {s : Snooper}

def querierPort (s : Snooper) : Option ℕ := s.toQuerier.map Querier.port

section Report

/-- The group a message finds or makes. -/
def groupAt (s : Snooper) (dst : String) : Group := (s.toHosts.get? dst).getD .new

/-- The port is known to have had a flow entry. -/
def portIn (s : Snooper) (dst : String) (p : ℕ) : Bool :=
  (((s.groupAt dst).ports.get? p).map PortFlags.isIn).getD false

/-- What joining leaves: the port is a member, and a new port has an entry to the controller. -/
theorem join_eq (s : Snooper) (outport : Option ℕ) (p : ℕ) (d : String) :
    ∃ messages, s.join outport p d =
        { s with
          toHosts := s.toHosts.set d ((s.groupAt d).setPort p ⟨true, s.portIn d p⟩)
          sent := s.sent ++ messages } ∧
      ∀ port dst e, messages.foldl (Sent.effect port dst) e =
        if (s.groupAt d).ports.get? p = none ∧ port = p ∧ dst = d then some (toController s.size)
        else e := by
  have heffect : ∀ port dst e, Sent.effect port dst e (.setFlowEntry (toController s.size) p d) =
      if port = p ∧ dst = d then some (toController s.size) else e := by
    intro port dst e
    simp only [Sent.effect, eq_comm]
  cases hd : s.toHosts.get? d with
  | none =>
    refine ⟨[.groupStateChanged .groupAdded d outport [],
      .setFlowEntry (toController s.size) p d], ?_, ?_⟩
    · simp [join, hd, send, groupAt, portIn, Group.new, Group.setPort, toController, Dict.set_set]
    · intro port dst e
      simp only [List.foldl_cons, List.foldl_nil, heffect]
      simp [Sent.effect, groupAt, hd, Group.new]
  | some g =>
    cases hp : g.ports.get? p with
    | none =>
      refine ⟨[.setFlowEntry (toController s.size) p d], ?_, ?_⟩
      · simp [join, hd, hp, send, groupAt, portIn, toController]
      · intro port dst e
        simp [heffect, groupAt, hd, hp]
    | some f =>
      refine ⟨[], ?_, ?_⟩
      · simp [join, hd, hp, groupAt, portIn]
      · intro port dst e
        simp [groupAt, hd, hp]

/-- A report with no querier. -/
theorem doReport_of_none (h : s.querierPort = none) (data : Data) :
    s.doReport p d data = s.join none p d := by
  have hq : s.toQuerier.map Querier.port = none := h
  simp [doReport, hq]

/-- What a report leaves when the querier is known: the port is a member, the group has replied, and
the entry of the querier's port leads to the members unless the port had it before. -/
theorem doReport_eq (h : s.querierPort = some q) (hq : q ≠ 0) (data : Data) :
    ∃ messages, s.doReport p d data =
        { s with
          toHosts := s.toHosts.set d { (s.groupAt d).setPort p ⟨true, true⟩ with replied := true }
          sent := s.sent ++ messages } ∧
      ∀ port dst e, messages.foldl (Sent.effect port dst) e =
        if s.portIn d p = false ∧ port = q ∧ dst = d then
          some ((s.groupAt d).setPort p ⟨true, true⟩).outputs
        else if (s.groupAt d).ports.get? p = none ∧ port = p ∧ dst = d then
          some (toController s.size)
        else e := by
  obtain ⟨n, rfl⟩ := Nat.exists_eq_succ_of_ne_zero hq
  have hq : s.toQuerier.map Querier.port = some (n + 1) := h
  obtain ⟨messages, heq, heff⟩ := join_eq s (some (n + 1)) p d
  have hkeys := keys_setPort (s.groupAt d) p ⟨true, s.portIn d p⟩ ⟨true, true⟩
  simp only [doReport, hq, heq, Dict.get?_set_self]
  simp only [Group.setPort, Dict.get?_set_self] at hkeys ⊢
  cases hin : s.portIn d p with
  | true =>
    cases hr : (s.groupAt d).replied with
    | true =>
      refine ⟨messages, ?_, ?_⟩
      · simp [memberChanged, forward]
      · intro port dst e
        rw [heff]
        simp
    | false =>
      refine ⟨messages ++ [.packetOut (.received data) p [⟨.port (n + 1), some s.size⟩]], ?_, ?_⟩
      · simp [memberChanged, forward, send, Dict.set_set]
      · intro port dst e
        rw [List.foldl_append, heff]
        simp [Sent.effect]
  | false =>
    rw [hin] at hkeys
    let flow : List Sent := [.groupStateChanged .memberChanged d (some (n + 1))
      ((s.groupAt d).setPort p ⟨true, false⟩).ports.keys,
      .setFlowEntry ((s.groupAt d).setPort p ⟨true, true⟩).outputs (n + 1) d]
    have hflow : ∀ port dst e, flow.foldl (Sent.effect port dst) e =
        if port = n + 1 ∧ dst = d then some ((s.groupAt d).setPort p ⟨true, true⟩).outputs else e := by
      intro port dst e
      simp only [flow, List.foldl_cons, List.foldl_nil, Sent.effect, eq_comm]
    cases hr : (s.groupAt d).replied with
    | true =>
      refine ⟨messages ++ flow, ?_, ?_⟩
      · simp [memberChanged, forward, send, flow, Group.setPort, Group.outputs, hkeys,
          Dict.set_set]
      · intro port dst e
        rw [List.foldl_append, heff, hflow]
        simp [Group.setPort, Group.outputs]
    | false =>
      refine ⟨messages ++ flow ++ [.packetOut (.received data) p [⟨.port (n + 1), some s.size⟩]],
        ?_, ?_⟩
      · simp [memberChanged, forward, send, flow, Group.setPort, Group.outputs, hkeys,
          Dict.set_set]
      · intro port dst e
        rw [List.foldl_append, List.foldl_append, heff, hflow]
        simp [Group.setPort, Group.outputs, Sent.effect]

end Report

end Snooper

end Ryu.Igmp
