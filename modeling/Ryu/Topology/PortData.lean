import Mathlib.Data.List.Perm.Subperm
import Mathlib.Data.Rat.Defs
import Ryu.Lib.Outcome
import Ryu.Lib.Ring

/-! # The ports of link discovery

`PortDataState` of `topology.switches`: a dictionary from ports to what discovery knows of
them, in an order of its own that is kept in a doubly linked list. Whatever is done, the list
holds each port of the dictionary once.
-/

namespace Ryu.Topology

/-- A `Port` as its `__eq__` and `__hash__` see it. -/
structure PortId where
  dpid : ℕ
  portNo : ℕ
  deriving DecidableEq, Repr

/-- `PortData`, without the LLDP packet. -/
structure PortData where
  isDown : Bool
  timestamp : Option ℚ
  sent : ℕ
  deriving DecidableEq, Repr

structure PortDataState where
  data : Dict PortId PortData
  ring : Ring PortId

namespace PortDataState

open Outcome

def empty : PortDataState := ⟨Dict.empty, Ring.empty⟩

def has (s : PortDataState) (port : PortId) : Prop := (s.data.get? port).isSome

instance (s : PortDataState) (port : PortId) : Decidable (s.has port) :=
  inferInstanceAs (Decidable ((s.data.get? port).isSome = true))

/-- `_remove_key`. -/
def removeKey (s : PortDataState) (port : PortId) : Outcome PortDataState :=
  match s.ring.remove port with
  | none => (s, some (.keyError "port"))
  | some ring => ({ s with ring := ring }, none)

/-- `_append_key`. -/
def appendKey (s : PortDataState) (port : PortId) : Outcome PortDataState :=
  ({ s with ring := s.ring.append port }, none)

/-- `_prepend_key`. -/
def prependKey (s : PortDataState) (port : PortId) : Outcome PortDataState :=
  ({ s with ring := s.ring.prepend port }, none)

/-- `_move_last_key`. -/
def moveLastKey (s : PortDataState) (port : PortId) : Outcome PortDataState :=
  (s.removeKey port).andThen (·.appendKey port)

/-- `_move_front_key`. -/
def moveFrontKey (s : PortDataState) (port : PortId) : Outcome PortDataState :=
  (s.removeKey port).andThen (·.prependKey port)

/-- `self[port]`, changed in place. -/
def update (s : PortDataState) (port : PortId) (f : PortData → PortData) : Outcome PortDataState :=
  match s.data.get? port with
  | none => (s, some (.keyError "port"))
  | some d => ({ s with data := s.data.set port (f d) }, none)

/-- `add_port`. -/
def addPort (s : PortDataState) (port : PortId) (isDown : Bool) : Outcome PortDataState :=
  if (s.data.get? port).isSome then s.update port ({ · with isDown := isDown })
  else (s.prependKey port).andThen fun s =>
    ({ s with data := s.data.set port ⟨isDown, none, 0⟩ }, none)

/-- `lldp_sent`. -/
def lldpSent (s : PortDataState) (port : PortId) (now : ℚ) : Outcome PortDataState :=
  (s.update port fun d => { d with timestamp := some now, sent := d.sent + 1 }).andThen
    (·.moveLastKey port)

/-- `lldp_received`. -/
def lldpReceived (s : PortDataState) (port : PortId) : Outcome PortDataState :=
  s.update port ({ · with sent := 0 })

/-- `move_front`. -/
def moveFront (s : PortDataState) (port : PortId) : Outcome PortDataState :=
  if (s.data.get? port).isSome then
    (s.update port ({ · with timestamp := none })).andThen (·.moveFrontKey port)
  else (s, none)

/-- `set_down`, for a port that is down or not. -/
def setDown (s : PortDataState) (port : PortId) (isDown : Bool) : Outcome PortDataState :=
  (s.update port ({ · with isDown := isDown, timestamp := none })).andThen fun s =>
    if isDown then (s, none) else s.moveFrontKey port

/-- `del_port`. -/
def delPort (s : PortDataState) (port : PortId) : Outcome PortDataState :=
  if (s.data.get? port).isSome then
    removeKey { s with data := s.data.erase port } port
  else (s, some (.keyError "port"))

/-- `__iter__`, which the keys of the dictionary are enough for. -/
def iter (s : PortDataState) : Option (List (Option PortId)) :=
  s.ring.walk (s.data.keys.length + 1) (s.ring.next 0)

/-! ## The order -/

/-- The list holds the ports of the dictionary in the order given. -/
def Ordered (s : PortDataState) (order : List PortId) : Prop :=
  (∃ ns, s.ring.Holds order ns) ∧ ∀ port, port ∈ order ↔ s.has port

/-- The list holds each port of the dictionary once. -/
def WellFormed (s : PortDataState) : Prop := ∃ order, s.Ordered order

variable {s : PortDataState} {port : PortId} {order : List PortId}

theorem wellFormed_empty : empty.WellFormed :=
  ⟨[], ⟨[], Ring.holds_empty⟩, fun port => by simp [has, empty]⟩

theorem Ordered.nodup (h : s.Ordered order) : order.Nodup := by
  obtain ⟨⟨ns, h⟩, -⟩ := h
  exact h.nodup_keys

/-- Iteration gives the order. -/
theorem Ordered.iter (h : s.Ordered order) : s.iter = some (order.map some) := by
  obtain ⟨⟨ns, hr⟩, hm⟩ := h
  apply hr.walk
  apply Nat.lt_succ_of_le
  apply List.Subperm.length_le
  apply List.subperm_of_subset hr.nodup_keys
  intro port hp
  exact Dict.mem_keys_iff.mpr ((hm port).mp hp)

/-- The port was known or not, and the action left these ports behind. -/
structure Leaves (r : Outcome PortDataState) (ok : Prop) (P : PortId → Prop) : Prop where
  wellFormed : r.1.WellFormed
  ok_iff : r.2 = none ↔ ok
  has_iff : ∀ q, r.1.has q ↔ P q

variable {r : Outcome PortDataState} {ok : Prop} {P : PortId → Prop}

theorem Leaves.eq (h : Leaves r True P) : r = (r.1, none) :=
  Prod.ext rfl (h.ok_iff.mpr trivial)

theorem Leaves.andThen {g : PortDataState → Outcome PortDataState} (h : Leaves r ok P)
    (hg : ok → ∀ s, s.WellFormed → (∀ q, s.has q ↔ P q) → Leaves (g s) True P) :
    Leaves (r.andThen g) ok P := by
  obtain ⟨s, _ | e⟩ := r
  · have hok : ok := h.ok_iff.mp rfl
    obtain ⟨h1, h2, h3⟩ := hg hok s h.wellFormed h.has_iff
    exact ⟨h1, h2.trans (iff_of_true trivial hok), h3⟩
  · exact ⟨h.wellFormed, h.ok_iff, h.has_iff⟩

theorem WellFormed.update (h : s.WellFormed) (port : PortId) (f : PortData → PortData) :
    Leaves (s.update port f) (s.has port) s.has := by
  cases hd : s.data.get? port with
  | none =>
    have hn : ¬s.has port := by simp [has, hd]
    rw [PortDataState.update, hd]
    exact ⟨h, iff_of_false (fun he => by cases he) hn, fun _ => Iff.rfl⟩
  | some d =>
    have hp : s.has port := by simp [has, hd]
    have hq (q : PortId) : ((s.data.set port (f d)).get? q).isSome ↔ s.has q := by
      rw [Dict.get?_set]
      split
      · next he => simp [← he, hp]
      · exact Iff.rfl
    obtain ⟨order, hr, hm⟩ := h
    rw [PortDataState.update, hd]
    exact ⟨⟨order, hr, fun q => (hm q).trans (hq q).symm⟩, iff_of_true rfl hp, hq⟩

/-- A port of the dictionary is taken out of the list and put back. -/
theorem WellFormed.reinsert (h : s.WellFormed) (hp : s.has port)
    (put : Ring PortId → Ring PortId) (place : List PortId → List PortId)
    (hput : ∀ r ks ns, r.Holds ks ns → port ∉ ks → ∃ ns', (put r).Holds (place ks) ns')
    (hat : ∀ ks q, q ∈ place ks ↔ q = port ∨ q ∈ ks) :
    Leaves ((s.removeKey port).andThen fun s => ({ s with ring := put s.ring }, none)) True
      s.has := by
  obtain ⟨order, ⟨ns, hr⟩, hm⟩ := h
  obtain ⟨ring, ns', hrem, hr'⟩ := hr.remove ((hm port).mpr hp)
  have hnot : port ∉ order.erase port := fun hc => List.Nodup.not_mem_erase hr.nodup_keys hc
  have hq (q : PortId) : q ∈ place (order.erase port) ↔ s.has q := by
    rw [hat, ← hm]
    by_cases he : q = port
    · subst he
      simpa using (hm q).mpr hp
    · simp [he, List.mem_erase_of_ne he]
  rw [removeKey, hrem]
  exact ⟨⟨_, hput _ _ _ hr' hnot, hq⟩, iff_of_true rfl trivial, fun q => Iff.rfl⟩

theorem WellFormed.moveLastKey (h : s.WellFormed) (hp : s.has port) :
    Leaves (s.moveLastKey port) True s.has :=
  h.reinsert hp (·.append port) (· ++ [port]) (fun _ _ _ hr hn => ⟨_, hr.append hn⟩)
    fun ks q => by simp [or_comm]

theorem WellFormed.moveFrontKey (h : s.WellFormed) (hp : s.has port) :
    Leaves (s.moveFrontKey port) True s.has :=
  h.reinsert hp (·.prepend port) (port :: ·) (fun _ _ _ hr hn => ⟨_, hr.prepend hn⟩)
    fun _ _ => List.mem_cons

theorem WellFormed.lldpReceived (h : s.WellFormed) (port : PortId) :
    Leaves (s.lldpReceived port) (s.has port) s.has :=
  h.update port _

theorem WellFormed.lldpSent (h : s.WellFormed) (port : PortId) (now : ℚ) :
    Leaves (s.lldpSent port now) (s.has port) s.has := by
  refine (h.update port _).andThen fun hp s' hs hq => ?_
  obtain ⟨h1, h2, h3⟩ := hs.moveLastKey ((hq port).mpr hp)
  exact ⟨h1, h2, fun q => (h3 q).trans (hq q)⟩

theorem WellFormed.setDown (h : s.WellFormed) (port : PortId) (isDown : Bool) :
    Leaves (s.setDown port isDown) (s.has port) s.has := by
  refine (h.update port _).andThen fun hp s' hs hq => ?_
  cases isDown with
  | true => exact ⟨hs, iff_of_true rfl trivial, hq⟩
  | false =>
    obtain ⟨h1, h2, h3⟩ := hs.moveFrontKey ((hq port).mpr hp)
    exact ⟨h1, h2, fun q => (h3 q).trans (hq q)⟩

theorem WellFormed.moveFront (h : s.WellFormed) (port : PortId) :
    Leaves (s.moveFront port) True s.has := by
  unfold PortDataState.moveFront
  split
  · next hp =>
    have hl := (h.update port ({ · with timestamp := none })).andThen (g := (·.moveFrontKey port))
      fun hp s' hs hq => by
        obtain ⟨h1, h2, h3⟩ := hs.moveFrontKey ((hq port).mpr hp)
        exact ⟨h1, h2, fun q => (h3 q).trans (hq q)⟩
    exact ⟨hl.wellFormed, hl.ok_iff.trans (iff_of_true hp trivial), hl.has_iff⟩
  · exact ⟨h, iff_of_true rfl trivial, fun _ => Iff.rfl⟩

theorem WellFormed.addPort (h : s.WellFormed) (port : PortId) (isDown : Bool) :
    Leaves (s.addPort port isDown) True (fun q => q = port ∨ s.has q) := by
  unfold PortDataState.addPort
  split
  · next hp =>
    obtain ⟨h1, h2, h3⟩ := h.update port ({ · with isDown := isDown })
    refine ⟨h1, h2.trans (iff_of_true hp trivial), fun q => (h3 q).trans ?_⟩
    exact ⟨.inr, fun hq => hq.elim (fun he => he ▸ hp) id⟩
  · next hp =>
    obtain ⟨order, ⟨ns, hr⟩, hm⟩ := h
    have hq (q : PortId) : ((s.data.set port ⟨isDown, none, 0⟩).get? q).isSome ↔
        q = port ∨ s.has q := by
      rw [Dict.get?_set]
      by_cases he : port = q
      · simp [he]
      · simp [he, Ne.symm he, has]
    have hn : port ∉ order := fun hc => hp ((hm port).mp hc)
    refine ⟨⟨port :: order, ⟨_, hr.prepend hn⟩, fun q => ?_⟩, iff_of_true rfl trivial, hq⟩
    rw [List.mem_cons, hm]
    exact (hq q).symm

theorem WellFormed.delPort (h : s.WellFormed) (port : PortId) :
    Leaves (s.delPort port) (s.has port) (fun q => q ≠ port ∧ s.has q) := by
  unfold PortDataState.delPort
  split
  · next hp =>
    obtain ⟨order, ⟨ns, hr⟩, hm⟩ := h
    obtain ⟨ring, ns', hrem, hr'⟩ := hr.remove ((hm port).mpr hp)
    have hq (q : PortId) : ((s.data.erase port).get? q).isSome ↔ q ≠ port ∧ s.has q := by
      rw [Dict.get?_erase]
      by_cases he : port = q
      · simp [he]
      · simp [he, Ne.symm he, has]
    rw [removeKey, hrem]
    refine ⟨⟨order.erase port, ⟨_, hr'⟩, fun q => ?_⟩, iff_of_true rfl hp, hq⟩
    rw [hr.nodup_keys.mem_erase_iff, hm]
    exact (hq q).symm
  · next hp =>
    refine ⟨h, iff_of_false (fun he => by cases he) hp, fun q => ⟨fun hq => ⟨?_, hq⟩, And.right⟩⟩
    rintro rfl
    exact hp hq

end PortDataState

end Ryu.Topology
