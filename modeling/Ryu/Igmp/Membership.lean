import Ryu.Igmp.Entries
import Ryu.Lib.Run

/-! # Group members and their flow entries

Between two timeouts a group's members and its flow entry may differ in two ways only: a port that
has left waits for its timeout, or nobody has reported since the querier became known. The flow
entries are right when no timeout is pending, as long as the querier keeps its port and no timeout
takes away what another one waits for.
-/

namespace Ryu.Igmp

open Snooper

variable {sent : List Sent} {port p q : ℕ} {dst d : String} {g : Group}

namespace Snooper

variable {s : Snooper}

/-- The querier's port has an entry to a group that is not one to the controller. -/
def HasFlow (s : Snooper) (q : ℕ) (dst : String) : Prop :=
  entry q dst s.sent ≠ none ∧ entry q dst s.sent ≠ some (toController s.size)

instance (s : Snooper) (q : ℕ) (dst : String) : Decidable (s.HasFlow q dst) :=
  inferInstanceAs (Decidable (_ ∧ _))

/-- The querier keeps its port as long as a group has a flow entry, and it is no port 0; no group
times out while a leave of it waits; and no member leaves twice. -/
def InOrder (s : Snooper) : Input → Prop
  | .query inPort _ _ _ _ =>
    inPort ≠ 0 ∧ ∀ q ∈ s.querierPort, q ≠ inPort → ∀ dst ∈ s.toHosts.keys, ¬ s.HasFlow q dst
  | .queryTimeout =>
    ∀ e ∈ s.toHosts.entries, e.2.replied = false → ∀ l ∈ s.leaveTimeouts, l.1 ≠ e.1
  | .leaveTimeout dst inPort =>
    (∃ e ∈ s.toHosts.entries, e.1 = dst ∧ ∃ f ∈ e.2.ports.entries, f.1 = inPort ∧ f.2.out = false) →
      (dst, inPort) ∉ s.leaveTimeouts.erase (dst, inPort)
  | _ => True

instance (s : Snooper) : DecidablePred s.InOrder
  | .query _ _ _ _ _ => inferInstanceAs (Decidable (_ ∧ _))
  | .queryTimeout => inferInstanceAs (Decidable (∀ e ∈ _, _ → ∀ l ∈ _, _))
  | .leaveTimeout _ _ => inferInstanceAs (Decidable (_ → _))
  | .report _ _ _ => inferInstanceAs (Decidable True)
  | .leave _ _ _ => inferInstanceAs (Decidable True)

/-- No timeout is pending. -/
def Settled (s : Snooper) : Prop := s.queryTimeouts = 0 ∧ s.leaveTimeouts = []

/-- The flow entry of each group leads to its member ports, and there is no entry but those of the
groups and their member ports. -/
structure Agrees (s : Snooper) (q : ℕ) : Prop where
  flows : ∀ dst g, s.toHosts.get? dst = some g → entry q dst s.sent = some g.outputs
  removed : ∀ port dst, entry port dst s.sent ≠ none →
    ∃ g, s.toHosts.get? dst = some g ∧ (port ∈ g.ports.keys ∨ port = q)

section Invariant

/-- Nobody has reported to the group since the querier became known. -/
def Fresh (g : Group) : Prop :=
  g.replied = false ∧ ∀ p f, g.ports.get? p = some f → f.isIn = false

/-- What holds of a group at any time. -/
structure Kept (s : Snooper) (dst : String) (g : Group) : Prop where
  flags : ∀ p f, g.ports.get? p = some f → f.isIn → f.out
  marked : (g.replied ∨ ∃ p f, g.ports.get? p = some f ∧ f.isIn) →
    ∃ q, s.querierPort = some q ∧ s.HasFlow q dst
  status : (∃ q, s.querierPort = some q ∧ entry q dst s.sent = some g.outputs) ∨
    (∃ p f, g.ports.get? p = some f ∧ f.out = false ∧ (dst, p) ∈ s.leaveTimeouts) ∨
    (Fresh g ∧ (s.querierPort = none ∨ 0 < s.queryTimeouts))

structure Invariant (s : Snooper) : Prop where
  querier : s.querierPort ≠ some 0
  idle : s.querierPort = none → s.queryTimeouts = 0 ∧ s.leaveTimeouts = []
  pending : ∀ dst p, (dst, p) ∈ s.leaveTimeouts →
    ∃ g f, s.toHosts.get? dst = some g ∧ g.ports.get? p = some f
  entries : ∀ p dst e, entry p dst s.sent = some e → ∃ g, s.toHosts.get? dst = some g ∧
    ((g.ports.get? p).isSome ∨ s.querierPort = some p ∧ e ≠ toController s.size)
  groups : ∀ dst g, s.toHosts.get? dst = some g → s.Kept dst g

theorem invariant_init (size : ℕ) : (init size).Invariant := by
  constructor
  · rintro ⟨⟩
  · exact fun _ => ⟨rfl, rfl⟩
  · rintro dst p ⟨⟩
  · rintro p dst e ⟨⟩
  · rintro dst g ⟨⟩

/-- What a query makes of the groups: their ports stay, and none is replied that was not. -/
theorem toHosts_doQuery (inPort : ℕ) (address ip mac : String) (data : Data) (dst : String) :
    ∀ g', (s.doQuery inPort address ip mac data).toHosts.get? dst = some g' →
      ∃ g, s.toHosts.get? dst = some g ∧ g'.ports = g.ports ∧ (g'.replied → g.replied) := by
  intro g' h
  dsimp only [doQuery] at h
  split_ifs at h
  · rw [Dict.get?_mapValues, Option.map_eq_some_iff] at h
    obtain ⟨g, hg, rfl⟩ := h
    exact ⟨g, hg, rfl, by rintro ⟨⟩⟩
  · split at h
    · next g hg =>
      rw [Dict.get?_set] at h
      split_ifs at h with he
      · subst he
        obtain rfl := Option.some.inj h
        exact ⟨g, hg, rfl, by rintro ⟨⟩⟩
      · exact ⟨g', h, rfl, id⟩
    · exact ⟨g', h, rfl, id⟩

theorem get?_toHosts_doQuery (inPort : ℕ) (address ip mac : String) (data : Data)
    (h : s.toHosts.get? dst = some g) :
    ∃ g', (s.doQuery inPort address ip mac data).toHosts.get? dst = some g' ∧
      g'.ports = g.ports := by
  dsimp only [doQuery]
  split_ifs
  · exact ⟨g.reset, by rw [Dict.get?_mapValues, h]; rfl, rfl⟩
  · split
    · next g₀ hg =>
      by_cases he : address = dst
      · subst he
        obtain rfl := Option.some.inj (hg.symm.trans h)
        exact ⟨g₀.reset, Dict.get?_set_self _ _ _, rfl⟩
      · exact ⟨g, by rw [Dict.get?_set_of_ne he, h], rfl⟩
    · exact ⟨g, h, rfl⟩

/-- A message that is no flow entry. -/
theorem entry_packetOut (frame : Frame) (p : ℕ) (actions : List ActionOutput) :
    entry port dst (sent ++ [.packetOut frame p actions]) = entry port dst sent :=
  entry_append

theorem Invariant.doQuery (h : s.Invariant) {inPort : ℕ} {address ip mac : String} {data : Data}
    (hg : s.InOrder (.query inPort address ip mac data)) :
    (s.doQuery inPort address ip mac data).Invariant := by
  obtain ⟨hne, hport⟩ := hg
  have hq : (s.doQuery inPort address ip mac data).querierPort = some inPort := rfl
  have hentry : ∀ p dst, entry p dst (s.doQuery inPort address ip mac data).sent =
      entry p dst s.sent := fun p dst => entry_packetOut _ _ _
  have hflow : ∀ q dst g, s.querierPort = some q → s.toHosts.get? dst = some g →
      s.HasFlow q dst → q = inPort := by
    intro q dst g hq hg hf
    by_contra hn
    exact hport q hq hn dst (Dict.mem_keys_iff.mpr (by rw [hg]; rfl)) hf
  constructor
  · rw [hq]
    exact fun h0 => hne (Option.some.inj h0)
  · rw [hq]
    rintro ⟨⟩
  · intro dst p hp
    obtain ⟨g, f, hd, hf⟩ := h.pending dst p hp
    obtain ⟨g', hd', hports⟩ := get?_toHosts_doQuery inPort address ip mac data hd
    exact ⟨g', f, hd', hports ▸ hf⟩
  · intro p dst e he
    rw [hentry] at he
    obtain ⟨g, hd, hp⟩ := h.entries p dst e he
    obtain ⟨g', hd', hports⟩ := get?_toHosts_doQuery inPort address ip mac data hd
    refine ⟨g', hd', hp.imp (fun hp => hports ▸ hp) ?_⟩
    rintro ⟨hq₀, hc⟩
    rw [hflow p dst g hq₀ hd ⟨by rw [he]; rintro ⟨⟩, by rw [he]; exact fun h => hc (Option.some.inj h)⟩]
    exact ⟨hq, hc⟩
  · intro dst g' hd'
    obtain ⟨g, hd, hports, hr⟩ := toHosts_doQuery _ _ _ _ _ _ _ hd'
    have hk := h.groups dst g hd
    constructor
    · rw [hports]
      exact hk.flags
    · intro hm
      rw [hports] at hm
      obtain ⟨q, hq₀, hf⟩ := hk.marked (hm.imp hr id)
      obtain rfl := hflow q dst g hq₀ hd hf
      exact ⟨q, hq, by rwa [HasFlow, hentry]⟩
    · have hout : g'.outputs = g.outputs := by rw [Group.outputs, hports, Group.outputs]
      rcases hk.status with ⟨q, hq₀, hs⟩ | ⟨p, f, hp, hf, hl⟩ | ⟨hfresh, -⟩
      · have hf : s.HasFlow q dst := by
          rw [HasFlow, hs]
          exact ⟨by rintro ⟨⟩, fun h => outputs_ne _ _ (Option.some.inj h)⟩
        obtain rfl := hflow q dst g hq₀ hd hf
        exact Or.inl ⟨q, hq, by rw [hentry, hs, hout]⟩
      · exact Or.inr (Or.inl ⟨p, f, by rw [hports, hp], hf, hl⟩)
      · refine Or.inr (Or.inr ⟨⟨?_, ?_⟩, Or.inr (Nat.succ_pos _)⟩)
        · rw [← Bool.not_eq_true]
          exact fun h => Bool.eq_false_iff.mp hfresh.1 (hr h)
        · rw [hports]
          exact hfresh.2

/-- What is changed at one group only. -/
structure Touches (s s' : Snooper) (d : String) (g : Group) : Prop where
  querierPort : s'.querierPort = s.querierPort
  size : s'.size = s.size
  queryTimeouts : s'.queryTimeouts = s.queryTimeouts
  leaveTimeouts : ∀ dst p, dst ≠ d → ((dst, p) ∈ s'.leaveTimeouts ↔ (dst, p) ∈ s.leaveTimeouts)
  pending : ∀ p, (d, p) ∈ s'.leaveTimeouts → (g.ports.get? p).isSome
  toHosts : ∀ dst, s'.toHosts.get? dst = if d = dst then some g else s.toHosts.get? dst
  entries : ∀ p dst, dst ≠ d → entry p dst s'.sent = entry p dst s.sent

theorem Invariant.touches (h : s.Invariant) {s' : Snooper} {d : String} {g : Group}
    (ht : s.Touches s' d g) (hi : s.querierPort = none → s'.leaveTimeouts = [])
    (he : ∀ p e, entry p d s'.sent = some e → (g.ports.get? p).isSome ∨
      s.querierPort = some p ∧ e ≠ toController s.size)
    (hk : s'.Kept d g) : s'.Invariant := by
  constructor
  · rw [ht.querierPort]
    exact h.querier
  · rw [ht.querierPort, ht.queryTimeouts]
    exact fun hn => ⟨(h.idle hn).1, hi hn⟩
  · intro dst p hp
    rw [ht.toHosts]
    by_cases hd : d = dst
    · subst hd
      obtain ⟨f, hf⟩ := Option.isSome_iff_exists.mp (ht.pending p hp)
      exact ⟨g, f, if_pos rfl, hf⟩
    · rw [if_neg hd]
      exact h.pending dst p ((ht.leaveTimeouts dst p (Ne.symm hd)).mp hp)
  · intro p dst e hent
    rw [ht.toHosts, ht.querierPort, ht.size]
    by_cases hd : d = dst
    · subst hd
      exact ⟨g, if_pos rfl, he p e hent⟩
    · rw [if_neg hd]
      rw [ht.entries p dst (Ne.symm hd)] at hent
      exact h.entries p dst e hent
  · intro dst k hg
    rw [ht.toHosts] at hg
    split_ifs at hg with hd
    · subst hd
      obtain rfl := Option.some.inj hg
      exact hk
    · -- another group
      have hkept := h.groups dst k hg
      constructor
      · exact hkept.flags
      · intro hm
        obtain ⟨q, hq, hf⟩ := hkept.marked hm
        refine ⟨q, ht.querierPort.trans hq, ?_⟩
        rwa [HasFlow, ht.entries q dst (Ne.symm hd), ht.size]
      · rcases hkept.status with ⟨q, hq, hs⟩ | ⟨p, f, hp, hf, hl⟩ | ⟨hf, hq⟩
        · exact Or.inl ⟨q, ht.querierPort.trans hq, by rw [ht.entries q dst (Ne.symm hd), hs]⟩
        · exact Or.inr (Or.inl ⟨p, f, hp, hf, (ht.leaveTimeouts dst p (Ne.symm hd)).mpr hl⟩)
        · exact Or.inr (Or.inr ⟨hf, by rwa [ht.querierPort, ht.queryTimeouts]⟩)

/-- The same of a group that may not be known yet. -/
structure KeptAt (s : Snooper) (dst : String) (g : Group) : Prop where
  flags : ∀ p f, g.ports.get? p = some f → f.isIn → f.out
  marked : (g.replied ∨ ∃ p f, g.ports.get? p = some f ∧ f.isIn) →
    ∃ q, s.querierPort = some q ∧ s.HasFlow q dst
  status : (∃ q, s.querierPort = some q ∧ entry q dst s.sent = some g.outputs) ∨
    (∃ p f, g.ports.get? p = some f ∧ f.out = false ∧ (dst, p) ∈ s.leaveTimeouts) ∨ Fresh g
  pending : ∀ p, (dst, p) ∈ s.leaveTimeouts → (g.ports.get? p).isSome
  entries : ∀ p e, entry p dst s.sent = some e → (g.ports.get? p).isSome ∨
    s.querierPort = some p ∧ e ≠ toController s.size

theorem Invariant.keptAt (h : s.Invariant) (d : String) : s.KeptAt d (s.groupAt d) := by
  unfold groupAt
  cases hd : s.toHosts.get? d with
  | none =>
    constructor
    · rintro p f ⟨⟩
    · rintro (hr | ⟨p, f, ⟨⟩, -⟩)
      exact absurd hr (by decide)
    · exact Or.inr (Or.inr ⟨rfl, by rintro p f ⟨⟩⟩)
    · intro p hp
      obtain ⟨g, f, hg, -⟩ := h.pending d p hp
      cases hd.symm.trans hg
    · intro p e he
      obtain ⟨g, hg, -⟩ := h.entries p d e he
      cases hd.symm.trans hg
  | some g =>
    have hk := h.groups d g hd
    constructor
    · exact hk.flags
    · exact hk.marked
    · exact hk.status.imp id (Or.imp id And.left)
    · intro p hp
      obtain ⟨g₀, f, hg, hf⟩ := h.pending d p hp
      obtain rfl := Option.some.inj (hd.symm.trans hg)
      exact Option.isSome_iff_exists.mpr ⟨f, hf⟩
    · intro p e he
      obtain ⟨g₀, hg, hp⟩ := h.entries p d e he
      obtain rfl := Option.some.inj (hd.symm.trans hg)
      exact hp

theorem get?_setPort (g : Group) (p p' : ℕ) (f : PortFlags) :
    (g.setPort p f).ports.get? p' = if p = p' then some f else g.ports.get? p' :=
  Dict.get?_set _ _ _ _

theorem isSome_setPort {g : Group} {p p' : ℕ} {f : PortFlags} (h : (g.ports.get? p').isSome) :
    ((g.setPort p f).ports.get? p').isSome := by
  rw [get?_setPort]
  split_ifs
  · rfl
  · exact h

theorem outputs_setPort_of_mem {g : Group} {p : ℕ} {f : PortFlags} (h : p ∈ g.ports.keys) :
    (g.setPort p f).outputs = g.outputs := by
  have hkeys : (g.setPort p f).ports.keys = g.ports.keys := by
    simp only [Group.setPort, Dict.keys, Dict.set, Assoc.keys_insert]
    exact if_pos h
  rw [Group.outputs, hkeys, Group.outputs]

/-- A report while no querier is known. -/
theorem Invariant.doReport_of_none (h : s.Invariant) (hq : s.querierPort = none) (p : ℕ)
    (d : String) (data : Data) : (s.doReport p d data).Invariant := by
  have hat := h.keptAt d
  have hun : ¬ ((s.groupAt d).replied ∨ ∃ p f, (s.groupAt d).ports.get? p = some f ∧ f.isIn) := by
    intro hm
    obtain ⟨q, hq', -⟩ := hat.marked hm
    cases hq.symm.trans hq'
  obtain ⟨hr, hin⟩ := not_or.mp hun
  have hport : s.portIn d p = false := by
    unfold portIn
    cases hp : (s.groupAt d).ports.get? p with
    | none => rfl
    | some f => exact Bool.not_eq_true _ ▸ fun hf => hin ⟨p, f, hp, hf⟩
  obtain ⟨messages, heq, heff⟩ := join_eq s none p d
  rw [Snooper.doReport_of_none hq, heq, hport]
  have hfresh : Fresh ((s.groupAt d).setPort p ⟨true, false⟩) := by
    refine ⟨Bool.eq_false_iff.mpr hr, fun p' f hf => ?_⟩
    rw [get?_setPort] at hf
    split_ifs at hf
    · rw [← Option.some.inj hf]
    · exact Bool.eq_false_iff.mpr fun h => hin ⟨p', f, hf, h⟩
  apply h.touches (d := d) (g := (s.groupAt d).setPort p ⟨true, false⟩)
  · constructor
    · rfl
    · rfl
    · rfl
    · exact fun _ _ _ => Iff.rfl
    · exact fun p' hp' => isSome_setPort (hat.pending p' hp')
    · exact fun dst => Dict.get?_set _ _ _ _
    · intro p' dst hd
      rw [entry_append, heff, if_neg fun hn => hd hn.2.2]
  · exact fun hn => (h.idle hn).2
  · intro p' e he
    rw [entry_append, heff] at he
    split_ifs at he with hn
    · left
      rw [hn.2.1, get?_setPort, if_pos rfl]
      rfl
    · exact (hat.entries p' e he).imp isSome_setPort id
  · constructor
    · intro p' f hf
      rw [hfresh.2 p' f hf]
      rintro ⟨⟩
    · rintro (hm | ⟨p', f, hf, hm⟩)
      · exact absurd hm (Bool.eq_false_iff.mp hfresh.1)
      · exact absurd hm (Bool.eq_false_iff.mp (hfresh.2 p' f hf))
    · exact Or.inr (Or.inr ⟨hfresh, Or.inl hq⟩)

/-- A report while the querier is known. -/
theorem Invariant.doReport_of_some (h : s.Invariant) (hq : s.querierPort = some q) (p : ℕ)
    (d : String) (data : Data) : (s.doReport p d data).Invariant := by
  have hat := h.keptAt d
  have hq0 : q ≠ 0 := by
    rintro rfl
    exact h.querier hq
  obtain ⟨messages, heq, heff⟩ := doReport_eq (p := p) (d := d) hq hq0 data
  have hports : ∀ p', ({ (s.groupAt d).setPort p ⟨true, true⟩ with replied := true } :
      Group).ports.get? p' = if p = p' then some ⟨true, true⟩ else (s.groupAt d).ports.get? p' :=
    fun p' => get?_setPort _ _ _ _
  -- a port that has had its flow entry is a member, and the entry is there
  have hin : s.portIn d p = true → ∃ f, (s.groupAt d).ports.get? p = some f ∧ f.isIn := by
    unfold portIn
    cases hp : (s.groupAt d).ports.get? p with
    | none => rintro ⟨⟩
    | some f => exact fun hf => ⟨f, rfl, hf⟩
  have hentry : s.portIn d p = true → ∀ port dst,
      entry port dst (s.sent ++ messages) = entry port dst s.sent := by
    intro hp port dst
    obtain ⟨f, hf, -⟩ := hin hp
    rw [entry_append, heff, if_neg fun hn => Bool.false_ne_true (hn.1.symm.trans hp), if_neg]
    rintro ⟨hn, -⟩
    cases hn.symm.trans hf
  have hshown : s.portIn d p = false →
      entry q d (s.sent ++ messages) = some ((s.groupAt d).setPort p ⟨true, true⟩).outputs := by
    intro hp
    rw [entry_append, heff, if_pos ⟨hp, rfl, rfl⟩]
  rw [heq]
  apply h.touches (d := d) (g := { (s.groupAt d).setPort p ⟨true, true⟩ with replied := true })
  · constructor
    · rfl
    · rfl
    · rfl
    · exact fun _ _ _ => Iff.rfl
    · exact fun p' hp' => isSome_setPort (hat.pending p' hp')
    · exact fun dst => Dict.get?_set _ _ _ _
    · intro p' dst hd
      rw [entry_append, heff, if_neg fun hn => hd hn.2.2, if_neg fun hn => hd hn.2.2]
  · exact fun hn => (h.idle hn).2
  · intro p' e he
    rw [entry_append, heff] at he
    split_ifs at he with hn hn'
    · obtain ⟨-, rfl, -⟩ := hn
      rw [← Option.some.inj he]
      exact Or.inr ⟨hq, outputs_ne _ _⟩
    · left
      rw [hports, if_pos hn'.2.1.symm]
      rfl
    · exact (hat.entries p' e he).imp isSome_setPort id
  · constructor
    · intro p' f hf hfi
      rw [hports] at hf
      split_ifs at hf
      · rw [← Option.some.inj hf]
      · exact hat.flags p' f hf hfi
    · rintro -
      refine ⟨q, hq, ?_⟩
      rw [HasFlow]
      cases hp : s.portIn d p with
      | false =>
        rw [hshown hp]
        exact ⟨by rintro ⟨⟩, fun hc => outputs_ne _ _ (Option.some.inj hc)⟩
      | true =>
        rw [hentry hp]
        obtain ⟨f, hf, hfi⟩ := hin hp
        obtain ⟨q', hq', hflow⟩ := hat.marked (Or.inr ⟨p, f, hf, hfi⟩)
        obtain rfl := Option.some.inj (hq.symm.trans hq')
        exact hflow
    · cases hp : s.portIn d p with
      | false => exact Or.inl ⟨q, hq, hshown hp⟩
      | true =>
        obtain ⟨f, hf, hfi⟩ := hin hp
        rcases hat.status with ⟨q', hq', hs⟩ | ⟨p', f', hf', hout, hl⟩ | hfresh
        · refine Or.inl ⟨q', hq', ?_⟩
          have hmem : p ∈ (s.groupAt d).ports.keys := Dict.mem_keys_iff.mpr (by rw [hf]; rfl)
          rw [hentry hp, hs, ← outputs_setPort_of_mem hmem]
          rfl
        · refine Or.inr (Or.inl ⟨p', f', ?_, hout, hl⟩)
          rw [hports, if_neg, hf']
          rintro rfl
          obtain rfl := Option.some.inj (hf.symm.trans hf')
          exact absurd (hat.flags p f hf hfi) (Bool.eq_false_iff.mp hout)
        · exact absurd hfi (Bool.eq_false_iff.mp (hfresh.2 p f hf))

theorem Invariant.doLeave (h : s.Invariant) (p : ℕ) (d : String) (data : Data) :
    (s.doLeave p d data).Invariant := by
  unfold Snooper.doLeave
  split
  · exact h
  · next querier hq =>
    have hqp : s.querierPort = some querier.port := by rw [querierPort, hq]; rfl
    have hat := h.keptAt d
    let g' : Group := { (s.groupAt d).setPort p ⟨false, false⟩ with leave := some ⟨p, data⟩ }
    have hports : ∀ p', g'.ports.get? p' =
        if p = p' then some ⟨false, false⟩ else (s.groupAt d).ports.get? p' :=
      fun p' => get?_setPort _ _ _ _
    have hentry : ∀ port dst frame actions,
        entry port dst (s.sent ++ [.packetOut frame p actions]) = entry port dst s.sent :=
      fun _ _ _ _ => entry_packetOut _ _ _
    apply h.touches (d := d) (g := g')
    · constructor
      · rfl
      · rfl
      · rfl
      · intro dst p' hd
        simp [hd]
      · intro p' hl
        rcases List.mem_append.mp hl with hl | hl
        · exact isSome_setPort (hat.pending p' hl)
        · obtain ⟨-, rfl⟩ := Prod.mk.inj (List.mem_singleton.mp hl)
          rw [hports, if_pos rfl]
          rfl
      · exact fun dst => Dict.get?_set _ _ _ _
      · exact fun p' dst _ => hentry p' dst _ _
    · intro hn
      cases hqp.symm.trans hn
    · intro p' e he
      rw [hentry] at he
      exact (hat.entries p' e he).imp isSome_setPort id
    · constructor
      · intro p' f hf hfi
        rw [hports] at hf
        split_ifs at hf
        · rw [← Option.some.inj hf] at hfi
          cases hfi
        · exact hat.flags p' f hf hfi
      · intro hm
        have hm₀ : (s.groupAt d).replied ∨
            ∃ p f, (s.groupAt d).ports.get? p = some f ∧ f.isIn := by
          rcases hm with hm | ⟨p', f, hf, hfi⟩
          · exact Or.inl hm
          · rw [hports] at hf
            split_ifs at hf
            · rw [← Option.some.inj hf] at hfi
              cases hfi
            · exact Or.inr ⟨p', f, hf, hfi⟩
        obtain ⟨q, hq', hf⟩ := hat.marked hm₀
        exact ⟨q, hq', by rwa [HasFlow, hentry]⟩
      · refine Or.inr (Or.inl ⟨p, ⟨false, false⟩, ?_, rfl, ?_⟩)
        · rw [hports, if_pos rfl]
        · exact List.mem_append_right _ (List.mem_singleton_self _)

/-- The groups that a query timeout removes, and those it keeps. -/
theorem mem_removed {g : Group} : (dst, g) ∈ (s.toHosts.filter fun _ g => !g.replied).entries ↔
    s.toHosts.get? dst = some g ∧ g.replied = false := by
  simp [Dict.mem_entries_iff, Dict.get?_filter, Option.filter_eq_some_iff]

theorem get?_kept {g : Group} :
    (s.toHosts.filter fun _ (g : Group) => g.replied).get? dst = some g ↔
    s.toHosts.get? dst = some g ∧ g.replied := by
  simp [Dict.get?_filter, Option.filter_eq_some_iff]

/-- What a query timeout leaves. -/
def timedOut (s : Snooper) (q : ℕ) : Snooper :=
  ({ s with
    queryTimeouts := s.queryTimeouts - 1
    toHosts := s.toHosts.filter fun _ (g : Group) => g.replied }).send
      ((s.toHosts.filter fun _ (g : Group) => !g.replied).entries.flatMap fun (dst, g) =>
        removeMulticastGroup q dst g)

theorem entry_timedOut_removed {g : Group} (hd : s.toHosts.get? dst = some g)
    (hr : g.replied = false) (hp : port = q ∨ port ∈ g.ports.keys) :
    entry port dst (s.timedOut q).sent = none := by
  rw [timedOut, send, entry_append, foldl_removes, if_pos]
  exact ⟨(dst, g), mem_removed.2 ⟨hd, hr⟩, rfl, hp⟩

theorem entry_timedOut_kept {g : Group} (hd : s.toHosts.get? dst = some g) (hr : g.replied) :
    entry port dst (s.timedOut q).sent = entry port dst s.sent := by
  rw [timedOut, send, entry_append, foldl_removes, if_neg]
  rintro ⟨⟨d, g'⟩, hm, rfl, -⟩
  obtain ⟨hd', hr'⟩ := mem_removed.1 hm
  obtain rfl := Option.some.inj (hd.symm.trans hd')
  exact Bool.false_ne_true (hr'.symm.trans hr)

theorem entry_of_timedOut {e : List ActionOutput}
    (he : entry port dst (s.timedOut q).sent = some e) : entry port dst s.sent = some e := by
  rw [timedOut, send, entry_append, foldl_removes] at he
  split_ifs at he
  exact he

theorem Invariant.timedOut (h : s.Invariant) (hq : s.querierPort = some q)
    (hg : s.InOrder .queryTimeout) : (s.timedOut q).Invariant := by
  have hhosts : ∀ dst g, (s.timedOut q).toHosts.get? dst = some g ↔
      s.toHosts.get? dst = some g ∧ g.replied := fun dst g => get?_kept
  have hqp : (s.timedOut q).querierPort = some q := hq
  constructor
  · exact h.querier
  · intro hn
    cases hqp.symm.trans hn
  · intro dst p hl
    obtain ⟨g, f, hd, hf⟩ := h.pending dst p hl
    refine ⟨g, f, (hhosts dst g).mpr ⟨hd, ?_⟩, hf⟩
    rw [← Bool.not_eq_false]
    exact fun hr => hg (dst, g) (Dict.mem_entries_iff.mpr hd) hr (dst, p) hl rfl
  · intro p dst e he
    obtain ⟨g, hd, hp⟩ := h.entries p dst e (entry_of_timedOut he)
    refine ⟨g, (hhosts dst g).mpr ⟨hd, ?_⟩, hp⟩
    rw [← Bool.not_eq_false]
    intro hr
    have hown : p = q ∨ p ∈ g.ports.keys := by
      rcases hp with hp | ⟨hp, -⟩
      · exact Or.inr (Dict.mem_keys_iff.mpr hp)
      · exact Or.inl (Option.some.inj (hp.symm.trans hq))
    cases (entry_timedOut_removed hd hr hown).symm.trans he
  · intro dst g hd
    obtain ⟨hd, hr⟩ := (hhosts dst g).mp hd
    have hk := h.groups dst g hd
    constructor
    · exact hk.flags
    · intro hm
      obtain ⟨q', hq', hf⟩ := hk.marked hm
      exact ⟨q', hq', by rwa [HasFlow, entry_timedOut_kept hd hr]⟩
    · rcases hk.status with ⟨q', hq', hs⟩ | hleave | ⟨hfresh, -⟩
      · exact Or.inl ⟨q', hq', by rw [entry_timedOut_kept hd hr, hs]⟩
      · exact Or.inr (Or.inl hleave)
      · exact absurd hr (Bool.eq_false_iff.mp hfresh.1)

theorem Invariant.queryTimeout (h : s.Invariant) (hg : s.InOrder .queryTimeout) :
    (s.handle .queryTimeout).2 = none ∧ (s.handle .queryTimeout).1.Invariant := by
  unfold Snooper.handle
  split_ifs with h0
  · exact ⟨rfl, h⟩
  · cases hq : s.querierPort with
    | none => exact absurd (h.idle hq).1 h0
    | some q =>
      obtain ⟨querier, hquerier, rfl⟩ := Option.map_eq_some_iff.mp hq
      have heq : ({ s with queryTimeouts := s.queryTimeouts - 1 } : Snooper).doTimeoutForQuery =
          (s.timedOut querier.port, none) := by
        simp [doTimeoutForQuery, Snooper.timedOut, send, hquerier]
      dsimp only
      rw [heq]
      exact ⟨rfl, h.timedOut hq hg⟩

/-- A member has left, and others are still there. -/
def memberGone (s : Snooper) (q : ℕ) (dst : String) (inPort : ℕ) (g : Group) : Snooper :=
  ({ s with
    leaveTimeouts := s.leaveTimeouts.erase (dst, inPort)
    toHosts := s.toHosts.set dst { g with ports := g.ports.erase inPort, leave := none } }).send
      [.delFlowEntry inPort dst,
        .groupStateChanged .memberChanged dst (some q) (g.ports.erase inPort).keys,
        .setFlowEntry ((g.ports.erase inPort).keys.map outputTo) q dst]

theorem entry_memberGone {g : Group} : entry port dst (s.memberGone q d p g).sent =
    if port = q ∧ dst = d then some ((g.ports.erase p).keys.map outputTo)
    else if port = p ∧ dst = d then none else entry port dst s.sent := by
  rw [memberGone, send, entry_append]
  simp only [List.foldl_cons, List.foldl_nil, Sent.effect, eq_comm]

theorem Invariant.memberGone (h : s.Invariant) (hq : s.querierPort = some q) {g : Group}
    (hd : s.toHosts.get? d = some g) (hn : (d, p) ∉ s.leaveTimeouts.erase (d, p)) :
    (s.memberGone q d p g).Invariant := by
  have hk := h.groups d g hd
  have hentry : entry q d (s.memberGone q d p g).sent =
      some ((g.ports.erase p).keys.map outputTo) := by
    rw [entry_memberGone, if_pos ⟨rfl, rfl⟩]
  have hne : (g.ports.erase p).keys.map outputTo ≠ toController s.size :=
    outputs_ne s.size ({ g with ports := g.ports.erase p } : Group)
  apply h.touches (d := d) (g := { g with ports := g.ports.erase p, leave := none })
  · constructor
    · rfl
    · rfl
    · rfl
    · intro dst p' hdst
      exact List.mem_erase_of_ne fun he => hdst (Prod.mk.inj he).1
    · intro p' hl
      obtain ⟨g₀, f, hg, hf⟩ := h.pending d p' (List.mem_of_mem_erase hl)
      obtain rfl := Option.some.inj (hd.symm.trans hg)
      rw [Dict.get?_erase, if_neg, hf]
      · rfl
      · rintro rfl
        exact hn hl
    · exact fun dst => Dict.get?_set _ _ _ _
    · intro p' dst hdst
      rw [entry_memberGone, if_neg fun hc => hdst hc.2, if_neg fun hc => hdst hc.2]
  · intro hnone
    cases hq.symm.trans hnone
  · intro p' e he
    rw [entry_memberGone] at he
    split_ifs at he with h₁ h₂
    · rw [h₁.1, ← Option.some.inj he]
      exact Or.inr ⟨hq, hne⟩
    · obtain ⟨g₀, hg, hp⟩ := h.entries p' d e he
      obtain rfl := Option.some.inj (hd.symm.trans hg)
      refine hp.imp (fun hp => ?_) id
      rw [Dict.get?_erase, if_neg fun hc => h₂ ⟨hc.symm, rfl⟩]
      exact hp
  · constructor
    · intro p' f hf
      rw [Dict.get?_erase] at hf
      split_ifs at hf
      exact hk.flags p' f hf
    · rintro -
      refine ⟨q, hq, ?_⟩
      rw [HasFlow, hentry]
      exact ⟨by rintro ⟨⟩, fun hc => hne (Option.some.inj hc)⟩
    · exact Or.inl ⟨q, hq, hentry⟩

/-- The last member has left. -/
def groupGone (s : Snooper) (q : ℕ) (dst : String) (inPort : ℕ) (g : Group) : Snooper :=
  ({ s with
    leaveTimeouts := s.leaveTimeouts.erase (dst, inPort)
    toHosts := s.toHosts.erase dst }).send
      (.delFlowEntry inPort dst ::
        removeMulticastGroup q dst { g with ports := g.ports.erase inPort })

theorem Invariant.groupGone (h : s.Invariant) (hq : s.querierPort = some q) {g : Group}
    (hd : s.toHosts.get? d = some g) (hlast : (g.ports.erase p).keys = [])
    (hn : (d, p) ∉ s.leaveTimeouts.erase (d, p)) : (s.groupGone q d p g).Invariant := by
  have hentry : ∀ port dst, entry port dst (s.groupGone q d p g).sent =
      if d = dst ∧ (port = q ∨ port = p) then none else entry port dst s.sent := by
    intro port dst
    rw [Snooper.groupGone, send, entry_append, List.foldl_cons, foldl_remove]
    by_cases hdst : d = dst
    · by_cases hq : port = q
      · simp [hdst, hq]
      · by_cases hp : port = p
        · simp [hlast, Sent.effect, hdst, hp]
        · simp [hlast, Sent.effect, hdst, hq, hp, Ne.symm hp]
    · simp [Sent.effect, hdst]
  have honly : ∀ p', (g.ports.get? p').isSome → p' = p := by
    intro p' hp'
    by_contra hne
    have hmem : p' ∈ (g.ports.erase p).keys := by
      rw [Dict.mem_keys_iff, Dict.get?_erase, if_neg (Ne.symm hne)]
      exact hp'
    rw [hlast] at hmem
    cases hmem
  have hhosts : ∀ dst g', (s.groupGone q d p g).toHosts.get? dst = some g' ↔
      d ≠ dst ∧ s.toHosts.get? dst = some g' := by
    intro dst g'
    rw [Snooper.groupGone, send, Dict.get?_erase]
    split_ifs with hdst <;> simp [hdst]
  have hleaves : ∀ dst p', (dst, p') ∈ (s.groupGone q d p g).leaveTimeouts ↔
      (dst, p') ∈ s.leaveTimeouts.erase (d, p) := fun _ _ => Iff.rfl
  constructor
  · exact h.querier
  · intro hnone
    cases hq.symm.trans hnone
  · intro dst p' hl
    have hl := (hleaves dst p').mp hl
    obtain ⟨g', f, hg', hf⟩ := h.pending dst p' (List.mem_of_mem_erase hl)
    refine ⟨g', f, (hhosts dst g').mpr ⟨?_, hg'⟩, hf⟩
    rintro rfl
    obtain rfl := Option.some.inj (hd.symm.trans hg')
    rw [honly p' (by rw [hf]; rfl)] at hl
    exact hn hl
  · intro p' dst e he
    rw [hentry] at he
    split_ifs at he with hc
    obtain ⟨g', hg', hp'⟩ := h.entries p' dst e he
    refine ⟨g', (hhosts dst g').mpr ⟨?_, hg'⟩, hp'⟩
    rintro rfl
    obtain rfl := Option.some.inj (hd.symm.trans hg')
    rcases hp' with hp' | ⟨hp', -⟩
    · exact hc ⟨rfl, Or.inr (honly p' hp')⟩
    · exact hc ⟨rfl, Or.inl (Option.some.inj (hp'.symm.trans hq))⟩
  · intro dst g' hg'
    obtain ⟨hdst, hg'⟩ := (hhosts dst g').mp hg'
    have hk := h.groups dst g' hg'
    have hsame : ∀ port, entry port dst (s.groupGone q d p g).sent = entry port dst s.sent := by
      intro port
      rw [hentry, if_neg fun hc => hdst hc.1]
    constructor
    · exact hk.flags
    · intro hm
      obtain ⟨q', hq', hf⟩ := hk.marked hm
      exact ⟨q', hq', by rwa [HasFlow, hsame]⟩
    · rcases hk.status with ⟨q', hq', hs⟩ | ⟨p', f, hp', hf, hl⟩ | hfresh
      · exact Or.inl ⟨q', hq', by rw [hsame, hs]⟩
      · refine Or.inr (Or.inl ⟨p', f, hp', hf, (hleaves dst p').mpr ?_⟩)
        exact (List.mem_erase_of_ne fun hc => hdst (Prod.mk.inj hc).1.symm).mpr hl
      · exact Or.inr (Or.inr hfresh)

/-- A port that has reported again since it left. -/
theorem Invariant.stays (h : s.Invariant) {g : Group} {f : PortFlags}
    (hd : s.toHosts.get? d = some g) (hp : g.ports.get? p = some f) (hf : f.out) :
    ({ s with leaveTimeouts := s.leaveTimeouts.erase (d, p) } : Snooper).Invariant := by
  constructor
  · exact h.querier
  · intro hnone
    exact ⟨(h.idle hnone).1, by simp [(h.idle hnone).2]⟩
  · exact fun dst p' hl => h.pending dst p' (List.mem_of_mem_erase hl)
  · exact h.entries
  · intro dst g' hg'
    have hk := h.groups dst g' hg'
    constructor
    · exact hk.flags
    · exact hk.marked
    · rcases hk.status with hs | ⟨p', f', hp', hf', hl⟩ | hfresh
      · exact Or.inl hs
      · refine Or.inr (Or.inl ⟨p', f', hp', hf', (List.mem_erase_of_ne fun hc => ?_).mpr hl⟩)
        obtain ⟨rfl, rfl⟩ := Prod.mk.inj hc
        obtain rfl := Option.some.inj (hd.symm.trans hg')
        obtain rfl := Option.some.inj (hp.symm.trans hp')
        exact absurd hf (Bool.eq_false_iff.mp hf')
      · exact Or.inr (Or.inr hfresh)

theorem Invariant.leaveTimeout (h : s.Invariant) (hg : s.InOrder (.leaveTimeout d p)) :
    (s.handle (.leaveTimeout d p)).2 = none ∧ (s.handle (.leaveTimeout d p)).1.Invariant := by
  unfold Snooper.handle
  dsimp only
  split_ifs with hl
  · cases hq : s.querierPort with
    | none =>
      rw [(h.idle hq).2] at hl
      cases hl
    | some q =>
      obtain ⟨querier, hquerier, rfl⟩ := Option.map_eq_some_iff.mp hq
      obtain ⟨g, f, hd, hp⟩ := h.pending d p hl
      cases hf : f.out with
      | true =>
        have heq : ({ s with leaveTimeouts := s.leaveTimeouts.erase (d, p) } :
            Snooper).doTimeoutForLeave d p =
              ({ s with leaveTimeouts := s.leaveTimeouts.erase (d, p) }, none) := by
          simp [doTimeoutForLeave, hquerier, hd, hp, hf]
        rw [heq]
        exact ⟨rfl, h.stays hd hp hf⟩
      | false =>
        have hn := hg ⟨(d, g), Dict.mem_entries_iff.mpr hd, rfl, (p, f),
          Dict.mem_entries_iff.mpr hp, rfl, hf⟩
        by_cases hlast : (g.ports.erase p).keys = []
        · have heq : ({ s with leaveTimeouts := s.leaveTimeouts.erase (d, p) } :
              Snooper).doTimeoutForLeave d p = (s.groupGone querier.port d p g, none) := by
            simp [doTimeoutForLeave, hquerier, hd, hp, hf, hlast, Snooper.groupGone, send]
          rw [heq]
          exact ⟨rfl, h.groupGone hq hd hlast hn⟩
        · have heq : ({ s with leaveTimeouts := s.leaveTimeouts.erase (d, p) } :
              Snooper).doTimeoutForLeave d p = (s.memberGone querier.port d p g, none) := by
            simp [doTimeoutForLeave, hquerier, hd, hp, hf, hlast, Snooper.memberGone, send,
              Group.outputs]
          rw [heq]
          exact ⟨rfl, h.memberGone hq hd hn⟩
  · exact ⟨rfl, h⟩

/-- What one input does. -/
theorem Invariant.handle (h : s.Invariant) {i : Input} (hg : s.InOrder i) :
    (s.handle i).2 = none ∧ (s.handle i).1.Invariant := by
  cases i with
  | query inPort address ip mac data => exact ⟨rfl, h.doQuery hg⟩
  | report inPort address data =>
    refine ⟨rfl, ?_⟩
    cases hq : s.querierPort with
    | none => exact h.doReport_of_none hq inPort address data
    | some q => exact h.doReport_of_some hq inPort address data
  | leave inPort address data => exact ⟨rfl, h.doLeave inPort address data⟩
  | queryTimeout => exact h.queryTimeout hg
  | leaveTimeout dst inPort => exact h.leaveTimeout hg

/-- With no timeout pending, the flow entries are those of the groups and their members. -/
theorem Invariant.agrees (h : s.Invariant) (hs : s.Settled) (hq : s.querierPort = some q) :
    s.Agrees q := by
  obtain ⟨hqueries, hleaves⟩ := hs
  constructor
  · intro dst g hg
    rcases (h.groups dst g hg).status with ⟨q', hq', hs⟩ | ⟨p, f, -, -, hl⟩ | ⟨-, hn | hn⟩
    · obtain rfl := Option.some.inj (hq.symm.trans hq')
      exact hs
    · rw [hleaves] at hl
      cases hl
    · cases hq.symm.trans hn
    · exact absurd hqueries (Nat.pos_iff_ne_zero.mp hn)
  · intro port dst he
    obtain ⟨e, he⟩ := Option.ne_none_iff_exists'.mp he
    obtain ⟨g, hg, hp⟩ := h.entries port dst e he
    refine ⟨g, hg, hp.imp Dict.mem_keys_iff.mpr ?_⟩
    rintro ⟨hp, -⟩
    exact Option.some.inj (hp.symm.trans hq)

end Invariant

/-- Over every run whose inputs come in order: no step fails, and whenever a querier is known and no
timeout is pending, the flow entries agree with the members. -/
theorem snooping_agrees (size : ℕ) (inputs : List Input)
    (hg : EveryStep step InOrder (init size) inputs) :
    EveryStep step (fun s i => (s.handle i).2 = none) (init size) inputs ∧
      Throughout step (fun s => s.Settled → ∀ q, s.querierPort = some q → s.Agrees q)
        (init size) inputs := by
  have hstep : ∀ s i, Invariant s → InOrder s i → (s.handle i).2 = none ∧ (step s i).Invariant :=
    fun s i h hg => h.handle hg
  constructor
  · exact everyStep_of_everyStep (invariant_init size) hstep hg
  · apply (throughout_of_everyStep (invariant_init size) (fun s i h hg => (hstep s i h hg).2)
      hg).mono
    exact fun s h hs q hq => h.agrees hs hq

/-- A general query from a port. -/
def generalQuery (inPort : ℕ) : Input := .query inPort "0.0.0.0" "192.0.2.1" "02:00:00:00:00:01" []

/-- Two hosts join, and one leaves. -/
def joinAndLeave : List Input :=
  [generalQuery 1, .report 2 "225.0.0.1" [], .report 3 "225.0.0.1" [], .queryTimeout,
    .leave 3 "225.0.0.1" [], .leaveTimeout "225.0.0.1" 3]

theorem snooping_agrees_joinAndLeave :
    EveryStep step (fun s i => (s.handle i).2 = none) (init 65509) joinAndLeave ∧
      Throughout step (fun s => s.Settled → ∀ q, s.querierPort = some q → s.Agrees q)
        (init 65509) joinAndLeave :=
  snooping_agrees 65509 joinAndLeave (by decide +kernel)

/-- The only member leaves twice: the second timeout finds no group. -/
def leaveTwice : List Input :=
  [generalQuery 1, .report 2 "225.0.0.1" [], .leave 2 "225.0.0.1" [], .leave 2 "225.0.0.1" [],
    .leaveTimeout "225.0.0.1" 2, .leaveTimeout "225.0.0.1" 2]

/-- The querier moves to another port while the group has a member. -/
def querierMoves : List Input :=
  [generalQuery 1, .report 2 "225.0.0.1" [], .queryTimeout, generalQuery 3,
    .report 2 "225.0.0.1" [], .queryTimeout]

theorem snooping_disagrees :
    ¬ EveryStep step (fun s i => (s.handle i).2 = none) (init 65509) leaveTwice ∧
      ¬ Throughout step (fun s => s.Settled → ∀ q, s.querierPort = some q → s.Agrees q)
        (init 65509) querierMoves := by
  constructor
  · decide +kernel
  · intro h
    have hflow := (h.last ⟨rfl, rfl⟩ 3 rfl).flows "225.0.0.1"
      ⟨true, none, ⟨[(2, ⟨true, true⟩)], by decide⟩⟩ (by decide +kernel)
    exact absurd hflow (by decide +kernel)

end Snooper

end Ryu.Igmp
