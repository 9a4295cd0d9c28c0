import Ryu.Topology.PortData

/-! # The link table

`LinkState` of `topology.switches`: a dictionary from directed links to the time they were last
seen, and beside it an index from a source to its destinations. A port is taken out starting
from the links that leave it: of the links that come in, those with a reverse go too, the
others stay.
-/

namespace Ryu.Topology

structure Link where
  src : PortId
  dst : PortId
  deriving DecidableEq, Repr

/-- `Link(link.dst, link.src)`. -/
def Link.rev (link : Link) : Link := ⟨link.dst, link.src⟩

/-- `LinkState`, the index `_map` included. -/
structure LinkState where
  times : Dict Link ℚ
  map : Dict PortId (Dict PortId Link)

namespace LinkState

open Outcome

def empty : LinkState := ⟨Dict.empty, Dict.empty⟩

def has (s : LinkState) (link : Link) : Prop := (s.times.get? link).isSome

instance (s : LinkState) (link : Link) : Decidable (s.has link) :=
  inferInstanceAs (Decidable ((s.times.get? link).isSome = true))

/-- `self._map[src]`. -/
def peers (s : LinkState) (src : PortId) : Dict PortId Link :=
  (s.map.get? src).getD Dict.empty

/-- `self._map[src][dst]`. -/
def peer (s : LinkState) (src dst : PortId) : Option Link := (s.peers src).get? dst

/-- The entry that reading `self._map[src]` makes, if there is none. -/
def touch (s : LinkState) (src : PortId) : LinkState :=
  { s with map := s.map.setdefault src Dict.empty }

/-- `self.pop(link, None)`. -/
def pop (s : LinkState) (link : Link) : LinkState := { s with times := s.times.erase link }

/-- `del self._map[src][dst]`, of what is there. -/
def popPeer (s : LinkState) (src dst : PortId) : LinkState :=
  { s with map := s.map.set src ((s.peers src).erase dst) }

/-- `del self._map[src]`, of what is there. -/
def popPeers (s : LinkState) (src : PortId) : LinkState := { s with map := s.map.erase src }

/-- `update_link`, and if the reverse link is there. -/
def updateLink (s : LinkState) (src dst : PortId) (now : ℚ) : LinkState × Bool :=
  let s : LinkState :=
    { times := s.times.set ⟨src, dst⟩ now
      map := s.map.set src ((s.peers src).set dst ⟨src, dst⟩) }
  (s, decide (s.has ⟨dst, src⟩))

/-- `link_down`. -/
def linkDown (s : LinkState) (link : Link) : Outcome LinkState :=
  if s.has link then
    let s := (s.pop link).touch link.src
    if (s.peer link.src link.dst).isSome then (s.popPeer link.src link.dst, none)
    else (s, some (.keyError "dst"))
  else (s, some (.keyError "link"))

/-- `rev_link_set_timestamp`. -/
def revLinkSetTimestamp (s : LinkState) (revLink : Link) (timestamp : ℚ) : LinkState :=
  if s.has revLink then { s with times := s.times.set revLink timestamp } else s

/-- The body of the loop of `port_deleted`, with the destinations of reverse links so far. -/
def dropPeer (src : PortId) (r : LinkState × List PortId) (dst : PortId) :
    Outcome (LinkState × List PortId) :=
  if r.1.has ⟨src, dst⟩ then
    let s := ((r.1.pop ⟨src, dst⟩).pop ⟨dst, src⟩).touch dst
    if (s.peer dst src).isSome then ((s.popPeer dst src, r.2 ++ [dst]), none)
    else ((s, r.2), none)
  else (r, some (.keyError "link"))

/-- `port_deleted`. No link leads back to its own port, so that the loop leaves the
destinations it runs over as they are. -/
def portDeleted (s : LinkState) (src : PortId) :
    LinkState × Except PyError (List PortId × List PortId) :=
  let s := s.touch src
  let dsts := (s.peers src).keys
  match forEach (dropPeer src) (s, []) dsts with
  | ((s, _), some e) => (s, .error e)
  | ((s, revLinkDsts), none) => (s.popPeers src, .ok (dsts, revLinkDsts))

/-! ## The dictionary and the index -/

/-- The index holds the links of the dictionary, each under its ends. -/
def Agrees (s : LinkState) : Prop :=
  ∀ src dst link, s.peer src dst = some link ↔ link = ⟨src, dst⟩ ∧ s.has link

structure WellFormed (s : LinkState) : Prop where
  agrees : s.Agrees
  noLoop : ∀ link, s.has link → link.src ≠ link.dst

variable {s : LinkState} {src dst a b : PortId} {link l : Link} {now : ℚ}

@[simp] theorem has_touch : (s.touch src).has link ↔ s.has link := Iff.rfl

@[simp] theorem has_popPeer : (s.popPeer src dst).has link ↔ s.has link := Iff.rfl

theorem has_pop : (s.pop l).has link ↔ link ≠ l ∧ s.has link := by
  rw [has, pop, Dict.get?_erase]
  split
  · next he => simp [he]
  · next he => simp [has, Ne.symm he]

@[simp] theorem peer_pop : (s.pop l).peer a b = s.peer a b := rfl

theorem peers_touch (s : LinkState) (src a : PortId) : (s.touch src).peers a = s.peers a := by
  rw [peers, touch, Dict.get?_setdefault]
  split
  · next he =>
    subst he
    simp [peers]
  · rfl

@[simp] theorem peer_touch : (s.touch src).peer a b = s.peer a b := by
  rw [peer, peers_touch, peer]

theorem peer_popPeer :
    (s.popPeer src dst).peer a b = if src = a ∧ dst = b then none else s.peer a b := by
  rw [peer, peers, popPeer, Dict.get?_set]
  by_cases ha : src = a
  · subst ha
    simp [Dict.get?_erase, peer]
  · simp [ha, peer, peers]

theorem peer_popPeers : (s.popPeers src).peer a b = if src = a then none else s.peer a b := by
  rw [peer, peers, popPeers, Dict.get?_erase]
  split <;> rfl

/-- Without a link, from the dictionary and from the index. -/
theorem WellFormed.of_without (h : s.WellFormed) {s' : LinkState} {gone : Link → Prop}
    (hh : ∀ l, s'.has l ↔ ¬gone l ∧ s.has l)
    (hp : ∀ a b, s'.peer a b = some ⟨a, b⟩ ↔ ¬gone ⟨a, b⟩ ∧ s.peer a b = some ⟨a, b⟩)
    (hs : ∀ a b l, s'.peer a b = some l → s.peer a b = some l) : s'.WellFormed where
  agrees a b l := by
    constructor
    · intro hl
      obtain ⟨rfl, hl'⟩ := (h.agrees a b l).mp (hs a b l hl)
      exact ⟨rfl, (hh _).mpr ⟨((hp a b).mp hl).1, hl'⟩⟩
    · rintro ⟨rfl, hl⟩
      obtain ⟨hg, hl⟩ := (hh _).mp hl
      exact (hp a b).mpr ⟨hg, (h.agrees a b _).mpr ⟨rfl, hl⟩⟩
  noLoop l hl := h.noLoop l ((hh l).mp hl).2

theorem Agrees.isSome_iff (h : s.Agrees) : (s.peer src dst).isSome ↔ s.has ⟨src, dst⟩ := by
  rw [Option.isSome_iff_exists]
  constructor
  · rintro ⟨link, hl⟩
    obtain ⟨rfl, hl⟩ := (h src dst link).mp hl
    exact hl
  · exact fun hl => ⟨_, (h src dst _).mpr ⟨rfl, hl⟩⟩

theorem wellFormed_empty : empty.WellFormed where
  agrees src dst link := by simp [empty, peer, peers, has]
  noLoop link hl := by simp [empty, has] at hl

theorem has_updateLink :
    (s.updateLink src dst now).1.has link ↔ link = ⟨src, dst⟩ ∨ s.has link := by
  rw [updateLink, has, Dict.get?_set]
  split
  · next he => simp [he]
  · next he => simp [has, Ne.symm he]

theorem peer_updateLink : (s.updateLink src dst now).1.peer a b =
    if src = a ∧ dst = b then some ⟨src, dst⟩ else s.peer a b := by
  rw [peer, peers, updateLink, Dict.get?_set]
  by_cases ha : src = a
  · subst ha
    simp [Dict.get?_set, peer]
  · simp [ha, peer, peers]

theorem WellFormed.updateLink (h : s.WellFormed) (hne : src ≠ dst) :
    (s.updateLink src dst now).1.WellFormed where
  agrees a b link := by
    rw [has_updateLink, peer_updateLink]
    split
    · next he =>
      obtain ⟨rfl, rfl⟩ := he
      rw [Option.some.injEq]
      exact ⟨fun he => ⟨he.symm, .inl he.symm⟩, fun he => he.1.symm⟩
    · next hn =>
      rw [h.agrees]
      refine and_congr_right fun he => ⟨.inr, fun hl => hl.resolve_left ?_⟩
      rintro rfl
      exact hn ⟨congrArg Link.src he, congrArg Link.dst he⟩
  noLoop link hl := by
    rcases has_updateLink.1 hl with rfl | hl
    · exact hne
    · exact h.noLoop link hl

theorem has_revLinkSetTimestamp : (s.revLinkSetTimestamp l now).has link ↔ s.has link := by
  unfold revLinkSetTimestamp
  split
  · next hl =>
    rw [has, Dict.get?_set]
    split
    · next he => simpa [← he] using hl
    · exact Iff.rfl
  · exact Iff.rfl

theorem WellFormed.revLinkSetTimestamp (h : s.WellFormed) (l : Link) (now : ℚ) :
    (s.revLinkSetTimestamp l now).WellFormed where
  agrees a b link := by
    rw [has_revLinkSetTimestamp, ← h.agrees]
    unfold LinkState.revLinkSetTimestamp
    split <;> exact Iff.rfl
  noLoop link hl := h.noLoop link (has_revLinkSetTimestamp.1 hl)

/-- A known link goes out of the dictionary and of the index. -/
theorem WellFormed.linkDown (h : s.WellFormed) (hl : s.has link) :
    ∃ s', s.linkDown link = (s', none) ∧ s'.WellFormed ∧
      ∀ l, s'.has l ↔ l ≠ link ∧ s.has l := by
  have hp : (((s.pop link).touch link.src).peer link.src link.dst).isSome := by
    rw [peer_touch, peer_pop]
    exact h.agrees.isSome_iff.mpr hl
  have hs : s.linkDown link =
      (((s.pop link).touch link.src).popPeer link.src link.dst, none) := by
    rw [LinkState.linkDown, if_pos hl]
    exact if_pos hp
  refine ⟨_, hs, ?_, fun l => has_pop⟩
  have hh (l : Link) : (((s.pop link).touch link.src).popPeer link.src link.dst).has l ↔
      ¬l = link ∧ s.has l := has_pop
  apply h.of_without hh
  · intro a b
    rw [peer_popPeer, peer_touch, peer_pop]
    split
    · next he => simp [← he.1, ← he.2]
    · next hn =>
      refine (and_iff_right fun he => hn ?_).symm
      simp [← he]
  · intro a b l hl
    rw [peer_popPeer] at hl
    split at hl
    · cases hl
    · rwa [peer_touch, peer_pop] at hl

/-! ## A port taken out -/

/-- What the loop of `port_deleted` makes of the table. -/
theorem forEach_dropPeer {dsts : List PortId} (hn : dsts.Nodup) (hsrc : src ∉ dsts)
    (hl : ∀ d ∈ dsts, s.has ⟨src, d⟩) (revs : List PortId) :
    ∃ s', forEach (dropPeer src) (s, revs) dsts =
        ((s', revs ++ dsts.filter fun d => (s.peer d src).isSome), none) ∧
      (∀ l, s'.has l ↔ ¬(l.src = src ∧ l.dst ∈ dsts ∨ l.dst = src ∧ l.src ∈ dsts) ∧ s.has l) ∧
      ∀ a b, s'.peer a b = if a ∈ dsts ∧ b = src then none else s.peer a b := by
  induction dsts generalizing s revs with
  | nil => exact ⟨s, by simp [forEach], by simp, by simp⟩
  | cons d dsts ih =>
    obtain ⟨hd, hn⟩ := List.nodup_cons.mp hn
    obtain ⟨hsd, hsrc⟩ := not_or.mp fun hc => hsrc (List.mem_cons.mpr hc)
    -- what the body leaves, whether the reverse link is there or not
    obtain ⟨s₁, hs₁, hh₁, hp₁⟩ : ∃ s₁, dropPeer src (s, revs) d =
          ((s₁, revs ++ if (s.peer d src).isSome then [d] else []), none) ∧
        (∀ l, s₁.has l ↔ l ≠ ⟨d, src⟩ ∧ l ≠ ⟨src, d⟩ ∧ s.has l) ∧
        ∀ a b, s₁.peer a b = if a = d ∧ b = src then none else s.peer a b := by
      rw [dropPeer, if_pos (hl d List.mem_cons_self)]
      by_cases hr : (s.peer d src).isSome
      · refine ⟨_, by simp [hr]; rfl, fun l => by rw [has_popPeer, has_touch, has_pop, has_pop], ?_⟩
        intro a b
        rw [peer_popPeer, peer_touch, peer_pop, peer_pop]
        simp only [eq_comm]
      · refine ⟨_, by simp [hr]; rfl, fun l => by rw [has_touch, has_pop, has_pop], ?_⟩
        intro a b
        rw [peer_touch, peer_pop, peer_pop]
        split
        · next he => simpa [he.1, he.2] using hr
        · rfl
    have hl₁ : ∀ e ∈ dsts, s₁.has ⟨src, e⟩ := by
      intro e he
      refine (hh₁ _).mpr ⟨fun hc => hsd ?_, fun hc => hd ?_, hl e (List.mem_cons_of_mem d he)⟩
      · exact congrArg Link.src hc
      · have hde : e = d := congrArg Link.dst hc
        rwa [hde] at he
    obtain ⟨s₂, hs₂, hh₂, hp₂⟩ := ih hn hsrc hl₁ (revs ++ if (s.peer d src).isSome then [d] else [])
    refine ⟨s₂, ?_, fun l => ?_, fun a b => ?_⟩
    · rw [forEach, hs₁, andThen_none, hs₂]
      have hf : dsts.filter (fun e => (s₁.peer e src).isSome) =
          dsts.filter fun e => (s.peer e src).isSome := by
        apply List.filter_congr
        intro e he
        rw [hp₁, if_neg]
        rintro ⟨rfl, -⟩
        exact hd he
      rw [hf, List.filter_cons]
      by_cases hr : (s.peer d src).isSome <;> simp [hr]
    · rw [hh₂, hh₁]
      obtain ⟨x, y⟩ := l
      simp only [ne_eq, Link.mk.injEq, List.mem_cons]
      grind
    · rw [hp₂, hp₁]
      simp only [List.mem_cons]
      grind

/-- A port goes: the links that leave it and their reverses. -/
theorem WellFormed.portDeleted (h : s.WellFormed) (src : PortId) :
    ∃ s' dsts revs, s.portDeleted src = (s', .ok (dsts, revs)) ∧ s'.WellFormed ∧
      dsts.Nodup ∧ (∀ d, d ∈ dsts ↔ s.has ⟨src, d⟩) ∧
      revs.Nodup ∧ (∀ d, d ∈ revs ↔ s.has ⟨src, d⟩ ∧ s.has ⟨d, src⟩) ∧
      ∀ l, s'.has l ↔ ¬(l.src = src ∨ l.dst = src ∧ s.has l.rev) ∧ s.has l := by
  have hk (d : PortId) : d ∈ ((s.touch src).peers src).keys ↔ s.has ⟨src, d⟩ := by
    rw [Dict.mem_keys_iff, ← h.agrees.isSome_iff, peers_touch, peer]
  have hsrc : src ∉ ((s.touch src).peers src).keys := fun hc => h.noLoop _ ((hk src).mp hc) rfl
  obtain ⟨s₁, hs₁, hh₁, hp₁⟩ := forEach_dropPeer (s := s.touch src) (Dict.nodup_keys' _) hsrc
    (fun d hd => (hk d).mp hd) []
  have hh (l : Link) : (s₁.popPeers src).has l ↔
      ¬(l.src = src ∨ l.dst = src ∧ s.has l.rev) ∧ s.has l := by
    refine (hh₁ l).trans ?_
    obtain ⟨x, y⟩ := l
    simp only [hk, has_touch, Link.rev]
    grind
  have hp (a b : PortId) : (s₁.popPeers src).peer a b =
      if src = a ∨ s.has ⟨src, a⟩ ∧ b = src then none else s.peer a b := by
    rw [peer_popPeers, hp₁, peer_touch]
    simp only [hk]
    grind
  have hs : s.portDeleted src = (s₁.popPeers src, .ok (((s.touch src).peers src).keys,
      ((s.touch src).peers src).keys.filter fun d => ((s.touch src).peer d src).isSome)) := by
    rw [LinkState.portDeleted, hs₁]
    rfl
  refine ⟨_, _, _, hs, h.of_without hh (fun a b => ?_) fun a b l hl => ?_, Dict.nodup_keys' _, hk,
    (Dict.nodup_keys' _).filter _, fun d => ?_, hh⟩
  · rw [hp, Link.rev]
    grind
  · rw [hp] at hl
    split at hl
    · cases hl
    · exact hl
  · rw [List.mem_filter, hk, peer_touch, h.agrees.isSome_iff]

end LinkState

end Ryu.Topology
