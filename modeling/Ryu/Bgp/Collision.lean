import Ryu.Bgp.Session
import Ryu.Lib.Duplex
import Ryu.Lib.Run

/-! # Connection collision

Two speakers that are neighbours of each other have two connections, one initiated by each. Each
speaker binds to the connection whose open message it handles first, and closes the other one
when its open message comes: the state of the peer is overwritten before the router ids would be
compared. So the speakers keep the same connection, and a session is not disturbed, exactly as
long as no open message finds the peer established or bound to the connection that should not win.

What one speaker sends on a connection reaches the other one in order. A connection that was
accepted by `start_protocol` on both sides is followed, and no new one is made.
-/

namespace Ryu.Bgp

/-- Two speakers, each of which accepts the open message of the other. -/
structure Neighbors where
  conf : Side → NeighborConf
  accepts : ∀ s, (conf s).validateOpenMsg (conf s.other).createOpenMsg = .ok ()

/-- The speaker that initiated the connection which `s` sees as `c`. -/
def initiator (s : Side) : Conn → Side
  | .active => s
  | .passive => s.other

@[simp] theorem initiator_other_flip (s : Side) (c : Conn) :
    initiator s.other c.flip = initiator s c := by
  cases c <;> simp [initiator]

theorem initiator_flip (s : Side) (c : Conn) :
    initiator s c.flip = (initiator s c).other := by
  cases c <;> simp [initiator]

inductive PeeringTurn
  | connectionMade
  | recv
  | keepaliveTimer
  deriving DecidableEq, Repr

/-- A turn of the protocol object that `side` has for the connection `conn`. -/
structure PeeringEvent where
  turn : PeeringTurn
  side : Side
  conn : Conn
  deriving DecidableEq, Repr

/-- The neighbour receives the first message that was sent on `c`. -/
def Peer.taken (q : Peer) (c : Conn) (rest : List (Option BGPMessage)) : Peer :=
  { q with wire := Function.update q.wire c rest }

namespace Neighbors

variable (ns : Neighbors)

/-- `s` receives on the connection `c`; nothing is received before its open message was sent, and
nothing on a socket that is closed. -/
def receive (n : Duplex Peer) (s : Side) (c : Conn) : Duplex Peer :=
  if ((n s).proto c).state = .connect ∨ ((n s).proto c).hasPeer = false then n
  else if ((n s).proto c).closed then .pair s (((n s).protocolLost c).stop c) (n s.other)
  else
    match (n s.other).wire c.flip with
    | [] => n
    | m :: rest => .pair s ((n s).recvLoop (ns.conf s) c m) ((n s.other).taken c.flip rest)

def step (n : Duplex Peer) (e : PeeringEvent) : Duplex Peer :=
  match e.turn with
  | .connectionMade =>
    .pair e.side ((n e.side).connectionMade (ns.conf e.side) e.conn) (n e.side.other)
  | .recv => ns.receive n e.side e.conn
  | .keepaliveTimer => .pair e.side ((n e.side).keepaliveTimer e.conn) (n e.side.other)

/-- The router id of the speaker that initiated the connection is the lesser one. -/
def Lesser (s : Side) (c : Conn) : Prop :=
  (ns.conf (initiator s c)).routerId < (ns.conf (initiator s c).other).routerId

end Neighbors

/-- Every connection was made, and all that was sent on one that is not closed has arrived. -/
def Quiet (n : Duplex Peer) : Prop :=
  ∀ s c, ((n s).proto c).state ≠ .connect ∧
    (((n s).proto c).hasPeer = true → (n s.other).wire c.flip = [])

/-- At most one connection is closed by collision resolution. When all has arrived, both speakers
are bound to the same connection, and the other one is closed at both. -/
structure Resolved (n : Duplex Peer) : Prop where
  one_closed : ∀ s c t d, c ∈ (n s).rejected → d ∈ (n t).rejected → initiator s c = initiator t d
  agreed : Quiet n → ∃ i, ∀ s c, ((n s).protocol = some c ↔ initiator s c = i) ∧
    (((n s).proto c).closed = false ↔ initiator s c = i)

namespace Neighbors

variable (ns : Neighbors)

/-- A connection is closed for one that is established or has the greater router id, and a turn for
a connection does not bring a peer that is bound to the other one into `established` or out of
it. -/
structure Orderly (n : Duplex Peer) (e : PeeringEvent) : Prop where
  justified : ∀ s c, c ∉ (n s).rejected → c ∈ (ns.step n e s).rejected →
    (n s).bgpState = .established ∨ ns.Lesser s c
  undisturbed : ∀ d, d ≠ e.conn → (n e.side).protocol = some d →
    ((ns.step n e e.side).bgpState = .established ↔ (n e.side).bgpState = .established)

/-- The open message of a connection that is sent or handled while the peer is bound to the other
one does not find the peer established, and one that is handled is of the lesser router id. -/
def InOrder (n : Duplex Peer) (e : PeeringEvent) : Prop :=
  match e.turn with
  | .connectionMade =>
    ((n e.side).proto e.conn).phase = .fresh → e.conn.isReactive = false →
      ∀ d, (n e.side).protocol = some d → (n e.side).bgpState ≠ .established
  | .recv =>
    ((n e.side).proto e.conn).phase = .waiting →
      ∀ m rest, (n e.side.other).wire e.conn.flip = some (.opening m) :: rest →
        ∀ d, (n e.side).protocol = some d →
          (n e.side).bgpState ≠ .established ∧ ns.Lesser e.side e.conn
  | .keepaliveTimer => True

end Neighbors

def isOpening : Option BGPMessage → Bool
  | some (.opening _) => true
  | _ => false

def isEnding : Option BGPMessage → Bool
  | none => true
  | some (.notification _ _) => true
  | _ => false

/-- What is on the wire to a protocol object, by its phase and the phase of the one that sends: the
open message comes first and only once. -/
def Link (msg : BGPOpen) : Phase → Phase → List (Option BGPMessage) → Prop
  | .ended, _, _ => True
  | .running, ph, w => ph ≠ .fresh ∧ ∀ x ∈ w, isOpening x = false
  | _, .fresh, w => w = []
  | _, _, w => ∃ rest, w = some (.opening msg) :: rest ∧ ∀ x ∈ rest, isOpening x = false

section Link

variable {msg : BGPOpen} {ph ph' ph'' : Phase} {w out : List (Option BGPMessage)}

theorem link_ended : Link msg .ended ph w := trivial

theorem Link.append (h : Link msg ph ph' w) (hn : ph' ≠ .fresh) (hn' : ph'' ≠ .fresh)
    (hout : ∀ x ∈ out, isOpening x = false) : Link msg ph ph'' (w ++ out) := by
  have hwaiting : (∃ rest, w = some (.opening msg) :: rest ∧ ∀ x ∈ rest, isOpening x = false) →
      ∃ rest, w ++ out = some (.opening msg) :: rest ∧ ∀ x ∈ rest, isOpening x = false := by
    rintro ⟨rest, rfl, hr⟩
    refine ⟨rest ++ out, rfl, ?_⟩
    intro x hx
    exact (List.mem_append.mp hx).elim (hr x) (hout x)
  cases ph with
  | ended => trivial
  | running =>
    refine ⟨hn', ?_⟩
    intro x hx
    exact (List.mem_append.mp hx).elim (h.2 x) (hout x)
  | fresh => cases ph' <;> cases ph'' <;> first | exact hwaiting h | contradiction
  | waiting => cases ph' <;> cases ph'' <;> first | exact hwaiting h | contradiction

/-- The connection is made on the side that sends. -/
theorem Link.made (h : Link msg ph .fresh w) :
    Link msg ph .waiting (w ++ [some (.opening msg)]) := by
  cases ph with
  | ended => trivial
  | running => exact absurd rfl h.1
  | fresh =>
    obtain rfl : w = [] := h
    exact ⟨[], rfl, by simp⟩
  | waiting =>
    obtain rfl : w = [] := h
    exact ⟨[], rfl, by simp⟩

theorem Link.fresh_iff_waiting : Link msg .fresh ph w ↔ Link msg .waiting ph w := by
  cases ph <;> rfl

/-- The first message that a waiting protocol object receives. -/
theorem Link.receive_waiting {x : Option BGPMessage} (h : Link msg .waiting ph (x :: w)) :
    x = some (.opening msg) ∧ Link msg .running ph w := by
  cases ph with
  | fresh => cases h
  | waiting | running | ended =>
    obtain ⟨rest, h, hr⟩ := h
    obtain ⟨rfl, rfl⟩ := List.cons.inj h
    exact ⟨rfl, by decide, hr⟩

theorem Link.receive_running {x : Option BGPMessage} (h : Link msg .running ph (x :: w)) :
    isOpening x = false ∧ Link msg .running ph w :=
  ⟨h.2 x List.mem_cons_self, h.1, fun y hy => h.2 y (List.mem_cons_of_mem _ hy)⟩

theorem Link.ne_nil_of_waiting (h : Link msg .waiting ph w) (hn : ph ≠ .fresh) : w ≠ [] := by
  cases ph with
  | fresh => exact absurd rfl hn
  | waiting | running | ended =>
    obtain ⟨rest, rfl, -⟩ := h
    exact List.cons_ne_nil _ _

end Link

@[simp] theorem Peer.taken_wire (q : Peer) (c : Conn) : q.taken c (q.wire c) = q := by
  simp [Peer.taken]

namespace Neighbors

variable (ns : Neighbors)

/-- A speaker is sound, and what is on each wire to it fits. -/
def Wired (s : Side) (p q : Peer) : Prop :=
  p.Sound ∧ ∀ c, Link (ns.conf s.other).createOpenMsg (p.proto c).phase (q.proto c.flip).phase
    (q.wire c.flip)

variable {ns} {n : Duplex Peer}

open Duplex

theorem wired_of_turn (h : EachWay ns.Wired n) {s : Side} {c : Conn} {ph : Phase}
    {out w : List (Option BGPMessage)} {p : Peer} (ht : (n s).Turn c ph out p)
    (hr : Link (ns.conf s.other).createOpenMsg ph ((n s.other).proto c.flip).phase w)
    (ho : Link (ns.conf s).createOpenMsg ((n s.other).proto c.flip).phase ph
      ((n s).wire c ++ out)) :
    EachWay ns.Wired (pair s p ((n s.other).taken c.flip w)) := by
  refine eachWay_pair.2 ⟨⟨ht.sound, ?_⟩, ⟨?_, ?_⟩⟩
  · intro d
    rcases eq_or_ne d c with rfl | hd
    · rw [ht.phase]
      simpa [Peer.taken] using hr
    · have hd' : d.flip ≠ c.flip := Conn.flip_injective.ne hd
      rw [ht.phase_of_ne d hd]
      simpa [Peer.taken, hd'] using (h s).2 d
  · obtain ⟨hok, hpr, hrj⟩ := (h s.other).1
    exact ⟨hok, hpr, hrj⟩
  · intro d
    rcases eq_or_ne d c.flip with rfl | hd
    · rw [Conn.flip_flip, ht.phase, ht.wire]
      simpa [Peer.taken] using ho
    · have hd' : d.flip ≠ c := by
        rintro rfl
        exact hd (Conn.flip_flip d).symm
      rw [ht.phase_of_ne _ hd', ht.wire_of_ne _ hd']
      simpa [Peer.taken] using (h s.other).2 d

variable (ns n) in
/-- What a turn comes to. -/
inductive Outcome (e : PeeringEvent) : Duplex Peer → Prop
  | idle : Outcome e n
  | made (he : e.turn = .connectionMade) (hf : ((n e.side).proto e.conn).phase = .fresh) :
    Outcome e
      (pair e.side ((n e.side).connectionMade (ns.conf e.side) e.conn) (n e.side.other))
  | bound (he : e.turn = .recv) (hw : ((n e.side).proto e.conn).phase = .waiting)
    {rest : List (Option BGPMessage)}
    (hm : (n e.side.other).wire e.conn.flip =
      some (.opening (ns.conf e.side.other).createOpenMsg) :: rest)
    (hn : (n e.side).protocol = none) :
    Outcome e (pair e.side ((n e.side).handleOpen (ns.conf e.side) e.conn
      (ns.conf e.side.other).createOpenMsg) ((n e.side.other).taken e.conn.flip rest))
  | rejected (he : e.turn = .recv) (hw : ((n e.side).proto e.conn).phase = .waiting)
    {rest : List (Option BGPMessage)}
    (hm : (n e.side.other).wire e.conn.flip =
      some (.opening (ns.conf e.side.other).createOpenMsg) :: rest)
    {d : Conn} (hd : (n e.side).protocol = some d) :
    Outcome e (pair e.side ((n e.side).handleOpen (ns.conf e.side) e.conn
      (ns.conf e.side.other).createOpenMsg) ((n e.side.other).taken e.conn.flip rest))
  | keepalive (hr : ((n e.side).proto e.conn).phase = .running) {rest : List (Option BGPMessage)}
    (hm : (n e.side.other).wire e.conn.flip = some .keepalive :: rest) :
    Outcome e
      (pair e.side (n e.side).handleKeepalive ((n e.side.other).taken e.conn.flip rest))
  | lost (hr : ((n e.side).proto e.conn).phase = .running) {x : Option BGPMessage}
    (hx : isEnding x = true) {rest : List (Option BGPMessage)}
    (hm : (n e.side.other).wire e.conn.flip = x :: rest) :
    Outcome e (pair e.side (((n e.side).protocolLost e.conn).stop e.conn)
      ((n e.side.other).taken e.conn.flip rest))
  | timer (hf : ((n e.side).proto e.conn).phase ≠ .fresh) :
    Outcome e (pair e.side ((n e.side).put e.conn (some .keepalive)) (n e.side.other))

theorem receive_outcome (h : EachWay ns.Wired n) (e : PeeringEvent) (he : e.turn = .recv) :
    ns.Outcome n e (ns.receive n e.side e.conn) := by
  have hs := (h e.side).1
  have hl := (h e.side).2 e.conn
  unfold receive
  split
  · exact .idle
  · rename_i hne
    push Not at hne
    obtain ⟨ho, hp⟩ := hne
    have hp : ((n e.side).proto e.conn).hasPeer = true := by simpa using hp
    rw [if_neg (by simp [hs.closed hp])]
    split
    · exact .idle
    · rename_i x rest hm
      rw [hm] at hl
      cases hph : ((n e.side).proto e.conn).phase with
      | fresh => exact absurd (BgpProtocol.phase_eq_fresh.1 hph).2 ho
      | ended => exact absurd hp (by simp [BgpProtocol.phase_eq_ended.1 hph])
      | waiting =>
        rw [hph] at hl
        obtain ⟨rfl, -⟩ := hl.receive_waiting
        cases hd : (n e.side).protocol with
        | none => exact .bound he hph hm hd
        | some d => exact .rejected he hph hm hd
      | running =>
        rw [hph] at hl
        obtain ⟨hx, -⟩ := hl.receive_running
        rcases x with _ | _ | _ | _
        · exact .lost hph rfl hm
        · cases hx
        · simp only [Peer.recvLoop, Peer.handleMsg]
          rw [Peer.closeSocket_protocolLost_of_running hs hph]
          exact .lost hph rfl hm
        · exact .keepalive hph hm

theorem step_outcome (h : EachWay ns.Wired n) (e : PeeringEvent) :
    ns.Outcome n e (ns.step n e) := by
  unfold step
  split
  · rename_i he
    by_cases ho : ((n e.side).proto e.conn).state = .connect
    · have hb := ((h e.side).1.ok e.conn).fresh ho
      exact .made he (by rw [hb]; rfl)
    · rw [Peer.connectionMade, if_neg ho, pair_eta]
      exact .idle
  · rename_i he
    exact receive_outcome h e he
  · rcases (h e.side).1.keepaliveTimer_cases e.conn with ht | ⟨hf, ht⟩
    · rw [ht, pair_eta]
      exact .idle
    · rw [ht]
      exact .timer hf

theorem isOpening_of_keepalive {out : List (Option BGPMessage)}
    (h : ∀ x ∈ out, x = some .keepalive) : ∀ x ∈ out, isOpening x = false := by
  rintro x hx
  rw [h x hx]
  rfl

theorem isEnding_of_keepalive {out : List (Option BGPMessage)}
    (h : ∀ x ∈ out, x = some .keepalive) : ∀ x ∈ out, isEnding x = false := by
  rintro x hx
  rw [h x hx]
  rfl

theorem wired_step (h : EachWay ns.Wired n) (e : PeeringEvent) :
    EachWay ns.Wired (ns.step n e) := by
  obtain ⟨hs, hl⟩ := h e.side
  have hl := hl e.conn
  have hl' := (h e.side.other).2 e.conn.flip
  simp only [Side.other_other, Conn.flip_flip] at hl'
  have hout := step_outcome h e
  generalize ns.step n e = m at hout ⊢
  cases hout with
  | idle => exact h
  | made he hf =>
    rw [← Peer.taken_wire (n e.side.other) e.conn.flip]
    rw [hf] at hl hl'
    exact wired_of_turn h (Peer.turn_of_fresh (ns.conf e.side) hs hf) (Link.fresh_iff_waiting.1 hl) hl'.made
  | bound he hw hm hn =>
    obtain ⟨out, ht, hout⟩ := Peer.turn_of_unbound hs hw (ns.accepts e.side) hn
    rw [hw, hm] at hl
    rw [hw] at hl'
    exact wired_of_turn h ht hl.receive_waiting.2
      (hl'.append (by decide) (by decide) (isOpening_of_keepalive hout))
  | rejected he hw hm hd =>
    rw [hw] at hl'
    exact wired_of_turn h (Peer.turn_of_bound hs hw (ns.accepts e.side) hd) link_ended
      (hl'.append (by decide) (by decide) (by simp [isOpening]))
  | keepalive hr hm =>
    have ht := Peer.turn_of_keepalive hs e.conn
    rw [hr, hm] at hl
    rw [hr] at hl' ht
    exact wired_of_turn h ht hl.receive_running.2 (by simpa using hl')
  | lost hr hx hm =>
    rw [hr] at hl'
    exact wired_of_turn h (Peer.turn_of_lost hs hr) link_ended
      (hl'.append (by decide) (by decide) (by simp [isOpening]))
  | timer hf =>
    rw [← Peer.taken_wire (n e.side.other) e.conn.flip]
    exact wired_of_turn h (Peer.turn_of_put hs e.conn _) hl
      (hl'.append hf hf (by simp [isOpening]))

/-- A connection that is closed, or about to be, at either side is of the lesser router id. -/
def Spared (ns : Neighbors) (s : Side) (p : Peer) : Prop :=
  ∀ c, (p.proto c).phase = .ended ∨ (∃ x ∈ p.wire c, isEnding x = true) → ns.Lesser s c

theorem lesser_other_flip {s : Side} {c : Conn} : ns.Lesser s.other c.flip ↔ ns.Lesser s c := by
  simp [Lesser]

theorem Lesser.not_flip {s : Side} {c : Conn} (h : ns.Lesser s c) : ¬ ns.Lesser s c.flip := by
  simp only [Lesser, initiator_flip, Side.other_other] at h ⊢
  omega

theorem Spared.of_turn {s : Side} {p q : Peer} {c : Conn} {ph : Phase}
    {out : List (Option BGPMessage)} (h : ns.Spared s p) (ht : p.Turn c ph out q)
    (hc : ph = .ended ∨ (∃ x ∈ out, isEnding x = true) → ns.Lesser s c ∨ (p.proto c).phase = .ended) :
    ns.Spared s q := by
  intro d hd
  rcases eq_or_ne d c with rfl | hne
  · rw [ht.phase, ht.wire] at hd
    rcases hd with hd | ⟨x, hx, hd⟩
    · exact (hc (Or.inl hd)).elim id fun hp => h d (Or.inl hp)
    · rcases List.mem_append.mp hx with hx | hx
      · exact h d (Or.inr ⟨x, hx, hd⟩)
      · exact (hc (Or.inr ⟨x, hx, hd⟩)).elim id fun hp => h d (Or.inl hp)
  · rw [ht.phase_of_ne d hne, ht.wire_of_ne d hne] at hd
    exact h d hd

theorem Spared.taken {s : Side} {q : Peer} {c : Conn} {rest : List (Option BGPMessage)}
    (h : ns.Spared s q) {x : Option BGPMessage} (hm : q.wire c = x :: rest) :
    ns.Spared s (q.taken c rest) := by
  intro d hd
  refine h d (hd.imp id ?_)
  rintro ⟨y, hy, he⟩
  rcases eq_or_ne d c with rfl | hne
  · simp only [Peer.taken, Function.update_self] at hy
    exact ⟨y, by rw [hm]; exact List.mem_cons_of_mem _ hy, he⟩
  · simp only [Peer.taken, Function.update_of_ne hne] at hy
    exact ⟨y, hy, he⟩

theorem spared_step (h : EachWay ns.Wired n) (hsp : ∀ s, ns.Spared s (n s)) {e : PeeringEvent}
    (hg : ns.InOrder n e) : ∀ s, ns.Spared s (ns.step n e s) := by
  obtain ⟨hs, -⟩ := h e.side
  have hp := hsp e.side
  have hq := hsp e.side.other
  have hout := step_outcome h e
  generalize ns.step n e = m at hout ⊢
  cases hout with
  | idle => exact hsp
  | made he hf =>
    refine (forall_iff e.side).mpr ⟨?_, by simpa using hq⟩
    rw [pair_self]
    exact hp.of_turn (Peer.turn_of_fresh (ns.conf e.side) hs hf) (by simp [isEnding])
  | bound he hw hm hn =>
    obtain ⟨out, ht, hout⟩ := Peer.turn_of_unbound hs hw (ns.accepts e.side) hn
    refine (forall_iff e.side).mpr ⟨?_, by simpa using hq.taken hm⟩
    rw [pair_self]
    refine hp.of_turn ht ?_
    rintro (h | ⟨x, hx, h⟩)
    · cases h
    · rw [isEnding_of_keepalive hout x hx] at h
      cases h
  | rejected he hw hm hd =>
    simp only [InOrder, he] at hg
    obtain ⟨-, hless⟩ := hg hw _ _ hm _ hd
    refine (forall_iff e.side).mpr ⟨?_, by simpa using hq.taken hm⟩
    rw [pair_self]
    exact hp.of_turn (Peer.turn_of_bound hs hw (ns.accepts e.side) hd) fun _ => Or.inl hless
  | keepalive hr hm =>
    refine (forall_iff e.side).mpr ⟨?_, by simpa using hq.taken hm⟩
    rw [pair_self]
    exact hp.of_turn (Peer.turn_of_keepalive hs e.conn) fun h => Or.inr (h.resolve_right (by simp))
  | lost hr hx hm =>
    -- the other side has closed the connection, or was told to
    have hless : ns.Lesser e.side e.conn :=
      lesser_other_flip.1 (hq _ (Or.inr ⟨_, by rw [hm]; exact List.mem_cons_self, hx⟩))
    refine (forall_iff e.side).mpr ⟨?_, by simpa using hq.taken hm⟩
    rw [pair_self]
    exact hp.of_turn (Peer.turn_of_lost hs hr) fun _ => Or.inl hless
  | timer hf =>
    refine (forall_iff e.side).mpr ⟨?_, by simpa using hq⟩
    rw [pair_self]
    refine hp.of_turn (Peer.turn_of_put hs e.conn _) ?_
    simp only [List.mem_singleton, exists_eq_left, isEnding, Bool.false_eq_true, or_false]
    exact Or.inr

theorem Wired.ne_of_protocol {s : Side} {p q : Peer} {c d : Conn} (h : ns.Wired s p q)
    (hc : (p.proto c).phase ≠ .running) (hd : p.protocol = some d) : d ≠ c := by
  rintro rfl
  exact hc ((h.1.protocol_iff d).mp hd)

/-- The open message of a waiting protocol object is handled. -/
theorem step_opening (h : EachWay ns.Wired n) {e : PeeringEvent} (he : e.turn = .recv)
    (hw : ((n e.side).proto e.conn).phase = .waiting) {m : BGPOpen}
    {rest : List (Option BGPMessage)}
    (hm : (n e.side.other).wire e.conn.flip = some (.opening m) :: rest) :
    ns.step n e = pair e.side ((n e.side).handleOpen (ns.conf e.side) e.conn
      (ns.conf e.side.other).createOpenMsg) ((n e.side.other).taken e.conn.flip rest) := by
  obtain ⟨hs, hl⟩ := h e.side
  have hl := hl e.conn
  rw [hw, hm] at hl
  obtain ⟨hx, -⟩ := hl.receive_waiting
  obtain ⟨hp, ho⟩ := BgpProtocol.phase_eq_waiting.1 hw
  simp [step, he, receive, ho, hp, hs.closed hp, hm, hx, Peer.recvLoop, Peer.handleMsg]

theorem inOrder_of_orderly (h : EachWay ns.Wired n) {e : PeeringEvent} (ho : ns.Orderly n e) :
    ns.InOrder n e := by
  obtain ⟨hs, -⟩ := h e.side
  unfold InOrder
  split
  · rename_i he
    intro hf hact d hd
    have hafter : (ns.step n e e.side).bgpState = .openSent := by
      simp [step, he, Peer.connectionMade_of_fresh (ns.conf e.side) hs hf, hact]
    have hu := ho.undisturbed d ((h e.side).ne_of_protocol (by rw [hf]; decide) hd) hd
    rw [hafter] at hu
    exact fun hest => absurd (hu.mpr hest) (by decide)
  · rename_i he
    intro hw m rest hm d hd
    have hstep := step_opening h he hw hm
    rw [Peer.handleOpen_of_bound hs hw (ns.accepts e.side) hd] at hstep
    have hest : (n e.side).bgpState ≠ .established := by
      have hu := ho.undisturbed d ((h e.side).ne_of_protocol (by rw [hw]; decide) hd) hd
      rw [hstep, pair_self] at hu
      simpa using hu
    refine ⟨hest, (ho.justified e.side e.conn ?_ ?_).resolve_left hest⟩
    · exact hs.not_mem_rejected (by rw [hw]; decide)
    · rw [hstep, pair_self]
      exact List.mem_append_right _ (List.mem_singleton_self _)
  · trivial

theorem orderly_of_pair {e : PeeringEvent} {p q : Peer} (hm : ns.step n e = pair e.side p q)
    (hq : q.rejected = (n e.side.other).rejected)
    (hj : ∀ c ∈ p.rejected, c ∈ (n e.side).rejected ∨ ns.Lesser e.side c)
    (hu : ∀ d, d ≠ e.conn → (n e.side).protocol = some d →
      (p.bgpState = .established ↔ (n e.side).bgpState = .established)) :
    ns.Orderly n e where
  justified := by
    rw [hm, forall_iff e.side]
    constructor
    · intro c hc hc'
      rw [pair_self] at hc'
      exact Or.inr ((hj c hc').resolve_left hc)
    · intro c hc hc'
      rw [pair_other, hq] at hc'
      exact absurd hc' hc
  undisturbed := by
    rw [hm, pair_self]
    exact hu

theorem orderly_of_inOrder (h : EachWay ns.Wired n) {e : PeeringEvent} (hg : ns.InOrder n e) :
    ns.Orderly n e := by
  obtain ⟨hs, -⟩ := h e.side
  have hout := step_outcome h e
  generalize hm : ns.step n e = m at hout
  cases hout with
  | idle =>
    have hm' := hm.trans (pair_eta n e.side).symm
    exact orderly_of_pair hm' rfl (fun c hc => Or.inl hc) fun _ _ _ => Iff.rfl
  | made he hf =>
    have hmade := Peer.connectionMade_of_fresh (ns.conf e.side) hs hf
    refine orderly_of_pair hm rfl ?_ ?_
    · rw [hmade]
      exact fun c hc => Or.inl hc
    · intro d _ hd
      rw [hmade]
      cases hr : e.conn.isReactive with
      | true => rfl
      | false =>
        simp only [InOrder, he] at hg
        simp [hg hf hr d hd]
  | bound he hw hm' hn =>
    refine orderly_of_pair hm rfl ?_ ?_
    · intro c hc
      rw [Peer.handleOpen_of_unbound hs hw (ns.accepts e.side) hn] at hc
      split at hc <;> exact Or.inl hc
    · intro d _ hd
      rw [hn] at hd
      cases hd
  | rejected he hw hm' hd =>
    simp only [InOrder, he] at hg
    obtain ⟨hest, hless⟩ := hg hw _ _ hm' _ hd
    rw [Peer.handleOpen_of_bound hs hw (ns.accepts e.side) hd] at hm
    refine orderly_of_pair hm rfl ?_ ?_
    · intro c hc
      rcases List.mem_append.mp hc with hc | hc
      · exact Or.inl hc
      · rw [List.mem_singleton.mp hc]
        exact Or.inr hless
    · intro _ _ _
      simp [hest]
  | keepalive hr hm' =>
    have hd := (hs.protocol_iff e.conn).mpr hr
    refine orderly_of_pair hm rfl ?_ ?_
    · intro c hc
      unfold Peer.handleKeepalive at hc
      split at hc <;> exact Or.inl hc
    · intro d hne hd'
      rw [hd] at hd'
      exact absurd (Option.some.inj hd').symm hne
  | lost hr hx hm' =>
    have hd := (hs.protocol_iff e.conn).mpr hr
    rw [Peer.protocolLost_of_running hs hr] at hm
    refine orderly_of_pair hm rfl (fun c hc => Or.inl hc) ?_
    intro d hne hd'
    rw [hd] at hd'
    exact absurd (Option.some.inj hd').symm hne
  | timer hf => exact orderly_of_pair hm rfl (fun c hc => Or.inl hc) fun _ _ _ => Iff.rfl

/-- A connection of the lesser router id is initiated by the same speaker as any other one. -/
theorem Lesser.initiator_eq {s t : Side} {c d : Conn} (h : ns.Lesser s c) (h' : ns.Lesser t d) :
    initiator s c = initiator t d := by
  rcases (initiator t d).eq_or_eq_other (initiator s c) with he | he
  · exact he
  · simp only [Lesser, he, Side.other_other] at h h'
    omega

theorem lesser_iff {s t : Side} {c d : Conn} (h : ns.Lesser s c) :
    ns.Lesser t d ↔ initiator t d = initiator s c := by
  constructor
  · intro h'
    exact h'.initiator_eq h
  · intro he
    rw [Lesser, he]
    exact h

theorem phase_of_quiet (h : EachWay ns.Wired n) (hq : Quiet n) (s : Side) (c : Conn) :
    ((n s).proto c).phase = .running ∨ ((n s).proto c).phase = .ended := by
  have hl := (h s).2 c
  cases hp : ((n s).proto c).phase with
  | running => exact Or.inl rfl
  | ended => exact Or.inr rfl
  | fresh => exact absurd (BgpProtocol.phase_eq_fresh.1 hp).2 (hq s c).1
  | waiting =>
    rw [hp] at hl
    refine absurd ((hq s c).2 (BgpProtocol.phase_eq_waiting.1 hp).1) (hl.ne_nil_of_waiting ?_)
    intro hf
    exact (hq s.other c.flip).1 (BgpProtocol.phase_eq_fresh.1 hf).2

theorem resolved_of_spared (h : EachWay ns.Wired n) (hsp : ∀ s, ns.Spared s (n s)) :
    Resolved n where
  one_closed s c t d hc hd := by
    have hc' := hsp s c (Or.inl ((h s).1.rejected c hc))
    have hd' := hsp t d (Or.inl ((h t).1.rejected d hd))
    exact hc'.initiator_eq hd'
  agreed hq := by
    have hph := phase_of_quiet h hq
    have hone : ∀ s c, ((n s).proto c).phase = .running → ((n s).proto c.flip).phase = .ended := by
      intro s c hr
      refine (hph s c.flip).resolve_left ?_
      intro hr'
      have he := ((h s).1.protocol_iff c).mpr hr
      rw [((h s).1.protocol_iff c.flip).mpr hr'] at he
      exact c.flip_ne (Option.some.inj he)
    have hrun : ∀ s c, ((n s).proto c).phase = .running ↔ ¬ ns.Lesser s c := by
      intro s c
      constructor
      · intro hr hl
        exact hl.not_flip (hsp s c.flip (Or.inl (hone s c hr)))
      · intro hl
        exact (hph s c).resolve_right fun ho => hl (hsp s c (Or.inl ho))
    -- one of the two connections is of the lesser router id, or both would be bound
    obtain ⟨c₀, hl₀⟩ : ∃ c₀, ns.Lesser .left c₀ := by
      by_contra hno
      push Not at hno
      have hr := (hrun .left .active).mpr (hno _)
      have ho := hone .left .active hr
      rw [(hrun .left Conn.active.flip).mpr (hno _)] at ho
      cases ho
    refine ⟨(initiator .left c₀).other, ?_⟩
    intro s c
    have hi : ((n s).proto c).phase = .running ↔ initiator s c = (initiator .left c₀).other := by
      rw [hrun, lesser_iff hl₀]
      rcases (initiator .left c₀).eq_or_eq_other (initiator s c) with he | he
      · simp [he, (Side.other_ne _).symm]
      · simp [he]
    refine ⟨((h s).1.protocol_iff c).trans hi, ?_⟩
    rw [← hi, ← Bool.not_eq_true, ((h s).1.ok c).closed_eq_true]
    rcases hph s c with hp | hp <;> simp [hp]

/-- The two speakers before a connection is made: `start_protocol` has accepted both. -/
def start : Duplex Peer := fun _ => {}

theorem wired_start : EachWay ns.Wired start := by
  intro s
  refine ⟨⟨?_, ?_, ?_⟩, ?_⟩
  · intro c
    exact ⟨rfl, fun _ => rfl, by simp [BgpProtocol.phase, start]⟩
  · simp [start, BgpProtocol.phase]
  · simp [start]
  · intro c
    rfl

theorem spared_start (s : Side) : ns.Spared s (start s) := by
  rintro c (h | ⟨x, hx, -⟩)
  · cases h
  · cases hx

end Neighbors

/-- Collision resolution closes one connection at most and leaves both speakers with the same one,
and no session is disturbed, exactly as long as every open message is in order. -/
theorem resolved_iff_inOrder (ns : Neighbors) (es : List PeeringEvent) :
    Throughout ns.step Resolved Neighbors.start es ∧ EveryStep ns.step ns.Orderly Neighbors.start es ↔
      EveryStep ns.step ns.InOrder Neighbors.start es := by
  constructor
  · rintro ⟨-, h⟩
    refine everyStep_of_everyStep (P := Duplex.EachWay ns.Wired) Neighbors.wired_start ?_ h
    intro n e hw ho
    exact ⟨Neighbors.inOrder_of_orderly hw ho, Neighbors.wired_step hw e⟩
  · intro h
    constructor
    · have hI := throughout_of_everyStep
        (P := fun n => Duplex.EachWay ns.Wired n ∧ ∀ s, ns.Spared s (n s))
        ⟨Neighbors.wired_start, Neighbors.spared_start⟩
        (fun n e hI hg => ⟨Neighbors.wired_step hI.1 e, Neighbors.spared_step hI.1 hI.2 hg⟩) h
      exact hI.mono fun n hI => Neighbors.resolved_of_spared hI.1 hI.2
    · refine everyStep_of_everyStep (P := Duplex.EachWay ns.Wired) Neighbors.wired_start ?_ h
      intro n e hw hg
      exact ⟨Neighbors.orderly_of_inOrder hw hg, Neighbors.wired_step hw e⟩

/-- Two speakers, the right one with the greater router id. -/
def crossed : Neighbors where
  conf
    | .left => ⟨1, 65001, 65002, 90, true⟩
    | .right => ⟨2, 65002, 65001, 90, true⟩
  accepts s := by cases s <;> rfl

/-- Each speaker handles the open message of the connection that it initiated first. -/
def crossing : List PeeringEvent :=
  [⟨.connectionMade, .left, .active⟩, ⟨.connectionMade, .left, .passive⟩,
    ⟨.connectionMade, .right, .active⟩, ⟨.connectionMade, .right, .passive⟩,
    ⟨.recv, .left, .active⟩, ⟨.recv, .right, .active⟩,
    ⟨.recv, .left, .passive⟩, ⟨.recv, .right, .passive⟩]

/-- Both connections are closed, each by another speaker. -/
theorem crossing_closes_both : ¬ ∀ (ns : Neighbors) (es : List PeeringEvent),
    Throughout ns.step Resolved Neighbors.start es ∧
      EveryStep ns.step ns.Orderly Neighbors.start es := by
  intro h
  have hlast := (h crossed crossing).1.last
  have hleft : Conn.passive ∈ (crossing.foldl crossed.step Neighbors.start .left).rejected := by
    decide
  have hright : Conn.passive ∈ (crossing.foldl crossed.step Neighbors.start .right).rejected := by
    decide
  have hsame := hlast.one_closed .left .passive .right .passive hleft hright
  revert hsame
  decide

end Ryu.Bgp
