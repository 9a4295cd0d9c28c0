import Mathlib.Data.List.Nodup
import Ryu.Lib.Dict
import Ryu.Lib.Duplex
import Ryu.Lib.Run
import Ryu.Lib.Wrap

/-! # Authentication of BFD packets

The sender of a keyed packet counts modulo `2 ^ 32`, the receiver takes a packet whose sequence
number is not below the one it took last and not too far above it. The number is compared as it
stands, so that a receiver that has taken a number before the wrap refuses all that come after it.
-/

namespace Ryu.Bfd

inductive AuthType
  | keyedMd5
  | meticulousKeyedMd5
  | keyedSha1
  | meticulousKeyedSha1
  deriving DecidableEq, Repr

def AuthType.meticulous : AuthType → Bool
  | .meticulousKeyedMd5 | .meticulousKeyedSha1 => true
  | .keyedMd5 | .keyedSha1 => false

/-- The longest key that `serialize` takes. -/
def AuthType.maxKey : AuthType → ℕ
  | .keyedMd5 | .meticulousKeyedMd5 => 16
  | .keyedSha1 | .meticulousKeyedSha1 => 20

/-- What two sessions share: the type, the keys by their ids, and the hash of a packet, which is
made of its control header, the key id, the sequence number and the key. -/
structure AuthConfig where
  authType : AuthType
  authKeys : Dict ℕ (List UInt8)
  hash : List UInt8 → ℕ → ℕ → List UInt8 → List UInt8
  /-- The constructor asserts that there are keys. -/
  keys_ne_nil : authKeys.entries ≠ []
  keys_fit : ∀ key ∈ authKeys.entries, key.1 < 2 ^ 8 ∧ key.2.length ≤ authType.maxKey

structure AuthPacket where
  authType : AuthType
  header : List UInt8
  authKeyId : ℕ
  seq : ℕ
  digest : List UInt8
  deriving DecidableEq, Repr

/-- The part of a session that authentication uses. -/
structure AuthSession where
  detectMult : ℕ
  xmitAuthSeq : ℕ
  rcvAuthSeq : ℕ
  authSeqKnown : Bool
  deriving DecidableEq, Repr

namespace AuthSession

variable (c : AuthConfig)

/-- The constructor, with `randint(0, UINT32_MAX)`. -/
def start (detectMult draw : ℕ) : AuthSession := ⟨detectMult, draw % 2 ^ 32, 0, false⟩

/-- The number of the next packet. Without the meticulous type it is counted on at random. -/
def nextSeq (seq : ℕ) (draw : Bool) : ℕ :=
  if c.authType.meticulous || draw then (seq + 1) &&& (2 ^ 32 - 1) else seq

/-- `_send`, with the key of a place among the keys. -/
def send (s : AuthSession) (draw : Bool) (place : Fin c.authKeys.entries.length) (header : List UInt8) :
    AuthSession × AuthPacket :=
  let key := c.authKeys.entries.get place
  let seq := nextSeq c s.xmitAuthSeq draw
  ({ s with xmitAuthSeq := seq },
    ⟨c.authType, header, key.1, seq, c.hash header key.1 seq key.2⟩)

/-- The check of the sequence number in `recv_bfd_pkt`. -/
def passes (s : AuthSession) (seq : ℕ) : Bool :=
  if s.authSeqKnown then
    if seq < s.rcvAuthSeq then false
    else if c.authType.meticulous && seq ≤ s.rcvAuthSeq then false
    else !(seq > s.rcvAuthSeq + 3 * s.detectMult)
  else true

/-- `authenticate`. -/
def authenticate (pkt : AuthPacket) : Bool :=
  match c.authKeys.get? pkt.authKeyId with
  | none => false
  | some key => pkt.digest = c.hash pkt.header pkt.authKeyId pkt.seq key

/-- A packet gets through to `recv`. -/
def accepts (s : AuthSession) (pkt : AuthPacket) : Bool :=
  pkt.authType = c.authType && s.passes c pkt.seq && authenticate c pkt

/-- `recv_bfd_pkt` behind its sanity checks. -/
def recvBfdPkt (s : AuthSession) (pkt : AuthPacket) : AuthSession :=
  if s.accepts c pkt then { s with rcvAuthSeq := pkt.seq, authSeqKnown := true } else s

/-- `_recv_timeout_loop` forgets the number. -/
def timeOut (s : AuthSession) : AuthSession := { s with authSeqKnown := false }

end AuthSession

/-! ## Two sessions -/

/-- A packet that was sent, with the number it would have if the counter did not wrap. -/
structure SentPacket where
  packet : AuthPacket
  count : ℕ

/-- A session, all packets it has sent, how many of them have arrived or were lost, and how many
were lost since one arrived. `accepted` are the places, among the packets of the other one, of
those that the session has accepted since the sequence number is known. -/
structure Peer where
  session : AuthSession
  count : ℕ
  sent : List SentPacket
  gone : ℕ
  lost : ℕ
  accepted : List ℕ

inductive AuthTurn (c : AuthConfig)
  | send (draw : Bool) (place : Fin c.authKeys.entries.length) (header : List UInt8)
  /-- The next packet on the way is received. -/
  | deliver
  /-- The next packet on the way is lost, or dropped by an earlier check. -/
  | lose
  | timeOut
  /-- A packet that had been on the way comes once more. -/
  | replay (place : ℕ)

structure AuthEvent (c : AuthConfig) where
  side : Side
  turn : AuthTurn c

namespace Peer

variable (c : AuthConfig)

def start (detectMult draw : ℕ) : Peer :=
  ⟨AuthSession.start detectMult draw, draw % 2 ^ 32, [], 0, 0, []⟩

def send (p : Peer) (draw : Bool) (place : Fin c.authKeys.entries.length) (header : List UInt8) : Peer :=
  let count := if c.authType.meticulous || draw then p.count + 1 else p.count
  let (session, packet) := p.session.send c draw place header
  { p with session := session, count := count, sent := p.sent ++ [⟨packet, count⟩] }

/-- The packet at a place among those of the other one is received. -/
def hear (p : Peer) (place : ℕ) (pkt : AuthPacket) : Peer :=
  { p with
    session := p.session.recvBfdPkt c pkt
    accepted :=
      if p.session.accepts c pkt then
        if p.session.authSeqKnown then place :: p.accepted else [place]
      else p.accepted }

def timeOut (p : Peer) : Peer := { p with session := p.session.timeOut, accepted := [] }

/-- The next of its packets is off the way. -/
def arrived (p : Peer) : Peer := { p with gone := p.gone + 1, lost := 0 }

def loses (p : Peer) : Peer := { p with gone := p.gone + 1, lost := p.lost + 1 }

/-- The next packet on the way. -/
def onWay (p : Peer) : Option SentPacket := p.sent[p.gone]?

end Peer

namespace Authentication

variable (c : AuthConfig)

def start (detectMult draw : Side → ℕ) : Duplex Peer := fun s => .start (detectMult s) (draw s)

def step (n : Duplex Peer) (e : AuthEvent c) : Duplex Peer :=
  let p := n e.side
  let q := n e.side.other
  match e.turn with
  | .send draw place header => .pair e.side (p.send c draw place header) q
  | .deliver =>
    match q.onWay with
    | none => n
    | some f => .pair e.side (p.hear c q.gone f.packet) q.arrived
  | .lose =>
    match q.onWay with
    | none => n
    | some _ => .pair e.side p q.loses
  | .timeOut => .pair e.side p.timeOut q
  | .replay place =>
    match q.sent[place]? with
    | none => n
    | some f => if place < q.gone then .pair e.side (p.hear c place f.packet) q else n

/-- Before a packet is received fewer than three times the detection multiplier are lost, and
none is received out of its turn. -/
def InOrder (n : Duplex Peer) (e : AuthEvent c) : Prop :=
  match e.turn with
  | .deliver => (n e.side.other).lost < 3 * (n e.side).session.detectMult
  | .replay _ => False
  | _ => True

/-- A packet that is received passes the check of its sequence number. -/
def Passes (n : Duplex Peer) (e : AuthEvent c) : Prop :=
  match e.turn with
  | .deliver => ∀ f ∈ (n e.side.other).onWay, (n e.side).session.passes c f.packet.seq
  | _ => True

/-- The counter of the sender has not wrapped between the packet accepted last, while its number
is known, and the one that is received. -/
def NoWrap (n : Duplex Peer) (e : AuthEvent c) : Prop :=
  match e.turn with
  | .deliver => ∀ f ∈ (n e.side.other).onWay, ∀ place ∈ (n e.side).accepted.head?,
      ∀ g ∈ (n e.side.other).sent[place]?, SameRound (2 ^ 32) g.count f.count
  | _ => True

/-! ## What is sent -/

/-- The number after the one given. -/
def Follows (a b : ℕ) : Prop := b = a + 1 ∨ c.authType.meticulous = false ∧ b = a

/-- The packets of a session carry its counter, step by step. -/
structure Sends (q : Peer) : Prop where
  seq : q.session.xmitAuthSeq = q.count % 2 ^ 32
  genuine : ∀ f ∈ q.sent, f.packet.authType = c.authType ∧
    AuthSession.authenticate c f.packet = true ∧ f.packet.seq = f.count % 2 ^ 32
  steps : ∀ i f g, q.sent[i]? = some f → q.sent[i + 1]? = some g → Follows c f.count g.count
  last : ∀ f ∈ q.sent.getLast?, f.count = q.count

variable {c} {p q p' q' : Peer} {f g : SentPacket} {i j k : ℕ} {n : Duplex Peer} {e : AuthEvent c}
  {draw : Bool} {place : Fin c.authKeys.entries.length} {header : List UInt8}

theorem authenticate_send (s : AuthSession) :
    AuthSession.authenticate c (s.send c draw place header).2 = true := by
  have hl := Dict.mem_entries_iff.mp (List.get_mem c.authKeys.entries place)
  simp only [AuthSession.authenticate, AuthSession.send, hl, decide_true]

theorem nextSeq_mod (a : ℕ) : AuthSession.nextSeq c (a % 2 ^ 32) draw =
    (if c.authType.meticulous || draw then a + 1 else a) % 2 ^ 32 := by
  unfold AuthSession.nextSeq
  rw [Nat.and_two_pow_sub_one_eq_mod]
  split
  · rw [Nat.mod_add_mod]
  · rfl

theorem sends_start (detectMult draw : ℕ) : Sends c (Peer.start detectMult draw) where
  seq := by simp [Peer.start, AuthSession.start]
  genuine := fun f hf => absurd hf List.not_mem_nil
  steps := fun i f g hf => by simp [Peer.start] at hf
  last := fun f hf => by simp [Peer.start] at hf

theorem Sends.send (h : Sends c q) (draw : Bool) (place : Fin c.authKeys.entries.length)
    (header : List UInt8) : Sends c (q.send c draw place header) where
  seq := by
    change AuthSession.nextSeq c _ _ = _
    rw [h.seq, nextSeq_mod]
    rfl
  genuine := by
    intro f hf
    rcases List.mem_append.mp hf with hf | hf
    · exact h.genuine f hf
    · obtain rfl := List.mem_singleton.mp hf
      refine ⟨rfl, authenticate_send _, ?_⟩
      change AuthSession.nextSeq c _ _ = _
      rw [h.seq, nextSeq_mod]
  steps := by
    intro i f g hf hg
    change (q.sent ++ [_])[i]? = _ at hf
    change (q.sent ++ [_])[i + 1]? = _ at hg
    by_cases hi : i + 1 < q.sent.length
    · rw [List.getElem?_append_left (by omega)] at hf hg
      exact h.steps i f g hf hg
    · have hlen := (List.getElem?_eq_some_iff.mp hg).1
      rw [List.length_append, List.length_singleton] at hlen
      have hi' : i + 1 = q.sent.length := by omega
      rw [List.getElem?_append_left (by omega)] at hf
      rw [hi', List.getElem?_concat_length] at hg
      have hlast : q.sent.getLast? = some f := by
        rw [List.getLast?_eq_getElem?, ← hi']
        exact hf
      rw [← Option.some.inj hg, Follows, h.last f hlast]
      cases hm : c.authType.meticulous <;> cases draw <;> simp
  last := by
    intro f hf
    simp only [Peer.send, List.getLast?_concat, Option.mem_some_iff] at hf
    rw [← hf]
    rfl

theorem Sends.count_le (h : Sends c q) (hf : q.sent[i]? = some f)
    (hg : q.sent[i + k]? = some g) : f.count ≤ g.count ∧ g.count ≤ f.count + k ∧
      (c.authType.meticulous = true → g.count = f.count + k) := by
  induction k generalizing g with
  | zero =>
    obtain rfl := Option.some.inj (hf.symm.trans hg)
    exact ⟨le_rfl, le_rfl, fun _ => rfl⟩
  | succ k ih =>
    obtain ⟨hlt, -⟩ := List.getElem?_eq_some_iff.mp hg
    have hk : q.sent[i + k]? = some q.sent[i + k] := List.getElem?_eq_getElem (by omega)
    obtain ⟨h1, h2, h3⟩ := ih hk
    rcases h.steps (i + k) _ g hk hg with hs | ⟨hm, hs⟩
    · exact ⟨by omega, by omega, fun hm => by have := h3 hm; omega⟩
    · exact ⟨by omega, by omega, fun hm' => by rw [hm] at hm'; cases hm'⟩

/-! ## What is heard -/

/-- The number that a session knows is that of the packet it accepted last, and the packets behind
that one were lost, as far as they are not on the way. -/
structure Hears (p q : Peer) : Prop where
  known : p.session.authSeqKnown = true ↔ p.accepted ≠ []
  last : ∀ place ∈ p.accepted.head?, ∃ g, q.sent[place]? = some g ∧
    p.session.rcvAuthSeq = g.packet.seq ∧ place + 1 + q.lost = q.gone

theorem passes_of_not_known {s : AuthSession} {seq : ℕ} (h : s.authSeqKnown = false) :
    s.passes c seq = true := by
  simp [AuthSession.passes, h]

theorem passes_iff {s : AuthSession} {seq : ℕ} (h : s.authSeqKnown = true) :
    s.passes c seq = true ↔ s.rcvAuthSeq ≤ seq ∧
      (c.authType.meticulous = true → s.rcvAuthSeq < seq) ∧
      seq ≤ s.rcvAuthSeq + 3 * s.detectMult := by
  rw [AuthSession.passes, if_pos h]
  by_cases h1 : seq < s.rcvAuthSeq
  · rw [if_pos h1]
    exact iff_of_false Bool.false_ne_true fun hc => by omega
  · rw [if_neg h1]
    cases hm : c.authType.meticulous with
    | true =>
      by_cases h2 : seq ≤ s.rcvAuthSeq
      · simp [h2]
      · simp [h2]
        omega
    | false =>
      simp
      omega

/-- What the window says of the next packet on the way. -/
theorem Hears.passes (h : Hears p q) (hq : Sends c q) (hf : q.onWay = some f)
    (hlost : q.lost < 3 * p.session.detectMult)
    (hround : ∀ place ∈ p.accepted.head?, ∀ g ∈ q.sent[place]?, SameRound (2 ^ 32) g.count f.count) :
    p.session.passes c f.packet.seq = true := by
  cases hk : p.session.authSeqKnown with
  | false => exact passes_of_not_known hk
  | true =>
    obtain ⟨place, rest, hacc⟩ := List.exists_cons_of_ne_nil (h.known.mp hk)
    have hplace : place ∈ p.accepted.head? := by simp [hacc]
    obtain ⟨g, hg, hrcv, hgone⟩ := h.last place hplace
    have hf' : q.sent[place + (q.lost + 1)]? = some f := by
      rw [← hf, Peer.onWay, ← hgone]
      congr 1
      omega
    obtain ⟨h1, h2, h3⟩ := hq.count_le hg hf'
    have hmod := (hround place hplace g hg).mod_eq h1
    rw [passes_iff hk, hrcv, (hq.genuine g (List.mem_of_getElem? hg)).2.2,
      (hq.genuine f (List.mem_of_getElem? hf')).2.2, hmod]
    refine ⟨by omega, fun hm => ?_, by omega⟩
    have hcount := h3 hm
    omega

theorem Hears.sameRound (h : Hears p q) (hq : Sends c q) (hf : q.onWay = some f)
    (hlost : q.lost < 3 * p.session.detectMult) (hmult : 3 * p.session.detectMult < 2 ^ 32)
    (hpass : p.session.passes c f.packet.seq = true) :
    ∀ place ∈ p.accepted.head?, ∀ g ∈ q.sent[place]?, SameRound (2 ^ 32) g.count f.count := by
  intro place hplace g hg
  have hk : p.session.authSeqKnown = true := h.known.mpr fun hc => by rw [hc] at hplace; cases hplace
  obtain ⟨g', hg', hrcv, hgone⟩ := h.last place hplace
  obtain rfl := Option.some.inj (hg'.symm.trans hg)
  have hf' : q.sent[place + (q.lost + 1)]? = some f := by
    rw [← hf, Peer.onWay, ← hgone]
    congr 1
    omega
  obtain ⟨h1, h2, -⟩ := hq.count_le hg' hf'
  obtain ⟨hle, -, -⟩ := (passes_iff hk).mp hpass
  rw [hrcv, (hq.genuine _ (List.mem_of_getElem? hg')).2.2,
    (hq.genuine f (List.mem_of_getElem? hf')).2.2] at hle
  exact sameRound_of_mod_le h1 (by omega) hle

theorem Sends.congr (h : Sends c q) (hx : q'.session.xmitAuthSeq = q.session.xmitAuthSeq)
    (hc : q'.count = q.count) (hs : q'.sent = q.sent) : Sends c q' where
  seq := hx.trans (hc ▸ h.seq)
  genuine := hs ▸ h.genuine
  steps := hs ▸ h.steps
  last := by
    rw [hs, hc]
    exact h.last

@[simp] theorem recvBfdPkt_xmitAuthSeq (s : AuthSession) (pkt : AuthPacket) :
    (s.recvBfdPkt c pkt).xmitAuthSeq = s.xmitAuthSeq := by
  unfold AuthSession.recvBfdPkt
  split <;> rfl

@[simp] theorem recvBfdPkt_detectMult (s : AuthSession) (pkt : AuthPacket) :
    (s.recvBfdPkt c pkt).detectMult = s.detectMult := by
  unfold AuthSession.recvBfdPkt
  split <;> rfl

theorem Hears.congr (h : Hears p q) (hr : p'.session.rcvAuthSeq = p.session.rcvAuthSeq)
    (hk : p'.session.authSeqKnown = p.session.authSeqKnown) (ha : p'.accepted = p.accepted)
    (hs : q'.sent = q.sent) (hg : q'.gone = q.gone) (hl : q'.lost = q.lost) : Hears p' q' where
  known := by rw [hk, ha, h.known]
  last := by
    rw [hr, ha, hs, hg, hl]
    exact h.last

theorem Hears.send (h : Hears p q) (draw : Bool) (place : Fin c.authKeys.entries.length)
    (header : List UInt8) : Hears p (q.send c draw place header) where
  known := h.known
  last := by
    intro i hi
    obtain ⟨g, hg, hrcv, hgone⟩ := h.last i hi
    refine ⟨g, ?_, hrcv, hgone⟩
    have hlt := (List.getElem?_eq_some_iff.mp hg).1
    change (q.sent ++ [_])[i]? = some g
    rw [List.getElem?_append_left hlt, hg]

theorem Hears.timeOut (q : Peer) : Hears p.timeOut q where
  known := by simp [Peer.timeOut, AuthSession.timeOut]
  last := fun i hi => by simp [Peer.timeOut] at hi

theorem Hears.loses (h : Hears p q) : Hears p q.loses where
  known := h.known
  last := by
    intro i hi
    obtain ⟨g, hg, hrcv, hgone⟩ := h.last i hi
    refine ⟨g, hg, hrcv, ?_⟩
    change i + 1 + (q.lost + 1) = q.gone + 1
    omega

/-- A packet of the peer is accepted exactly if its sequence number passes. -/
theorem Sends.accepts_iff (h : Sends c q) (hf : f ∈ q.sent) (s : AuthSession) :
    s.accepts c f.packet = s.passes c f.packet.seq := by
  obtain ⟨htype, hauth, -⟩ := h.genuine f hf
  simp [AuthSession.accepts, htype, hauth]

theorem Hears.arrived (hq : Sends c q) (hf : q.onWay = some f)
    (hpass : p.session.passes c f.packet.seq = true) :
    Hears (p.hear c q.gone f.packet) q.arrived := by
  have hacc : p.session.accepts c f.packet = true :=
    (hq.accepts_iff (List.mem_of_getElem? hf) _).trans hpass
  have hs : (p.hear c q.gone f.packet).session =
      { p.session with rcvAuthSeq := f.packet.seq, authSeqKnown := true } := if_pos hacc
  have hhead : (p.hear c q.gone f.packet).accepted.head? = some q.gone := by
    simp only [Peer.hear, if_pos hacc]
    split <;> rfl
  refine ⟨?_, fun i hi => ?_⟩
  · rw [hs]
    refine iff_of_true rfl fun hc => ?_
    rw [hc] at hhead
    cases hhead
  · obtain rfl := Option.some.inj (hhead.symm.trans hi)
    exact ⟨f, hf, by rw [hs], rfl⟩

/-! ## Runs -/

/-- What holds between a session and the one it hears. -/
structure Linked (detectMult : ℕ) (p q : Peer) : Prop where
  sends : Sends c q
  hears : Hears p q
  mult : p.session.detectMult = detectMult

variable {detectMult : Side → ℕ}

theorem linked_start (detectMult draw : Side → ℕ) :
    Duplex.EachWay (fun s => Linked (c := c) (detectMult s)) (start detectMult draw) :=
  fun s =>
    ⟨sends_start _ _, ⟨by simp [start, Peer.start, AuthSession.start],
      fun i hi => by simp [start, Peer.start] at hi⟩, rfl⟩

/-- In order, a packet passes exactly if the counter has not wrapped. -/
theorem passes_of_noWrap (h : Duplex.EachWay (fun s => Linked (c := c) (detectMult s)) n)
    (ho : InOrder c n e) (hw : NoWrap c n e) : Passes c n e := by
  obtain ⟨s, turn⟩ := e
  cases turn with
  | deliver => exact fun f hf => (h s).hears.passes (h s).sends hf ho (hw f hf)
  | send | lose | timeOut | replay => trivial

theorem noWrap_of_passes (h : Duplex.EachWay (fun s => Linked (c := c) (detectMult s)) n)
    (hmult : ∀ s, 3 * detectMult s < 2 ^ 32) (ho : InOrder c n e) (hp : Passes c n e) :
    NoWrap c n e := by
  obtain ⟨s, turn⟩ := e
  cases turn with
  | deliver =>
    exact fun f hf => (h s).hears.sameRound (h s).sends hf ho ((h s).mult ▸ hmult s) (hp f hf)
  | send | lose | timeOut | replay => trivial

theorem linked_step (h : Duplex.EachWay (fun s => Linked (c := c) (detectMult s)) n)
    (ho : InOrder c n e) (hp : Passes c n e) :
    Duplex.EachWay (fun s => Linked (c := c) (detectMult s)) (step c n e) := by
  obtain ⟨s, turn⟩ := e
  have hpq := h s
  have hqp : Linked (c := c) (detectMult s.other) (n s.other) (n s) := by simpa using h s.other
  cases turn with
  | send draw place header =>
    refine Duplex.eachWay_pair.mpr ⟨⟨hpq.sends, hpq.hears.congr rfl rfl rfl rfl rfl rfl, hpq.mult⟩, ?_⟩
    exact ⟨hqp.sends.send draw place header, hqp.hears.send draw place header, hqp.mult⟩
  | deliver =>
    cases hf : (n s.other).onWay with
    | none => simpa only [step, hf] using h
    | some f =>
      simp only [step, hf]
      refine Duplex.eachWay_pair.mpr ⟨⟨hpq.sends.congr rfl rfl rfl,
        Hears.arrived hpq.sends hf (hp f hf), ?_⟩, ?_⟩
      · exact (recvBfdPkt_detectMult _ _).trans hpq.mult
      · exact ⟨hqp.sends.congr (recvBfdPkt_xmitAuthSeq _ _) rfl rfl, hqp.hears.congr rfl rfl rfl rfl rfl rfl,
          hqp.mult⟩
  | lose =>
    cases hf : (n s.other).onWay with
    | none => simpa only [step, hf] using h
    | some f =>
      simp only [step, hf]
      refine Duplex.eachWay_pair.mpr ⟨⟨hpq.sends.congr rfl rfl rfl, hpq.hears.loses, hpq.mult⟩, ?_⟩
      exact ⟨hqp.sends, hqp.hears.congr rfl rfl rfl rfl rfl rfl, hqp.mult⟩
  | timeOut =>
    refine Duplex.eachWay_pair.mpr ⟨⟨hpq.sends, Hears.timeOut _, hpq.mult⟩, ?_⟩
    exact ⟨hqp.sends.congr rfl rfl rfl, hqp.hears.congr rfl rfl rfl rfl rfl rfl, hqp.mult⟩
  | replay place => exact absurd ho id

/-! ## Replays -/

/-- The packets that a session has accepted since it knows a number do not come after it. -/
structure Taken (p q : Peer) : Prop where
  known : p.session.authSeqKnown = true ↔ p.accepted ≠ []
  nodup : p.accepted.Nodup
  le : ∀ i ∈ p.accepted, ∃ g, q.sent[i]? = some g ∧ g.packet.seq ≤ p.session.rcvAuthSeq

theorem Taken.congr (h : Taken p q) (hr : p'.session.rcvAuthSeq = p.session.rcvAuthSeq)
    (hk : p'.session.authSeqKnown = p.session.authSeqKnown) (ha : p'.accepted = p.accepted)
    (hs : q'.sent = q.sent) : Taken p' q' where
  known := by rw [hk, ha, h.known]
  nodup := ha ▸ h.nodup
  le := by
    rw [hr, ha, hs]
    exact h.le

theorem Taken.send (h : Taken p q) (draw : Bool) (place : Fin c.authKeys.entries.length)
    (header : List UInt8) : Taken p (q.send c draw place header) where
  known := h.known
  nodup := h.nodup
  le := by
    intro i hi
    obtain ⟨g, hg, hle⟩ := h.le i hi
    refine ⟨g, ?_, hle⟩
    have hlt := (List.getElem?_eq_some_iff.mp hg).1
    change (q.sent ++ [_])[i]? = some g
    rw [List.getElem?_append_left hlt, hg]

theorem Taken.timeOut (q : Peer) : Taken p.timeOut q where
  known := by simp [Peer.timeOut, AuthSession.timeOut]
  nodup := List.nodup_nil
  le := fun i hi => absurd hi List.not_mem_nil

/-- A packet that a meticulous session accepts comes after all that it has accepted. -/
theorem Taken.hear (h : Taken p q) (hm : c.authType.meticulous = true) (hf : q.sent[i]? = some f) :
    Taken (p.hear c i f.packet) q := by
  by_cases hacc : p.session.accepts c f.packet = true
  · have hs : (p.hear c i f.packet).session =
        { p.session with rcvAuthSeq := f.packet.seq, authSeqKnown := true } := if_pos hacc
    cases hk : p.session.authSeqKnown with
    | false =>
      have ha : (p.hear c i f.packet).accepted = [i] := by simp [Peer.hear, hacc, hk]
      refine ⟨by simp [hs, ha], by simp [ha], fun j hj => ?_⟩
      rw [ha, List.mem_singleton] at hj
      exact ⟨f, hj ▸ hf, by rw [hs]⟩
    | true =>
      have hpass : p.session.passes c f.packet.seq = true := by
        simp only [AuthSession.accepts, Bool.and_eq_true] at hacc
        exact hacc.1.2
      have hlt := ((passes_iff hk).mp hpass).2.1 hm
      have ha : (p.hear c i f.packet).accepted = i :: p.accepted := by simp [Peer.hear, hacc, hk]
      have hnew : i ∉ p.accepted := by
        intro hi
        obtain ⟨g, hg, hle⟩ := h.le i hi
        obtain rfl := Option.some.inj (hf.symm.trans hg)
        omega
      refine ⟨by simp [hs, ha], ha ▸ List.nodup_cons.mpr ⟨hnew, h.nodup⟩, fun j hj => ?_⟩
      rw [ha] at hj
      rw [hs]
      rcases List.mem_cons.mp hj with rfl | hj
      · exact ⟨f, hf, le_rfl⟩
      · obtain ⟨g, hg, hle⟩ := h.le j hj
        exact ⟨g, hg, hle.trans hlt.le⟩
  · have hs : (p.hear c i f.packet).session = p.session := if_neg hacc
    have ha : (p.hear c i f.packet).accepted = p.accepted := if_neg hacc
    exact h.congr (by rw [hs]) (by rw [hs]) ha rfl

theorem taken_step (hm : c.authType.meticulous = true) (h : Duplex.EachWay (fun _ => Taken) n)
    (e : AuthEvent c) : Duplex.EachWay (fun _ => Taken) (step c n e) := by
  obtain ⟨s, turn⟩ := e
  have hpq := h s
  have hqp : Taken (n s.other) (n s) := by simpa using h s.other
  cases turn with
  | send draw place header =>
    exact Duplex.eachWay_pair.mpr ⟨hpq.congr rfl rfl rfl rfl, hqp.send draw place header⟩
  | deliver =>
    cases hf : (n s.other).onWay with
    | none => simpa only [step, hf] using h
    | some f =>
      simp only [step, hf]
      exact Duplex.eachWay_pair.mpr ⟨(hpq.hear hm hf).congr rfl rfl rfl rfl,
        hqp.congr rfl rfl rfl rfl⟩
  | lose =>
    cases hf : (n s.other).onWay with
    | none => simpa only [step, hf] using h
    | some f =>
      simp only [step, hf]
      exact Duplex.eachWay_pair.mpr ⟨hpq.congr rfl rfl rfl rfl, hqp.congr rfl rfl rfl rfl⟩
  | timeOut =>
    exact Duplex.eachWay_pair.mpr ⟨Taken.timeOut _, hqp.congr rfl rfl rfl rfl⟩
  | replay place =>
    cases hf : (n s.other).sent[place]? with
    | none => simpa only [step, hf] using h
    | some f =>
      simp only [step, hf]
      split
      · exact Duplex.eachWay_pair.mpr ⟨hpq.hear hm hf, hqp.congr rfl rfl rfl rfl⟩
      · exact h

def oneAuthKey : Dict ℕ (List UInt8) := Dict.empty.set 1 "secret key 1".toUTF8.data.toList

theorem oneAuthKey_ne_nil : oneAuthKey.entries ≠ [] := by
  simp [oneAuthKey, Dict.set, Dict.empty, Assoc.insert]

theorem oneAuthKey_fit : ∀ key ∈ oneAuthKey.entries, key.1 < 2 ^ 8 ∧
    key.2.length ≤ AuthType.meticulousKeyedMd5.maxKey := by
  decide +kernel

/-- Two sessions with one key. -/
def oneKey : AuthConfig where
  authType := .meticulousKeyedMd5
  authKeys := oneAuthKey
  hash header _ _ key := header ++ key
  keys_ne_nil := oneAuthKey_ne_nil
  keys_fit := oneAuthKey_fit

end Authentication

end Ryu.Bfd
