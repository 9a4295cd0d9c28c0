import Mathlib.Algebra.Order.Ring.Nat
import Mathlib.Data.List.Basic
import Mathlib.Logic.Relation

/-! # The send loop of a datapath

`Datapath.send` takes a permit and puts a buffer into the queue, which has room for as many as there
are permits. The send loop gives a permit back for each buffer that it takes out of the queue, and
when it ends, for each that is left. Greenlets are switched where they block: `send` before it has
its permit, and the loop where it waits for a buffer or for the socket, which are also the places
where it is killed. The permits, what is queued and the senders that have a permit always add up to
the size of the queue.
-/

namespace Ryu.Controller

/-- `(buf, close_socket)`. -/
structure SendEntry where
  buf : List UInt8
  closeSocket : Bool
  deriving DecidableEq, Repr

/-- How far a call of `send` has come. -/
inductive Sender
  | acquiring (e : SendEntry)
  | acquired (e : SendEntry)
  | returned (msgEnqueued : Bool)
  | killed
  deriving DecidableEq, Repr

namespace Sender

/-- The permits that a call has and has not passed on. -/
def held : Sender → ℕ
  | acquired _ => 1
  | acquiring _ | returned _ | killed => 0

/-- How many steps a call is from its end. -/
def pending : Sender → ℕ
  | acquiring _ => 2
  | acquired _ => 1
  | returned _ | killed => 0

end Sender

/-- How far `_send_loop` has come. While it sends, `rest` is what the socket has not taken yet. -/
inductive SendPhase
  | spawned
  | getting
  | sending (e : SendEntry) (rest : List UInt8)
  | leaving
  | draining
  | over
  deriving DecidableEq, Repr

/-- The size of `send_q`. -/
def sendQMaxsize : ℕ := 16

/-- What the calls and the loop share, with the calls so far, what was put into the queue so far,
what the socket has taken, and of which entries all. -/
structure SendState where
  dead : Bool
  sendQ : Bool
  queue : List SendEntry
  permits : ℕ
  overReleased : Bool
  loop : SendPhase
  senders : List Sender
  enqueued : List SendEntry
  socket : List UInt8
  sent : List SendEntry
  writeClosed : Bool
  deriving DecidableEq, Repr

namespace SendState

/-- `self.send_q` refers to the queue, and the loop has not started. -/
def init : SendState :=
  ⟨false, true, [], sendQMaxsize, false, .spawned, [], [], [], [], false⟩

/-- `_send_q_sem.release`, which raises if all permits are there. -/
def release (s : SendState) : SendState :=
  if s.permits < sendQMaxsize then { s with permits := s.permits + 1 }
  else { s with overReleased := true }

/-- Where the loop goes when it looks at the state of the datapath. -/
def next (s : SendState) : SendPhase := if s.dead then .leaving else .getting

/-- What a call goes on with. -/
inductive Own : SendState → SendState → Prop

  | acquire {s : SendState} {i : ℕ} {e : SendEntry} : s.senders[i]? = some (.acquiring e) →
      0 < s.permits →
      Own s { s with permits := s.permits - 1, senders := s.senders.set i (.acquired e) }

  | put {s : SendState} {i : ℕ} {e : SendEntry} : s.senders[i]? = some (.acquired e) →
      s.sendQ → s.queue.length < sendQMaxsize →
      Own s { s with
        queue := s.queue ++ [e]
        enqueued := s.enqueued ++ [e]
        senders := s.senders.set i (.returned true) }

  | discard {s : SendState} {i : ℕ} {e : SendEntry} : s.senders[i]? = some (.acquired e) →
      s.sendQ = false →
      Own s { s.release with senders := s.senders.set i (.returned false) }

/-- What happens without a switch. -/
inductive Step : SendState → SendState → Prop

  | send {s : SendState} (e : SendEntry) :
      Step s { s with senders := s.senders ++ [.acquiring e] }

  | own {s s' : SendState} : Own s s' → Step s s'

  | killSender {s : SendState} {i : ℕ} {e : SendEntry} : s.senders[i]? = some (.acquiring e) →
      Step s { s with senders := s.senders.set i .killed }

  | die {s : SendState} : Step s { s with dead := true }

  | start {s : SendState} : s.loop = .spawned → Step s { s with loop := s.next }

  | get {s : SendState} {e : SendEntry} {q : List SendEntry} : s.loop = .getting →
      s.queue = e :: q → Step s { s.release with queue := q, loop := .sending e e.buf }

  | write {s : SendState} {e : SendEntry} {b rest : List UInt8} :
      s.loop = .sending e (b ++ rest) →
      Step s { s with socket := s.socket ++ b, loop := .sending e rest }

  | sentAll {s : SendState} {e : SendEntry} : s.loop = .sending e [] →
      Step s { s with sent := s.sent ++ [e], loop := if e.closeSocket then .leaving else s.next }

  -- A timeout or an error of the socket.
  | fail {s : SendState} {e : SendEntry} {rest : List UInt8} : s.loop = .sending e rest →
      Step s { s with loop := .leaving }

  | killGetting {s : SendState} : s.loop = .getting → Step s { s with loop := .leaving }

  | killSending {s : SendState} {e : SendEntry} {rest : List UInt8} :
      s.loop = .sending e rest → Step s { s with loop := .leaving }

  | clear {s : SendState} : s.loop = .leaving →
      Step s { s with sendQ := false, loop := .draining }

  | drain {s : SendState} {e : SendEntry} {q : List SendEntry} : s.loop = .draining →
      s.queue = e :: q → Step s { s.release with queue := q }

  | drained {s : SendState} : s.loop = .draining → s.queue = [] →
      Step s { s with writeClosed := true, loop := .over }

def Reachable (s : SendState) : Prop := Relation.ReflTransGen Step init s

/-- The senders between acquiring and queueing. -/
def holding (s : SendState) : ℕ := (s.senders.map Sender.held).sum

def pending (s : SendState) : ℕ := (s.senders.map Sender.pending).sum

/-- The buffers of entries, one after the other. -/
def bufs (l : List SendEntry) : List UInt8 := l.flatMap (·.buf)

/-- The permits add up, and none is given back too often. -/
structure Conserved (s : SendState) : Prop where
  sum : s.permits + s.queue.length + s.holding = sendQMaxsize
  bound : s.overReleased = false

/-- The socket has taken the buffers that were put into the queue in their order, of the last one
perhaps a part, and nothing behind one that closes the socket. -/
structure InOrder (sent enqueued : List SendEntry) (socket : List UInt8) : Prop where
  whole : sent <+: enqueued
  part : ∃ part, socket = bufs sent ++ part ∧
    (part = [] ∨ ∃ e, sent ++ [e] <+: enqueued ∧ part <+: e.buf)
  closed : ∀ a e b, sent = a ++ e :: b → e.closeSocket → b = [] ∧ socket = bufs sent

/-- A call has returned `True`. -/
def Accepted (s : SendState) (i : ℕ) : Prop := s.senders[i]? = some (.returned true)

/-- No call waits. -/
def Settled (s : SendState) : Prop := ∀ x ∈ s.senders, x.pending = 0

/-- The calls go on only for so long, and when none of them can go on, none waits. -/
structure Settles (s : SendState) : Prop where
  acc : Acc (fun s' s => Own s s') s
  settled : ∀ s', Relation.ReflTransGen Own s s' → (∀ s'', ¬ Own s' s'') → s'.Settled

variable {s s' : SendState} {i : ℕ} {x y : Sender}

/-- Where one of a list changes, the sum of what they weigh changes as that one does. -/
theorem sum_map_set {α : Type*} (f : α → ℕ) {l : List α} {i : ℕ} {x : α} (y : α)
    (h : l[i]? = some x) : ((l.set i y).map f).sum + f x = (l.map f).sum + f y := by
  induction l generalizing i with
  | nil => cases h
  | cons a l ih =>
    cases i with
    | zero =>
      obtain rfl : a = x := Option.some.inj h
      simp only [List.set_cons_zero, List.map_cons, List.sum_cons]
      omega
    | succ i =>
      have hrest := ih (i := i) h
      simp only [List.set_cons_succ, List.map_cons, List.sum_cons]
      omega

/-- What an invariant of the loop says of what was sent. -/
def Ordered (s : SendState) : Prop :=
  match s.loop with
  | .spawned | .getting => s.enqueued = s.sent ++ s.queue ∧ s.socket = bufs s.sent ∧
      ∀ e ∈ s.sent, e.closeSocket = false
  | .sending e rest => s.enqueued = s.sent ++ e :: s.queue ∧
      (∃ b, e.buf = b ++ rest ∧ s.socket = bufs s.sent ++ b) ∧ ∀ e ∈ s.sent, e.closeSocket = false
  | .leaving | .draining | .over => InOrder s.sent s.enqueued s.socket

/-- The queue is referred to until the loop clears the reference. -/
structure Referred (s : SendState) : Prop where
  sendQ : s.sendQ = false ↔ s.loop = .draining ∨ s.loop = .over
  empty : s.loop = .over → s.queue = []

section Written

variable {sent enqueued : List SendEntry} {socket part : List UInt8}

theorem inOrder_of_open (hsocket : socket = bufs sent ++ part)
    (hpart : part = [] ∨ ∃ e, sent ++ [e] <+: enqueued ∧ part <+: e.buf) (hsent : sent <+: enqueued)
    (hopen : ∀ e ∈ sent, e.closeSocket = false) : InOrder sent enqueued socket := by
  refine ⟨hsent, ⟨part, hsocket, hpart⟩, fun a e b hab hclose => ?_⟩
  rw [hopen e (hab ▸ List.mem_append_right a List.mem_cons_self)] at hclose
  cases hclose

/-- More may be put into the queue. -/
theorem InOrder.put (h : InOrder sent enqueued socket) (e : SendEntry) :
    InOrder sent (enqueued ++ [e]) socket := by
  obtain ⟨hwhole, ⟨part, hpart, hnext⟩, hclosed⟩ := h
  have hgrow : enqueued <+: enqueued ++ [e] := List.prefix_append ..
  exact ⟨hwhole.trans hgrow,
    ⟨part, hpart, hnext.imp_right fun ⟨e', he', hbuf⟩ => ⟨e', he'.trans hgrow, hbuf⟩⟩, hclosed⟩

/-- An entry that is sent whole, behind others that do not close the socket. -/
theorem inOrder_concat {e : SendEntry} (hsocket : socket = bufs (sent ++ [e]))
    (hsent : sent ++ [e] <+: enqueued) (hopen : ∀ e ∈ sent, e.closeSocket = false) :
    InOrder (sent ++ [e]) enqueued socket := by
  refine ⟨hsent, ⟨[], by rw [hsocket, List.append_nil], Or.inl rfl⟩, fun a e' b hab hclose => ?_⟩
  refine ⟨?_, hsocket⟩
  rcases List.eq_nil_or_concat b with rfl | ⟨b, x, rfl⟩
  · rfl
  · rw [List.concat_eq_append, ← List.cons_append, ← List.append_assoc] at hab
    obtain ⟨rfl, -⟩ := List.append_inj' hab rfl
    rw [hopen e' (List.mem_append_right a List.mem_cons_self)] at hclose
    cases hclose

end Written

theorem Ordered.inOrder (h : s.Ordered) : InOrder s.sent s.enqueued s.socket := by
  rw [Ordered] at h
  split at h
  · obtain ⟨henq, hsocket, hopen⟩ := h
    exact inOrder_of_open (by rw [hsocket, List.append_nil]) (Or.inl rfl) ⟨_, henq.symm⟩ hopen
  · obtain ⟨henq, hsocket, hopen⟩ := h
    exact inOrder_of_open (by rw [hsocket, List.append_nil]) (Or.inl rfl) ⟨_, henq.symm⟩ hopen
  · next e rest _ =>
    obtain ⟨henq, ⟨b, hbuf, hsocket⟩, hopen⟩ := h
    have hnext : s.sent ++ [e] ++ s.queue = s.enqueued := by
      rw [henq, List.append_assoc]
      rfl
    exact inOrder_of_open hsocket (Or.inr ⟨e, ⟨s.queue, hnext⟩, ⟨rest, hbuf.symm⟩⟩)
      ⟨_, henq.symm⟩ hopen
  all_goals exact h

@[simp] theorem release_loop (s : SendState) : s.release.loop = s.loop := by
  rw [release]
  split <;> rfl

@[simp] theorem release_sendQ (s : SendState) : s.release.sendQ = s.sendQ := by
  rw [release]
  split <;> rfl

@[simp] theorem release_queue (s : SendState) : s.release.queue = s.queue := by
  rw [release]
  split <;> rfl

@[simp] theorem release_senders (s : SendState) : s.release.senders = s.senders := by
  rw [release]
  split <;> rfl

@[simp] theorem release_enqueued (s : SendState) : s.release.enqueued = s.enqueued := by
  rw [release]
  split <;> rfl

@[simp] theorem release_sent (s : SendState) : s.release.sent = s.sent := by
  rw [release]
  split <;> rfl

@[simp] theorem release_socket (s : SendState) : s.release.socket = s.socket := by
  rw [release]
  split <;> rfl

/-- A permit that is missing can be given back. -/
theorem release_of_lt (h : s.permits < sendQMaxsize) :
    s.release.permits = s.permits + 1 ∧ s.release.overReleased = s.overReleased := by
  rw [release, if_pos h]
  exact ⟨rfl, rfl⟩

theorem ordered_init : init.Ordered := ⟨rfl, rfl, fun _ h => absurd h List.not_mem_nil⟩

/-- A loop that is not sending and has not left. -/
theorem ordered_next (henq : s.enqueued = s.sent ++ s.queue) (hsocket : s.socket = bufs s.sent)
    (hopen : ∀ e ∈ s.sent, e.closeSocket = false) : Ordered { s with loop := s.next } := by
  rw [next]
  split
  · exact inOrder_of_open (by rw [hsocket, List.append_nil]) (Or.inl rfl) ⟨_, henq.symm⟩ hopen
  · exact ⟨henq, hsocket, hopen⟩

theorem Ordered.step (h : s.Ordered) (hs : Step s s') : s'.Ordered := by
  have hleft := h.inOrder
  cases hs with
  | send e => exact h
  | own hown =>
    cases hown with
    | acquire => exact h
    | @put i e hi hq hroom =>
      simp only [Ordered] at h ⊢
      split at h
      · exact ⟨by rw [h.1, List.append_assoc], h.2⟩
      · exact ⟨by rw [h.1, List.append_assoc], h.2⟩
      · exact ⟨by rw [h.1, List.append_assoc]; rfl, h.2⟩
      all_goals exact hleft.put e
    | discard => simpa only [Ordered, release_loop, release_enqueued, release_sent, release_queue,
        release_socket] using h
  | killSender => exact h
  | die => exact h
  | start hloop =>
    rw [Ordered, hloop] at h
    exact ordered_next h.1 h.2.1 h.2.2
  | @get e q hloop hqueue =>
    rw [Ordered, hloop, hqueue] at h
    simp only [Ordered, release_enqueued, release_sent, release_socket]
    exact ⟨h.1, ⟨[], rfl, by rw [h.2.1, List.append_nil]⟩, h.2.2⟩
  | @write e b rest hloop =>
    rw [Ordered, hloop] at h
    obtain ⟨henq, ⟨b', hbuf, hsocket⟩, hopen⟩ := h
    exact ⟨henq, ⟨b' ++ b, by rw [hbuf, List.append_assoc], by rw [hsocket, List.append_assoc]⟩,
      hopen⟩
  | @sentAll e hloop =>
    rw [Ordered, hloop] at h
    obtain ⟨henq, ⟨b, hbuf, hsocket⟩, hopen⟩ := h
    rw [List.append_nil] at hbuf
    have hbufs : s.socket = bufs (s.sent ++ [e]) := by
      rw [hsocket, bufs, bufs, List.flatMap_append, ← hbuf, List.flatMap_singleton]
    have hnext : s.enqueued = s.sent ++ [e] ++ s.queue := by
      rw [henq, List.append_assoc]
      rfl
    cases hclose : e.closeSocket with
    | true => exact inOrder_concat hbufs ⟨_, hnext.symm⟩ hopen
    | false =>
      refine ordered_next (s := { s with sent := s.sent ++ [e] }) hnext hbufs fun e' he' => ?_
      obtain he' | rfl := List.mem_append.mp he' |>.imp_right List.mem_singleton.mp
      · exact hopen e' he'
      · exact hclose
  | fail => exact hleft
  | killGetting => exact hleft
  | killSending => exact hleft
  | clear => exact hleft
  | @drain e q hloop hqueue =>
    simpa only [Ordered, release_loop, hloop, release_enqueued, release_sent, release_socket]
      using hleft
  | drained => exact hleft

theorem conserved_init : init.Conserved := ⟨rfl, rfl⟩

theorem Conserved.own (h : s.Conserved) (hs : Own s s') : s'.Conserved := by
  obtain ⟨hsum, hbound⟩ := h
  cases hs with
  | @acquire i e hi hpos =>
    have hheld := sum_map_set Sender.held (.acquired e) hi
    refine ⟨?_, hbound⟩
    simp only [holding, Sender.held] at hsum hheld ⊢
    omega
  | @put i e hi hq hroom =>
    have hheld := sum_map_set Sender.held (.returned true) hi
    refine ⟨?_, hbound⟩
    simp only [holding, Sender.held, List.length_append, List.length_singleton] at hsum hheld ⊢
    omega
  | @discard i e hi hq =>
    have hheld := sum_map_set Sender.held (.returned false) hi
    simp only [holding, Sender.held] at hsum hheld
    obtain ⟨hpermits, hover⟩ := release_of_lt (s := s) (by omega)
    refine ⟨?_, hover.trans hbound⟩
    simp only [holding, hpermits, release_queue]
    omega

theorem Conserved.step (h : s.Conserved) (hs : Step s s') : s'.Conserved := by
  have hsum := h.sum
  cases hs with
  | send e => exact ⟨by simpa [holding, Sender.held] using hsum, h.bound⟩
  | own hown => exact h.own hown
  | @killSender i e hi =>
    have hheld := sum_map_set Sender.held .killed hi
    refine ⟨?_, h.bound⟩
    simp only [holding, Sender.held] at hsum hheld ⊢
    omega
  | @get e q hloop hqueue =>
    rw [hqueue, List.length_cons] at hsum
    obtain ⟨hpermits, hover⟩ := release_of_lt (s := s) (by omega)
    refine ⟨?_, hover.trans h.bound⟩
    simp only [holding, hpermits, release_senders] at hsum ⊢
    omega
  | @drain e q hloop hqueue =>
    rw [hqueue, List.length_cons] at hsum
    obtain ⟨hpermits, hover⟩ := release_of_lt (s := s) (by omega)
    refine ⟨?_, hover.trans h.bound⟩
    simp only [holding, hpermits, release_senders] at hsum ⊢
    omega
  | die | start | write | sentAll | fail | killGetting | killSending | clear | drained =>
    exact ⟨h.sum, h.bound⟩

theorem referred_init : init.Referred := ⟨by decide, fun h => nomatch h⟩

theorem next_ne (s : SendState) : s.next ≠ .draining ∧ s.next ≠ .over := by
  rw [next]
  split <;> exact ⟨nofun, nofun⟩

theorem Referred.step (h : s.Referred) (hs : Step s s') : s'.Referred := by
  obtain ⟨hsendQ, hempty⟩ := h
  -- The reference is there as long as the loop has not cleared it.
  have hkeep : ∀ {phase : SendPhase}, s.loop ≠ .draining → s.loop ≠ .over → phase ≠ .draining →
      phase ≠ .over → (s.sendQ = false ↔ phase = .draining ∨ phase = .over) := by
    intro phase h₁ h₂ h₃ h₄
    rw [hsendQ]
    exact iff_of_false (not_or.mpr ⟨h₁, h₂⟩) (not_or.mpr ⟨h₃, h₄⟩)
  cases hs with
  | send | killSender | die => exact ⟨hsendQ, hempty⟩
  | own hown =>
    cases hown with
    | acquire => exact ⟨hsendQ, hempty⟩
    | put hi hq =>
      refine ⟨hsendQ, fun hover => ?_⟩
      rw [hsendQ.mpr (Or.inr hover)] at hq
      cases hq
    | discard => simpa only [release_loop, release_sendQ, release_queue] using ⟨hsendQ, hempty⟩
  | start hloop =>
    refine ⟨hkeep ?_ ?_ (next_ne s).1 (next_ne s).2, fun h => absurd h (next_ne s).2⟩ <;>
      rw [hloop] <;> decide
  | get hloop hqueue =>
    refine ⟨?_, fun h => nomatch h⟩
    rw [release_sendQ]
    exact hkeep (by rw [hloop]; decide) (by rw [hloop]; decide) nofun nofun
  | write hloop => exact ⟨hkeep (by rw [hloop]; nofun) (by rw [hloop]; nofun) nofun nofun, nofun⟩
  | @sentAll e hloop =>
    have hphase : (if e.closeSocket then .leaving else s.next) ≠ .draining ∧
        (if e.closeSocket then .leaving else s.next) ≠ .over := by
      split
      · exact ⟨nofun, nofun⟩
      · exact next_ne s
    exact ⟨hkeep (by rw [hloop]; nofun) (by rw [hloop]; nofun) hphase.1 hphase.2,
      fun h => absurd h hphase.2⟩
  | fail hloop | killSending hloop | killGetting hloop =>
    exact ⟨hkeep (by rw [hloop]; nofun) (by rw [hloop]; nofun) nofun nofun, nofun⟩
  | clear hloop => exact ⟨iff_of_true rfl (Or.inl rfl), nofun⟩
  | drain hloop hqueue =>
    refine ⟨?_, fun hover => ?_⟩
    · rw [release_sendQ]
      simpa only [release_loop] using hsendQ
    · rw [release_loop, hloop] at hover
      cases hover
  | drained hloop hqueue =>
    exact ⟨iff_of_true (hsendQ.mpr (Or.inl hloop)) (Or.inr rfl), fun _ => hqueue⟩

/-- What holds of every state that is reached. -/
structure Sound (s : SendState) : Prop where
  conserved : s.Conserved
  ordered : s.Ordered
  referred : s.Referred

theorem Sound.step (h : s.Sound) (hs : Step s s') : s'.Sound :=
  ⟨h.conserved.step hs, h.ordered.step hs, h.referred.step hs⟩

theorem Sound.run (h : s.Sound) (hs : Relation.ReflTransGen Step s s') : s'.Sound := by
  induction hs with
  | refl => exact h
  | tail _ hlast ih => exact ih.step hlast

theorem Reachable.sound (h : Reachable s) : s.Sound :=
  Sound.run ⟨conserved_init, ordered_init, referred_init⟩ h

/-- A call that goes on comes nearer to its end. -/
theorem pending_own (hs : Own s s') : s'.pending < s.pending := by
  cases hs with
  | @acquire i e hi =>
    have hpending := sum_map_set Sender.pending (.acquired e) hi
    simp only [pending, Sender.pending] at hpending ⊢
    omega
  | @put i e hi =>
    have hpending := sum_map_set Sender.pending (.returned true) hi
    simp only [pending, Sender.pending] at hpending ⊢
    omega
  | @discard i e hi =>
    have hpending := sum_map_set Sender.pending (.returned false) hi
    simp only [pending, Sender.pending] at hpending ⊢
    omega

theorem acc_own (s : SendState) : Acc (fun s' s => Own s s') s := by
  have hwf : WellFounded fun s' s : SendState => Own s s' :=
    Subrelation.wf (fun h => pending_own h) (InvImage.wf pending Nat.lt_wfRel.wf)
  exact hwf.apply s

/-- Once the loop is over it stays so, and no call returns `True`. -/
theorem over_step (h : s.Sound) (hover : s.loop = .over) (hs : Step s s') :
    s'.loop = .over ∧ ∀ i, s'.Accepted i → s.Accepted i := by
  have hq : s.sendQ = false := h.referred.sendQ.mpr (Or.inr hover)
  have hset : ∀ {j : ℕ} {y : Sender}, y ≠ .returned true → ∀ i,
      (s.senders.set j y)[i]? = some (.returned true) → s.Accepted i := by
    intro j y hy i hi
    rw [List.getElem?_set] at hi
    split at hi
    · split at hi
      · exact absurd (Option.some.inj hi) hy
      · cases hi
    · exact hi
  cases hs with
  | send e =>
    refine ⟨hover, fun i hi => ?_⟩
    rw [Accepted, List.getElem?_append] at hi
    split at hi
    · exact hi
    · cases List.mem_singleton.mp (List.mem_of_getElem? hi)
  | own hown =>
    cases hown with
    | acquire => exact ⟨hover, hset nofun⟩
    | put _ hq' =>
      rw [hq] at hq'
      cases hq'
    | discard =>
      refine ⟨by simpa only [release_loop] using hover, fun i hi => ?_⟩
      have hne : Sender.returned false ≠ .returned true := nofun
      exact hset hne i hi
  | killSender => exact ⟨hover, hset nofun⟩
  | die => exact ⟨hover, fun _ => id⟩
  | start hloop | get hloop | write hloop | sentAll hloop | fail hloop | killGetting hloop
  | killSending hloop | clear hloop | drain hloop | drained hloop =>
    rw [hover] at hloop
    cases hloop

theorem over_run (h : s.Sound) (hover : s.loop = .over) (hs : Relation.ReflTransGen Step s s') :
    s'.loop = .over ∧ ∀ i, s'.Accepted i → s.Accepted i := by
  induction hs with
  | refl => exact ⟨hover, fun _ => id⟩
  | tail hrun hlast ih =>
    obtain ⟨hover', hback⟩ := over_step (h.run hrun) ih.1 hlast
    exact ⟨hover', fun i hi => ih.2 i (hback i hi)⟩

/-- A call that has a permit when the loop is over can give it back. -/
theorem exists_own_of_holding (hq : s.sendQ = false) (h : 0 < s.holding) : ∃ s', Own s s' := by
  obtain ⟨k, hk, hpos⟩ := List.sum_pos_iff_exists_pos_nat.mp h
  obtain ⟨x, hx, rfl⟩ := List.mem_map.mp hk
  obtain ⟨i, hi⟩ := List.mem_iff_getElem?.mp hx
  cases x with
  | acquired e => exact ⟨_, .discard hi hq⟩
  | acquiring | returned | killed => exact absurd hpos (Nat.lt_irrefl 0)

/-- As long as a call waits when the loop is over, one can go on: the permits that are not there are
held by calls that give them back. -/
theorem settled_of_stuck (h : s.Sound) (hover : s.loop = .over) (hstuck : ∀ s', ¬ Own s s') :
    s.Settled := by
  have hq : s.sendQ = false := h.referred.sendQ.mpr (Or.inr hover)
  have hsum := h.conserved.sum
  rw [h.referred.empty hover, List.length_nil, Nat.add_zero] at hsum
  intro x hx
  obtain ⟨i, hi⟩ := List.mem_iff_getElem?.mp hx
  cases x with
  | acquiring e =>
    exfalso
    by_cases hpos : 0 < s.permits
    · exact hstuck _ (.acquire hi hpos)
    · have hheld : 0 < s.holding := by
        have hsize : 0 < sendQMaxsize := by decide
        omega
      obtain ⟨s', hown⟩ := exists_own_of_holding hq hheld
      exact hstuck s' hown
  | acquired e => exact absurd (.discard hi hq) (hstuck _)
  | returned | killed => rfl

theorem settles (h : s.Sound) (hover : s.loop = .over) : s.Settles := by
  refine ⟨acc_own s, fun s' hs hstuck => ?_⟩
  have hrun : Relation.ReflTransGen Step s s' := hs.lift id fun _ _ => Step.own
  exact settled_of_stuck (h.run hrun) (over_run h hover hrun).1 hstuck

/-- The permits are conserved, what is written is what was queued, and when the loop is over, no
call remains blocked and none returns `True` any more. -/
theorem sendLoop_reachable (h : Reachable s) :
    s.Conserved ∧ InOrder s.sent s.enqueued s.socket ∧
      (s.loop = .over → s.Settles ∧ ∀ s', Relation.ReflTransGen Step s s' →
        s'.loop = .over ∧ ∀ i, s'.Accepted i → s.Accepted i) :=
  ⟨h.sound.conserved, h.sound.ordered.inOrder, fun hover =>
    ⟨settles h.sound hover, fun _ hs => over_run h.sound hover hs⟩⟩

/-- A buffer is sent and a socket error ends the loop, while another buffer is in the queue. -/
theorem reachable_over : ∃ s, Reachable s ∧ s.loop = .over ∧
    s.senders = [.returned true, .returned true] ∧ s.socket = [1] := by
  have h₁ : Reachable _ := .tail .refl (.send ⟨[1], false⟩)
  have h₂ : Reachable _ := .tail h₁ (.own (.acquire (i := 0) rfl (by decide)))
  have h₃ : Reachable _ := .tail h₂ (.own (.put (i := 0) rfl rfl (by decide)))
  have h₄ : Reachable _ := .tail h₃ (.start rfl)
  have h₅ : Reachable _ := .tail h₄ (.get rfl rfl)
  have h₆ : Reachable _ := .tail h₅ (.send ⟨[2], false⟩)
  have h₇ : Reachable _ := .tail h₆ (.own (.acquire (i := 1) rfl (by decide)))
  have h₈ : Reachable _ := .tail h₇ (.own (.put (i := 1) rfl rfl (by decide)))
  have h₉ : Reachable _ := .tail h₈ (.write (b := [1]) rfl)
  have h₁₀ : Reachable _ := .tail h₉ (.fail rfl)
  have h₁₁ : Reachable _ := .tail h₁₀ (.clear rfl)
  have h₁₂ : Reachable _ := .tail h₁₁ (.drain rfl rfl)
  have h₁₃ : Reachable _ := .tail h₁₂ (.drained rfl rfl)
  exact ⟨_, h₁₃, rfl, rfl, rfl⟩

/-- The calls that are there when that loop is over. -/
theorem sendLoop_over : ∃ s, Reachable s ∧ s.loop = .over ∧ s.Conserved ∧
    InOrder s.sent s.enqueued s.socket ∧ s.Settles := by
  obtain ⟨s, hreach, hover, -⟩ := reachable_over
  obtain ⟨hconserved, hordered, hafter⟩ := sendLoop_reachable hreach
  exact ⟨s, hreach, hover, hconserved, hordered, (hafter hover).1⟩

end SendState

end Ryu.Controller
