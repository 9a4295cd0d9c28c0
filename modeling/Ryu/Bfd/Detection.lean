import Ryu.Bfd.Session
import Ryu.Lib.Duplex
import Ryu.Lib.Run

/-! # Detection times of two sessions

Two sessions hear each other's packets in order and lose none. A detection time covers what the
other session may transmit with as long as every packet it is taken from announces enough, for the
receiver and for what the sender uses by then, and no session switches to an interval above the
one its peer knows of. The code checks neither.
-/

namespace Ryu.Bfd

open Session

inductive Turn
  | connect
  | wake
  | deliver (draws : ℕ × ℕ)
  | timeOut (draw : ℕ)
  deriving DecidableEq, Repr

structure Event where
  side : Side
  turn : Turn
  deriving DecidableEq, Repr

/-- The first packet on the way to `s` is received. -/
def deliver (n : Duplex Session) (s : Side) (draws : ℕ × ℕ) : Duplex Session :=
  match (n s.other).sent with
  | [] => n
  | pkt :: rest => .pair s ((n s).recvBfdPkt pkt draws) ((n s.other).taken rest)

def step (n : Duplex Session) (e : Event) : Duplex Session :=
  match e.turn with
  | .connect => .pair e.side (n e.side).connect (n e.side.other)
  | .wake => .pair e.side (n e.side).wake (n e.side.other)
  | .deliver draws => deliver n e.side draws
  | .timeOut draw => .pair e.side ((n e.side).timeOut draw) (n e.side.other)

def start (c : Side → Config) (draw : Side → ℕ) : Duplex Session :=
  fun s => Session.start (c s) (draw s)

/-- The detection time of `p` is enough for the interval `q` may transmit with. -/
def Covers (p q : Session) : Prop :=
  p.Handled → q.config.detectMult * max q.desiredMinTxInterval p.config.requiredMinRxInterval ≤
    p.detectTime

/-- Each detection time is enough, from the first packet handled. -/
def Covered : Duplex Session → Prop := Duplex.EachWay fun _ => Covers

/-- The detection time that `q` holds is enough for an interval of `p`. -/
def Admits (p q : Session) (interval : ℕ) : Prop :=
  q.Handled → p.config.detectMult * interval ≤ q.detectTime

/-- A packet that a detection time is taken from announces what the receiver requires and what its
sender uses, and a session does not switch to an interval above the one its peer holds. -/
def Keeps (n : Duplex Session) (e : Event) : Prop :=
  let p := n e.side
  let q := n e.side.other
  match e.turn with
  | .connect => True
  | .wake => True
  | .deliver _ => ∀ pkt ∈ q.sent.head?, p.accepts pkt →
      (p.detectTime = 0 ∨ pkt.poll = true →
        max q.desiredMinTxInterval p.config.requiredMinRxInterval ≤ pkt.desiredMinTxInterval) ∧
      ∀ d ∈ p.switchesAt pkt, Admits p q d
  | .timeOut _ =>
      p.detectTime ≠ 0 → p.sessionState ≠ .down → p.sessionState ≠ .adminDown →
        Admits p q 1000000

/-- No session is taken out of service, none has a detection time before its first packet, and the
packets on the way carry the configuration of their sender. -/
structure Valid (p : Session) : Prop where
  enabled : p.sessionState ≠ .adminDown
  fresh : ¬ p.Handled → p.detectTime = 0
  mult : ∀ pkt ∈ p.sent, pkt.detectMult = p.config.detectMult
  required : ∀ pkt ∈ p.sent, pkt.requiredMinRxInterval = p.config.requiredMinRxInterval

variable {p q p' q' : Session} {pkt : Packet} {rest : List Packet} {draws : ℕ × ℕ}
  {n : Duplex Session} {e : Event} {d : ℕ}

theorem stateChange_ne_adminDown {state state' : State} {x : State × Option ℕ}
    (h : stateChange state state' = some x) : x.1 ≠ .adminDown := by
  revert h
  unfold stateChange
  cases state <;> cases state' <;> simp <;> rintro rfl <;> simp

theorem valid_start (c : Config) (draw : ℕ) : Valid (Session.start c draw) where
  enabled := by simp [Session.start, updateXmitPeriod]
  fresh := fun _ => rfl
  mult := fun _ h => absurd h List.not_mem_nil
  required := fun _ h => absurd h List.not_mem_nil

theorem Valid.taken (h : Valid q) (hq : q.sent = pkt :: rest) : Valid (q.taken rest) where
  enabled := h.enabled
  fresh := h.fresh
  mult := fun x hx => h.mult x (hq ▸ List.mem_cons_of_mem _ hx)
  required := fun x hx => h.required x (hq ▸ List.mem_cons_of_mem _ hx)

theorem Valid.takes (h : Valid p) (ht : p.Takes pkt p') : Valid p' where
  enabled := by
    rw [ht.state]
    cases hc : stateChange p.sessionState pkt.state with
    | none => exact h.enabled
    | some x => exact stateChange_ne_adminDown hc
  fresh := by
    intro hn
    exact absurd (ht.remote ▸ by omega : p'.remoteMinRxInterval ≠ -1) hn
  mult := by simpa only [ht.sent, ht.config] using h.mult
  required := by simpa only [ht.sent, ht.config] using h.required

theorem Valid.recvBfdPkt (h : Valid p) : Valid (p.recvBfdPkt pkt draws) := by
  unfold Session.recvBfdPkt
  split_ifs
  · exact h.takes (takes_recv h.enabled)
  · exact h

theorem Valid.sends (h : Valid p) (hs : p.Sends p') : Valid p' where
  enabled := hs.state ▸ h.enabled
  fresh := by
    unfold Handled
    rw [hs.remote, hs.detect]
    exact h.fresh
  mult := by
    rw [hs.config]
    rcases hs.sent with hs | ⟨pkt, hs, hm, -, -⟩
    · exact hs ▸ h.mult
    · intro x hx
      rw [hs, List.mem_append, List.mem_singleton] at hx
      rcases hx with hx | rfl
      · exact h.mult x hx
      · exact hm
  required := by
    rw [hs.config]
    rcases hs.sent with hs | ⟨pkt, hs, -, -, hr⟩
    · exact hs ▸ h.required
    · intro x hx
      rw [hs, List.mem_append, List.mem_singleton] at hx
      rcases hx with hx | rfl
      · exact h.required x hx
      · exact hr

theorem Valid.timeOut (h : Valid p) (draw : ℕ) : Valid (p.timeOut draw) := by
  rcases p.timeOut_cases draw with ⟨heq, -⟩ | ⟨heq, -⟩
  · rwa [heq]
  · rw [heq]
    exact ⟨by simp, by simpa [Handled] using h.fresh, by simpa using h.mult,
      by simpa using h.required⟩

/-- What every turn of a session keeps holds of both. -/
theorem forall_step {V : Session → Prop} (hconnect : ∀ p, V p → V p.connect)
    (hwake : ∀ p, V p → V p.wake) (htime : ∀ p draw, V p → V (p.timeOut draw))
    (hrecv : ∀ p q pkt rest draws, V p → V q → q.sent = pkt :: rest →
      V (p.recvBfdPkt pkt draws) ∧ V (q.taken rest))
    (h : ∀ s, V (n s)) (e : Event) (s : Side) : V (step n e s) := by
  have hpair : ∀ {p q : Session}, V p → V q → ∀ s, V (Duplex.pair e.side p q s) := by
    intro p q hp hq
    rw [Duplex.forall_iff e.side]
    simpa using ⟨hp, hq⟩
  unfold step
  cases e.turn with
  | connect => exact hpair (hconnect _ (h e.side)) (h e.side.other) s
  | wake => exact hpair (hwake _ (h e.side)) (h e.side.other) s
  | timeOut draw => exact hpair (htime _ draw (h e.side)) (h e.side.other) s
  | deliver draws =>
    dsimp only [deliver]
    cases hq : (n e.side.other).sent with
    | nil => exact h s
    | cons pkt rest =>
      have hboth := hrecv _ _ pkt rest draws (h e.side) (h e.side.other) hq
      exact hpair hboth.1 hboth.2 s

theorem valid_step (h : ∀ s, Valid (n s)) (e : Event) (s : Side) : Valid (step n e s) := by
  apply forall_step _ _ _ _ h
  · exact fun p hp => ⟨hp.enabled, hp.fresh, hp.mult, hp.required⟩
  · exact fun p hp => hp.sends (sends_wake p)
  · exact fun p draw hp => hp.timeOut draw
  · exact fun p q pkt rest draws hp hq hs => ⟨hp.recvBfdPkt, hq.taken hs⟩

/-! ## What a step keeps -/

theorem covers_congr (hc : p'.config = p.config) (hr : p'.remoteMinRxInterval = p.remoteMinRxInterval)
    (ht : p'.detectTime = p.detectTime) (hc' : q'.config = q.config)
    (hd : q'.desiredMinTxInterval = q.desiredMinTxInterval) : Covers p' q' ↔ Covers p q := by
  unfold Covers Handled
  rw [hc, hr, ht, hc', hd]

theorem covers_iff : Covers p q ↔ (p.Handled → q.config.detectMult * q.desiredMinTxInterval ≤
    p.detectTime ∧ q.config.detectMult * p.config.requiredMinRxInterval ≤ p.detectTime) := by
  unfold Covers
  rw [← Nat.mul_max_mul_left]
  simp only [max_le_iff]

/-- The detection time of the receiver. -/
theorem covers_takes (hp : Valid p) (ht : p.Takes pkt p')
    (hm : pkt.detectMult = q.config.detectMult) (h0 : pkt.detectMult ≠ 0) (h : Covers p q) :
    Covers p' q ↔ (p.detectTime = 0 ∨ pkt.poll = true →
      max q.desiredMinTxInterval p.config.requiredMinRxInterval ≤ pkt.desiredMinTxInterval) := by
  have hhandled : p'.Handled := by
    unfold Handled
    rw [ht.remote]
    omega
  unfold Covers
  rw [ht.config, ht.detect]
  split_ifs with hset
  · simp only [hset, hhandled, forall_const, ← hm]
    rw [mul_comm, Nat.mul_le_mul_right_iff (Nat.pos_of_ne_zero h0)]
  · simp only [hset, hhandled, forall_const, false_implies, iff_true]
    exact h (not_not.mp fun hn => hset (Or.inl (hp.fresh hn)))

/-- The detection time of the other session, when a session switches its interval. -/
theorem covers_switch (hc : p'.config = p.config) {o : Option ℕ}
    (hd : p'.desiredMinTxInterval = o.getD p.desiredMinTxInterval) (h : Covers q p) :
    Covers q p' ↔ ∀ d ∈ o, Admits p q d := by
  cases o with
  | none =>
    have heq : Covers q p' ↔ Covers q p := covers_congr rfl rfl rfl hc hd
    simp [heq, h]
  | some d =>
    rw [covers_iff] at h ⊢
    rw [hc, hd]
    simp only [Option.getD_some, Option.mem_def, Option.some.injEq, forall_eq', Admits]
    exact ⟨fun h' hq => (h' hq).1, fun h' hq => ⟨h' hq, (h hq).2⟩⟩

/-- A step keeps the detection times sufficient just if it meets the guard. -/
theorem covered_step (hn : ∀ s, Valid (n s)) (h : Covered n) (e : Event) :
    Covered (step n e) ↔ Keeps n e := by
  have hboth := (Duplex.forall_iff e.side).mp h
  rw [Side.other_other] at hboth
  obtain ⟨hpq, hqp⟩ := hboth
  unfold step Keeps
  cases e.turn with
  | connect =>
    simp only [iff_true]
    exact Duplex.eachWay_pair.mpr ⟨hpq, hqp⟩
  | wake =>
    have hs := (n e.side).sends_wake
    simp only [iff_true]
    exact Duplex.eachWay_pair.mpr
      ⟨(covers_congr hs.config hs.remote hs.detect rfl rfl).mpr hpq,
        (covers_congr rfl rfl rfl hs.config hs.desired).mpr hqp⟩
  | timeOut draw =>
    dsimp only
    rw [Covered, Duplex.eachWay_pair]
    rcases (n e.side).timeOut_cases draw with ⟨heq, hor⟩ | ⟨heq, hdt, hdown, hadmin⟩
    · rw [heq]
      simp only [hpq, hqp, and_self, true_iff]
      rintro h0 hd ha
      exact absurd hor (by tauto)
    · rw [heq]
      have hsame : Covers ((n e.side).setState .down (some diagCtrlDetectTimeExpired) draw)
          (n e.side.other) ↔ Covers (n e.side) (n e.side.other) :=
        covers_congr (by simp) (by simp) (by simp) rfl rfl
      have hconfig : ((n e.side).setState .down (some diagCtrlDetectTimeExpired) draw).config =
          (n e.side).config := by simp
      have hswitch := covers_switch hconfig setState_desiredMinTxInterval hqp
      rw [hsame, hswitch]
      simp only [hpq, true_and, ne_eq, hdt, not_false_eq_true, hdown, hadmin, forall_const]
      simp [intervalOf]
  | deliver draws =>
    dsimp only [deliver]
    cases hq : (n e.side.other).sent with
    | nil => simp [h]
    | cons pkt rest =>
      dsimp only
      rw [Covered, Duplex.eachWay_pair]
      have hlost : ∀ p, (Covers p ((n e.side.other).taken rest) ↔ Covers p (n e.side.other)) ∧
          (Covers ((n e.side.other).taken rest) p ↔ Covers (n e.side.other) p) :=
        fun p => ⟨Iff.rfl, Iff.rfl⟩
      simp only [List.head?_cons, Option.mem_def, Option.some.injEq, forall_eq']
      by_cases hacc : (n e.side).accepts pkt
      · have ht : (n e.side).Takes pkt ((n e.side).recv pkt draws) :=
          takes_recv (hn e.side).enabled
        have hm := (hn e.side.other).mult pkt (hq ▸ List.mem_cons_self)
        have heq : (n e.side).recvBfdPkt pkt draws = (n e.side).recv pkt draws := if_pos hacc
        rw [heq, (hlost _).1, (hlost _).2, covers_takes (hn e.side) ht hm hacc.1 hpq,
          covers_switch ht.config ht.desired hqp]
        simp [hacc]
      · have heq : (n e.side).recvBfdPkt pkt draws = n e.side := if_neg hacc
        rw [heq, (hlost _).1, (hlost _).2]
        simp [hacc, hpq, hqp]

theorem covered_start (c : Side → Config) (draw : Side → ℕ) : Covered (start c draw) :=
  fun _ h => absurd rfl h

/-- What the session takes the other one to require is not above what that one requires. -/
def Knows (p q : Session) : Prop := p.remoteMinRxInterval ≤ q.config.requiredMinRxInterval

theorem knows_step (hn : ∀ s, Valid (n s)) (h : Duplex.EachWay (fun _ => Knows) n) (e : Event) :
    Duplex.EachWay (fun _ => Knows) (step n e) := by
  obtain ⟨hpq, hqp⟩ := (Duplex.forall_iff e.side).mp h
  rw [Side.other_other] at hqp
  unfold Knows at hpq hqp
  unfold step
  cases e.turn with
  | connect => exact Duplex.eachWay_pair.mpr ⟨hpq, hqp⟩
  | wake =>
    have hs := (n e.side).sends_wake
    dsimp only
    rw [Duplex.eachWay_pair, Knows, Knows, hs.remote, hs.config]
    exact ⟨hpq, hqp⟩
  | timeOut draw =>
    dsimp only
    rw [Duplex.eachWay_pair]
    rcases (n e.side).timeOut_cases draw with ⟨heq, -⟩ | ⟨heq, -⟩
    · rw [heq]
      exact ⟨hpq, hqp⟩
    · rw [heq]
      exact ⟨by simpa [Knows] using hpq, by simpa [Knows] using hqp⟩
  | deliver draws =>
    dsimp only [deliver]
    cases hq : (n e.side.other).sent with
    | nil => exact h
    | cons pkt rest =>
      dsimp only
      rw [Duplex.eachWay_pair]
      unfold Session.recvBfdPkt
      split_ifs
      · have ht : (n e.side).Takes pkt ((n e.side).recv pkt draws) :=
          takes_recv (hn e.side).enabled
        have hr := (hn e.side.other).required pkt (hq ▸ List.mem_cons_self)
        constructor
        · rw [Knows, ht.remote, hr]
          exact le_rfl
        · rw [Knows, ht.config]
          exact hqp
      · exact ⟨hpq, hqp⟩

theorem drawn_step (h : ∀ s, (n s).Drawn) (e : Event) (s : Side) :
    (step n e s).Drawn := by
  apply forall_step (V := Drawn) _ _ _ _ h
  · exact fun p hp => hp
  · exact fun p hp => drawn_congr (sends_wake p).desired (sends_wake p).remote (sends_wake p).period hp
  · intro p draw hp
    rcases p.timeOut_cases draw with ⟨heq, -⟩ | ⟨heq, -⟩
    · rwa [heq]
    · rw [heq]
      exact drawn_setState hp
  · intro p q pkt rest draws hp hq _
    refine ⟨?_, hq⟩
    unfold Session.recvBfdPkt
    split_ifs
    · exact drawn_recv hp
    · exact hp

/-- The multiplier's number of periods is within the detection time. -/
theorem period_le (h : Covers p q) (hd : q.Drawn) (hk : Knows q p) (hp : p.Handled) :
    q.config.detectMult * q.xmitPeriod ≤ 100 * (p.detectTime : ℤ) := by
  have hmax : max (q.desiredMinTxInterval : ℤ) q.remoteMinRxInterval ≤
      max q.desiredMinTxInterval p.config.requiredMinRxInterval := by
    push_cast
    exact max_le_max_left _ hk
  calc (q.config.detectMult : ℤ) * q.xmitPeriod
      ≤ q.config.detectMult * (100 * max (q.desiredMinTxInterval : ℤ) q.remoteMinRxInterval) :=
        mul_le_mul_of_nonneg_left hd (Int.natCast_nonneg _)
    _ ≤ q.config.detectMult *
        (100 * (max q.desiredMinTxInterval p.config.requiredMinRxInterval : ℕ)) := by
        gcongr
    _ = 100 * (q.config.detectMult *
        max q.desiredMinTxInterval p.config.requiredMinRxInterval : ℕ) := by
        push_cast
        exact mul_left_comm _ _ _
    _ ≤ 100 * (p.detectTime : ℤ) := by
        gcongr
        exact_mod_cast h hp

/-- In a run that meets the guard the other session always sends its multiplier's number of packets
within a detection time. -/
theorem periods_within {c : Side → Config} {draw : Side → ℕ} {es : List Event}
    (h : EveryStep step Keeps (start c draw) es) :
    Throughout step (fun n => ∀ s, (n s).Handled →
      (n s.other).config.detectMult * (n s.other).xmitPeriod ≤ 100 * ((n s).detectTime : ℤ))
      (start c draw) es := by
  have hinv : Throughout step (fun n => (∀ s, Valid (n s)) ∧ (∀ s, (n s).Drawn) ∧
      Duplex.EachWay (fun _ => Knows) n ∧ Covered n) (start c draw) es := by
    apply throughout_of_everyStep _ _ h
    · exact ⟨fun s => valid_start _ _, fun s => drawn_updateXmitPeriod _ _,
        fun s => (by decide : (-1 : ℤ) ≤ 0).trans (Int.natCast_nonneg _), covered_start c draw⟩
    · rintro n e ⟨hv, hd, hk, hc⟩ hg
      exact ⟨valid_step hv e, drawn_step hd e, knows_step hv hk e, (covered_step hv hc e).mpr hg⟩
  apply hinv.mono
  rintro n ⟨-, hd, hk, hc⟩ s hs
  have hks := hk s.other
  rw [Side.other_other] at hks
  exact period_le (hc s) (hd s.other) hks hs

/-- A receiver that requires more than the other session announces. -/
def demanding : Side → Config
  | .left => ⟨1, 3, 1000000, 2000000⟩
  | .right => ⟨2, 3, 1000000, 1000000⟩

/-- The session never announces another interval than the default one. -/
structure Steady (p : Session) : Prop where
  config : p.config.desiredMinTxInterval = 1000000
  required : p.config.requiredMinRxInterval ≤ 1000000
  desired : p.desiredMinTxInterval = 1000000
  sent : ∀ pkt ∈ p.sent, pkt.desiredMinTxInterval = 1000000

theorem intervalOf_steady (h : Steady p) {state : State} (hd : intervalOf p.config state = some d) :
    d = 1000000 := by
  cases state with
  | down => exact (Option.some.inj hd).symm
  | up => exact (Option.some.inj hd).symm.trans h.config
  | init => cases hd
  | adminDown => cases hd

theorem switchesAt_steady (h : Steady p) (hd : p.switchesAt pkt = some d) : d = 1000000 := by
  obtain ⟨x, -, hx⟩ := Option.bind_eq_some_iff.mp hd
  exact intervalOf_steady h hx

theorem steady_step (hn : ∀ s, Valid (n s)) (h : ∀ s, Steady (n s)) (e : Event) (s : Side) :
    Steady (step n e s) := by
  have hboth : ∀ s, Valid (n s) ∧ Steady (n s) := fun s => ⟨hn s, h s⟩
  suffices hvs : Valid (step n e s) ∧ Steady (step n e s) from hvs.2
  apply forall_step (V := fun p => Valid p ∧ Steady p) _ _ _ _ hboth
  · exact fun p hp => ⟨⟨hp.1.enabled, hp.1.fresh, hp.1.mult, hp.1.required⟩,
      ⟨hp.2.config, hp.2.required, hp.2.desired, hp.2.sent⟩⟩
  · rintro p ⟨hv, hp⟩
    have hs := sends_wake p
    refine ⟨hv.sends hs, hs.config ▸ hp.config, hs.config ▸ hp.required, hs.desired ▸ hp.desired, ?_⟩
    rcases hs.sent with hs | ⟨pkt, hs, -, hd, -⟩
    · exact hs ▸ hp.sent
    · intro x hx
      rw [hs, List.mem_append, List.mem_singleton] at hx
      rcases hx with hx | rfl
      · exact hp.sent x hx
      · exact hd.trans hp.desired
  · rintro p draw ⟨hv, hp⟩
    refine ⟨hv.timeOut draw, ?_⟩
    rcases p.timeOut_cases draw with ⟨heq, -⟩ | ⟨heq, -⟩
    · rwa [heq]
    · rw [heq]
      exact ⟨by simpa using hp.config, by simpa using hp.required, rfl, by simpa using hp.sent⟩
  · rintro p q pkt rest draws ⟨hv, hp⟩ ⟨hv', hq⟩ hs
    refine ⟨⟨hv.recvBfdPkt, ?_⟩, hv'.taken hs, hq.config, hq.required, hq.desired,
      fun x hx => hq.sent x (hs ▸ List.mem_cons_of_mem _ hx)⟩
    unfold Session.recvBfdPkt
    split_ifs
    · have ht : p.Takes pkt (p.recv pkt draws) := takes_recv hv.enabled
      refine ⟨ht.config ▸ hp.config, ht.config ▸ hp.required, ?_, ht.sent ▸ hp.sent⟩
      rw [ht.desired]
      cases hd : p.switchesAt pkt with
      | none => exact hp.desired
      | some d => exact switchesAt_steady hp hd
    · exact hp

theorem keeps_of_steady (h : ∀ s, Steady (n s)) (hc : Covered n) (e : Event) : Keeps n e := by
  have hadmits : Admits (n e.side) (n e.side.other) 1000000 := by
    have hq := hc e.side.other
    rw [Side.other_other, covers_iff, (h e.side).desired] at hq
    exact fun hh => (hq hh).1
  unfold Keeps
  dsimp only
  cases e.turn with
  | connect => trivial
  | wake => trivial
  | timeOut draw => exact fun _ _ _ => hadmits
  | deliver draws =>
    intro pkt hpkt _
    constructor
    · intro _
      rw [(h e.side.other).desired, (h e.side.other).sent pkt (List.mem_of_mem_head? hpkt)]
      exact max_le le_rfl (h e.side).required
    · intro d hd
      rw [switchesAt_steady (h e.side) hd]
      exact hadmits

/-- Sessions that desire the default interval and require no more keep their detection times
sufficient in every run. -/
theorem covered_of_default {c : Side → Config} (hd : ∀ s, (c s).desiredMinTxInterval = 1000000)
    (hr : ∀ s, (c s).requiredMinRxInterval ≤ 1000000) (draw : Side → ℕ) (es : List Event) :
    Throughout step Covered (start c draw) es := by
  have hinv : Throughout step (fun n => (∀ s, Valid (n s)) ∧ (∀ s, Steady (n s)) ∧ Covered n)
      (start c draw) es := by
    apply throughout_of_step
    · exact ⟨fun s => valid_start _ _,
        fun s => ⟨hd s, hr s, rfl, fun _ h => absurd h List.not_mem_nil⟩, covered_start c draw⟩
    · rintro n e ⟨hv, hs, hc⟩
      exact ⟨valid_step hv e, steady_step hv hs e,
        (covered_step hv hc e).mpr (keeps_of_steady hs hc e)⟩
  exact hinv.mono fun _ h => h.2.2

end Ryu.Bfd
