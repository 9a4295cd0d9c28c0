import Mathlib.Data.List.Induction
import Ryu.Lib.Framing

/-! # The receive loop of a datapath

`Datapath._recv_loop` reads an OpenFlow connection in pieces chosen by the socket
and hands complete messages to `ofproto_parser.msg`. Whatever the pieces are, it
hands over the sequential framing of the bytes read.
-/

namespace Ryu.Controller

/-- `ofproto_common.OFP_HEADER_SIZE`. -/
def ofpHeaderSize : ℕ := 8

structure Header where
  version : ℕ
  msgType : ℕ
  msgLen : ℕ
  xid : ℕ
  deriving DecidableEq, Repr

/-- `ofproto_parser.header`: unpack `!BBHI`; shorter buffers fail its assertion. -/
def header : List UInt8 → Option Header
  | v :: t :: l₁ :: l₀ :: x₃ :: x₂ :: x₁ :: x₀ :: _ =>
    some ⟨v.toNat, t.toNat, l₁.toNat * 256 + l₀.toNat,
      ((x₃.toNat * 256 + x₂.toNat) * 256 + x₁.toNat) * 256 + x₀.toNat⟩
  | _ => none

/-- The arguments of one call of `ofproto_parser.msg`. -/
structure MsgCall where
  version : ℕ
  msgType : ℕ
  msgLen : ℕ
  xid : ℕ
  buf : List UInt8
  deriving DecidableEq, Repr

inductive Status | running | stopped | raised
  deriving DecidableEq, Repr

/-- The locals of `_recv_loop`, the bytes the socket still holds and the calls made so far. -/
structure LoopState where
  inbound : List UInt8
  buf : List UInt8
  count : ℕ
  remainingReadLen : ℕ
  handed : List MsgCall
  status : Status
  deriving DecidableEq, Repr

def minReadLen : ℕ := ofpHeaderSize

/-- The inner loop. `raises` tells, from the calls made so far, whether the last one (or a
handler of the event made from it) ends in an exception, which leaves the loop. -/
def drainBuf (raises : List MsgCall → Bool) (st : LoopState) : LoopState :=
  if minReadLen ≤ st.buf.length then
    match header st.buf with
    | none => { st with status := .raised }
    | some h =>
      let msgLen := if h.msgLen < minReadLen then minReadLen else h.msgLen
      if st.buf.length < msgLen then
        { st with remainingReadLen := msgLen - st.buf.length }
      else
        let call := ⟨h.version, h.msgType, msgLen, h.xid, st.buf.take msgLen⟩
        let handed := st.handed ++ [call]
        if raises handed then
          { st with handed := handed, status := .raised }
        else
          drainBuf raises
            { st with
              buf := st.buf.drop msgLen
              count := if st.count + 1 > 2048 then 0 else st.count + 1
              remainingReadLen := minReadLen
              handed := handed }
  else st
termination_by st.buf.length
decreasing_by
  simp only [List.length_drop, minReadLen, ofpHeaderSize] at *
  rcases Nat.lt_or_ge h.msgLen 8 with hl | hl
  · simp [hl]; omega
  · simp [Nat.not_lt.mpr hl]; omega

/-- What one pass of the outer loop meets: the DEAD state, a socket with `n` bytes ready
(none when the connection is closed), a timeout or an error. -/
inductive SocketEvent
  | dead
  | ready (n : ℕ)
  | socketTimeout
  | sslError
  | ioError
  deriving DecidableEq, Repr

def readLen (st : LoopState) : ℕ :=
  if st.remainingReadLen > minReadLen then st.remainingReadLen else minReadLen

/-- One pass of the outer loop. -/
def recvStep (raises : List MsgCall → Bool) (st : LoopState) (ev : SocketEvent) : LoopState :=
  if st.status ≠ .running then st
  else match ev with
    | .dead => { st with status := .stopped }
    | .socketTimeout => st
    | .sslError => st
    | .ioError => { st with status := .stopped }
    | .ready n =>
      let k := min n (readLen st)
      let ret := st.inbound.take k
      if ret = [] then { st with status := .stopped }
      else drainBuf raises { st with inbound := st.inbound.drop k, buf := st.buf ++ ret }

def initial (stream : List UInt8) : LoopState :=
  ⟨stream, [], 0, ofpHeaderSize, [], .running⟩

def recvLoop (raises : List MsgCall → Bool) (stream : List UInt8) (evs : List SocketEvent) :
    LoopState :=
  evs.foldl (recvStep raises) (initial stream)

/-- Cut the first message off a stream by its header length, a length below 8 counting as 8. -/
def cutMessage (b : List UInt8) : Option (MsgCall × List UInt8) :=
  (header b).bind fun h =>
    let len := max h.msgLen 8
    if len ≤ b.length then some (⟨h.version, h.msgType, len, h.xid, b.take len⟩, b.drop len)
    else none

theorem header_append {b : List UInt8} {h : Header} (c : List UInt8) (hb : header b = some h) :
    header (b ++ c) = some h := by
  unfold header at hb
  split at hb
  · simpa [header] using hb
  · cases hb

theorem header_isSome_iff (b : List UInt8) : (header b).isSome ↔ 8 ≤ b.length := by
  unfold header
  split
  · simp
  · next hne =>
    simp only [Option.isSome_none, Bool.false_eq_true, false_iff]
    rcases b with _ | ⟨_, _ | ⟨_, _ | ⟨_, _ | ⟨_, _ | ⟨_, _ | ⟨_, _ | ⟨_, _ | ⟨_, b⟩⟩⟩⟩⟩⟩⟩⟩
    case cons.cons.cons.cons.cons.cons.cons.cons => exact (hne _ _ _ _ _ _ _ _ _ rfl).elim
    all_goals simp

theorem cutMessage_eq_some {b r : List UInt8} {m : MsgCall} :
    cutMessage b = some (m, r) ↔ ∃ h, header b = some h ∧ max h.msgLen 8 ≤ b.length ∧
      m = ⟨h.version, h.msgType, max h.msgLen 8, h.xid, b.take (max h.msgLen 8)⟩ ∧
      r = b.drop (max h.msgLen 8) := by
  simp only [cutMessage, Option.bind_eq_some_iff, Option.ite_none_right_eq_some,
    Option.some.injEq, Prod.mk.injEq]
  constructor
  · rintro ⟨h, hh, hl, rfl, rfl⟩
    exact ⟨h, hh, hl, rfl, rfl⟩
  · rintro ⟨h, hh, hl, rfl, rfl⟩
    exact ⟨h, hh, hl, rfl, rfl⟩

/-- The sequential framing of an OpenFlow stream. -/
def framer : Framer UInt8 MsgCall where
  next := cutMessage
  next_append := by
    intro b m r c hb
    obtain ⟨h, hh, hl, rfl, rfl⟩ := cutMessage_eq_some.1 hb
    refine cutMessage_eq_some.2 ⟨h, header_append c hh, ?_, ?_, ?_⟩
    · rw [List.length_append]; omega
    · rw [List.take_append_of_le_length hl]
    · rw [List.drop_append_of_le_length hl]
  next_lt := by
    intro b m r hb
    obtain ⟨h, _, hl, _, rfl⟩ := cutMessage_eq_some.1 hb
    rw [List.length_drop]; omega

/-- The messages of a stream, in order. -/
def frames (stream : List UInt8) : List MsgCall := (framer.drain stream).1

theorem frames_append (s t : List UInt8) :
    frames (s ++ t) = frames s ++ (framer.drain ((framer.drain s).2 ++ t)).1 := by
  simp only [frames, Framer.drain_append s t]

theorem frames_bytes (s : List UInt8) :
    (frames s).flatMap MsgCall.buf ++ (framer.drain s).2 = s := by
  apply Framer.flatMap_drain
  intro b m r hb
  obtain ⟨h, _, _, rfl, rfl⟩ := cutMessage_eq_some.1 hb
  simp

section Loop

variable {raises : List MsgCall → Bool} {st : LoopState}

theorem drainBuf_of_none (raises : List MsgCall → Bool) (h : cutMessage st.buf = none) :
    (drainBuf raises st).inbound = st.inbound ∧ (drainBuf raises st).buf = st.buf ∧
      (drainBuf raises st).handed = st.handed ∧ (drainBuf raises st).status = st.status := by
  rw [drainBuf]
  by_cases hl : minReadLen ≤ st.buf.length
  · obtain ⟨hd, hh⟩ := Option.isSome_iff_exists.mp ((header_isSome_iff _).mpr hl)
    have hlt : st.buf.length < max hd.msgLen 8 := by
      by_contra hc
      rw [cutMessage_eq_some.2 ⟨hd, hh, Nat.not_lt.mp hc, rfl, rfl⟩] at h
      cases h
    have hlen : st.buf.length < if hd.msgLen < minReadLen then minReadLen else hd.msgLen := by
      unfold minReadLen ofpHeaderSize; split <;> omega
    simp [hl, hh, hlen]
  · simp [hl]

theorem drainBuf_of_some {m : MsgCall} {r : List UInt8} (h : cutMessage st.buf = some (m, r)) :
    drainBuf raises st =
      if raises (st.handed ++ [m]) then { st with handed := st.handed ++ [m], status := .raised }
      else drainBuf raises
        { st with
          buf := r
          count := if st.count + 1 > 2048 then 0 else st.count + 1
          remainingReadLen := minReadLen
          handed := st.handed ++ [m] } := by
  obtain ⟨hd, hh, hl, rfl, rfl⟩ := cutMessage_eq_some.1 h
  have hlen : (if hd.msgLen < minReadLen then minReadLen else hd.msgLen) = max hd.msgLen 8 := by
    unfold minReadLen ofpHeaderSize; split <;> omega
  have hm : minReadLen ≤ st.buf.length := by unfold minReadLen ofpHeaderSize; omega
  rw [drainBuf]
  simp only [hm, if_true, hh, hlen, Nat.not_lt.mpr hl, if_false]

/-- The inner loop hands over the messages of the buffer up to the first that raises, and
unless one raises keeps what the framing keeps. -/
theorem drainBuf_spec (raises : List MsgCall → Bool) (st : LoopState) :
    (drainBuf raises st).inbound = st.inbound ∧
      (drainBuf raises st).handed =
        st.handed ++ takeThrough raises st.handed (frames st.buf) ∧
      (drainBuf raises st).status =
        (if stopsWithin raises st.handed (frames st.buf) then .raised else st.status) ∧
      (stopsWithin raises st.handed (frames st.buf) = false →
        (drainBuf raises st).buf = (framer.drain st.buf).2) := by
  generalize hb : st.buf = b
  induction b using Framer.cut_induction (F := framer) generalizing st with
  | hn b h =>
    obtain ⟨hi, hbuf, hh, hs⟩ := drainBuf_of_none raises (hb ▸ h : cutMessage st.buf = none)
    simp [frames, Framer.drain_of_none h, takeThrough, stopsWithin, hi, hh, hs, hbuf, hb]
  | hs b m r h ih =>
    have hf : frames b = m :: frames r := by simp only [frames, Framer.drain_of_some h]
    rw [drainBuf_of_some (hb ▸ h : cutMessage st.buf = some (m, r)), hf,
      Framer.drain_of_some h]
    by_cases hr : raises (st.handed ++ [m]) = true
    · simp [hr, takeThrough, stopsWithin]
    · obtain ⟨hi, hh, hs, hk⟩ := ih
        { st with
          buf := r
          count := if st.count + 1 > 2048 then 0 else st.count + 1
          remainingReadLen := minReadLen
          handed := st.handed ++ [m] } rfl
      simp only [hr, Bool.false_eq_true, if_false, hi, hh, hs, takeThrough, stopsWithin,
        Bool.false_or, true_and]
      exact ⟨by simp, hk⟩

/-- The bytes read so far were handed over as their framing, up to a call that raised. -/
structure LoopInv (raises : List MsgCall → Bool) (stream : List UInt8) (st : LoopState)
    (read : List UInt8) : Prop where
  stream_eq : stream = read ++ st.inbound
  handed_eq : st.handed = takeThrough raises [] (frames read)
  raised_iff : st.status = .raised ↔ stopsWithin raises [] (frames read) = true
  buf_eq : st.status ≠ .raised → st.buf = (framer.drain read).2

theorem LoopInv.initial (raises : List MsgCall → Bool) (stream : List UInt8) :
    LoopInv raises stream (initial stream) [] := by
  have hn : framer.next [] = none := rfl
  constructor <;> simp [Controller.initial, frames, Framer.drain_of_none hn, takeThrough,
    stopsWithin]

variable {stream read : List UInt8}

theorem LoopInv.recvStep (h : LoopInv raises stream st read) (ev : SocketEvent) :
    ∃ read', LoopInv raises stream (recvStep raises st ev) read' := by
  by_cases hrun : st.status = .running
  case neg => exact ⟨read, by simpa [Controller.recvStep, hrun] using h⟩
  have hns : stopsWithin raises [] (frames read) = false := by
    simpa [hrun] using h.raised_iff
  -- leaving the loop without an exception touches nothing but the status
  have hstop : LoopInv raises stream { st with status := .stopped } read :=
    ⟨h.stream_eq, h.handed_eq, by simp [hns], fun _ => h.buf_eq (by simp [hrun])⟩
  cases ev with
  | dead => exact ⟨read, by simpa [Controller.recvStep, hrun] using hstop⟩
  | socketTimeout => exact ⟨read, by simpa [Controller.recvStep, hrun] using h⟩
  | sslError => exact ⟨read, by simpa [Controller.recvStep, hrun] using h⟩
  | ioError => exact ⟨read, by simpa [Controller.recvStep, hrun] using hstop⟩
  | ready n =>
    by_cases hret : st.inbound.take (min n (readLen st)) = []
    · exact ⟨read, by simpa [Controller.recvStep, hrun, hret] using hstop⟩
    · have hbuf := h.buf_eq (by simp [hrun])
      have hdone : st.handed = frames read :=
        h.handed_eq.trans (takeThrough_of_not_stopsWithin hns)
      set ret := st.inbound.take (min n (readLen st)) with hretdef
      obtain ⟨hi, hh, hs, hk⟩ := drainBuf_spec raises
        { st with inbound := st.inbound.drop (min n (readLen st)), buf := st.buf ++ ret }
      have hstep : Controller.recvStep raises st (.ready n) = drainBuf raises
          { st with inbound := st.inbound.drop (min n (readLen st)), buf := st.buf ++ ret } := by
        simp [Controller.recvStep, hrun, ← hretdef, hret]
      have hfr : frames (read ++ ret) = frames read ++ frames (st.buf ++ ret) := by
        rw [frames_append, hbuf]; rfl
      have hstops : stopsWithin raises [] (frames (read ++ ret)) =
          stopsWithin raises st.handed (frames (st.buf ++ ret)) := by
        rw [hfr, stopsWithin_append, hns, hdone]; rfl
      refine ⟨read ++ ret, ?_, ?_, ?_, ?_⟩
      · rw [hstep, hi, h.stream_eq, List.append_assoc, hretdef, List.take_append_drop]
      · rw [hstep, hh, hfr, takeThrough_append hns, hdone]; rfl
      · rw [hstep, hs, hstops]
        cases stopsWithin raises st.handed (frames (st.buf ++ ret)) <;> simp [hrun]
      · intro hne
        rw [hstep] at hne ⊢
        have hk' : stopsWithin raises st.handed (frames (st.buf ++ ret)) = false := by
          by_contra hc
          exact hne (by rw [hs]; simp [hc])
        exact (hk hk').trans (by rw [Framer.drain_append read, hbuf])

theorem LoopInv.recvLoop (raises : List MsgCall → Bool) (stream : List UInt8)
    (evs : List SocketEvent) : ∃ read, LoopInv raises stream (recvLoop raises stream evs) read := by
  induction evs using List.reverseRecOn with
  | nil => exact ⟨[], LoopInv.initial raises stream⟩
  | append_singleton evs ev ih =>
    obtain ⟨read, h⟩ := ih
    simpa [Controller.recvLoop] using h.recvStep ev

end Loop

end Ryu.Controller
