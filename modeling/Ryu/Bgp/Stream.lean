import Mathlib.Algebra.Ring.Nat
import Mathlib.Data.List.GetD
import Ryu.Lib.Framing

/-! # The byte stream of a BGP session

`BgpProtocol._data_received` collects the bytes of a connection and hands complete messages
to `_handle_msg`. The header is checked as soon as its bytes are there, the body once the
whole message is. However the stream is cut into chunks, the same messages are handed over
and the same error ends the session.
-/

namespace Ryu.Bgp

def bgpMinMsgLen : ℕ := 19
def bgpMaxMsgLen : ℕ := 4096

/-- `BGPOpen._MIN_LEN`. -/
def openMinLen : ℕ := 29
/-- `BGPKeepAlive._MIN_LEN`. -/
def keepAliveMinLen : ℕ := 19
/-- `BGPUpdate._MIN_LEN`, the length of the header alone. -/
def updateMinLen : ℕ := 19

def bgpMsgOpen : ℕ := 1
def bgpMsgUpdate : ℕ := 2
def bgpMsgNotification : ℕ := 3
def bgpMsgKeepalive : ℕ := 4
def bgpMsgRouteRefresh : ℕ := 5

def messageMarker : List UInt8 := List.replicate 16 0xff

structure MsgHeader where
  auth : List UInt8
  length : ℕ
  ptype : ℕ
  deriving DecidableEq, Repr

/-- Unpack `!16sHB`; only buffers of at least 19 bytes are unpacked. -/
def parseMsgHeader (buff : List UInt8) : MsgHeader :=
  ⟨buff.take 16, (buff.getD 16 0).toNat * 256 + (buff.getD 17 0).toNat, (buff.getD 18 0).toNat⟩

/-- What ends a call of `_data_received`; a body is parsed with errors `ε`, and `_handle_msg`
raises errors `η`. -/
inductive RecvError (ε η : Type*)
  | notSync
  | badLen (ptype length : ℕ)
  | tooSmall
  | unknownType (ptype : ℕ)
  | body (e : ε)
  | handler (e : η)
  deriving DecidableEq, Repr

/-- A message object: the fields of the header, and what its class's parser returns. -/
structure Msg (κ : Type*) where
  marker : List UInt8
  len : ℕ
  type : ℕ
  kwargs : κ
  deriving DecidableEq, Repr

/-- The instance variable `_recv_buff`, the bytes passed to `_data_received` so far, the messages
handed to `_handle_msg` and the exception that left the method, if one did. -/
structure RecvState (κ ε η : Type*) where
  recvBuff : List UInt8
  received : List UInt8
  handed : List (Msg κ)
  error : Option (RecvError ε η)
  deriving DecidableEq, Repr

variable {κ ε η : Type*}

/-- The checks on a header alone. -/
def headerError (h : MsgHeader) : Option (RecvError ε η) :=
  let check := h.length < bgpMinMsgLen ∨ bgpMaxMsgLen < h.length
  let check2 := h.ptype = bgpMsgOpen ∧ h.length < openMinLen
  let check3 := h.ptype = bgpMsgKeepalive ∧ h.length ≠ keepAliveMinLen
  let check4 := h.ptype = bgpMsgUpdate ∧ h.length < updateMinLen
  if h.auth ≠ messageMarker then some .notSync
  else if check ∨ check2 ∨ check3 ∨ check4 then some (.badLen h.ptype h.length)
  else none

/-- `_lookup_type` knows the five message types, and no class for any other. -/
def knownType (ptype : ℕ) : Bool :=
  ptype ∈ [bgpMsgOpen, bgpMsgUpdate, bgpMsgNotification, bgpMsgKeepalive, bgpMsgRouteRefresh]

theorem length_of_headerError {h : MsgHeader}
    (he : headerError h = (none : Option (RecvError ε η))) : bgpMinMsgLen ≤ h.length := by
  by_contra hl
  have hc : h.length < bgpMinMsgLen ∨ bgpMaxMsgLen < h.length := .inl (Nat.not_le.mp hl)
  simp only [headerError] at he
  split at he
  · cases he
  · rw [if_pos (.inl hc)] at he
    cases he

/-- The header is read off the first 19 bytes. -/
theorem parseMsgHeader_append {b : List UInt8} (hb : bgpMinMsgLen ≤ b.length) (c : List UInt8) :
    parseMsgHeader (b ++ c) = parseMsgHeader b := by
  unfold bgpMinMsgLen at hb
  have hget : ∀ i < 19, (b ++ c).getD i 0 = b.getD i 0 := fun i hi =>
    List.getD_append _ _ _ _ (by omega)
  simp only [parseMsgHeader, hget 16 (by omega), hget 17 (by omega), hget 18 (by omega),
    List.take_append_of_le_length (show 16 ≤ b.length by omega)]

theorem parseMsgHeader_take {b : List UInt8} (hb : bgpMinMsgLen ≤ b.length) :
    parseMsgHeader (b.take bgpMinMsgLen) = parseMsgHeader b := by
  have ht : bgpMinMsgLen ≤ (b.take bgpMinMsgLen).length := by
    rw [List.length_take]; omega
  rw [← parseMsgHeader_append ht (b.drop bgpMinMsgLen), List.take_append_drop]

variable (parseBody : ℕ → List UInt8 → Except ε κ) (handle : List (Msg κ) → Option η)

/-- The message that starts a buffer, made from its body alone. -/
def parseMsg (buf : List UInt8) : Except (RecvError ε η) (Msg κ) :=
  let h := parseMsgHeader buf
  if knownType h.ptype then
    match parseBody h.ptype ((buf.take h.length).drop bgpMinMsgLen) with
    | .error e => .error (.body e)
    | .ok kwargs => .ok ⟨h.auth, h.length, h.ptype, kwargs⟩
  else .error (.unknownType h.ptype)

/-- `BGPMessage.parser`: the message and the bytes after it. -/
def parser (buf : List UInt8) : Except (RecvError ε η) (Msg κ × List UInt8) :=
  if buf.length < bgpMinMsgLen then .error .tooSmall
  else if buf.length < (parseMsgHeader buf).length then .error .tooSmall
  else (parseMsg parseBody buf).map fun msg => (msg, buf.drop (parseMsgHeader buf).length)

theorem parser_rest {buf rest : List UInt8} {msg : Msg κ}
    (h : parser (η := η) parseBody buf = .ok (msg, rest)) :
    rest = buf.drop (parseMsgHeader buf).length := by
  unfold parser at h
  split at h
  · cases h
  · split at h
    · cases h
    · cases hm : parseMsg (η := η) parseBody buf with
      | error e => rw [hm] at h; cases h
      | ok m =>
        rw [hm] at h
        cases h
        rfl

/-- The loop of `_data_received`: `handle` tells, from the messages handed over so far, whether
handling the last one raises. -/
def extractMsgs (st : RecvState κ ε η) : RecvState κ ε η :=
  if st.recvBuff.length < bgpMinMsgLen then st
  else
    let h := parseMsgHeader (st.recvBuff.take bgpMinMsgLen)
    match _he : headerError h with
    | some e => { st with error := some e }
    | none =>
      if st.recvBuff.length < h.length then st
      else
        match _hp : parser parseBody st.recvBuff with
        | .error e => { st with error := some e }
        | .ok (msg, rest) =>
          let st' := { st with recvBuff := rest, handed := st.handed ++ [msg] }
          match handle st'.handed with
          | some e => { st' with error := some (.handler e) }
          | none => extractMsgs st'
termination_by st.recvBuff.length
decreasing_by
  have hl := length_of_headerError _he
  have hb := Nat.not_lt.mp ‹¬ st.recvBuff.length < bgpMinMsgLen›
  rw [show h = parseMsgHeader st.recvBuff from parseMsgHeader_take hb] at hl
  rw [parser_rest parseBody _hp, List.length_drop]
  unfold bgpMinMsgLen at hl hb
  omega

/-- `BgpProtocol._data_received`; once it has raised, `_recv_loop` is left and it is not
called again. -/
def dataReceived (st : RecvState κ ε η) (nextBytes : List UInt8) : RecvState κ ε η :=
  if st.error.isSome then st
  else extractMsgs parseBody handle
    { st with
      recvBuff := st.recvBuff ++ nextBytes
      received := st.received ++ nextBytes }

def RecvState.init : RecvState κ ε η := ⟨[], [], [], none⟩

/-- Why `_recv_loop` reports the connection as lost. -/
inductive LostReason (ε η : Type*)
  | peerClosed
  | socketError
  | raised (e : RecvError ε η)
  deriving DecidableEq, Repr

/-- `_recv_loop` reads at most 19 bytes at a time: a read finds `n` bytes ready (none when the
peer closed the connection), or fails. -/
def recvLoop : List UInt8 → List (Option ℕ) → RecvState κ ε η →
    RecvState κ ε η × Option (LostReason ε η)
  | _, [], st => (st, none)
  | _, none :: _, st => (st, some .socketError)
  | inbound, some n :: reads, st =>
    let requiredLen := min n bgpMinMsgLen
    if inbound.take requiredLen = [] then (st, some .peerClosed)
    else
      let st' := dataReceived parseBody handle st (inbound.take requiredLen)
      match st'.error with
      | some e => (st', some (.raised e))
      | none => recvLoop (inbound.drop requiredLen) reads st'

/-- Cut the first message off a buffer, or find what is wrong with it. -/
def cutMsg (buf : List UInt8) : Option (Except (RecvError ε η) (Msg κ) × List UInt8) :=
  if buf.length < bgpMinMsgLen then none
  else match headerError (parseMsgHeader buf) with
    | some e => some (.error e, buf.drop bgpMinMsgLen)
    | none =>
      if buf.length < (parseMsgHeader buf).length then none
      else some (parseMsg parseBody buf, buf.drop (parseMsgHeader buf).length)

section Cut

variable {parseBody : ℕ → List UInt8 → Except ε κ} {handle : List (Msg κ) → Option η}
  {b c r : List UInt8} {st : RecvState κ ε η}

theorem parseMsg_append (hb : bgpMinMsgLen ≤ b.length)
    (hl : (parseMsgHeader b).length ≤ b.length) (c : List UInt8) :
    parseMsg (η := η) parseBody (b ++ c) = parseMsg parseBody b := by
  simp only [parseMsg, parseMsgHeader_append hb, List.take_append_of_le_length hl]

theorem cutMsg_eq_some {x : Except (RecvError ε η) (Msg κ)} :
    cutMsg parseBody b = some (x, r) ↔ bgpMinMsgLen ≤ b.length ∧
      ((∃ e, headerError (parseMsgHeader b) = some e ∧ x = .error e ∧
          r = b.drop bgpMinMsgLen) ∨
        (headerError (parseMsgHeader b) = (none : Option (RecvError ε η)) ∧
          (parseMsgHeader b).length ≤ b.length ∧ x = parseMsg parseBody b ∧
          r = b.drop (parseMsgHeader b).length)) := by
  unfold cutMsg
  rcases Nat.lt_or_ge b.length bgpMinMsgLen with hb | hb
  · simp [hb, Nat.not_le.mpr hb]
  rw [if_neg (Nat.not_lt.mpr hb)]
  cases he : headerError (ε := ε) (η := η) (parseMsgHeader b) with
  | some e => simp [hb, eq_comm]
  | none =>
    rcases Nat.lt_or_ge b.length (parseMsgHeader b).length with hl | hl
    · simp [hl, Nat.not_le.mpr hl]
    · simp [hb, hl, Nat.not_lt.mpr hl, eq_comm]

theorem cutMsg_eq_none : cutMsg (η := η) parseBody b = none ↔ b.length < bgpMinMsgLen ∨
    bgpMinMsgLen ≤ b.length ∧ headerError (parseMsgHeader b) = (none : Option (RecvError ε η)) ∧
      b.length < (parseMsgHeader b).length := by
  unfold cutMsg
  rcases Nat.lt_or_ge b.length bgpMinMsgLen with hb | hb
  · simp [hb]
  rw [if_neg (Nat.not_lt.mpr hb)]
  cases he : headerError (ε := ε) (η := η) (parseMsgHeader b) with
  | some e => simp [Nat.not_lt.mpr hb]
  | none => simp [hb, Nat.not_lt.mpr hb]

/-- The sequential framing of a session: messages and the errors found in them. -/
def msgFramer (parseBody : ℕ → List UInt8 → Except ε κ) :
    Framer UInt8 (Except (RecvError ε η) (Msg κ)) where
  next := cutMsg parseBody
  next_append := by
    intro b x r c hb
    obtain ⟨hm, ⟨e, he, rfl, rfl⟩ | ⟨he, hl, rfl, rfl⟩⟩ := cutMsg_eq_some.1 hb
    all_goals
      refine cutMsg_eq_some.2 ⟨by rw [List.length_append]; omega, ?_⟩
      rw [parseMsgHeader_append hm]
    · exact .inl ⟨e, he, rfl, (List.drop_append_of_le_length hm).symm⟩
    · exact .inr ⟨he, by rw [List.length_append]; omega, (parseMsg_append hm hl c).symm,
        (List.drop_append_of_le_length hl).symm⟩
  next_lt := by
    intro b x r hb
    obtain ⟨hm, ⟨e, he, rfl, rfl⟩ | ⟨he, hl, rfl, rfl⟩⟩ := cutMsg_eq_some.1 hb
    · rw [List.length_drop]
      unfold bgpMinMsgLen at hm ⊢
      omega
    · have := length_of_headerError he
      rw [List.length_drop]
      unfold bgpMinMsgLen at hm this
      omega

theorem extractMsgs_of_none (h : cutMsg (η := η) parseBody st.recvBuff = none) :
    extractMsgs parseBody handle st = st := by
  rw [extractMsgs]
  rcases cutMsg_eq_none.1 h with hb | ⟨hb, he, hl⟩
  · rw [if_pos hb]
  · rw [if_neg (Nat.not_lt.mpr hb)]
    dsimp only
    split
    · next he' =>
      rw [parseMsgHeader_take hb, he] at he'
      cases he'
    · rw [parseMsgHeader_take hb, if_pos hl]

theorem extractMsgs_of_error {e : RecvError ε η}
    (h : cutMsg parseBody st.recvBuff = some (.error e, r)) :
    extractMsgs parseBody handle st = { st with error := some e } := by
  obtain ⟨hb, ⟨e', he, hx, -⟩ | ⟨he, hl, hx, -⟩⟩ := cutMsg_eq_some.1 h
  · obtain rfl : e = e' := Except.error.inj hx
    rw [extractMsgs, if_neg (Nat.not_lt.mpr hb)]
    dsimp only
    split
    · next he' =>
      rw [parseMsgHeader_take hb, he] at he'
      obtain rfl := Option.some.inj he'
      rfl
    · next he' =>
      rw [parseMsgHeader_take hb, he] at he'
      cases he'
  · rw [extractMsgs, if_neg (Nat.not_lt.mpr hb)]
    have hp : parser (η := η) parseBody st.recvBuff = .error e := by
      rw [parser, if_neg (Nat.not_lt.mpr hb), if_neg (Nat.not_lt.mpr hl), ← hx]
      rfl
    dsimp only
    split
    · next he' =>
      rw [parseMsgHeader_take hb, he] at he'
      cases he'
    · rw [parseMsgHeader_take hb, if_neg (Nat.not_lt.mpr hl)]
      split
      · next hp' =>
        rw [hp] at hp'
        obtain rfl := Except.error.inj hp'
        rfl
      · next hp' =>
        rw [hp] at hp'
        cases hp'

theorem extractMsgs_of_ok {m : Msg κ} (h : cutMsg (η := η) parseBody st.recvBuff = some (.ok m, r)) :
    extractMsgs parseBody handle st =
      match handle (st.handed ++ [m]) with
      | some e => { st with
          recvBuff := r
          handed := st.handed ++ [m]
          error := some (.handler e) }
      | none => extractMsgs parseBody handle
          { st with recvBuff := r, handed := st.handed ++ [m] } := by
  obtain ⟨hb, ⟨e', he, hx, -⟩ | ⟨he, hl, hx, hr⟩⟩ := cutMsg_eq_some.1 h
  · cases hx
  · have hp : parser (η := η) parseBody st.recvBuff = .ok (m, r) := by
      rw [parser, if_neg (Nat.not_lt.mpr hb), if_neg (Nat.not_lt.mpr hl), ← hx, hr]
      rfl
    rw [extractMsgs, if_neg (Nat.not_lt.mpr hb)]
    dsimp only
    split
    · next he' =>
      rw [parseMsgHeader_take hb, he] at he'
      cases he'
    · rw [parseMsgHeader_take hb, if_neg (Nat.not_lt.mpr hl)]
      split
      · next hp' =>
        rw [hp] at hp'
        cases hp'
      · next hp' =>
        rw [hp] at hp'
        obtain ⟨rfl, rfl⟩ := Prod.mk.inj (Except.ok.inj hp')
        rfl

end Cut

section Call

/-- The messages among the results of a framing. -/
def msgs (cuts : List (Except (RecvError ε η) (Msg κ))) : List (Msg κ) :=
  cuts.filterMap Except.toOption

/-- The exception that the last of the results raises: it is an error, or its handler fails. -/
def failure (handle : List (Msg κ) → Option η) (cuts : List (Except (RecvError ε η) (Msg κ))) :
    Option (RecvError ε η) :=
  cuts.getLast?.bind fun
    | .error e => some e
    | .ok _ => (handle (msgs cuts)).map .handler

def fails (handle : List (Msg κ) → Option η) (cuts : List (Except (RecvError ε η) (Msg κ))) :
    Bool :=
  (failure handle cuts).isSome

/-- The messages and errors in a stream, in order. -/
def cuts (parseBody : ℕ → List UInt8 → Except ε κ) (b : List UInt8) :
    List (Except (RecvError ε η) (Msg κ)) :=
  ((msgFramer parseBody).drain b).1

/-- The bytes of messages. -/
def lenSum (ms : List (Msg κ)) : ℕ := (ms.map Msg.len).sum

variable {parseBody : ℕ → List UInt8 → Except ε κ} {handle : List (Msg κ) → Option η}
  {b c r : List UInt8} {st : RecvState κ ε η} {ms : List (Msg κ)}
  {xs : List (Except (RecvError ε η) (Msg κ))}

@[simp] theorem msgs_nil : msgs ([] : List (Except (RecvError ε η) (Msg κ))) = [] := rfl

@[simp] theorem msgs_cons_ok (m : Msg κ) : msgs (.ok m :: xs) = m :: msgs xs := rfl

@[simp] theorem msgs_cons_error (e : RecvError ε η) : msgs (.error e :: xs) = msgs xs := rfl

@[simp] theorem lenSum_nil : lenSum ([] : List (Msg κ)) = 0 := rfl

@[simp] theorem lenSum_cons (m : Msg κ) : lenSum (m :: ms) = m.len + lenSum ms :=
  List.sum_cons

theorem lenSum_append (ms ms' : List (Msg κ)) : lenSum (ms ++ ms') = lenSum ms + lenSum ms' := by
  simp [lenSum]

@[simp] theorem msgs_map_ok (ms : List (Msg κ)) :
    msgs (ms.map (Except.ok : Msg κ → Except (RecvError ε η) (Msg κ))) = ms := by
  induction ms with
  | nil => rfl
  | cons m ms ih => exact congrArg (m :: ·) ih

theorem msgs_append (xs ys : List (Except (RecvError ε η) (Msg κ))) :
    msgs (xs ++ ys) = msgs xs ++ msgs ys := List.filterMap_append

@[simp] theorem failure_append_error (xs : List (Except (RecvError ε η) (Msg κ)))
    (e : RecvError ε η) : failure handle (xs ++ [.error e]) = some e := by
  simp [failure]

@[simp] theorem failure_append_ok (xs : List (Except (RecvError ε η) (Msg κ))) (m : Msg κ) :
    failure handle (xs ++ [.ok m]) = (handle (msgs xs ++ [m])).map .handler := by
  rw [failure, List.getLast?_append, msgs_append]
  rfl

@[simp] theorem fails_append_error (xs : List (Except (RecvError ε η) (Msg κ)))
    (e : RecvError ε η) : fails handle (xs ++ [.error e]) = true := by
  simp [fails]

@[simp] theorem fails_append_ok (xs : List (Except (RecvError ε η) (Msg κ))) (m : Msg κ) :
    fails handle (xs ++ [.ok m]) = (handle (msgs xs ++ [m])).isSome := by
  simp [fails]

/-- A message is as long as its header says. -/
theorem len_of_cutMsg {m : Msg κ} (h : cutMsg (η := η) parseBody b = some (.ok m, r)) :
    m.len ≤ b.length ∧ r = b.drop m.len := by
  obtain ⟨hb, ⟨e, -, hx, -⟩ | ⟨-, hl, hx, rfl⟩⟩ := cutMsg_eq_some.1 h
  · cases hx
  · unfold parseMsg at hx
    dsimp only at hx
    split at hx
    · cases hp : parseBody (parseMsgHeader b).ptype
        ((b.take (parseMsgHeader b).length).drop bgpMinMsgLen) with
      | error e => rw [hp] at hx; cases hx
      | ok kwargs =>
        rw [hp] at hx
        cases hx
        exact ⟨hl, rfl⟩
    · cases hx

/-- What a call of the loop hands over, raises and keeps, in terms of the framing of its
buffer. The induction is along the cuts of the buffer. -/
theorem extractMsgs_spec (parseBody : ℕ → List UInt8 → Except ε κ)
    (handle : List (Msg κ) → Option η) (st : RecvState κ ε η) (hst : st.error = none) :
    let done := st.handed.map (Except.ok : Msg κ → Except (RecvError ε η) (Msg κ))
    let taken := takeThrough (fails handle) done (cuts parseBody st.recvBuff)
    let st' := extractMsgs parseBody handle st
    st'.received = st.received ∧
      st'.handed = st.handed ++ msgs taken ∧
      st'.error = (if stopsWithin (fails handle) done (cuts parseBody st.recvBuff) then
        failure handle (done ++ taken) else none) ∧
      (stopsWithin (fails handle) done (cuts (η := η) parseBody st.recvBuff) = false →
        st'.recvBuff = ((msgFramer (η := η) parseBody).drain st.recvBuff).2) ∧
      lenSum (msgs taken) ≤ st.recvBuff.length ∧
      st'.recvBuff = st.recvBuff.drop (lenSum (msgs taken)) := by
  generalize hb : st.recvBuff = b
  induction b using Framer.cut_induction (F := msgFramer (η := η) parseBody) generalizing st with
  | hn b h =>
    rw [extractMsgs_of_none (hb ▸ h)]
    simp [cuts, Framer.drain_of_none h, takeThrough, stopsWithin, hst, hb]
  | hs b x r h ih =>
    have hc : cuts (η := η) parseBody b = x :: cuts parseBody r := by
      simp only [cuts, Framer.drain_of_some h]
    rw [hc, Framer.drain_of_some h]
    cases x with
    | error e =>
      rw [extractMsgs_of_error (hb ▸ h)]
      simp [takeThrough, stopsWithin, hb]
    | ok m =>
      rw [extractMsgs_of_ok (hb ▸ h)]
      obtain ⟨hl, rfl⟩ := len_of_cutMsg h
      cases hh : handle (st.handed ++ [m]) with
      | some e =>
        simp [takeThrough, stopsWithin, hh, hl]
      | none =>
        obtain ⟨h1, h2, h3, h4, h5, h6⟩ := ih
          { st with recvBuff := b.drop m.len, handed := st.handed ++ [m] } hst rfl
        have hd : (st.handed ++ [m]).map (Except.ok : Msg κ → Except (RecvError ε η) (Msg κ)) =
            st.handed.map .ok ++ [.ok m] := List.map_append
        rw [hd] at h2 h3 h4 h5 h6
        simp only [takeThrough, stopsWithin, fails_append_ok, msgs_map_ok, hh, Option.isSome_none,
          Bool.false_eq_true, if_false, Bool.false_or, msgs_cons_ok, lenSum_cons]
        refine ⟨h1, ?_, ?_, h4, ?_, ?_⟩
        · rw [h2, List.append_assoc]
          rfl
        · rw [h3, List.append_assoc]
          rfl
        · rw [List.length_drop] at h5
          omega
        · rw [h6, List.drop_drop]

/-- Where nothing failed, all results are messages. -/
theorem map_ok_msgs {done : List (Except (RecvError ε η) (Msg κ))}
    (h : stopsWithin (fails handle) done xs = false) : (msgs xs).map .ok = xs := by
  induction xs generalizing done with
  | nil => rfl
  | cons x xs ih =>
    obtain ⟨hx, hxs⟩ := Bool.or_eq_false_iff.mp h
    cases x with
    | error e => simp at hx
    | ok m => rw [msgs_cons_ok, List.map_cons, ih hxs]

/-- What was received was handed over as its framing, up to the first failure, and what was not
handed over is in the buffer. -/
structure Framed (parseBody : ℕ → List UInt8 → Except ε κ) (handle : List (Msg κ) → Option η)
    (st : RecvState κ ε η) : Prop where
  handed_eq : st.handed = msgs (takeThrough (fails handle) [] (cuts parseBody st.received))
  error_eq : st.error = if stopsWithin (fails handle) [] (cuts parseBody st.received) then
    failure handle (takeThrough (fails handle) [] (cuts parseBody st.received)) else none
  buff_eq : stopsWithin (fails handle) [] (cuts (η := η) parseBody st.received) = false →
    st.recvBuff = ((msgFramer (η := η) parseBody).drain st.received).2
  len_le : lenSum st.handed ≤ st.received.length
  drop_eq : st.recvBuff = st.received.drop (lenSum st.handed)

theorem Framed.init : Framed parseBody handle RecvState.init := by
  have hn : (msgFramer (η := η) parseBody).next [] = none := rfl
  constructor <;> simp [RecvState.init, cuts, Framer.drain_of_none hn, takeThrough, stopsWithin]

theorem Framed.error_isSome (h : Framed parseBody handle st) :
    st.error.isSome = stopsWithin (fails handle) [] (cuts (η := η) parseBody st.received) := by
  rw [h.error_eq]
  cases hs : stopsWithin (fails handle) [] (cuts (η := η) parseBody st.received) with
  | false => rfl
  | true => exact stop_takeThrough hs

theorem Framed.dataReceived (h : Framed parseBody handle st) (nextBytes : List UInt8) :
    Framed parseBody handle (dataReceived parseBody handle st nextBytes) := by
  cases he : st.error with
  | some e => rwa [Bgp.dataReceived, if_pos (by rw [he]; rfl)]
  | none =>
    have hs := h.error_isSome
    rw [he, Option.isSome_none, eq_comm] at hs
    have hh : st.handed = msgs (cuts (η := η) parseBody st.received) := by
      rw [h.handed_eq, takeThrough_of_not_stopsWithin hs]
    have hmap := map_ok_msgs hs
    rw [← hh] at hmap
    have hbuf := h.buff_eq hs
    obtain ⟨h1, h2, h3, h4, h5, h6⟩ := extractMsgs_spec parseBody handle
      { st with recvBuff := st.recvBuff ++ nextBytes, received := st.received ++ nextBytes } he
    have hstep : Bgp.dataReceived parseBody handle st nextBytes = extractMsgs parseBody handle
        { st with recvBuff := st.recvBuff ++ nextBytes, received := st.received ++ nextBytes } := by
      rw [Bgp.dataReceived, he]
      rfl
    rw [hstep]
    dsimp only at h1 h2 h3 h4 h5 h6
    rw [hmap] at h2 h3 h4 h5 h6
    have htake : takeThrough (fails handle) [] (cuts (η := η) parseBody (st.received ++ nextBytes)) =
        cuts parseBody st.received ++ takeThrough (fails handle) (cuts parseBody st.received)
          (cuts parseBody (st.recvBuff ++ nextBytes)) := by
      rw [hbuf]
      exact Framer.takeThrough_drain_append hs nextBytes
    have hstops : stopsWithin (fails handle) [] (cuts (η := η) parseBody (st.received ++ nextBytes)) =
        stopsWithin (fails handle) (cuts parseBody st.received)
          (cuts parseBody (st.recvBuff ++ nextBytes)) := by
      rw [hbuf]
      exact Framer.stopsWithin_drain_append hs nextBytes
    refine ⟨?_, ?_, ?_, ?_, ?_⟩
    · rw [h1, h2, htake, msgs_append, ← hh]
    · rw [h1, h3, htake, hstops]
    · intro hn
      rw [h1, hstops] at hn
      rw [h4 hn, h1, Framer.drain_append st.received, hbuf]
    · have hl := h.len_le
      rw [h1, h2, lenSum_append, List.length_append]
      have hb : st.recvBuff.length = st.received.length - lenSum st.handed := by
        rw [h.drop_eq, List.length_drop]
      rw [List.length_append] at h5
      omega
    · rw [h6, h1, h2, lenSum_append, h.drop_eq, ← List.drop_append_of_le_length h.len_le,
        List.drop_drop]

theorem Framed.foldl (h : Framed parseBody handle st) (chunks : List (List UInt8)) :
    Framed parseBody handle (chunks.foldl (Bgp.dataReceived parseBody handle) st) := by
  induction chunks generalizing st with
  | nil => exact h
  | cons c chunks ih => exact ih (h.dataReceived c)

theorem extractMsgs_received (st : RecvState κ ε η) (hst : st.error = none) :
    (extractMsgs parseBody handle st).received = st.received :=
  (extractMsgs_spec parseBody handle st hst).1

variable (parseBody handle) in
theorem foldl_of_error (he : st.error.isSome) (chunks : List (List UInt8)) :
    chunks.foldl (Bgp.dataReceived parseBody handle) st = st := by
  induction chunks with
  | nil => rfl
  | cons c chunks ih =>
    rw [List.foldl_cons, Bgp.dataReceived, if_pos he]
    exact ih

variable (parseBody handle) in
/-- The chunks are received one after the other, all of them if nothing is raised. -/
theorem received_foldl (st : RecvState κ ε η) (chunks : List (List UInt8)) :
    let s := chunks.foldl (Bgp.dataReceived parseBody handle) st
    s.received <+: st.received ++ chunks.flatten ∧
      (s.error = none → s.received = st.received ++ chunks.flatten) := by
  induction chunks generalizing st with
  | nil => simp
  | cons c chunks ih =>
    cases he : st.error with
    | none =>
      have hr : (Bgp.dataReceived parseBody handle st c).received = st.received ++ c := by
        rw [Bgp.dataReceived, if_neg (by simp [he])]
        exact extractMsgs_received _ he
      obtain ⟨hp, hn⟩ := ih (Bgp.dataReceived parseBody handle st c)
      rw [hr, List.append_assoc] at hp hn
      exact ⟨hp, hn⟩
    | some e =>
      have hst := foldl_of_error parseBody handle
        (show st.error.isSome by rw [he]; rfl) (c :: chunks)
      rw [hst]
      exact ⟨List.prefix_append _ _, fun hn => by rw [he] at hn; cases hn⟩

/-- Two receivers of a stream agree, if one that stopped early did so at an error. -/
theorem Framed.agree {s w : RecvState κ ε η} (hs : Framed parseBody handle s)
    (hw : Framed parseBody handle w) (hpre : s.received <+: w.received)
    (hall : s.error = none → s.received = w.received) :
    s.handed = w.handed ∧ s.error = w.error ∧
      (s.error = none → s.recvBuff = w.recvBuff ∧
        cutMsg (η := η) parseBody s.recvBuff = none) := by
  have hsome := hs.error_isSome
  cases hstop : stopsWithin (fails handle) [] (cuts (η := η) parseBody s.received) with
  | false =>
    have hn : s.error = none := by
      rw [← Option.isSome_eq_false_iff.trans Option.isNone_iff_eq_none, hsome, hstop]
    have hr := hall hn
    refine ⟨?_, ?_, fun _ => ⟨?_, ?_⟩⟩
    · rw [hs.handed_eq, hw.handed_eq, hr]
    · rw [hs.error_eq, hw.error_eq, hr]
    · rw [hs.buff_eq hstop, hw.buff_eq (hr ▸ hstop), hr]
    · rw [hs.buff_eq hstop]
      exact Framer.next_drain_snd (F := msgFramer parseBody) s.received
  | true =>
    obtain ⟨t, ht⟩ := hpre
    have htake : takeThrough (fails handle) [] (cuts (η := η) parseBody w.received) =
        takeThrough (fails handle) [] (cuts parseBody s.received) :=
      ht ▸ Framer.takeThrough_drain_of_stops hstop t
    have hstops : stopsWithin (fails handle) [] (cuts (η := η) parseBody w.received) = true :=
      ht ▸ Framer.stopsWithin_drain_of_stops hstop t
    refine ⟨?_, ?_, fun hn => ?_⟩
    · rw [hs.handed_eq, hw.handed_eq, htake]
    · rw [hs.error_eq, hw.error_eq, if_pos hstop, if_pos hstops, htake]
    · rw [hn, hstop] at hsome
      cases hsome

/-- The loop passes the bytes it reads on in chunks. -/
theorem recvLoop_chunks (inbound : List UInt8) (reads : List (Option ℕ))
    (st : RecvState κ ε η) :
    ∃ chunks : List (List UInt8), chunks.flatten <+: inbound ∧
      (recvLoop parseBody handle inbound reads st).1 =
        chunks.foldl (Bgp.dataReceived parseBody handle) st := by
  induction reads generalizing inbound st with
  | nil => exact ⟨[], List.nil_prefix, rfl⟩
  | cons read reads ih =>
    cases read with
    | none => exact ⟨[], List.nil_prefix, rfl⟩
    | some n =>
      simp only [recvLoop]
      split
      · exact ⟨[], List.nil_prefix, rfl⟩
      · cases he : (Bgp.dataReceived parseBody handle st
          (inbound.take (min n bgpMinMsgLen))).error with
        | some e =>
          refine ⟨[inbound.take (min n bgpMinMsgLen)], ?_, rfl⟩
          simpa using List.take_prefix _ _
        | none =>
          obtain ⟨chunks, ⟨t, ht⟩, hl⟩ := ih (inbound.drop (min n bgpMinMsgLen))
            (Bgp.dataReceived parseBody handle st (inbound.take (min n bgpMinMsgLen)))
          refine ⟨inbound.take (min n bgpMinMsgLen) :: chunks, ⟨t, ?_⟩, hl⟩
          rw [List.flatten_cons, List.append_assoc, ht, List.take_append_drop]

end Call

end Ryu.Bgp
