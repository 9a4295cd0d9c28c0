import Ryu.Bgp.OptParam
import Ryu.Bgp.UpdateMessage

/-! # The streaming parser of BGP messages

`StreamParser.parse` takes messages off its queue until the queue is too small for the next. A
message is as long as its header says, whatever that is, so that the loop goes on as long as
every message it takes is one of at least a header. The parsers of the bodies see to it, but for
that of a KEEPALIVE, which looks at nothing.
-/

namespace Ryu.Bgp.Wire

open Bytes

section Messages

def bgpMsgOpen : ℕ := 1
def bgpMsgNotification : ℕ := 3
def bgpMsgKeepalive : ℕ := 4
def bgpMsgRouteRefresh : ℕ := 5

variable (c : AddrConv)

/-- `BGPOpen`, beside the header. -/
structure BGPOpen where
  version : ℕ
  myAs : ℕ
  holdTime : ℕ
  bgpIdentifier : Text
  optParamLen : ℕ
  optParam : List OptParam
  deriving DecidableEq, Repr

/-- `BGPOpen.parser`. -/
def BGPOpen.parser (buf : List UInt8) : Except PyError BGPOpen :=
  match Format.unpackFrom [.num 1, .num 2, .num 2, .str 4, .num 1] buf with
  | .error e => .error e
  | .ok (version, myAs, holdTime, bgpIdentifier, optParamLen, _) =>
    (parseOptParams ((buf.drop 10).take optParamLen)).map fun optParam =>
      ⟨version, myAs, holdTime, c.binToText .ipv4 (ofBytes bgpIdentifier), optParamLen, optParam⟩

/-- The messages other than UPDATE. -/
inductive OtherMessage
  | openMsg (m : BGPOpen)
  | notification (errorCode errorSubcode : ℕ) (data : List UInt8)
  | keepAlive
  | routeRefresh (afi safi demarcation : ℕ)
  deriving DecidableEq, Repr

/-- The `parser` of the class of a message. None is registered for other types. -/
def OtherMessage.parser (type : ℕ) (buf : List UInt8) : Except PyError OtherMessage :=
  match type with
  | 1 => (BGPOpen.parser c buf).map .openMsg
  | 3 => (Format.unpackFrom [.num 1, .num 1] buf).map fun v =>
    .notification v.1 v.2.1 (buf.drop 2)
  | 4 => .ok .keepAlive
  | 5 => (Format.unpackFrom [.num 2, .num 1, .num 1] buf).map fun v =>
    .routeRefresh v.1 v.2.2.1 v.2.1
  | _ => .error (.attributeError "parser")

end Messages

section Model

variable {V M : Type} (c : AddrConv) (o : OtherAttrs V) (om : OtherMessages M)

/-- The instance variable `_q`, and the class variable of AGGREGATOR that parsing may change. -/
structure StreamParser where
  q : List UInt8
  packStr : AggregatorPackStr
  deriving DecidableEq

/-- What `parse` is given: one octet, as an iteration over bytes yields them, or bytes. -/
inductive Data
  | octet (b : UInt8)
  | bytes (data : List UInt8)
  deriving DecidableEq, Repr

/-- `try_parse`. -/
def StreamParser.tryParse (s : StreamParser) :
    Except PyError (BGPMessage V M × List UInt8) × AggregatorPackStr :=
  BGPMessage.parser c o om s.packStr s.q

/-- At most `n` rounds of the loop in `parse`, without a result if they do not do. -/
def StreamParser.rounds : ℕ → StreamParser →
    Option (Except PyError (List (BGPMessage V M)) × StreamParser)
  | 0, _ => none
  | n + 1, s =>
    match s.tryParse c o om with
    | (.error e, packStr) =>
      some (if e = tooSmall then .ok [] else .error e, { s with packStr := packStr })
    | (.ok (msg, rest), packStr) =>
      (rounds n ⟨rest, packStr⟩).map fun x => (x.1.map (msg :: ·), x.2)

/-- `self._q.append(data)`: a `bytearray` takes one octet. -/
def StreamParser.append (s : StreamParser) : Data → Except PyError StreamParser
  | .octet b => .ok { s with q := s.q ++ [b] }
  | .bytes _ => .error (.typeError "an integer is required")

/-- A call of `parse` returns or raises, and leaves the parser in a state. -/
def StreamParser.Parse (s : StreamParser) (data : Data) (s' : StreamParser) : Prop :=
  match s.append data with
  | .error _ => s' = s
  | .ok t => ∃ n r, t.rounds c o om n = some (r, s')

/-- The rounds of the loop from a state. -/
inductive StreamParser.Tries (t : StreamParser) : StreamParser → Prop
  | start : Tries t t
  | round {u : StreamParser} {msg : BGPMessage V M} {rest : List UInt8}
      {packStr : AggregatorPackStr} (h : Tries t u)
      (hu : u.tryParse c o om = (.ok (msg, rest), packStr)) : Tries t ⟨rest, packStr⟩

/-- Calls of `parse` one after the other, all of which end. -/
inductive StreamParser.Run : StreamParser → List Data → StreamParser → Prop
  | nil (s : StreamParser) : Run s [] s
  | cons {s s' s'' : StreamParser} {data : Data} {chunks : List Data}
      (h : s.Parse c o om data s') (hrun : Run s' chunks s'') : Run s (data :: chunks) s''

/-- Where `try_parse` is called as the chunks are parsed from a state. -/
def StreamParser.ComesTo (s : StreamParser) (chunks : List Data) (u : StreamParser) : Prop :=
  ∃ before data behind s' t, chunks = before ++ data :: behind ∧ s.Run c o om before s' ∧
    s'.append data = .ok t ∧ t.Tries c o om u

/-- The queue begins with a complete KEEPALIVE of less than a header. -/
def ShortKeepAlive (q : List UInt8) : Prop :=
  ∃ x, Framed.read q = .ok x ∧ x.type = bgpMsgKeepalive ∧ x.len < bgpHdrLen

/-- The other messages are the four classes of them, whatever they are serialized to. -/
def otherClasses (serializeTail : OtherMessage → Except PyError (List UInt8 × OtherMessage)) :
    OtherMessages OtherMessage where
  parser := OtherMessage.parser c
  serializeTail := serializeTail

end Model

section Rounds

variable {V : Type} {c : AddrConv} {o : OtherAttrs V}
  {w : OtherMessage → Except PyError (List UInt8 × OtherMessage)}
  {s s' t u : StreamParser} {data : Data} {chunks : List Data} {x : Framed} {q rest : List UInt8}
  {msg : BGPMessage V OtherMessage} {packStr : AggregatorPackStr}

theorem framed_read (h : Framed.read q = .ok x) :
    bgpHdrLen ≤ q.length ∧ x.len ≤ q.length ∧ x.binmsg = (q.take x.len).drop bgpHdrLen ∧
      x.rest = q.drop x.len := by
  rw [Framed.read] at h
  split at h
  · cases h
  · next hhdr =>
    split at h
    · cases h
    · split at h
      · cases h
      · next hlen =>
        obtain rfl := Except.ok.inj h
        exact ⟨Nat.le_of_not_lt hhdr, Nat.le_of_not_lt hlen, rfl, rfl⟩

/-- Without a body only a KEEPALIVE is accepted. -/
theorem parser_nil {type : ℕ} {m : OtherMessage} (h : OtherMessage.parser c type [] = .ok m) :
    type = bgpMsgKeepalive := by
  unfold OtherMessage.parser at h
  split at h
  · cases h
  · cases h
  · rfl
  · cases h
  · cases h

/-- What a round takes off the queue is as long as the header says, and is a KEEPALIVE if that is
less than a header. -/
theorem tryParse_ok (h : s.tryParse c o (otherClasses c w) = (.ok (msg, rest), packStr)) :
    ∃ x, Framed.read s.q = .ok x ∧ rest = s.q.drop x.len ∧
      (x.len < bgpHdrLen → x.type = bgpMsgKeepalive) := by
  unfold StreamParser.tryParse BGPMessage.parser at h
  split at h
  · cases (Prod.mk.inj h).1
  · next x hx =>
    obtain ⟨-, -, hbin, hrest⟩ := framed_read hx
    refine ⟨x, hx, ?_, ?_⟩
    · split at h
      · obtain ⟨_, -, hm⟩ := map_eq_ok.1 (Prod.mk.inj h).1
        rw [← hrest]
        exact (Prod.mk.inj hm).2.symm
      · obtain ⟨_, -, hm⟩ := map_eq_ok.1 (Prod.mk.inj h).1
        rw [← hrest]
        exact (Prod.mk.inj hm).2.symm
    · intro hlt
      have hnil : x.binmsg = [] := by
        rw [hbin, List.drop_eq_nil_iff, List.length_take]
        omega
      rw [hnil] at h
      split at h
      · obtain ⟨_, hu, -⟩ := map_eq_ok.1 (Prod.mk.inj h).1
        cases hu
      · obtain ⟨m, hm, -⟩ := map_eq_ok.1 (Prod.mk.inj h).1
        exact parser_nil hm

/-- A short KEEPALIVE is taken, with less than a header. -/
theorem tryParse_short (h : ShortKeepAlive s.q) :
    ∃ x msg, Framed.read s.q = .ok x ∧ x.len < bgpHdrLen ∧
      s.tryParse c o (otherClasses c w) = (.ok (msg, s.q.drop x.len), s.packStr) := by
  obtain ⟨x, hx, htype, hlt⟩ := h
  obtain ⟨-, -, -, hrest⟩ := framed_read hx
  have hne : ¬x.type = bgpMsgUpdate := by
    rw [htype]
    decide
  have hm : OtherMessage.parser c x.type x.binmsg = .ok .keepAlive := by
    rw [htype]
    rfl
  refine ⟨x, ⟨x.marker, some x.len, x.type, .other .keepAlive⟩, hx, hlt, ?_⟩
  unfold StreamParser.tryParse BGPMessage.parser
  simp only [hx, if_neg hne, otherClasses, hm, ← hrest]
  rfl

/-- A round takes at least a header exactly if the queue does not begin with a short KEEPALIVE. -/
theorem takes_iff (h : s.tryParse c o (otherClasses c w) = (.ok (msg, rest), packStr)) :
    rest.length + bgpHdrLen ≤ s.q.length ↔ ¬ShortKeepAlive s.q := by
  obtain ⟨x, hx, rfl, hshort⟩ := tryParse_ok h
  obtain ⟨hq, hlen, -, -⟩ := framed_read hx
  rw [List.length_drop]
  constructor
  · rintro hle ⟨y, hy, -, hlt⟩
    obtain rfl := Except.ok.inj (hx.symm.trans hy)
    omega
  · intro hn
    have hge : ¬x.len < bgpHdrLen := fun hlt => hn ⟨x, hx, hshort hlt, hlt⟩
    omega

theorem StreamParser.Tries.head
    (h : t.tryParse c o (otherClasses c w) = (.ok (msg, rest), packStr))
    (hu : Tries c o (otherClasses c w) ⟨rest, packStr⟩ u) : t.Tries c o (otherClasses c w) u := by
  induction hu with
  | start => exact .round .start h
  | round _ hu ih => exact .round ih hu

/-- The loop ends if no round meets a short KEEPALIVE: the queue gets shorter with each. -/
theorem rounds_end (h : ∀ u, t.Tries c o (otherClasses c w) u → ¬ShortKeepAlive u.q) :
    ∃ n r s', t.rounds c o (otherClasses c w) n = some (r, s') := by
  induction hn : t.q.length using Nat.strongRecOn generalizing t with
  | ind n ih =>
    subst hn
    rcases htry : t.tryParse c o (otherClasses c w) with ⟨e | ⟨msg, rest⟩, packStr⟩
    · refine ⟨1, if e = tooSmall then .ok [] else .error e, { t with packStr := packStr }, ?_⟩
      rw [StreamParser.rounds, htry]
    · have htakes := (takes_iff htry).mpr (h t .start)
      have hpos : 0 < bgpHdrLen := by decide
      obtain ⟨m, r, s', hm⟩ :=
        ih rest.length (by omega) (t := ⟨rest, packStr⟩) (fun u hu => h u (hu.head htry)) rfl
      refine ⟨m + 1, r.map (msg :: ·), s', ?_⟩
      rw [StreamParser.rounds, htry]
      simp only [hm, Option.map_some]

end Rounds

section Runs

variable {V : Type} {c : AddrConv} {o : OtherAttrs V}
  {w : OtherMessage → Except PyError (List UInt8 × OtherMessage)}
  {s s' t u : StreamParser} {data : Data} {chunks : List Data}

theorem StreamParser.ComesTo.first (hs : s.append data = .ok t)
    (hu : t.Tries c o (otherClasses c w) u) : s.ComesTo c o (otherClasses c w) (data :: chunks) u :=
  ⟨[], data, chunks, s, t, rfl, .nil s, hs, hu⟩

theorem StreamParser.ComesTo.later (h : s.Parse c o (otherClasses c w) data s')
    (hu : s'.ComesTo c o (otherClasses c w) chunks u) :
    s.ComesTo c o (otherClasses c w) (data :: chunks) u := by
  obtain ⟨before, data', behind, s'', t, rfl, hrun, ht, hu⟩ := hu
  exact ⟨data :: before, data', behind, s'', t, rfl, .cons h hrun, ht, hu⟩

/-- The calls of `parse` end if none of their rounds meets a short KEEPALIVE. -/
theorem run_ends (h : ∀ u, s.ComesTo c o (otherClasses c w) chunks u → ¬ShortKeepAlive u.q) :
    ∃ s', s.Run c o (otherClasses c w) chunks s' := by
  induction chunks generalizing s with
  | nil => exact ⟨s, .nil s⟩
  | cons data chunks ih =>
    have hparse : ∃ s', s.Parse c o (otherClasses c w) data s' := by
      cases hs : s.append data with
      | error e =>
        refine ⟨s, ?_⟩
        rw [StreamParser.Parse, hs]
      | ok t =>
        obtain ⟨n, r, s', hn⟩ := rounds_end fun u hu => h u (.first hs hu)
        refine ⟨s', ?_⟩
        rw [StreamParser.Parse, hs]
        exact ⟨n, r, hn⟩
    obtain ⟨s', hs'⟩ := hparse
    obtain ⟨s'', hrun⟩ := ih fun u hu => h u (hu.later hs')
    exact ⟨s'', .cons hs' hrun⟩

/-- A round that takes nothing is made again and again. -/
theorem rounds_of_empty {msg : BGPMessage V OtherMessage}
    (h : s.tryParse c o (otherClasses c w) = (.ok (msg, s.q), s.packStr)) (n : ℕ) :
    s.rounds c o (otherClasses c w) n = none := by
  induction n with
  | zero => rfl
  | succ n ih =>
    rw [StreamParser.rounds, h]
    simp only [ih, Option.map_none]

/-- While there is less than a header, the octets are kept. -/
theorem parse_small {b : UInt8} (hq : s.q.length + 1 < bgpHdrLen)
    (h : s.Parse c o (otherClasses c w) (.octet b) s') : s' = ⟨s.q ++ [b], s.packStr⟩ := by
  obtain ⟨n, r, hn⟩ := h
  cases n with
  | zero => cases hn
  | succ n =>
    have hlt : (s.q ++ [b]).length < bgpHdrLen := by simpa using hq
    have htry : StreamParser.tryParse c o (otherClasses c w) ⟨s.q ++ [b], s.packStr⟩ =
        (.error tooSmall, s.packStr) := by
      unfold StreamParser.tryParse BGPMessage.parser Framed.read
      rw [if_pos hlt]
    rw [StreamParser.rounds, htry] at hn
    exact (Prod.mk.inj (Option.some.inj hn)).2.symm

theorem run_small {l : List UInt8} (hq : s.q.length + l.length < bgpHdrLen)
    (h : s.Run c o (otherClasses c w) (l.map .octet ++ chunks) s') :
    StreamParser.Run c o (otherClasses c w) ⟨s.q ++ l, s.packStr⟩ chunks s' := by
  induction l generalizing s with
  | nil => rwa [List.append_nil]
  | cons b l ih =>
    rw [List.length_cons] at hq
    cases h with
    | cons hparse hrun =>
      obtain rfl := parse_small (by omega) hparse
      have hrest := ih (by simp only [List.length_append, List.length_singleton]; omega) hrun
      rwa [List.append_assoc] at hrest

end Runs

section Claims

variable {V : Type}

/-- Whatever chunks a stream is parsed in, all calls end and every message takes at least a
header exactly if no round meets a short KEEPALIVE. -/
theorem run_ends_iff (c : AddrConv) (o : OtherAttrs V)
    (w : OtherMessage → Except PyError (List UInt8 × OtherMessage)) (s : StreamParser)
    (chunks : List Data) :
    ((∃ s', s.Run c o (otherClasses c w) chunks s') ∧
      ∀ u, s.ComesTo c o (otherClasses c w) chunks u → ∀ msg rest packStr,
        u.tryParse c o (otherClasses c w) = (.ok (msg, rest), packStr) →
          rest.length + bgpHdrLen ≤ u.q.length) ↔
      ∀ u, s.ComesTo c o (otherClasses c w) chunks u → ¬ShortKeepAlive u.q := by
  constructor
  · rintro ⟨-, htakes⟩ u hu hshort
    obtain ⟨x, msg, -, -, htry⟩ := tryParse_short (c := c) (o := o) (w := w) hshort
    exact (takes_iff htry).mp (htakes u hu _ _ _ htry) hshort
  · intro h
    exact ⟨run_ends h, fun u hu msg rest packStr htry => (takes_iff htry).mpr (h u hu)⟩

/-- A KEEPALIVE whose length field is zero is taken again and again. -/
theorem not_run_zeroLength :
    ¬∃ s', StreamParser.Run plainConv noAttrs
      (otherClasses plainConv fun _ => .error structError) ⟨[], .twoOctet⟩
      ((bgpMarker ++ [0, 0]).map .octet ++ [.octet 4]) s' := by
  rintro ⟨s', h⟩
  have hlast := run_small (by decide) h
  cases hlast with
  | cons hparse _ =>
    obtain ⟨n, r, hn⟩ := hparse
    have htry : StreamParser.tryParse plainConv noAttrs
        (otherClasses plainConv fun _ => .error structError)
        ⟨bgpMarker ++ [0, 0] ++ [4], .twoOctet⟩ =
          (.ok (⟨bgpMarker, some 0, 4, .other .keepAlive⟩, bgpMarker ++ [0, 0] ++ [4]),
            .twoOctet) := rfl
    cases (rounds_of_empty htry n).symm.trans hn

end Claims

end Ryu.Bgp.Wire
