import Ryu.Bgp.UpdateMessage

/-! # What earlier messages leave behind

The only attribute of a class that parsing or serializing sets is the format of AGGREGATOR. Once
a value of eight octets has been parsed, values of six octets are no longer accepted, and those of
two-octet AS numbers are sent with eight. Without such a value nothing depends on what was parsed
or serialized before.
-/

namespace Ryu.Bgp.Wire

open Bytes

section Model

variable {V M : Type}

/-- What is done with a message. -/
inductive Operation (V M : Type)
  | parse (buf : List UInt8)
  | serialize (m : BGPMessage V M)

variable (c : AddrConv) (o : OtherAttrs V) (om : OtherMessages M)

/-- The format of the class of AGGREGATOR after an operation. -/
def Operation.leaves (p : AggregatorPackStr) : Operation V M → AggregatorPackStr
  | .parse buf => (BGPMessage.parser c o om p buf).2
  | .serialize _ => p

def classAfter (history : List (Operation V M)) : AggregatorPackStr :=
  history.foldl (Operation.leaves c o om) .twoOctet

/-- What is parsed of any message, and sent for any message, is the same as in a fresh process. -/
structure Independent (history : List (Operation V M)) : Prop where
  parse : ∀ buf, (BGPMessage.parser c o om (classAfter c o om history) buf).1 =
    (BGPMessage.parser c o om .twoOctet buf).1
  serialize : ∀ m, BGPMessage.serialize c o om (classAfter c o om history) m =
    BGPMessage.serialize c o om .twoOctet m

/-- An AGGREGATOR with a value of eight octets. -/
def FourOctetAggregator (buf : List UInt8) : Prop :=
  ∃ flags type length value rest,
    PathAttribute.frame buf = .ok ((flags, type, length, value), rest) ∧
      AttrClass.lookupType type = .aggregator ∧ value.length = 8

/-- An UPDATE, complete and with withdrawn routes that are parsed, among whose attributes there
is an AGGREGATOR of eight octets that is reached without an exception. -/
structure HasFourOctet (buf : List UInt8) (x : Framed) (y : Sections) : Prop where
  framed : Framed.read buf = .ok x
  update : x.type = bgpMsgUpdate
  sections : Sections.read x.binmsg = .ok y
  routes : ((routeDecoder c).readAll y.binroutes).isOk = true
  reached : (attributeDecoder c o).ComesTo FourOctetAggregator .twoOctet y.binpathattrs

end Model

section Class

variable {V M : Type} {c : AddrConv} {o : OtherAttrs V} {om : OtherMessages M}
variable {p : AggregatorPackStr} {buf : List UInt8}

theorem AggregatorPackStr.eq_or_eq (p : AggregatorPackStr) : p = .twoOctet ∨ p = .fourOctet := by
  cases p <;> simp

theorem parser_class (p : AggregatorPackStr) (buf : List UInt8) :
    (PathAttribute.parser c o p buf).2 = .fourOctet ↔
      p = .fourOctet ∨ FourOctetAggregator buf := by
  unfold PathAttribute.parser FourOctetAggregator
  split
  · next e he => simp [he]
  · next flags type length value rest hframe =>
    simp only [AttrClass.packStrAfter, hframe]
    constructor
    · intro h
      split at h
      · next hagg => exact .inr ⟨flags, type, length, value, rest, rfl, hagg⟩
      · exact .inl h
    · rintro (rfl | ⟨_, _, _, _, _, heq, hagg⟩)
      · exact ite_self _
      · obtain ⟨hx, -⟩ := Prod.mk.inj (Except.ok.inj heq)
        cases hx
        exact if_pos hagg

theorem readAll_fourOctet (buf : List UInt8) :
    ((attributeDecoder c o).readAll .fourOctet buf).2 = .fourOctet :=
  StateDecoder.readAll_state (fun b => (parser_class .fourOctet b).mpr (.inl rfl)) buf

/-- After a round that has changed the class it stays changed. -/
theorem readAll_turned (h : (PathAttribute.parser c o p buf).2 = .fourOctet) (hb : buf ≠ []) :
    ((attributeDecoder c o).readAll p buf).2 = .fourOctet := by
  match hr : PathAttribute.parser c o p buf with
  | (.error e, p') =>
    rw [hr] at h
    obtain rfl : p' = .fourOctet := h
    rw [StateDecoder.readAll_error hb hr]
  | (.ok (a, r), p') =>
    rw [hr] at h
    obtain rfl : p' = .fourOctet := h
    rw [StateDecoder.readAll_ok hr]
    exact readAll_fourOctet r

theorem comesTo_of_readAll (h : ((attributeDecoder c o).readAll .twoOctet buf).2 = .fourOctet) :
    (attributeDecoder c o).ComesTo FourOctetAggregator .twoOctet buf := by
  induction hn : buf.length using Nat.strong_induction_on generalizing buf with
  | h n ih =>
    have hb : buf ≠ [] := by
      rintro rfl
      cases h
    rcases AggregatorPackStr.eq_or_eq (PathAttribute.parser c o .twoOctet buf).2 with htwo | hfour
    · match hr : PathAttribute.parser c o .twoOctet buf with
      | (.error e, p') =>
        rw [hr] at htwo
        obtain rfl : p' = .twoOctet := htwo
        rw [StateDecoder.readAll_error hb hr] at h
        cases h
      | (.ok (a, r), p') =>
        rw [hr] at htwo
        obtain rfl : p' = .twoOctet := htwo
        rw [StateDecoder.readAll_ok hr] at h
        exact .later hr (ih r.length (hn ▸ (attributeDecoder c o).read_lt hr) h rfl)
    · rcases (parser_class .twoOctet buf).mp hfour with htwo | hagg
      · cases htwo
      · exact .here hagg

theorem readAll_of_comesTo (h : (attributeDecoder c o).ComesTo FourOctetAggregator p buf) :
    ((attributeDecoder c o).readAll p buf).2 = .fourOctet := by
  induction h with
  | here hagg =>
    refine readAll_turned ((parser_class _ _).mpr (.inr hagg)) ?_
    rintro rfl
    obtain ⟨_, _, _, _, _, hframe, -⟩ := hagg
    cases hframe
  | later hr _ ih =>
    rw [StateDecoder.readAll_ok hr]
    exact ih

/-- The class is changed by the first AGGREGATOR of eight octets, if it is reached. -/
theorem readAll_class (buf : List UInt8) :
    ((attributeDecoder c o).readAll .twoOctet buf).2 = .fourOctet ↔
      (attributeDecoder c o).ComesTo FourOctetAggregator .twoOctet buf :=
  ⟨comesTo_of_readAll, readAll_of_comesTo⟩

theorem update_class (p : AggregatorPackStr) (buf : List UInt8) :
    (BGPUpdate.parser c o p buf).2 = .fourOctet ↔ p = .fourOctet ∨
      ∃ y, Sections.read buf = .ok y ∧ ((routeDecoder c).readAll y.binroutes).isOk = true ∧
        (attributeDecoder c o).ComesTo FourOctetAggregator .twoOctet y.binpathattrs := by
  have hsame : ∀ y : Sections, ((attributeDecoder c o).readAll p y.binpathattrs).2 = .fourOctet ↔
      p = .fourOctet ∨ (attributeDecoder c o).ComesTo FourOctetAggregator .twoOctet
        y.binpathattrs := by
    intro y
    cases p with
    | twoOctet => simp [readAll_class]
    | fourOctet => simp [readAll_fourOctet]
  unfold BGPUpdate.parser
  split
  · next he => simp [he]
  · next y hy =>
    simp only [hy, Except.ok.injEq, exists_eq_left']
    split
    · next hroutes => simp [hroutes]
    · next hroutes =>
      rw [hroutes]
      simp only [isOk_ok, true_and]
      rw [← hsame y]
      split
      · next hread => rw [hread]
      · next hread => rw [hread]

theorem message_class (p : AggregatorPackStr) (buf : List UInt8) :
    (BGPMessage.parser c o om p buf).2 = .fourOctet ↔
      p = .fourOctet ∨ ∃ x y, HasFourOctet c o buf x y := by
  have hiff : (∃ x y, HasFourOctet c o buf x y) ↔ ∃ x, Framed.read buf = .ok x ∧
      x.type = bgpMsgUpdate ∧ ∃ y, Sections.read x.binmsg = .ok y ∧
        ((routeDecoder c).readAll y.binroutes).isOk = true ∧
          (attributeDecoder c o).ComesTo FourOctetAggregator .twoOctet y.binpathattrs := by
    constructor
    · rintro ⟨x, y, h⟩
      exact ⟨x, h.framed, h.update, y, h.sections, h.routes, h.reached⟩
    · rintro ⟨x, hframed, hupdate, y, hsections, hroutes, hreached⟩
      exact ⟨x, y, hframed, hupdate, hsections, hroutes, hreached⟩
  rw [hiff]
  unfold BGPMessage.parser
  split
  · next he => simp [he]
  · next x hx =>
    simp only [hx, Except.ok.injEq, exists_eq_left']
    split
    · next htype =>
      simp only [htype, true_and]
      exact update_class p x.binmsg
    · next htype => simp [htype]

theorem classAfter_iff (history : List (Operation V M)) :
    classAfter c o om history = .fourOctet ↔
      ∃ buf, Operation.parse buf ∈ history ∧ ∃ x y, HasFourOctet c o buf x y := by
  have hrun : ∀ p, history.foldl (Operation.leaves c o om) p = .fourOctet ↔ p = .fourOctet ∨
      ∃ buf, Operation.parse buf ∈ history ∧ ∃ x y, HasFourOctet c o buf x y := by
    induction history with
    | nil => simp
    | cons op history ih =>
      intro p
      rw [List.foldl_cons, ih]
      cases op with
      | parse buf =>
        rw [Operation.leaves, message_class]
        constructor
        · rintro ((hp | hbuf) | ⟨buf', hmem, hbuf⟩)
          · exact .inl hp
          · exact .inr ⟨buf, List.mem_cons_self, hbuf⟩
          · exact .inr ⟨buf', List.mem_cons_of_mem _ hmem, hbuf⟩
        · rintro (hp | ⟨buf', hmem, hbuf⟩)
          · exact .inl (.inl hp)
          · rcases List.mem_cons.mp hmem with heq | hmem
            · obtain rfl := Operation.parse.inj heq
              exact .inl (.inr hbuf)
            · exact .inr ⟨buf', hmem, hbuf⟩
      | serialize m =>
        have hmem : ∀ buf, Operation.parse buf ∈ Operation.serialize m :: history ↔
            Operation.parse buf ∈ history := by
          intro buf
          simp
        simp only [Operation.leaves, hmem]
  rw [classAfter, hrun]
  simp

end Class

section History

variable {V M : Type}

/-- An UPDATE with an AGGREGATOR of six octets, and one with eight. -/
def sixOctetUpdate : List UInt8 :=
  bgpMarker ++ [0, 32, 2, 0, 0, 0, 9, 0xc0, 7, 6, 0xfd, 0xe8, 192, 0, 2, 1]

def eightOctetUpdate : List UInt8 :=
  bgpMarker ++ [0, 34, 2, 0, 0, 0, 11, 0xc0, 7, 8, 0, 0, 0xfd, 0xe8, 192, 0, 2, 1]

/-- After any sequence of messages parsed and serialized, what is parsed of each message and sent
for each message is the same as in a fresh process, if and only if no UPDATE that was parsed came
to an AGGREGATOR of eight octets. -/
theorem independent_iff (c : AddrConv) (o : OtherAttrs V) (om : OtherMessages M)
    (history : List (Operation V M)) :
    Independent c o om history ↔
      ∀ buf, Operation.parse buf ∈ history → ¬∃ x y, HasFourOctet c o buf x y := by
  constructor
  · intro h buf hmem hbuf
    have hfour : classAfter c o om history = .fourOctet :=
      (classAfter_iff history).mpr ⟨buf, hmem, hbuf⟩
    have hparse := h.parse sixOctetUpdate
    rw [hfour] at hparse
    have hfresh : (BGPMessage.parser c o om .twoOctet sixOctetUpdate).1.isOk = true := rfl
    have hlater : (BGPMessage.parser c o om .fourOctet sixOctetUpdate).1.isOk = false := rfl
    rw [hparse, hfresh] at hlater
    cases hlater
  · intro h
    have htwo : classAfter c o om history = .twoOctet := by
      rcases AggregatorPackStr.eq_or_eq (classAfter c o om history) with htwo | hfour
      · exact htwo
      · obtain ⟨buf, hmem, hbuf⟩ := (classAfter_iff history).mp hfour
        exact absurd hbuf (h buf hmem)
    exact ⟨fun buf => by rw [htwo], fun m => by rw [htwo]⟩

/-- One AGGREGATOR of a four-octet peer, and the next one of a two-octet peer is refused. -/
theorem eightOctet_dependent :
    ¬Independent plainConv noAttrs noMessages [.parse eightOctetUpdate] := by
  intro h
  have hparse := h.parse sixOctetUpdate
  revert hparse
  decide +kernel

end History

end Ryu.Bgp.Wire
