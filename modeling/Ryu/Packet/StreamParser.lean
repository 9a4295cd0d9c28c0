import Ryu.Bgp.StreamParser
import Ryu.Lib.Framing

/-! # Streaming parsers

`StreamParser` of any subclass. A queue that takes one octet at a time gives the messages of the
whole stream, however they are spread over the octets, since the subclass cuts a message off the
same way whatever is behind it. But a chunk is bytes, and bytes are appended to the queue as if
they were one octet.
-/

namespace Ryu.Packet

open Bgp.Wire (Data)

variable {μ : Type*}

/-- `try_parse` of a subclass, without a result where it raises `TooSmallException`. -/
abbrev TryParse (μ : Type*) := List UInt8 → Option (μ × List UInt8)

/-- `self._q.append(data)`. -/
def appendData (q : List UInt8) : Data → Except PyError (List UInt8)
  | .octet b => .ok (q ++ [b])
  | .bytes _ => .error (.typeError "an integer is required")

/-- The loop in `parse` takes messages off a queue until it is too small, and leaves the rest. -/
inductive Takes (tryParse : TryParse μ) : List UInt8 → List μ → List UInt8 → Prop
  | tooSmall {q : List UInt8} (h : tryParse q = none) : Takes tryParse q [] q
  | message {q r q' : List UInt8} {msg : μ} {msgs : List μ} (h : tryParse q = some (msg, r))
      (hr : Takes tryParse r msgs q') : Takes tryParse q (msg :: msgs) q'

/-- A call of `parse` returns the messages and leaves a queue. -/
def Parses (tryParse : TryParse μ) (q : List UInt8) (data : Data) (msgs : List μ)
    (q' : List UInt8) : Prop :=
  ∃ t, appendData q data = .ok t ∧ Takes tryParse t msgs q'

/-- Calls one after the other, none of which raises, and all the messages they return. -/
inductive Calls (tryParse : TryParse μ) : List UInt8 → List Data → List μ → List UInt8 → Prop
  | nil (q : List UInt8) : Calls tryParse q [] [] q
  | cons {q q' q'' : List UInt8} {data : Data} {chunks : List Data} {msgs msgs' : List μ}
      (h : Parses tryParse q data msgs q') (hrest : Calls tryParse q' chunks msgs' q'') :
      Calls tryParse q (data :: chunks) (msgs ++ msgs') q''

/-- No call raises, and the calls return the messages of the whole stream and keep what is left
of it. -/
def Streams (tryParse : TryParse μ) (chunks : List (List UInt8)) : Prop :=
  ∃ msgs q, Calls tryParse [] (chunks.map .bytes) msgs q ∧ Takes tryParse chunks.flatten msgs q

variable {tryParse : TryParse μ} {F : Framer UInt8 μ} {q : List UInt8}

theorem takes_drain (F : Framer UInt8 μ) (b : List UInt8) :
    Takes F.next b (F.drain b).1 (F.drain b).2 := by
  induction b using Framer.cut_induction (F := F) with
  | hn b h =>
    rw [Framer.drain_of_none h]
    exact .tooSmall h
  | hs b msg r h ih =>
    rw [Framer.drain_of_some h]
    exact .message h ih

theorem calls_octets_from (h : F.next q = none) (b : List UInt8) :
    Calls F.next q (b.map .octet) (F.drain (q ++ b)).1 (F.drain (q ++ b)).2 := by
  induction b generalizing q with
  | nil =>
    rw [List.append_nil, Framer.drain_of_none h]
    exact .nil q
  | cons x b ih =>
    have hsplit : q ++ x :: b = (q ++ [x]) ++ b := by simp
    have hrest := ih (Framer.next_drain_snd (F := F) (q ++ [x]))
    rw [hsplit, Framer.drain_append]
    exact .cons ⟨q ++ [x], rfl, takes_drain F (q ++ [x])⟩ hrest

/-- Octet by octet the messages are those of the whole stream. -/
theorem calls_octets (F : Framer UInt8 μ) (b : List UInt8) :
    Calls F.next [] (b.map .octet) (F.drain b).1 (F.drain b).2 ∧
      Takes F.next b (F.drain b).1 (F.drain b).2 := by
  have hnil : F.next [] = none := by
    cases h : F.next [] with
    | none => rfl
    | some x => exact absurd (F.next_lt (m := x.1) (r := x.2) h) (Nat.not_lt_zero _)
  exact ⟨calls_octets_from hnil b, takes_drain F b⟩

theorem takes_nil_iff {q' : List UInt8} :
    Takes tryParse q [] q' ↔ tryParse q = none ∧ q' = q := by
  constructor
  · intro h
    cases h with
    | tooSmall h => exact ⟨h, rfl⟩
  · rintro ⟨h, rfl⟩
    exact .tooSmall h

/-- No call returns that is given bytes. -/
theorem not_parses_bytes {data q' : List UInt8} {msgs : List μ} :
    ¬ Parses tryParse q (.bytes data) msgs q' := by
  rintro ⟨t, ht, -⟩
  cases ht

/-- Given chunks of bytes, the messages of a stream are returned only if there is no chunk and
nothing is taken off an empty queue. -/
theorem streams_iff (tryParse : TryParse μ) (chunks : List (List UInt8)) :
    Streams tryParse chunks ↔ chunks = [] ∧ tryParse [] = none := by
  constructor
  · rintro ⟨msgs, q, hcalls, htakes⟩
    cases chunks with
    | nil =>
      cases hcalls with
      | nil => exact ⟨rfl, (takes_nil_iff.1 htakes).1⟩
    | cons chunk chunks =>
      cases hcalls with
      | cons h hrest => exact absurd h not_parses_bytes
  · rintro ⟨rfl, h⟩
    exact ⟨[], [], .nil [], .tooSmall h⟩

/-- Messages of one octet. -/
def octetFramer : Framer UInt8 UInt8 where
  next
    | [] => none
    | b :: r => some (b, r)
  next_append {b m r} c h := by
    cases b with
    | nil => cases h
    | cons x b =>
      obtain ⟨rfl, rfl⟩ := Prod.mk.inj (Option.some.inj h)
      rfl
  next_lt {b m r} h := by
    cases b with
    | nil => cases h
    | cons x b =>
      obtain ⟨rfl, rfl⟩ := Prod.mk.inj (Option.some.inj h)
      exact Nat.lt_succ_self _

theorem not_streams_octets : ¬ ∀ (F : Framer UInt8 UInt8) (chunks : List (List UInt8)),
    Streams F.next chunks := by
  intro h
  obtain ⟨msgs, q, hcalls, -⟩ := h octetFramer [[1]]
  cases hcalls with
  | cons h hrest => exact absurd h not_parses_bytes

end Ryu.Packet
