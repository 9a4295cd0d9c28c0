import Mathlib.Data.List.Basic

/-! # Incremental framing of a stream

A framer cuts the first message off a buffer, or asks for more input. Cutting is
stable under further input, so draining a buffer and later draining what was kept
together with the next chunk yields the same messages as draining everything at
once. A consumer that may stop at a message sees a prefix of them.
-/

namespace Ryu

variable {α μ : Type*}

/-- A cut of the first message off a buffer that later input cannot change. -/
structure Framer (α μ : Type*) where
  next : List α → Option (μ × List α)
  next_append : ∀ {b : List α} {m : μ} {r : List α} (c : List α),
    next b = some (m, r) → next (b ++ c) = some (m, r ++ c)
  next_lt : ∀ {b : List α} {m : μ} {r : List α}, next b = some (m, r) → r.length < b.length

namespace Framer

variable (F : Framer α μ)

/-- Cut messages until the buffer holds none; the second component is what is kept. -/
def drain (b : List α) : List μ × List α :=
  match h : F.next b with
  | none => ([], b)
  | some (m, r) =>
    have := F.next_lt h
    (m :: (drain r).1, (drain r).2)
termination_by b.length

variable {F}

theorem drain_of_none {b : List α} (h : F.next b = none) : F.drain b = ([], b) := by
  rw [drain]
  split
  · rfl
  · next heq => rw [h] at heq; cases heq

theorem drain_of_some {b r : List α} {m : μ} (h : F.next b = some (m, r)) :
    F.drain b = (m :: (F.drain r).1, (F.drain r).2) := by
  rw [drain]
  split
  · next heq => rw [h] at heq; cases heq
  · next heq =>
    rw [h] at heq
    obtain ⟨rfl, rfl⟩ := Prod.mk.inj (Option.some.inj heq)
    rfl

/-- Induction along the cuts of a buffer. -/
theorem cut_induction {P : List α → Prop} (hn : ∀ b, F.next b = none → P b)
    (hs : ∀ b m r, F.next b = some (m, r) → P r → P b) (b : List α) : P b := by
  induction hl : b.length using Nat.strongRecOn generalizing b with
  | ind n ih =>
    cases hb : F.next b with
    | none => exact hn b hb
    | some p => exact hs b p.1 p.2 hb (ih _ (hl ▸ F.next_lt hb) _ rfl)

/-- Draining stops exactly where no further message can be cut. -/
theorem next_drain_snd (b : List α) : F.next (F.drain b).2 = none := by
  induction b using cut_induction (F := F) with
  | hn b h => rwa [drain_of_none h]
  | hs b m r h ih => rwa [drain_of_some h]

/-- Draining in two steps is draining at once. -/
theorem drain_append (b c : List α) :
    F.drain (b ++ c) =
      ((F.drain b).1 ++ (F.drain ((F.drain b).2 ++ c)).1,
        (F.drain ((F.drain b).2 ++ c)).2) := by
  induction b using cut_induction (F := F) with
  | hn b h => simp [drain_of_none h]
  | hs b m r h ih => simp [drain_of_some h, drain_of_some (F.next_append c h), ih]

/-- If every cut message stands for the bytes it was cut from, draining loses none. -/
theorem flatMap_drain {bytes : μ → List α}
    (hb : ∀ b m r, F.next b = some (m, r) → b = bytes m ++ r) (b : List α) :
    (F.drain b).1.flatMap bytes ++ (F.drain b).2 = b := by
  induction b using cut_induction (F := F) with
  | hn b h => simp [drain_of_none h]
  | hs b m r h ih =>
    rw [drain_of_some h, List.flatMap_cons, List.append_assoc, ih]
    exact (hb b m r h).symm

end Framer

/-- The messages a consumer takes when it stops right after the first one that,
with everything taken before it, satisfies `stop`. -/
def takeThrough (stop : List μ → Bool) (done : List μ) : List μ → List μ
  | [] => []
  | m :: ms => if stop (done ++ [m]) then [m] else m :: takeThrough stop (done ++ [m]) ms

/-- Whether such a consumer stops within the given messages. -/
def stopsWithin (stop : List μ → Bool) (done : List μ) : List μ → Bool
  | [] => false
  | m :: ms => stop (done ++ [m]) || stopsWithin stop (done ++ [m]) ms

variable {stop : List μ → Bool} {done : List μ}

theorem takeThrough_of_not_stopsWithin {ms : List μ} (h : stopsWithin stop done ms = false) :
    takeThrough stop done ms = ms := by
  induction ms generalizing done with
  | nil => rfl
  | cons m ms ih =>
    obtain ⟨hm, hms⟩ := Bool.or_eq_false_iff.mp h
    simp [takeThrough, hm, ih hms]

theorem takeThrough_append_of_stops {ms : List μ} (h : stopsWithin stop done ms = true)
    (ms' : List μ) : takeThrough stop done (ms ++ ms') = takeThrough stop done ms := by
  induction ms generalizing done with
  | nil => cases h
  | cons m ms ih =>
    by_cases hm : stop (done ++ [m]) = true
    · simp [takeThrough, hm]
    · have hms : stopsWithin stop (done ++ [m]) ms = true := by
        simpa [stopsWithin, hm] using h
      simp [takeThrough, hm, ih hms]

theorem takeThrough_append {ms : List μ} (h : stopsWithin stop done ms = false)
    (ms' : List μ) :
    takeThrough stop done (ms ++ ms') = ms ++ takeThrough stop (done ++ ms) ms' := by
  induction ms generalizing done with
  | nil => simp
  | cons m ms ih =>
    obtain ⟨hm, hms⟩ := Bool.or_eq_false_iff.mp h
    simp [takeThrough, hm, ih hms]

theorem stopsWithin_append (ms ms' : List μ) :
    stopsWithin stop done (ms ++ ms') =
      (stopsWithin stop done ms || stopsWithin stop (done ++ ms) ms') := by
  induction ms generalizing done with
  | nil => simp [stopsWithin]
  | cons m ms ih => simp [stopsWithin, ih, Bool.or_assoc]

/-- A consumer that stops does so at a message that makes it stop. -/
theorem stop_takeThrough {ms : List μ} (h : stopsWithin stop done ms = true) :
    stop (done ++ takeThrough stop done ms) = true := by
  induction ms generalizing done with
  | nil => cases h
  | cons m ms ih =>
    rcases Bool.eq_false_or_eq_true (stop (done ++ [m])) with hm | hm
    · simp [takeThrough, hm]
    · have hms : stopsWithin stop (done ++ [m]) ms = true := by
        simpa [stopsWithin, hm] using h
      have := ih hms
      rw [List.append_assoc] at this
      simpa [takeThrough, hm] using this

namespace Framer

variable {F : Framer α μ} {b : List α}

/-- A consumer that has not stopped goes on with what was kept and the next chunk. -/
theorem takeThrough_drain_append (h : stopsWithin stop [] (F.drain b).1 = false) (c : List α) :
    takeThrough stop [] (F.drain (b ++ c)).1 = (F.drain b).1 ++
      takeThrough stop (F.drain b).1 (F.drain ((F.drain b).2 ++ c)).1 := by
  rw [drain_append, takeThrough_append h, List.nil_append]

theorem stopsWithin_drain_append (h : stopsWithin stop [] (F.drain b).1 = false) (c : List α) :
    stopsWithin stop [] (F.drain (b ++ c)).1 =
      stopsWithin stop (F.drain b).1 (F.drain ((F.drain b).2 ++ c)).1 := by
  rw [drain_append, stopsWithin_append, h, Bool.false_or, List.nil_append]

/-- A consumer that has stopped is not reached by further input. -/
theorem takeThrough_drain_of_stops (h : stopsWithin stop [] (F.drain b).1 = true) (c : List α) :
    takeThrough stop [] (F.drain (b ++ c)).1 = takeThrough stop [] (F.drain b).1 := by
  rw [drain_append, takeThrough_append_of_stops h]

theorem stopsWithin_drain_of_stops (h : stopsWithin stop [] (F.drain b).1 = true) (c : List α) :
    stopsWithin stop [] (F.drain (b ++ c)).1 = true := by
  rw [drain_append, stopsWithin_append, h, Bool.true_or]

end Framer

end Ryu
