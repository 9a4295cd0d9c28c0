import Mathlib.Data.List.Basic
import Mathlib.Tactic.TypeStar

/-! # Maps kept by messages

A message says of a key that it has a value, that it has none, or nothing. After a sequence
of messages each key has what the last message that spoke of it said. Where only some of the
messages are handled, the map is the same exactly if what was not handled and not spoken of
again agrees with what was handled before it.
-/

namespace Ryu

variable {μ κ ν : Type*} (tells : μ → κ → Option (Option ν))

/-- The map after the messages, from a map. -/
def replay (f : κ → Option ν) (l : List μ) : κ → Option ν :=
  l.foldl (fun f m k => (tells m k).getD (f k)) f

/-- None of the messages speaks of the key. -/
def Silent (l : List μ) (k : κ) : Prop := ∀ m ∈ l, tells m k = none

variable {tells} {f g : κ → Option ν} {l l' : List μ} {m : μ} {k : κ} {v : Option ν}

@[simp] theorem replay_nil : replay tells f [] = f := rfl

theorem replay_cons :
    replay tells f (m :: l) = replay tells (fun k => (tells m k).getD (f k)) l := rfl

theorem replay_append : replay tells f (l ++ l') = replay tells (replay tells f l) l' :=
  List.foldl_append

theorem replay_concat : replay tells f (l ++ [m]) k = (tells m k).getD (replay tells f l k) := by
  rw [replay_append]
  rfl

theorem replay_of_silent (h : Silent tells l k) : replay tells f l k = f k := by
  induction l generalizing f with
  | nil => rfl
  | cons m l ih =>
    rw [replay_cons, ih fun m' hm' => h m' (List.mem_cons_of_mem m hm'), h m List.mem_cons_self]
    rfl

/-- The last message that speaks of a key decides. -/
theorem replay_of_tells (hm : tells m k = some v) (hl : Silent tells l' k) :
    replay tells f (l ++ m :: l') k = v := by
  rw [replay_append, replay_cons, replay_of_silent hl, hm]
  rfl

theorem silent_or_tells (tells : μ → κ → Option (Option ν)) (l : List μ) (k : κ) :
    Silent tells l k ∨ ∃ a m b v, l = a ++ m :: b ∧ tells m k = some v ∧ Silent tells b k := by
  induction l with
  | nil => exact .inl fun m hm => absurd hm List.not_mem_nil
  | cons m l ih =>
    rcases ih with hs | ⟨a, m', b, v, rfl, hm, hb⟩
    · rcases hv : tells m k with _ | v
      · left
        intro m' hm'
        rcases List.mem_cons.mp hm' with rfl | hm'
        · exact hv
        · exact hs m' hm'
      · exact .inr ⟨[], m, l, v, rfl, hv, hs⟩
    · exact .inr ⟨m :: a, m', b, v, rfl, hm, hb⟩

theorem Silent.sublist (h : Silent tells l k) (hl : l'.Sublist l) : Silent tells l' k :=
  fun m hm => h m (hl.subset hm)

/-- Dropping messages leaves a key as it is exactly if the last message about it, when it is
dropped, tells what is known without it. -/
theorem replay_filter_iff (p : μ → Bool) :
    replay tells f (l.filter p) k = replay tells f l k ↔
      ∀ a m b v, l = a ++ m :: b → p m = false → tells m k = some v → Silent tells b k →
        replay tells f (a.filter p) k = v := by
  constructor
  · rintro h a m b v rfl hp hm hb
    rw [replay_of_tells hm hb, List.filter_append, List.filter_cons_of_neg (by simp [hp]),
      replay_append, replay_of_silent (hb.sublist List.filter_sublist)] at h
    exact h
  · intro h
    rcases silent_or_tells tells l k with hs | ⟨a, m, b, v, rfl, hm, hb⟩
    · rw [replay_of_silent hs, replay_of_silent (hs.sublist List.filter_sublist)]
    · have hb' : Silent tells (b.filter p) k := hb.sublist List.filter_sublist
      rw [replay_of_tells hm hb, List.filter_append]
      rcases hp : p m with _ | _
      · rw [List.filter_cons_of_neg (by simp [hp]), replay_append, replay_of_silent hb']
        exact h a m b v rfl hp hm hb
      · rw [List.filter_cons_of_pos hp, replay_of_tells hm hb']

end Ryu
