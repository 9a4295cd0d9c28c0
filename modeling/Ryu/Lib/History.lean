import Mathlib.Data.List.Basic

/-! # Histories

Lists of what has happened, the latest last. A request is open if it was made and nothing has
answered it since, and a history splits in one way only at the last of some event.
-/

namespace Ryu.History

variable {ε : Type*} {a b e : ε} {log before since before' since' : List ε}

/-- The event `a` has happened, and `b` has not since. -/
def Open (a b : ε) (log : List ε) : Prop := ∃ before since, log = before ++ a :: since ∧ b ∉ since

theorem not_open_nil : ¬ Open a b [] := by
  rintro ⟨before, since, h, -⟩
  simp at h

/-- A split of a longer history is at its end, or one of the history before. -/
theorem split_concat (h : log ++ [e] = before ++ a :: since) :
    log = before ∧ e = a ∧ since = [] ∨
      ∃ since', since = since' ++ [e] ∧ log = before ++ a :: since' := by
  rcases List.eq_nil_or_concat since with rfl | ⟨since, e', rfl⟩
  · obtain ⟨hlog, he⟩ := List.append_inj' h rfl
    exact Or.inl ⟨hlog, (List.cons.inj he).1, rfl⟩
  · rw [List.concat_eq_append, ← List.cons_append, ← List.append_assoc] at h
    obtain ⟨hlog, he⟩ := List.append_inj' h rfl
    obtain rfl := (List.cons.inj he).1
    exact Or.inr ⟨since, List.concat_eq_append, hlog⟩

theorem open_concat : Open a b (log ++ [e]) ↔ e = a ∨ e ≠ b ∧ Open a b log := by
  constructor
  · rintro ⟨before, since, h, hb⟩
    rcases split_concat h with ⟨-, rfl, -⟩ | ⟨since, rfl, rfl⟩
    · exact Or.inl rfl
    · rw [List.mem_append, not_or, List.mem_singleton] at hb
      exact Or.inr ⟨Ne.symm hb.2, before, since, rfl, hb.1⟩
  · rintro (rfl | ⟨he, before, since, rfl, hb⟩)
    · exact ⟨log, [], rfl, List.not_mem_nil⟩
    · refine ⟨before, since ++ [e], by simp, ?_⟩
      rw [List.mem_append, not_or, List.mem_singleton]
      exact ⟨hb, Ne.symm he⟩

/-- A history ends with what has happened since the last of an event. -/
theorem split_last (h : before ++ a :: since = before' ++ a :: since') (hs : a ∉ since)
    (hs' : a ∉ since') : before = before' ∧ since = since' := by
  rcases List.append_eq_append_iff.mp h with ⟨c, rfl, hc⟩ | ⟨c, rfl, hc⟩
  · cases c with
    | nil => exact ⟨(List.append_nil _).symm, (List.cons.inj hc).2⟩
    | cons x c =>
      obtain ⟨-, rfl⟩ := List.cons.inj hc
      exact absurd (List.mem_append_right c List.mem_cons_self) hs
  · cases c with
    | nil => exact ⟨List.append_nil _, (List.cons.inj hc).2.symm⟩
    | cons x c =>
      obtain ⟨-, rfl⟩ := List.cons.inj hc
      exact absurd (List.mem_append_right c List.mem_cons_self) hs'

end Ryu.History
