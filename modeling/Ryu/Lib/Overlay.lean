import Mathlib.Logic.Function.Basic
import Ryu.Lib.Dict
import Ryu.Lib.History

/-! # Values that others overwrite

A table of values is overwritten by those that are given for some of its keys. A value that items
overwrite one after the other is the one that the last item gives.
-/

namespace Ryu

variable {κ ν α β : Type*} [DecidableEq κ]

/-- The values, with those that are given instead of theirs. -/
def overlay (values : κ → ν) (given : Dict κ ν) : κ → ν :=
  given.entries.foldl (fun values x => Function.update values x.1 x.2) values

theorem foldl_update_of_notMem {l : List (κ × ν)} {k : κ} (h : k ∉ l.map Prod.fst) (f : κ → ν) :
    l.foldl (fun f x => Function.update f x.1 x.2) f k = f k := by
  induction l generalizing f with
  | nil => rfl
  | cons x l ih =>
    rw [List.map_cons, List.mem_cons, not_or] at h
    rw [List.foldl_cons, ih h.2, Function.update_of_ne h.1]

theorem overlay_apply (values : κ → ν) (given : Dict κ ν) (k : κ) :
    overlay values given k = (given.get? k).getD (values k) := by
  obtain ⟨l, hl⟩ := given
  simp only [overlay, Dict.get?]
  induction l generalizing values with
  | nil => rfl
  | cons x l ih =>
    obtain ⟨hx, hl⟩ := List.nodup_cons.mp hl
    rw [List.foldl_cons, Assoc.lookup]
    by_cases hk : x.1 = k
    · subst hk
      rw [foldl_update_of_notMem hx, Function.update_self, if_pos rfl]
      rfl
    · rw [ih _ hl, Function.update_of_ne (Ne.symm hk), if_neg hk]

/-- What the last of the items gives that give something. -/
def lastGiven (f : α → Option β) (l : List α) : Option β := (l.filterMap f).getLast?

theorem lastGiven_concat (f : α → Option β) (l : List α) (a : α) :
    lastGiven f (l ++ [a]) = (f a).or (lastGiven f l) := by
  rw [lastGiven, List.filterMap_append]
  cases h : f a with
  | none => simp [lastGiven, h]
  | some b => simp [h]

/-- Every item of a list meets a condition on those before it. -/
def EachAfter (P : List α → α → Prop) (l : List α) : Prop :=
  ∀ before a after, l = before ++ a :: after → P before a

theorem eachAfter_nil (P : List α → α → Prop) : EachAfter P [] := by
  intro before a after h
  simp at h

theorem eachAfter_concat {P : List α → α → Prop} {l : List α} {a : α} :
    EachAfter P (l ++ [a]) ↔ EachAfter P l ∧ P l a := by
  constructor
  · refine fun h => ⟨fun before b after hl => ?_, h l a [] rfl⟩
    exact h before b (after ++ [a]) (by rw [hl, List.append_assoc, List.cons_append])
  · rintro ⟨h, ha⟩ before b after hl
    obtain ⟨rfl, rfl, -⟩ | ⟨after, rfl, hl'⟩ := History.split_concat hl
    · exact ha
    · exact h before b after hl'

end Ryu
