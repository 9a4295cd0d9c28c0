import Ryu.Lib.Dict

/-! # Grouping

A loop writes those elements of a list that are asked for, and groups what it writes by keys. The
first element that cannot be written ends it.
-/

namespace Ryu.Grouping

variable {α β κ ε : Type*} [DecidableEq κ] (asked : α → Prop) [DecidablePred asked] (key : α → κ)
  (write : α → Except ε β)

/-- What was written under a key. -/
def under (groups : Dict κ (List β)) (k : κ) : List β := (groups.get? k).getD []

def collect : List α → Dict κ (List β) → Except ε (Dict κ (List β))
  | [], groups => .ok groups
  | a :: as, groups =>
    if asked a then
      match write a with
      | .error e => .error e
      | .ok b => collect as (groups.set (key a) (under groups (key a) ++ [b]))
    else collect as groups

variable {asked key write} {as : List α} {groups groups' : Dict κ (List β)} {b : β}

theorem collect_isOk_iff :
    (collect asked key write as groups).isOk ↔ ∀ a ∈ as, asked a → (write a).isOk := by
  induction as generalizing groups with
  | nil => simp [collect, Except.isOk, Except.toBool]
  | cons a as ih =>
    simp only [collect, List.forall_mem_cons]
    by_cases ha : asked a
    · cases hw : write a with
      | error e => simp [ha, Except.isOk, Except.toBool]
      | ok b =>
        have hok : (Except.ok b : Except ε β).isOk = true := rfl
        simp [ha, ih, hok]
    · simp [ha, ih]

theorem under_set (groups : Dict κ (List β)) (b : β) (k k' : κ) :
    under (groups.set k (under groups k ++ [b])) k' =
      if k = k' then under groups k' ++ [b] else under groups k' := by
  unfold under
  rw [Dict.get?_set]
  by_cases h : k = k'
  · subst h
    simp
  · simp [h]

theorem mem_collect (h : collect asked key write as groups = .ok groups') (k : κ) :
    b ∈ under groups' k ↔
      b ∈ under groups k ∨ ∃ a ∈ as, asked a ∧ key a = k ∧ write a = .ok b := by
  induction as generalizing groups with
  | nil =>
    obtain rfl := Except.ok.inj h
    simp
  | cons a as ih =>
    simp only [collect] at h
    by_cases ha : asked a
    · rw [if_pos ha] at h
      cases hw : write a with
      | error e => simp [hw] at h
      | ok b' =>
        rw [hw] at h
        rw [ih h, under_set]
        by_cases hk : key a = k
        · simp [hk, ha, hw, or_assoc, eq_comm]
        · simp [hk]
    · rw [if_neg ha] at h
      rw [ih h]
      simp [ha]

end Ryu.Grouping
