import Mathlib.Data.List.Basic

/-! # Announcements

Something comes and goes, and each time a notice says so. The notices come by turns, the first
says that it is there, and the last says what is so now.
-/

namespace Ryu

/-- The notices come by turns, beginning with the one given. -/
def Alternates : Bool → List Bool → Prop
  | _, [] => True
  | b, x :: l => x = b ∧ Alternates (!b) l

theorem alternates_concat {b x : Bool} {l : List Bool} :
    Alternates b (l ++ [x]) ↔ Alternates b l ∧ x = l.getLast?.elim b (!·) := by
  induction l generalizing b with
  | nil => simp [Alternates]
  | cons y l ih =>
    rw [List.cons_append, Alternates, ih, Alternates, and_assoc]
    refine and_congr_right fun hy => and_congr_right fun _ => ?_
    subst hy
    cases l with
    | nil => rfl
    | cons z l =>
      rw [List.getLast?_cons_cons, List.getLast?_eq_some_getLast (List.cons_ne_nil z l)]
      rfl

/-- The notices say by turns that something is there and that it is not, and last what is so. -/
structure Announces (news : List Bool) (p : Prop) : Prop where
  alternates : Alternates true news
  last : p ↔ news.getLast? = some true

variable {news : List Bool} {p q : Prop}

theorem announces_nil (hp : ¬p) : Announces [] p :=
  ⟨trivial, iff_of_false hp fun h => by cases h⟩

theorem Announces.congr (h : Announces news p) (hpq : p ↔ q) : Announces news q :=
  ⟨h.alternates, hpq.symm.trans h.last⟩

theorem Announces.on (h : Announces news p) (hp : ¬p) (hq : q) : Announces (news ++ [true]) q where
  alternates := by
    refine alternates_concat.2 ⟨h.alternates, ?_⟩
    have hl := mt h.last.mpr hp
    match hn : news.getLast? with
    | none => rfl
    | some true => exact absurd hn hl
    | some false => rfl
  last := iff_of_true hq (by simp)

theorem Announces.off (h : Announces news p) (hp : p) (hq : ¬q) : Announces (news ++ [false]) q where
  alternates := by
    refine alternates_concat.2 ⟨h.alternates, ?_⟩
    rw [h.last.mp hp]
    rfl
  last := iff_of_false hq (by simp)

end Ryu
