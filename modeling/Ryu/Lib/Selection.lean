import Mathlib.Data.List.MinMax
import Mathlib.Data.List.Perm.Basic
import Mathlib.Order.Basic

/-! # Selection by a pairwise preference

A list is reduced to one element by keeping the current one unless the next is
preferred. Whatever the order of the list, the element kept is one no other is
preferred to as soon as some such element ties only with its like. For a preference by
a grade that may be missing, then by a rank, this decides exactly when the order of the
list does not matter.
-/

namespace Ryu

variable {α : Type*}

section Choose

variable (beats : α → α → Prop) [DecidableRel beats]

/-- Keep `c` unless the next element beats it. -/
def choose (c : α) (l : List α) : α := l.foldl (fun c n => if beats n c then n else c) c

/-- No element of `l` beats `x`. -/
def Unbeaten (l : List α) (x : α) : Prop := ∀ q ∈ l, ¬ beats q x

variable {beats} {l l₁ l₂ : List α} {c n t : α}

theorem choose_cons : choose beats c (n :: l) = choose beats (if beats n c then n else c) l := rfl

theorem choose_append :
    choose beats c (l₁ ++ l₂) = choose beats (choose beats c l₁) l₂ :=
  List.foldl_append

theorem choose_mem (c : α) (l : List α) : choose beats c l ∈ c :: l := by
  induction l generalizing c with
  | nil => simp [choose]
  | cons n l ih =>
    rw [choose_cons]
    rcases List.mem_cons.mp (ih (if beats n c then n else c)) with h | h
    · rw [h]; split <;> simp
    · simp [h]

theorem choose_of_unbeaten (h : Unbeaten beats l c) : choose beats c l = c := by
  induction l with
  | nil => rfl
  | cons n l ih =>
    rw [choose_cons, if_neg (h n List.mem_cons_self)]
    exact ih fun q hq => h q (List.mem_cons_of_mem _ hq)

/-- If the elements that tie with some unbeaten element are unbeaten, so is the one chosen. -/
theorem unbeaten_choose {s : List α} (hl : ∀ q ∈ l, q ∈ s) (hc : c ∈ s)
    (ht : t ∈ c :: l) (hu : Unbeaten beats s t)
    (htie : ∀ x ∈ s, ¬ beats t x → Unbeaten beats s x) : Unbeaten beats s (choose beats c l) := by
  induction l generalizing c with
  | nil =>
    rcases List.mem_singleton.mp ht with rfl
    exact hu
  | cons n l ih =>
    have hn : n ∈ s := hl n List.mem_cons_self
    have hl' : ∀ q ∈ l, q ∈ s := fun q hq => hl q (List.mem_cons_of_mem _ hq)
    -- an unbeaten current element stays to the end
    have hstay : ∀ c, Unbeaten beats s c → Unbeaten beats s (choose beats c l) := by
      intro c huc
      rwa [choose_of_unbeaten fun q hq => huc q (hl' q hq)]
    rw [choose_cons]
    by_cases hb : beats n c
    · rw [if_pos hb]
      rcases List.mem_cons.mp ht with rfl | ht'
      · exact absurd hb (hu n hn)
      · exact ih hl' hn ht'
    · rw [if_neg hb]
      rcases List.mem_cons.mp ht with rfl | ht'
      · exact hstay t hu
      · rcases List.mem_cons.mp ht' with rfl | ht''
        · exact hstay c (htie c hc hb)
        · exact ih hl' hc (List.mem_cons_of_mem _ ht'')

end Choose

section Graded

variable {γ ρ : Type*} [LinearOrder γ] [LinearOrder ρ] (g : α → Option γ) (r : α → ρ)

/-- The higher grade is preferred where both have one, then the lower rank. -/
def Beats (p q : α) : Prop :=
  match g p, g q with
  | some v, some w => w < v ∨ v = w ∧ r p < r q
  | _, _ => r p < r q

instance : DecidableRel (Beats g r) := fun p q => by
  unfold Beats
  split <;> infer_instance

/-- `t` has the highest grade of the list. -/
def Top (l : List α) (t : α) : Prop := ∃ v, g t = some v ∧ ∀ q ∈ l, ∀ w, g q = some w → w ≤ v

/-- A graded element ranks as well as every ungraded one and better than all of the highest
grade, and some ungraded one ranks as well as these: the three beat or tie one another in turn. -/
def Clash (l : List α) : Prop :=
  ∃ a ∈ l, ∃ b ∈ l, (g a).isSome ∧ g b = none ∧ (∀ q ∈ l, g q = none → r a ≤ r q) ∧
    ∀ t ∈ l, Top g l t → r b ≤ r t ∧ r a < r t

variable {g r} {l : List α} {p q t a b : α}

theorem beats_of_some {v w : γ} (hp : g p = some v) (hq : g q = some w) :
    Beats g r p q ↔ w < v ∨ v = w ∧ r p < r q := by
  simp [Beats, hp, hq]

theorem beats_of_left (hp : g p = none) : Beats g r p q ↔ r p < r q := by
  simp [Beats, hp]

theorem beats_of_right (hq : g q = none) : Beats g r p q ↔ r p < r q := by
  unfold Beats
  cases g p <;> simp [hq]

theorem beats_asymm (h : Beats g r p q) : ¬ Beats g r q p := by
  cases hp : g p with
  | none =>
    rw [beats_of_right hp, not_lt]
    exact ((beats_of_left hp).mp h).le
  | some v =>
    cases hq : g q with
    | none =>
      rw [beats_of_left hq, not_lt]
      exact ((beats_of_right hq).mp h).le
    | some w =>
      rw [beats_of_some hp hq] at h
      rw [beats_of_some hq hp, not_or, not_lt, not_and, not_lt]
      rcases h with h | ⟨rfl, h⟩
      · exact ⟨h.le, fun he => absurd he h.ne⟩
      · exact ⟨le_rfl, fun _ => h.le⟩

theorem exists_min {P : α → Prop} (h : ∃ x ∈ l, P x) :
    ∃ x ∈ l, P x ∧ ∀ y ∈ l, P y → r x ≤ r y := by
  classical
  obtain ⟨x, hx, hP⟩ := h
  have hf : x ∈ l.filter (fun y => P y) := List.mem_filter.mpr ⟨hx, by simpa using hP⟩
  obtain ⟨m, hm⟩ := Option.ne_none_iff_exists'.mp
    (mt List.argmin_eq_none.mp (List.ne_nil_of_mem hf) : List.argmin r _ ≠ none)
  obtain ⟨hml, hmP⟩ := List.mem_filter.mp (List.argmin_mem hm)
  exact ⟨m, hml, by simpa using hmP, fun y hy hPy =>
    List.le_of_mem_argmin (List.mem_filter.mpr ⟨hy, by simpa using hPy⟩) hm⟩

theorem exists_top (ha : a ∈ l) (hg : (g a).isSome) : ∃ t ∈ l, Top g l t := by
  obtain ⟨t, ht, hs, hmax⟩ := exists_min (r := fun x => OrderDual.toDual ((g x).elim ⊥ WithBot.some))
    (P := fun x => (g x).isSome) ⟨a, ha, hg⟩
  obtain ⟨v, hv⟩ := Option.isSome_iff_exists.mp hs
  refine ⟨t, ht, v, hv, fun q hq w hw => ?_⟩
  have := hmax q hq (by simp [hw])
  simpa [hv, hw] using this

theorem unbeaten_of_some {v : γ} (hp : g p = some v) :
    Unbeaten (Beats g r) l p ↔
      ∀ q ∈ l, (∀ w, g q = some w → w ≤ v ∧ (w = v → r p ≤ r q)) ∧ (g q = none → r p ≤ r q) := by
  refine forall₂_congr fun q _ => ?_
  cases hq : g q with
  | none => simp [beats_of_left hq]
  | some w =>
    rw [beats_of_some hq hp]
    simp only [not_or, not_lt, not_and, Option.some.injEq, forall_eq', reduceCtorEq,
      IsEmpty.forall_iff, and_true]

theorem unbeaten_of_none (hp : g p = none) :
    Unbeaten (Beats g r) l p ↔ ∀ q ∈ l, r p ≤ r q := by
  refine forall₂_congr fun q _ => ?_
  rw [beats_of_right hp, not_lt]

/-- A graded element that is not of the highest grade is beaten. -/
theorem top_of_unbeaten (hp : (g p).isSome) (hu : Unbeaten (Beats g r) l p) :
    Top g l p := by
  obtain ⟨v, hv⟩ := Option.isSome_iff_exists.mp hp
  exact ⟨v, hv, fun q hq w hw => (((unbeaten_of_some hv).mp hu q hq).1 w hw).1⟩

/-- Among elements of the highest grade it is the rank that counts. -/
theorem unbeaten_of_top (ht : Top g l t) (hr : ∀ q ∈ l, Top g l q → r t ≤ r q)
    (hn : ∀ q ∈ l, g q = none → r t ≤ r q) : Unbeaten (Beats g r) l t := by
  obtain ⟨v, hv, hmax⟩ := ht
  refine (unbeaten_of_some hv).mpr fun q hq => ⟨fun w hw => ⟨hmax q hq w hw, ?_⟩, hn q hq⟩
  rintro rfl
  exact hr q hq ⟨w, hw, hmax⟩

/-- An element of the highest grade that `t` does not beat. -/
theorem not_beats_top (ht : Top g l t) (hpl : p ∈ l) (hp : (g p).isSome)
    (h : ¬ Beats g r t p) : Top g l p ∧ r p ≤ r t := by
  obtain ⟨v, hv, hmax⟩ := ht
  obtain ⟨w, hw⟩ := Option.isSome_iff_exists.mp hp
  rw [beats_of_some hv hw, not_or, not_lt, not_and, not_lt] at h
  have hvw : v = w := le_antisymm h.1 (hmax p hpl w hw)
  subst hvw
  exact ⟨⟨v, hw, hmax⟩, h.2 rfl⟩

/-- Without a clash some unbeaten element ties only with unbeaten ones. -/
theorem exists_anchor (hc : ¬ Clash g r l) (hne : l ≠ []) :
    ∃ t ∈ l, Unbeaten (Beats g r) l t ∧
      ∀ x ∈ l, ¬ Beats g r t x → Unbeaten (Beats g r) l x := by
  by_cases hg : ∃ a ∈ l, (g a).isSome
  case neg =>
    have hn : ∀ x ∈ l, g x = none := fun x hx => by
      simpa using fun h => hg ⟨x, hx, h⟩
    obtain ⟨x, hx⟩ := List.exists_mem_of_ne_nil l hne
    obtain ⟨t, ht, -, hmin⟩ := exists_min (r := r) (P := fun _ => True) ⟨x, hx, trivial⟩
    refine ⟨t, ht, (unbeaten_of_none (hn t ht)).mpr fun q hq => hmin q hq trivial, ?_⟩
    intro x hx htie
    rw [beats_of_left (hn t ht), not_lt] at htie
    exact (unbeaten_of_none (hn x hx)).mpr fun q hq => htie.trans (hmin q hq trivial)
  obtain ⟨a₀, ha₀, hga₀⟩ := hg
  obtain ⟨t₀, ht₀, hT₀⟩ := exists_top ha₀ hga₀
  obtain ⟨t, ht, hT, htmin⟩ := exists_min (r := r) ⟨t₀, ht₀, hT₀⟩
  have hgt : (g t).isSome := by
    obtain ⟨v, hv, -⟩ := hT
    simp [hv]
  -- `t` will do as long as no ungraded element ranks better
  have htop : ∀ (h : ∀ q ∈ l, g q = none → r t ≤ r q)
      (h' : ∀ x ∈ l, g x = none → r x ≤ r t → ∀ q ∈ l, r x ≤ r q),
      ∃ t ∈ l, Unbeaten (Beats g r) l t ∧
        ∀ x ∈ l, ¬ Beats g r t x → Unbeaten (Beats g r) l x := by
    intro h h'
    refine ⟨t, ht, unbeaten_of_top hT htmin h, fun x hx htie => ?_⟩
    by_cases hgx : (g x).isSome
    · obtain ⟨hTx, hr⟩ := not_beats_top hT hx hgx htie
      exact unbeaten_of_top hTx (fun q hq hTq => hr.trans (htmin q hq hTq))
        fun q hq hn => hr.trans (h q hq hn)
    · have hnx : g x = none := by simpa using hgx
      rw [beats_of_right hnx, not_lt] at htie
      exact (unbeaten_of_none hnx).mpr (h' x hx hnx htie)
  by_cases hb₀ : ∃ b ∈ l, g b = none
  case neg =>
    exact htop (fun q hq hn => absurd ⟨q, hq, hn⟩ hb₀) fun x hx hn => absurd ⟨x, hx, hn⟩ hb₀
  obtain ⟨b, hb, hgb, hbmin⟩ := exists_min (r := r) hb₀
  obtain ⟨a, ha, hga, hamin⟩ := exists_min (r := r) (P := fun x => (g x).isSome) ⟨t, ht, hgt⟩
  have hall : ∀ q ∈ l, r a ≤ r q ∨ r b ≤ r q := by
    intro q hq
    by_cases hgq : (g q).isSome
    · exact Or.inl (hamin q hq hgq)
    · exact Or.inr (hbmin q hq (by simpa using hgq))
  rcases lt_or_ge (r t) (r b) with htb | hbt
  · exact htop (fun q hq hn => htb.le.trans (hbmin q hq hn))
      fun x hx hn hxt => absurd (hxt.trans_lt htb) (not_lt.mpr (hbmin x hx hn))
  rcases lt_or_ge (r b) (r a) with hba | hab
  · -- the ungraded elements of least rank beat all others
    have hmin : ∀ q ∈ l, r b ≤ r q := fun q hq => (hall q hq).elim hba.le.trans id
    refine ⟨b, hb, (unbeaten_of_none hgb).mpr hmin, fun x hx htie => ?_⟩
    rw [beats_of_left hgb, not_lt] at htie
    have hnx : g x = none := by
      by_contra hgx
      exact absurd (hba.trans_le (hamin x hx (by simpa [Option.isSome_iff_ne_none] using hgx)))
        (not_lt.mpr htie)
    exact (unbeaten_of_none hnx).mpr fun q hq => htie.trans (hmin q hq)
  · have hta : r t ≤ r a := by
      by_contra hlt
      refine hc ⟨a, ha, b, hb, hga, hgb, fun q hq hn => hab.trans (hbmin q hq hn), ?_⟩
      exact fun q hq hTq =>
        ⟨hbt.trans (htmin q hq hTq), (not_le.mp hlt).trans_le (htmin q hq hTq)⟩
    have hmin : ∀ q ∈ l, r t ≤ r q := fun q hq =>
      (hall q hq).elim hta.trans (hta.trans hab).trans
    exact htop (fun q hq _ => hmin q hq) fun x _ _ hxt q hq => hxt.trans (hmin q hq)

/-- A clash lets some order of the list end with a beaten element. -/
theorem exists_beaten (hc : Clash g r l) :
    ∃ c l', (c :: l').Perm l ∧ ¬ Unbeaten (Beats g r) l (choose (Beats g r) c l') := by
  classical
  obtain ⟨a, ha, b₀, hb₀, hga, hgb₀, hmin, htop⟩ := hc
  obtain ⟨b, hb, hgb, hbmin⟩ := exists_min (r := r) (P := fun x => g x = none) ⟨b₀, hb₀, hgb₀⟩
  have hbt : ∀ t ∈ l, Top g l t → r b ≤ r t := fun t ht hT =>
    (hbmin b₀ hb₀ hgb₀).trans (htop t ht hT).1
  have hperm : ∀ (x : α) (P : α → Prop), x ∈ l →
      (x :: ((l.erase x).filter P ++ (l.erase x).filter fun y => ¬ P y)).Perm l := by
    intro x P hx
    have hp := List.filter_append_perm (fun y => decide (P y)) (l.erase x)
    simp only [← decide_not] at hp
    exact (hp.cons x).trans (List.perm_cons_erase hx).symm
  rcases (hmin b hb hgb).lt_or_eq with hab | hab
  · -- start with `b`, which the elements of the highest grade do not beat
    refine ⟨b, _, hperm b (Top g l) hb, fun hu => ?_⟩
    rw [choose_append, choose_of_unbeaten (c := b)] at hu
    · generalize hx : choose (Beats g r) b _ = x at hu
      replace hx := hx ▸ choose_mem _ _
      have hnone : ∀ x ∈ l, g x = none → ¬ Unbeaten (Beats g r) l x := fun x hx hn hu =>
        absurd ((unbeaten_of_none hn).mp hu a ha) (not_le.mpr (hab.trans_le (hbmin x hx hn)))
      rcases List.mem_cons.mp hx with rfl | hx
      · exact hnone x hb hgb hu
      · obtain ⟨hxl, hT⟩ := List.mem_filter.mp hx
        have hxl := List.mem_of_mem_erase hxl
        by_cases hgx : (g x).isSome
        · simp [top_of_unbeaten hgx hu] at hT
        · exact hnone x hxl (by simpa using hgx) hu
    · intro q hq
      obtain ⟨hql, hT⟩ := List.mem_filter.mp hq
      rw [beats_of_right hgb, not_lt]
      exact hbt q (List.mem_of_mem_erase hql) (by simpa using hT)
  · -- start with `a`, which the ungraded elements do not beat
    refine ⟨a, _, hperm a (fun y => g y = none) ha, fun hu => ?_⟩
    rw [choose_append, choose_of_unbeaten (c := a)] at hu
    · generalize hx : choose (Beats g r) a _ = x at hu
      replace hx := hx ▸ choose_mem _ _
      have hxl : x ∈ l ∧ (g x).isSome := by
        rcases List.mem_cons.mp hx with rfl | hx
        · exact ⟨ha, hga⟩
        · obtain ⟨hxl, hn⟩ := List.mem_filter.mp hx
          exact ⟨List.mem_of_mem_erase hxl, by
            simpa [Option.isSome_iff_ne_none] using hn⟩
      have hT := top_of_unbeaten hxl.2 hu
      refine hu b hb ((beats_of_left hgb).mpr ?_)
      rw [← hab]
      exact (htop x hxl.1 hT).2
    · intro q hq
      obtain ⟨hql, hn⟩ := List.mem_filter.mp hq
      rw [beats_of_left (by simpa using hn), not_lt]
      exact hmin q (List.mem_of_mem_erase hql) (by simpa using hn)

/-- Every order of a list ends with an unbeaten element exactly when the list has no clash. -/
theorem choose_unbeaten_iff :
    (∀ c l', (c :: l').Perm l → Unbeaten (Beats g r) l (choose (Beats g r) c l')) ↔
      ¬ Clash g r l := by
  constructor
  · intro h hc
    obtain ⟨c, l', hp, hb⟩ := exists_beaten hc
    exact hb (h c l' hp)
  · intro hc c l' hp
    have hne : l ≠ [] := by
      rintro rfl
      exact absurd hp.length_eq (by simp)
    obtain ⟨t, ht, hu, htie⟩ := exists_anchor hc hne
    exact unbeaten_choose (fun q hq => hp.subset (List.mem_cons_of_mem _ hq))
      (hp.subset List.mem_cons_self) (hp.mem_iff.mpr ht) hu htie

end Graded

end Ryu
