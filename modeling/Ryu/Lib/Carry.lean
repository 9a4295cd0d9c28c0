import Mathlib.Data.List.Infix

/-! # Runs that carry a key along

Each request names a key, and a default key leaves the choice open. A run that shares its
data between the requests answers a default key by the last proper key it met, and stops
at the first request that is refused; separate requests do neither. The two agree exactly
if no accepted key follows a refused one and the key carried to a default one answers
alike.
-/

namespace Ryu

variable {α ι ρ : Type*} (key : α → ι) (r : ι → Option ρ) (d : ι)

/-- The answers to separate requests. -/
def separately (l : List α) : List (α × ρ) := l.filterMap fun a => (r (key a)).map fun x => (a, x)

/-- The answers of a run that carries the key `w`. -/
def carrying [DecidableEq ι] : ι → List α → List (α × ρ)
  | _, [] => []
  | w, a :: l =>
    match r (if key a = d then w else key a) with
    | none => []
    | some x => (a, x) :: carrying (if key a = d then w else key a) l

variable {key r d} {a : α} {l : List α} {w : ι}

/-- No accepted key comes after a refused one. -/
def RefusedLast (key : α → ι) (r : ι → Option ρ) (l : List α) : Prop :=
  l.Pairwise fun a b => (r (key b)).isSome → (r (key a)).isSome

/-- A default key right after an accepted proper one is answered alike. -/
def CarriesAlike (r : ι → Option ρ) (d : ι) (keys : List ι) : Prop :=
  ∀ x, x ≠ d → [x, d] <:+: keys → (r x).isSome → r x = r d

theorem separately_cons_some {x : ρ} (h : r (key a) = some x) :
    separately key r (a :: l) = (a, x) :: separately key r l := by
  simp [separately, h]

theorem separately_cons_none (h : r (key a) = none) :
    separately key r (a :: l) = separately key r l := by
  simp [separately, h]

theorem separately_eq_nil_iff : separately key r l = [] ↔ ∀ a ∈ l, r (key a) = none := by
  simp [separately, List.filterMap_eq_nil_iff]

theorem accepted_of_mem_separately {x : ρ} (h : (a, x) ∈ separately key r l) :
    r (key a) = some x := by
  obtain ⟨b, -, hb⟩ := List.mem_filterMap.mp h
  obtain ⟨y, hy, he⟩ := Option.map_eq_some_iff.mp hb
  cases he
  exact hy

theorem refusedLast_cons_none (h : r (key a) = none) :
    RefusedLast key r (a :: l) ↔ ∀ b ∈ l, r (key b) = none := by
  constructor
  · intro hp b hb
    have hba := List.rel_of_pairwise_cons hp hb
    rw [h] at hba
    exact Option.not_isSome_iff_eq_none.mp fun hs => absurd (hba hs) (by simp)
  · intro hn
    refine List.Pairwise.cons (fun b hb hs => ?_)
      (List.pairwise_of_forall_mem_list fun b _ c hc hs => ?_)
    · rw [hn b hb] at hs
      cases hs
    · rw [hn c hc] at hs
      cases hs

theorem refusedLast_cons_some (h : (r (key a)).isSome) :
    RefusedLast key r (a :: l) ↔ RefusedLast key r l := by
  simp [RefusedLast, List.pairwise_cons, h]

theorem infix_pair_cons {x y z : ι} {l : List ι} :
    [x, y] <:+: z :: l ↔ (x = z ∧ l.head? = some y) ∨ [x, y] <:+: l := by
  rw [List.infix_cons_iff, List.cons_prefix_cons]
  cases l with
  | nil => simp
  | cons b l => simp [List.cons_prefix_cons, eq_comm]

/-- A carried key that is not followed by a default one matters no further. -/
theorem carriesAlike_cons_of_ne {x : ι} {keys : List ι} (h : x ≠ d) :
    CarriesAlike r d (w :: x :: keys) ↔ CarriesAlike r d (x :: keys) := by
  unfold CarriesAlike
  simp only [infix_pair_cons (z := w), List.head?_cons, Option.some.injEq, h, and_false, false_or]

theorem carriesAlike_cons_default {keys : List ι} (h : r w = r d) :
    CarriesAlike r d (w :: d :: keys) ↔ CarriesAlike r d (w :: keys) := by
  unfold CarriesAlike
  constructor
  · intro hc x hx hi hs
    rcases infix_pair_cons.1 hi with ⟨rfl, -⟩ | hi
    · exact h
    · exact hc x hx (infix_pair_cons.2 (Or.inr (infix_pair_cons.2 (Or.inr hi)))) hs
  · intro hc x hx hi hs
    rcases infix_pair_cons.1 hi with ⟨rfl, -⟩ | hi
    · exact h
    · rcases infix_pair_cons.1 hi with ⟨rfl, -⟩ | hi
      · exact absurd rfl hx
      · exact hc x hx (infix_pair_cons.2 (Or.inr hi)) hs

/-- A run that carries an accepted key answers like separate requests exactly if no accepted key
follows a refused one and default keys are answered like the key carried to them. -/
theorem carrying_eq_separately_iff [DecidableEq ι] (hw : (r w).isSome) :
    carrying key r d w l = separately key r l ↔
      RefusedLast key r l ∧ CarriesAlike r d (w :: l.map key) := by
  induction l generalizing w with
  | nil =>
    refine iff_of_true rfl ⟨List.Pairwise.nil, fun x _ hi => ?_⟩
    have hlen := hi.length_le
    simp at hlen
  | cons a l ih =>
    obtain ⟨y, hy⟩ := Option.isSome_iff_exists.mp hw
    by_cases hd : key a = d
    · rw [carrying, if_pos hd, hy, List.map_cons, hd]
      cases ha : r d with
      | none =>
        refine iff_of_false (fun he => ?_) fun hc => ?_
        · have hmem : (a, y) ∈ separately key r (a :: l) := he ▸ List.mem_cons_self
          rw [← hd, accepted_of_mem_separately hmem] at ha
          cases ha
        · have hne : w ≠ d := by
            rintro rfl
            rw [hy] at ha
            cases ha
          have halike := hc.2 w hne (infix_pair_cons.2 (Or.inl ⟨rfl, rfl⟩)) hw
          rw [hy, ha] at halike
          cases halike
      | some x =>
        have hka : r (key a) = some x := by rw [hd, ha]
        rw [separately_cons_some hka, List.cons.injEq, ih hw,
          refusedLast_cons_some (by simp [hka])]
        constructor
        · rintro ⟨he, hr, hc⟩
          have heq : r w = r d := by
            rw [hy, ha, (Prod.mk.inj he).2]
          exact ⟨hr, (carriesAlike_cons_default heq).mpr hc⟩
        · rintro ⟨hr, hc⟩
          have heq : r w = r d := by
            by_cases hwd : w = d
            · rw [hwd]
            · exact hc w hwd (infix_pair_cons.2 (Or.inl ⟨rfl, rfl⟩)) hw
          rw [hy, ha, Option.some.injEq] at heq
          exact ⟨by rw [heq], hr, (carriesAlike_cons_default (by rw [hy, ha, heq])).mp hc⟩
    · rw [carrying, if_neg hd, List.map_cons, carriesAlike_cons_of_ne hd]
      cases ha : r (key a) with
      | none =>
        rw [separately_cons_none ha, eq_comm, separately_eq_nil_iff, refusedLast_cons_none ha]
        refine ⟨fun hn => ⟨hn, fun x hx hi hs => ?_⟩, fun h => h.1⟩
        have hmem : x ∈ key a :: l.map key := hi.subset List.mem_cons_self
        rcases List.mem_cons.mp hmem with rfl | hmem
        · simp [ha] at hs
        · obtain ⟨b, hb, rfl⟩ := List.mem_map.mp hmem
          simp [hn b hb] at hs
      | some x =>
        have hs : (r (key a)).isSome := by simp [ha]
        rw [separately_cons_some ha, List.cons.injEq, ih hs, refusedLast_cons_some hs]
        simp

end Ryu
