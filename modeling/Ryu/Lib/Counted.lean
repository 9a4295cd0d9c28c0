import Ryu.Lib.Codec

/-! # Items behind their number

A loop that reads as many items as were announced, or until its input ends, and after which the
items are counted.
-/

namespace Ryu

variable {ε α β : Type*} {read : List β → Except ε (α × List β)} {n : ℕ} {b r : List β}
  {l : List α}

/-- Read items until there are `n` or the input is at its end. -/
def readUpTo (read : List β → Except ε (α × List β)) : ℕ → List β → Except ε (List α × List β)
  | 0, b => .ok ([], b)
  | n + 1, b =>
    if b = [] then .ok ([], [])
    else
      match read b with
      | .error e => .error e
      | .ok (a, r) => (readUpTo read n r).map fun x => (a :: x.1, x.2)

/-- The loop, and an assertion that there are `n`. -/
def readCounted (fault : ε) (read : List β → Except ε (α × List β)) (n : ℕ) (b : List β) :
    Except ε (List α × List β) :=
  match readUpTo read n b with
  | .error e => .error e
  | .ok (l, r) => if n = l.length then .ok (l, r) else .error fault

theorem readTimes_succ_eq_ok : readTimes read (n + 1) b = .ok (l, r) ↔
    ∃ a c l', read b = .ok (a, c) ∧ readTimes read n c = .ok (l', r) ∧ l = a :: l' := by
  rw [readTimes]
  cases read b with
  | error e => simp
  | ok x =>
    obtain ⟨a, c⟩ := x
    simp only [map_eq_ok, Prod.exists, Prod.mk.injEq, Except.ok.injEq]
    constructor
    · rintro ⟨l', r', h, rfl, rfl⟩
      exact ⟨a, c, l', ⟨rfl, rfl⟩, h, rfl⟩
    · rintro ⟨_, _, l', ⟨rfl, rfl⟩, h, rfl⟩
      exact ⟨l', r, h, rfl, rfl⟩

theorem length_readTimes (h : readTimes read n b = .ok (l, r)) : l.length = n := by
  induction n generalizing b l with
  | zero =>
    obtain ⟨rfl, -⟩ := Prod.mk.inj (Except.ok.inj h)
    rfl
  | succ n ih =>
    obtain ⟨a, c, l', -, hl', rfl⟩ := readTimes_succ_eq_ok.1 h
    rw [List.length_cons, ih hl']

/-- Where there is nothing to read no item is read, so that the end of the input is told by the
number of items. -/
theorem readUpTo_eq_ok_iff (hnil : ∀ x, read [] ≠ .ok x) :
    readUpTo read n b = .ok (l, r) ∧ l.length = n ↔ readTimes read n b = .ok (l, r) := by
  induction n generalizing b l with
  | zero =>
    simp only [readUpTo, readTimes, and_iff_left_iff_imp]
    intro h
    obtain ⟨rfl, -⟩ := Prod.mk.inj (Except.ok.inj h)
    rfl
  | succ n ih =>
    rw [readTimes_succ_eq_ok, readUpTo]
    by_cases hb : b = []
    · subst hb
      rw [if_pos rfl]
      refine iff_of_false ?_ ?_
      · rintro ⟨h, hlen⟩
        obtain ⟨rfl, -⟩ := Prod.mk.inj (Except.ok.inj h)
        cases hlen
      · rintro ⟨a, c, _, h, -⟩
        exact hnil _ h
    · rw [if_neg hb]
      cases read b with
      | error e => simp
      | ok x =>
        obtain ⟨a, c⟩ := x
        simp only [map_eq_ok, Prod.exists, Prod.mk.injEq, Except.ok.injEq]
        constructor
        · rintro ⟨⟨l', r', hrest, rfl, rfl⟩, hlen⟩
          exact ⟨a, c, l', ⟨rfl, rfl⟩, ih.mp ⟨hrest, Nat.succ.inj hlen⟩, rfl⟩
        · rintro ⟨_, _, l', ⟨rfl, rfl⟩, hrest, rfl⟩
          obtain ⟨hrest, hlen⟩ := ih.mpr hrest
          exact ⟨⟨l', r, hrest, rfl, rfl⟩, congrArg Nat.succ hlen⟩

theorem readCounted_eq_ok_iff {fault : ε} (hnil : ∀ x, read [] ≠ .ok x) :
    readCounted fault read n b = .ok (l, r) ↔ readTimes read n b = .ok (l, r) := by
  rw [← readUpTo_eq_ok_iff hnil, readCounted]
  cases readUpTo read n b with
  | error e => simp
  | ok x =>
    obtain ⟨l', r'⟩ := x
    dsimp only
    split
    · next h =>
      simp only [Except.ok.injEq, Prod.mk.injEq]
      constructor
      · rintro ⟨rfl, rfl⟩
        exact ⟨⟨rfl, rfl⟩, h.symm⟩
      · rintro ⟨hx, -⟩
        exact hx
    · next h =>
      simp only [reduceCtorEq, Except.ok.injEq, Prod.mk.injEq, false_iff, not_and]
      rintro ⟨rfl, -⟩ hlen
      exact h hlen.symm

/-- What is written is read back exactly if that holds of each item. -/
theorem readTimes_flatMap_iff {γ : Type*} {w : γ → List β} {f : γ → α} {P : γ → Prop} {l : List γ}
    {c : List β} (hread : ∀ g ∈ l, P g → ∀ r, read (w g ++ r) = .ok (f g, r))
    (hnot : ∀ g ∈ l, ∀ r c, read (w g ++ r) = .ok (f g, c) → P g) :
    readTimes read n (l.flatMap w ++ r) = .ok (l.map f, c) ↔
      n = l.length ∧ (∀ g ∈ l, P g) ∧ c = r := by
  induction l generalizing n with
  | nil =>
    constructor
    · intro h
      obtain rfl : 0 = n := length_readTimes h
      have hrest : c = r := (congrArg Prod.snd (Except.ok.inj h)).symm
      exact ⟨rfl, fun g hg => absurd hg List.not_mem_nil, hrest⟩
    · rintro ⟨rfl, -, rfl⟩
      rfl
  | cons g l ih =>
    obtain ⟨hg, hl⟩ := List.forall_mem_cons.mp hread
    obtain ⟨hgnot, hlnot⟩ := List.forall_mem_cons.mp hnot
    rw [List.flatMap_cons, List.append_assoc, List.map_cons]
    constructor
    · intro h
      obtain ⟨n, rfl⟩ : ∃ k, n = k + 1 :=
        ⟨l.length, by rw [← length_readTimes h, List.length_cons, List.length_map]⟩
      obtain ⟨a, d, l', ha, hrest, heq⟩ := readTimes_succ_eq_ok.1 h
      obtain ⟨rfl, rfl⟩ := List.cons.inj heq
      have hP := hgnot _ _ ha
      rw [hg hP] at ha
      obtain ⟨-, rfl⟩ := Prod.mk.inj (Except.ok.inj ha)
      obtain ⟨rfl, hall, hc⟩ := (ih hl hlnot).mp hrest
      exact ⟨rfl, List.forall_mem_cons.mpr ⟨hP, hall⟩, hc⟩
    · rintro ⟨rfl, hall, hc⟩
      obtain ⟨hP, hall⟩ := List.forall_mem_cons.mp hall
      rw [List.length_cons, readTimes_succ_eq_ok]
      exact ⟨f g, _, l.map f, hg hP _, (ih hl hlnot).mpr ⟨rfl, hall, hc⟩, rfl⟩

end Ryu
