import Mathlib.Algebra.Order.Group.Nat
import Mathlib.Data.Int.Order.Basic
import Mathlib.Logic.Relation

/-! # Loops that scan entries

A computation returns, raises an exception, or does not end. A scan reads an entry at the
place of a cursor, finds there by how much the cursor moves, and goes on while something is
left. It ends exactly if it leaves every entry it arrives at.
-/

namespace Ryu

/-- A computation that returns or raises. The value `none` is the computation that never ends. -/
abbrev Prog (ε : Type) : Type → Type := ExceptT ε Option

namespace Prog

variable {ε α β σ : Type}

/-- A computation without loops. -/
def of (x : Except ε α) : Prog ε α := ExceptT.mk (some x)

/-- It returns or raises after finitely many steps. -/
def Ends (x : Prog ε α) : Prop := x.run ≠ none

theorem cases (x : Prog ε α) :
    (x.run = none) ∨ (∃ e, x = throw e) ∨ ∃ a, x = pure a := by
  rcases h : x.run with _ | _ | a
  · exact Or.inl rfl
  · next e => exact Or.inr (Or.inl ⟨e, h⟩)
  · exact Or.inr (Or.inr ⟨a, h⟩)

@[simp] theorem pure_inj {a b : α} : (pure a : Prog ε α) = pure b ↔ a = b := by
  refine ⟨fun h => ?_, fun h => h ▸ rfl⟩
  exact Except.ok.inj (Option.some.inj h)

@[simp] theorem throw_ne_pure {e : ε} {a : α} : (throw e : Prog ε α) ≠ pure a := by
  intro h
  cases Option.some.inj h

@[simp] theorem throw_inj {e f : ε} : (throw e : Prog ε α) = throw f ↔ e = f := by
  refine ⟨fun h => ?_, fun h => h ▸ rfl⟩
  exact Except.error.inj (Option.some.inj h)

@[simp] theorem pure_ne_throw {e : ε} {a : α} : (pure a : Prog ε α) ≠ throw e := by
  intro h
  cases Option.some.inj h

@[simp] theorem of_eq_pure {x : Except ε α} {a : α} : of x = pure a ↔ x = .ok a :=
  ⟨fun h => Option.some.inj h, fun h => congrArg some h⟩

@[simp] theorem of_error (e : ε) : (of (.error e) : Prog ε α) = throw e := rfl

@[simp] theorem of_ok (a : α) : (of (.ok a) : Prog ε α) = pure a := rfl

@[simp] theorem ends_pure (a : α) : Ends (pure a : Prog ε α) := Option.some_ne_none _

@[simp] theorem ends_throw (e : ε) : Ends (throw e : Prog ε α) := Option.some_ne_none _

@[simp] theorem ends_of (x : Except ε α) : Ends (of x) := Option.some_ne_none _

theorem not_ends {x : Prog ε α} (h : x.run = none) : ¬ Ends x := fun he => he h

theorem bind_none {x : Prog ε α} (h : x.run = none) (f : α → Prog ε β) : (x >>= f).run = none := by
  change (x.run >>= _) = none
  rw [h]
  rfl

theorem throw_bind (e : ε) (f : α → Prog ε β) : (throw e >>= f : Prog ε β) = throw e := rfl

theorem bind_eq_pure {x : Prog ε α} {f : α → Prog ε β} {b : β} :
    x >>= f = pure b ↔ ∃ a, x = pure a ∧ f a = pure b := by
  obtain h | ⟨e, rfl⟩ | ⟨a, rfl⟩ := x.cases
  · constructor
    · intro hb
      have hnone := bind_none h f
      rw [hb] at hnone
      cases hnone
    · rintro ⟨a, rfl, -⟩
      cases h
  · simp only [throw_bind, throw_ne_pure, false_and, exists_false]
  · simp only [pure_bind, pure_inj, exists_eq_left']

theorem ends_bind_iff {x : Prog ε α} {f : α → Prog ε β} :
    Ends (x >>= f) ↔ Ends x ∧ ∀ a, x = pure a → Ends (f a) := by
  obtain h | ⟨e, rfl⟩ | ⟨a, rfl⟩ := x.cases
  · simp only [not_ends h, not_ends (bind_none h f), false_and]
  · simp only [throw_bind, ends_throw, throw_ne_pure, IsEmpty.forall_iff, implies_true, and_self]
  · simp only [pure_bind, ends_pure, pure_inj, forall_eq', true_and]

/-- `try` with a handler. -/
theorem ends_tryCatch_iff {x : Prog ε α} {f : ε → Prog ε α} :
    Ends (tryCatch x f) ↔ Ends x ∧ ∀ e, x = throw e → Ends (f e) := by
  obtain h | ⟨e, rfl⟩ | ⟨a, rfl⟩ := x.cases
  · have hc : (tryCatch x f).run = none := by
      change (x.run >>= _) = none
      rw [h]
      rfl
    simp only [not_ends h, not_ends hc, false_and]
  · have hc : tryCatch (throw e : Prog ε α) f = f e := rfl
    simp only [hc, ends_throw, throw_inj, forall_eq', true_and]
  · have hc : tryCatch (pure a : Prog ε α) f = pure a := rfl
    simp only [hc, ends_pure, pure_ne_throw, IsEmpty.forall_iff, implies_true, and_self]

/-- The entry is left: its computation ends, and not with a stride of zero. -/
def Moves (x : Prog ε ℕ) : Prop := Ends x ∧ x ≠ pure 0

@[simp] theorem moves_pure {n : ℕ} : Moves (pure n : Prog ε ℕ) ↔ n ≠ 0 := by
  simp [Moves]

@[simp] theorem moves_throw (e : ε) : Moves (throw e : Prog ε ℕ) := by
  simp [Moves]

@[simp] theorem moves_of {x : Except ε ℕ} : Moves (of x) ↔ x ≠ .ok 0 := by
  simp [Moves]

theorem moves_bind_iff {x : Prog ε α} {f : α → Prog ε ℕ} :
    Moves (x >>= f) ↔ Ends x ∧ ∀ a, x = pure a → Moves (f a) := by
  simp only [Moves, ends_bind_iff, bind_eq_pure, ne_eq]
  constructor
  · rintro ⟨⟨hx, hf⟩, hne⟩
    exact ⟨hx, fun a ha => ⟨hf a ha, fun h => hne ⟨a, ha, h⟩⟩⟩
  · rintro ⟨hx, hf⟩
    refine ⟨⟨hx, fun a ha => (hf a ha).1⟩, ?_⟩
    rintro ⟨a, ha, h⟩
    exact (hf a ha).2 h

/-- The test and the body of a `while`. -/
structure Body (ε σ : Type) where
  more : σ → Bool
  pass : σ → Option (Except ε σ)

/-- The passes of `while`. -/
def Body.passes (b : Body ε σ) (s : σ) : Option (Except ε σ) :=
  if b.more s then
    b.pass s >>= fun r =>
      match r with
      | .ok t => b |>.passes t
      | .error e => some (.error e)
  else some (.ok s)
partial_fixpoint

/-- `while more: pass`. -/
def whileLoop (more : σ → Bool) (pass : σ → Prog ε σ) (s : σ) : Prog ε σ :=
  ExceptT.mk (Body.passes ⟨more, fun t => (pass t).run⟩ s)

section While

variable {more : σ → Bool} {pass : σ → Prog ε σ} {s t : σ}

theorem whileLoop_of_more (h : more s) :
    whileLoop more pass s = pass s >>= whileLoop more pass := by
  change Body.passes ⟨more, _⟩ s = (pass s).run >>= _
  rw [Body.passes, if_pos h]
  refine congrArg _ (funext fun r => ?_)
  cases r <;> rfl

theorem whileLoop_of_not_more (h : ¬ more s) : whileLoop more pass s = pure s := by
  change Body.passes ⟨more, _⟩ s = _
  rw [Body.passes, if_neg h]
  rfl

/-- A pass of the loop from one state to the next. -/
def Pass (more : σ → Bool) (pass : σ → Prog ε σ) (s t : σ) : Prop := more s ∧ pass s = pure t

/-- A loop that ends does not stand still, at any state it arrives at. -/
theorem ends_of_whileLoop (h : Ends (whileLoop more pass s))
    (hst : Relation.ReflTransGen (Pass more pass) s t) (ht : more t) :
    Ends (pass t) ∧ pass t ≠ pure t := by
  let Lively (s : σ) : Prop := ∀ t, Relation.ReflTransGen (Pass more pass) s t → more t →
    Ends (pass t) ∧ pass t ≠ pure t
  have key : ∀ s r, Body.passes ⟨more, fun t => (pass t).run⟩ s = some r → Lively s := by
    refine Body.passes.partial_correctness _ (fun s _ => Lively s) fun f ih s r hr t hst ht => ?_
    by_cases hs : more s
    · rw [if_pos hs] at hr
      obtain hn | ⟨e, he⟩ | ⟨u, hu⟩ := (pass s).cases
      · simp [hn] at hr
      · obtain rfl | ⟨v, hv, -⟩ := hst.cases_head
        · simp [he]
        · simp [Pass, he] at hv
      · simp only [hu] at hr
        have hlive : Lively u := ih u r hr
        obtain rfl | ⟨v, hv, hvt⟩ := hst.cases_head
        · refine ⟨by simp [hu], fun hstay => ?_⟩
          obtain rfl : u = s := by simpa [hu] using hstay
          exact (hlive u .refl hs).2 hstay
        · obtain rfl : u = v := by simpa [hu] using hv.2
          exact hlive t hvt ht
    · obtain rfl | ⟨v, hv, -⟩ := hst.cases_head
      · exact absurd ht hs
      · exact absurd hv.1 hs
  obtain ⟨r, hr⟩ := Option.ne_none_iff_exists'.mp h
  exact key s r hr t hst ht

/-- A loop whose passes move to states with less left ends if no state holds it. -/
theorem ends_whileLoop (left : σ → ℕ) (hleft : ∀ s t, Pass more pass s t → s ≠ t → left t < left s)
    (h : ∀ t, Relation.ReflTransGen (Pass more pass) s t → more t →
      Ends (pass t) ∧ pass t ≠ pure t) :
    Ends (whileLoop more pass s) := by
  induction hn : left s using Nat.strong_induction_on generalizing s with
  | _ n ih =>
    by_cases hs : more s
    · obtain ⟨hends, hne⟩ := h s .refl hs
      rw [whileLoop_of_more hs, ends_bind_iff]
      refine ⟨hends, fun t ht => ?_⟩
      have hst : s ≠ t := by
        rintro rfl
        exact hne ht
      have hpass : Pass more pass s t := ⟨hs, ht⟩
      exact ih (left t) (hn ▸ hleft s t hpass hst) (fun u hu => h u (.head hpass hu)) rfl
    · rw [whileLoop_of_not_more hs]
      exact ends_pure s

end While

end Prog

/-- A place in what is scanned: whether something is left there, and how it moves by a stride. -/
structure Cursor (σ : Type) where
  more : σ → Bool
  move : σ → ℕ → σ
  left : σ → ℕ
  move_zero : ∀ s, move s 0 = s
  left_move_lt : ∀ s n, more s → n ≠ 0 → left (move s n) < left s

namespace Cursor

open Prog

/-- `while offset < lim`, an offset that grows. -/
def upTo (lim : ℕ) : Cursor ℕ where
  more s := s < lim
  move s n := s + n
  left s := lim - s
  move_zero _ := rfl
  left_move_lt s n h hn := by
    have hlt := of_decide_eq_true h
    omega

/-- `while length > 0`, beside an offset that grows as the length shrinks. -/
def counted : Cursor (ℕ × ℤ) where
  more s := 0 < s.2
  move s n := (s.1 + n, s.2 - n)
  left s := s.2.toNat
  move_zero s := by simp
  left_move_lt s n h hn := by
    have hlt := of_decide_eq_true h
    change (s.2 - n).toNat < s.2.toNat
    omega

/-- `while length >= least`, beside an offset that grows as the length shrinks. -/
def atLeast (least : ℤ) : Cursor (ℕ × ℤ) where
  more s := least ≤ s.2
  move s n := (s.1 + n, s.2 - n)
  left s := (s.2 - least + 1).toNat
  move_zero s := by simp
  left_move_lt s n h hn := by
    have hle := of_decide_eq_true h
    change (s.2 - n - least + 1).toNat < (s.2 - least + 1).toNat
    omega

/-- `while length < len_`, beside an offset that grows with the length. -/
def within (len_ : ℕ) : Cursor (ℕ × ℕ) where
  more s := s.2 < len_
  move s n := (s.1 + n, s.2 + n)
  left s := len_ - s.2
  move_zero _ := rfl
  left_move_lt s n h hn := by
    have hlt := of_decide_eq_true h
    change len_ - (s.2 + n) < len_ - s.2
    omega

/-- `while rest`, a rest whose head is cut off. -/
def rest {α : Type} : Cursor (List α) where
  more s := !s.isEmpty
  move s n := s.drop n
  left s := s.length
  move_zero _ := rfl
  left_move_lt s n h hn := by
    have hpos : 0 < s.length := by
      rw [List.length_pos_iff]
      simpa using h
    change (s.drop n).length < s.length
    rw [List.length_drop]
    omega

variable {ε σ : Type} (c : Cursor σ) (entry : σ → Prog ε ℕ)

/-- One pass of a scan: the entry at the cursor tells by how much it moves. -/
def pass (s : σ) : Prog ε σ := entry s >>= fun n => pure (c.move s n)

def scan (s : σ) : Prog ε σ := whileLoop c.more (c.pass entry) s

/-- Every entry the scan arrives at has the property. -/
def Each (P : σ → Prop) (s : σ) : Prop :=
  ∀ t, Relation.ReflTransGen (Pass c.more (c.pass entry)) s t → c.more t → P t

variable {c entry} {P Q : σ → Prop} {s t : σ} {n : ℕ}

theorem move_eq_self (hs : c.more s) : c.move s n = s ↔ n = 0 := by
  constructor
  · intro h
    by_contra hn
    have hlt := c.left_move_lt s n hs hn
    rw [h] at hlt
    exact lt_irrefl _ hlt
  · rintro rfl
    exact c.move_zero s

theorem moves_iff (hs : c.more s) :
    (entry s).Moves ↔ (c.pass entry s).Ends ∧ c.pass entry s ≠ pure s := by
  rw [Moves, pass, ends_bind_iff, ne_eq, ne_eq, bind_eq_pure]
  simp only [ends_pure, implies_true, and_true, pure_inj, move_eq_self hs, exists_eq_right]

theorem left_lt_of_pass (h : Pass c.more (c.pass entry) s t) (hne : s ≠ t) :
    c.left t < c.left s := by
  obtain ⟨hs, hst⟩ := h
  obtain ⟨n, -, hn⟩ := bind_eq_pure.1 hst
  obtain rfl : c.move s n = t := pure_inj.1 hn
  exact c.left_move_lt s n hs fun h0 => hne (by rw [h0, c.move_zero])

/-- A scan ends exactly if it leaves every entry it arrives at. -/
theorem ends_scan_iff : (c.scan entry s).Ends ↔ c.Each entry (fun t => (entry t).Moves) s := by
  constructor
  · intro h t hst ht
    exact (moves_iff ht).mpr (ends_of_whileLoop h hst ht)
  · intro h
    refine ends_whileLoop c.left (fun s t => left_lt_of_pass) fun t hst ht => ?_
    exact (moves_iff ht).mp (h t hst ht)

theorem ends_scan (h : ∀ t, (entry t).Moves) (s : σ) : (c.scan entry s).Ends :=
  ends_scan_iff.2 fun t _ _ => h t

/-- An entry whose own length bounds a scan inside, and is then what the entry takes. -/
theorem moves_sized_iff {len : ℕ} (h : len = 0 → ¬ c.more s) : (do
    let _ ← c.scan entry s
    pure len : Prog ε ℕ).Moves ↔ len ≠ 0 ∧ (c.scan entry s).Ends := by
  rw [moves_bind_iff, and_comm]
  refine and_congr_left fun hends => ?_
  constructor
  · rintro hmoves rfl
    exact moves_pure.1 (hmoves s (whileLoop_of_not_more (h rfl))) rfl
  · exact fun hlen _ _ => moves_pure.2 hlen

theorem each_congr (h : ∀ t, c.more t → (P t ↔ Q t)) : c.Each entry P s ↔ c.Each entry Q s :=
  forall_congr' fun t => forall_congr' fun _ => forall_congr' fun ht => h t ht

/-- The first entry is arrived at. -/
theorem Each.head (h : c.Each entry P s) (hs : c.more s) : P s := h s .refl hs

end Cursor

end Ryu
