import Mathlib.Data.List.Induction
import Mathlib.Logic.Function.Basic

/-! # Runs of a deterministic machine

A machine consumes events one by one. A property that each step keeps holds in every
state of a run; a property that a step keeps exactly when a guard holds is kept by a
whole run exactly when every step of it meets the guard.
-/

namespace Ryu

variable {σ ε : Type*} {step : σ → ε → σ}

/-- The property `P` holds in every state of the run of `es` from `s`, the first included. -/
def Throughout (step : σ → ε → σ) (P : σ → Prop) : σ → List ε → Prop
  | s, [] => P s
  | s, e :: es => P s ∧ Throughout step P (step s e) es

/-- The guard `G` holds of every step of the run of `es` from `s`. -/
def EveryStep (step : σ → ε → σ) (G : σ → ε → Prop) : σ → List ε → Prop
  | _, [] => True
  | s, e :: es => G s e ∧ EveryStep step G (step s e) es

instance EveryStep.decidable (step : σ → ε → σ) (G : σ → ε → Prop) [∀ s e, Decidable (G s e)] :
    ∀ s es, Decidable (EveryStep step G s es)
  | _, [] => inferInstanceAs (Decidable True)
  | s, e :: es =>
    have := decidable step G (step s e) es
    inferInstanceAs (Decidable (G s e ∧ EveryStep step G (step s e) es))

variable {P : σ → Prop} {G : σ → ε → Prop} {s : σ}

theorem Throughout.head {es : List ε} (h : Throughout step P s es) : P s := by
  cases es with
  | nil => exact h
  | cons => exact h.1

theorem throughout_iff_initial {es : List ε} :
    Throughout step P s es ↔ ∀ es', es' <+: es → P (es'.foldl step s) := by
  induction es generalizing s with
  | nil => simp [Throughout]
  | cons e es ih =>
    simp only [Throughout, ih]
    constructor
    · rintro ⟨hs, h⟩ es' hp
      cases es' with
      | nil => exact hs
      | cons e' es' =>
        obtain ⟨rfl, hp'⟩ := List.cons_prefix_cons.mp hp
        exact h es' hp'
    · intro h
      exact ⟨h [] List.nil_prefix,
        fun es' hp => h (e :: es') (List.cons_prefix_cons.mpr ⟨rfl, hp⟩)⟩

theorem Throughout.last {es : List ε} (h : Throughout step P s es) : P (es.foldl step s) :=
  throughout_iff_initial.1 h es List.prefix_rfl

theorem Throughout.mono {Q : σ → Prop} (hPQ : ∀ s, P s → Q s) {es : List ε}
    (h : Throughout step P s es) : Throughout step Q s es :=
  throughout_iff_initial.2 fun es' hp => hPQ _ (throughout_iff_initial.1 h es' hp)

theorem everyStep_and {H : σ → ε → Prop} {es : List ε} :
    EveryStep step (fun s e => G s e ∧ H s e) s es ↔
      EveryStep step G s es ∧ EveryStep step H s es := by
  induction es generalizing s with
  | nil => exact (and_self_iff).symm
  | cons e es ih =>
    simp only [EveryStep, ih]
    exact and_and_and_comm

/-- The invariant rule. -/
theorem throughout_of_step (h0 : P s) (hs : ∀ s e, P s → P (step s e)) (es : List ε) :
    Throughout step P s es := by
  induction es generalizing s with
  | nil => exact h0
  | cons e es ih => exact ⟨h0, ih (hs s e h0)⟩

/-- The invariant rule for runs whose steps meet a guard. -/
theorem throughout_of_everyStep (h0 : P s) (hs : ∀ s e, P s → G s e → P (step s e))
    {es : List ε} (hg : EveryStep step G s es) : Throughout step P s es := by
  induction es generalizing s with
  | nil => exact h0
  | cons e es ih => exact ⟨h0, ih (hs s e h0 hg.1) hg.2⟩

/-- What every step does that meets the guard along an invariant. -/
theorem everyStep_of_everyStep {H : σ → ε → Prop} (h0 : P s)
    (hs : ∀ s e, P s → G s e → H s e ∧ P (step s e)) {es : List ε} (hg : EveryStep step G s es) :
    EveryStep step H s es := by
  induction es generalizing s with
  | nil => trivial
  | cons e es ih => exact ⟨(hs s e h0 hg.1).1, ih (hs s e h0 hg.1).2 hg.2⟩

/-- Two guards that say the same along an invariant, for events of a kind. -/
theorem everyStep_congr {H : σ → ε → Prop} {Q : ε → Prop} (h0 : P s)
    (hP : ∀ s e, P s → Q e → P (step s e)) (hs : ∀ s e, P s → Q e → (G s e ↔ H s e)) {es : List ε}
    (hes : ∀ e ∈ es, Q e) : EveryStep step G s es ↔ EveryStep step H s es := by
  induction es generalizing s with
  | nil => exact Iff.rfl
  | cons e es ih =>
    obtain ⟨he, hes⟩ := List.forall_mem_cons.mp hes
    exact and_congr (hs s e h0 he) (ih (hP s e h0 he) hes)

/-- The guard is also necessary, wherever a step that keeps `P` along `I` must meet it. -/
theorem everyStep_of_throughout {I : σ → Prop} {N : σ → ε → Prop}
    (hI : ∀ s e, I s → I (step s e))
    (hs : ∀ s e, I s → N s e → P s → P (step s e) → G s e) (h0 : I s) {es : List ε}
    (hn : EveryStep step N s es) (hP : Throughout step P s es) : EveryStep step G s es := by
  induction es generalizing s with
  | nil => trivial
  | cons e es ih =>
    exact ⟨hs s e h0 hn.1 hP.1 hP.2.head, ih (hI s e h0) hn.2 hP.2⟩

/-- If, along an invariant `I` that holds as long as `P` does, a step keeps `P` exactly when it
meets the guard, then `P` holds throughout a run exactly when every step of the run meets the
guard. -/
theorem throughout_iff_everyStep_while {I : σ → Prop}
    (hI : ∀ s e, I s → P s → P (step s e) → I (step s e))
    (hs : ∀ s e, I s → P s → (P (step s e) ↔ G s e)) (hI0 : I s) (h0 : P s) (es : List ε) :
    Throughout step P s es ↔ EveryStep step G s es := by
  induction es generalizing s with
  | nil => exact ⟨fun _ => trivial, fun _ => h0⟩
  | cons e es ih =>
    constructor
    · rintro ⟨-, h⟩
      exact ⟨(hs s e hI0 h0).mp h.head, (ih (hI s e hI0 h0 h.head) h.head).mp h⟩
    · rintro ⟨hg, h⟩
      have hP := (hs s e hI0 h0).mpr hg
      exact ⟨h0, (ih (hI s e hI0 h0 hP) hP).mpr h⟩

theorem throughout_iff_everyStep {I : σ → Prop} (hI : ∀ s e, I s → I (step s e))
    (hs : ∀ s e, I s → P s → (P (step s e) ↔ G s e)) (hI0 : I s) (h0 : P s) (es : List ε) :
    Throughout step P s es ↔ EveryStep step G s es :=
  throughout_iff_everyStep_while (fun s e h _ _ => hI s e h) hs hI0 h0 es

/-- The same where a step must also do something `N` of its own. -/
theorem everyStep_and_throughout_iff {I : σ → Prop} {N : σ → ε → Prop}
    (hI : ∀ s e, I s → I (step s e))
    (hs : ∀ s e, I s → P s → (N s e ∧ P (step s e) ↔ G s e)) (hI0 : I s) (h0 : P s) (es : List ε) :
    EveryStep step N s es ∧ Throughout step P s es ↔ EveryStep step G s es := by
  induction es generalizing s with
  | nil => exact ⟨fun _ => trivial, fun _ => ⟨trivial, h0⟩⟩
  | cons e es ih =>
    constructor
    · rintro ⟨⟨hn, hN⟩, -, hP⟩
      exact ⟨(hs s e hI0 h0).mp ⟨hn, hP.head⟩, (ih (hI s e hI0) hP.head).mp ⟨hN, hP⟩⟩
    · rintro ⟨hg, hG⟩
      obtain ⟨hn, hp⟩ := (hs s e hI0 h0).mpr hg
      obtain ⟨hN, hP⟩ := (ih (hI s e hI0) hp).mpr hG
      exact ⟨⟨hn, hN⟩, h0, hP⟩

/-- Of machines that step on their own, each runs on the events meant for it. -/
theorem foldl_update_apply {κ : Type*} [DecidableEq κ] (step : σ → ε → σ) (key : ε → κ)
    (es : List ε) (s : κ → σ) (k : κ) :
    es.foldl (fun s e => Function.update s (key e) (step (s (key e)) e)) s k =
      (es.filter (key · = k)).foldl step (s k) := by
  induction es generalizing s with
  | nil => rfl
  | cons e es ih =>
    rw [List.foldl_cons, ih, List.filter_cons]
    by_cases h : key e = k
    · subst h
      simp
    · rw [Function.update_of_ne (Ne.symm h)]
      simp [h]

end Ryu
