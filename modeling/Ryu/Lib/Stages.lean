import Mathlib.Data.List.TakeWhile

/-! # Updates in stages

An update checks and writes one slot of a state after the other, and ends at the first check that
refuses. What was written until then stays. If the stages work apart from each other, each check
and each comparison says the same of the first state as of the one it is made on.
-/

namespace Ryu

/-- A stage: its check, whether it has something to write, and how it writes it. -/
structure Stage (σ ε : Type) where
  Slot : Type
  /-- The part of the state the stage writes. -/
  slot : σ → Slot
  refuses : σ → Option ε
  changes : σ → Bool
  apply : σ → σ

namespace Stage

variable {σ ε : Type} {st st' : Stage σ ε} {l : List (Stage σ ε)} {s : σ}

/-- What the stage leaves if its check passes. -/
def write (st : Stage σ ε) (s : σ) : σ := if st.changes s then st.apply s else s

/-- The stages in order, up to the first that refuses. -/
def runAll : List (Stage σ ε) → σ → σ × Option ε
  | [], s => (s, none)
  | st :: l, s =>
    match st.refuses s with
    | some e => (s, some e)
    | none => runAll l (st.write s)

/-- The stages before the first that refuses. -/
def passed (l : List (Stage σ ε)) (s : σ) : List (Stage σ ε) :=
  l.takeWhile fun st => (st.refuses s).isNone

/-- What a stage that changes something puts into its slot shows in the view of the state. -/
def ShowsIn {τ : Type} (view : σ → τ) (st : Stage σ ε) : Prop :=
  ∀ s s', st.changes s → st.slot s' = st.slot (st.apply s) → view s' ≠ view s

/-- The stages `st` and then `st'` do not meet. -/
structure Apart (st st' : Stage σ ε) : Prop where
  refuses : ∀ s, st'.refuses (st.apply s) = st'.refuses s
  changes : ∀ s, st'.changes (st.apply s) = st'.changes s
  kept : ∀ s, st.slot (st'.apply s) = st.slot s
  untouched : ∀ s, st'.slot (st.apply s) = st'.slot s
  applied : ∀ s, st'.slot (st'.apply (st.apply s)) = st'.slot (st'.apply s)

theorem write_of_changes (h : st.changes s) : st.write s = st.apply s := if_pos h

theorem write_of_not_changes (h : st.changes s = false) : st.write s = s := by
  simp [write, h]

/-- What holds of an application holds of a write. -/
theorem write_induction {P : σ → Prop} (hs : P s) (ha : P (st.apply s)) : P (st.write s) := by
  unfold write
  split_ifs
  · exact ha
  · exact hs

namespace Apart

theorem refuses_write (h : Apart st st') (s : σ) : st'.refuses (st.write s) = st'.refuses s :=
  write_induction (P := fun x => st'.refuses x = st'.refuses s) rfl (h.refuses s)

theorem changes_write (h : Apart st st') (s : σ) : st'.changes (st.write s) = st'.changes s :=
  write_induction (P := fun x => st'.changes x = st'.changes s) rfl (h.changes s)

theorem slot_write_write (h : Apart st st') (s : σ) :
    st'.slot (st'.write (st.write s)) = st'.slot (st'.write s) := by
  have ha : st'.slot (st'.apply (st.write s)) = st'.slot (st'.apply s) :=
    write_induction (P := fun x => st'.slot (st'.apply x) = st'.slot (st'.apply s)) rfl (h.applied s)
  have hs : st'.slot (st.write s) = st'.slot s :=
    write_induction (P := fun x => st'.slot x = st'.slot s) rfl (h.untouched s)
  cases hc : st'.changes s with
  | true => rw [write_of_changes hc, write_of_changes ((h.changes_write s).trans hc), ha]
  | false => rw [write_of_not_changes hc, write_of_not_changes ((h.changes_write s).trans hc), hs]

end Apart

theorem runAll_cons_of_refuses {e : ε} (h : st.refuses s = some e) :
    runAll (st :: l) s = (s, some e) := by
  rw [runAll, h]

theorem runAll_cons_of_passes (h : st.refuses s = none) :
    runAll (st :: l) s = runAll l (st.write s) := by
  rw [runAll, h]

theorem runAll_append (l l' : List (Stage σ ε)) (s : σ) :
    runAll (l ++ l') s = match runAll l s with
      | (s', some e) => (s', some e)
      | (s', none) => runAll l' s' := by
  induction l generalizing s with
  | nil => rfl
  | cons st l ih =>
    cases h : st.refuses s with
    | some e => rw [List.cons_append, runAll_cons_of_refuses h, runAll_cons_of_refuses h]
    | none => rw [List.cons_append, runAll_cons_of_passes h, runAll_cons_of_passes h, ih]

/-- The invariant rule. -/
theorem runAll_keeps {P : σ → Prop} (hl : ∀ st ∈ l, ∀ s, P s → P (st.apply s)) (hs : P s) :
    P (runAll l s).1 := by
  induction l generalizing s with
  | nil => exact hs
  | cons st l ih =>
    cases h : st.refuses s with
    | some e => rwa [runAll_cons_of_refuses h]
    | none =>
      rw [runAll_cons_of_passes h]
      apply ih fun st' hst' => hl st' (List.mem_cons_of_mem st hst')
      exact write_induction hs (hl st List.mem_cons_self s hs)

theorem slot_runAll_of_apart (h : ∀ st' ∈ l, Apart st st') (s : σ) :
    st.slot (runAll l s).1 = st.slot s :=
  runAll_keeps (P := fun x => st.slot x = st.slot s)
    (fun st' hst' x hx => ((h st' hst').kept x).trans hx) rfl

/-- The update raises exactly if a check refuses the first state. -/
theorem runAll_snd_eq_none_iff (h : l.Pairwise Apart) (s : σ) :
    (runAll l s).2 = none ↔ ∀ st ∈ l, st.refuses s = none := by
  induction l generalizing s with
  | nil => simp [runAll]
  | cons st l ih =>
    obtain ⟨hst, hl⟩ := List.pairwise_cons.mp h
    rw [List.forall_mem_cons]
    cases hr : st.refuses s with
    | some e => simp [runAll_cons_of_refuses hr]
    | none =>
      rw [runAll_cons_of_passes hr, ih hl]
      have hw : ∀ st' ∈ l, st'.refuses (st.write s) = st'.refuses s :=
        fun st' hst' => (hst st' hst').refuses_write s
      constructor
      · exact fun hp => ⟨rfl, fun st' hst' => (hw st' hst').symm.trans (hp st' hst')⟩
      · exact fun hp st' hst' => (hw st' hst').trans (hp.2 st' hst')

theorem passed_write (h : ∀ st' ∈ l, Apart st st') (s : σ) : passed l (st.write s) = passed l s := by
  induction l with
  | nil => rfl
  | cons st' l ih =>
    obtain ⟨h', hl⟩ := List.forall_mem_cons.mp h
    unfold passed at ih ⊢
    rw [List.takeWhile_cons, List.takeWhile_cons, h'.refuses_write, ih hl]

/-- What the slot of a stage holds after an update that passed its check. -/
theorem slot_runAll (h : l.Pairwise Apart) (s : σ) :
    ∀ st ∈ passed l s, st.slot (runAll l s).1 = st.slot (st.write s) := by
  induction l generalizing s with
  | nil => simp [passed]
  | cons st l ih =>
    obtain ⟨hst, hl⟩ := List.pairwise_cons.mp h
    cases hr : st.refuses s with
    | some e => simp [passed, hr]
    | none =>
      rw [runAll_cons_of_passes hr]
      intro st' hst'
      rw [passed, List.takeWhile_cons_of_pos (by simp [hr])] at hst'
      obtain rfl | hst' := List.mem_cons.mp hst'
      · exact slot_runAll_of_apart hst _
      · have hmem := (List.takeWhile_subset _) hst'
        rw [ih hl _ st' ((passed_write hst s).symm ▸ hst'), (hst st' hmem).slot_write_write s]

theorem runAll_of_unchanged (h : ∀ st ∈ passed l s, st.changes s = false) :
    (runAll l s).1 = s := by
  induction l with
  | nil => rfl
  | cons st l ih =>
    cases hr : st.refuses s with
    | some e => rw [runAll_cons_of_refuses hr]
    | none =>
      rw [passed, List.takeWhile_cons_of_pos (by simp [hr]), List.forall_mem_cons] at h
      rw [runAll_cons_of_passes hr, write_of_not_changes h.1]
      exact ih h.2

/-- An update leaves the view of the state as it was exactly if no stage before the first that
refuses changes something. -/
theorem view_runAll_eq_iff {τ : Type} {view : σ → τ} (h : l.Pairwise Apart)
    (hh : ∀ st ∈ l, st.ShowsIn view) (s : σ) :
    view (runAll l s).1 = view s ↔ ∀ st ∈ passed l s, st.changes s = false := by
  constructor
  · intro he st hst
    by_contra hc
    rw [Bool.not_eq_false] at hc
    apply hh st (List.takeWhile_subset _ hst) s _ hc _ he
    rw [slot_runAll h s st hst, write_of_changes hc]
  · exact fun hu => congrArg view (runAll_of_unchanged hu)

end Stage

end Ryu
