import Mathlib.Data.List.Nodup
import Mathlib.Order.Lattice
import Mathlib.Order.WithBot

/-! # Agendas

A list of entries, each with the time it was last served, or none. A scan takes entries from
the front for as long as their times are due. It finds every due entry that counts, at every
time, exactly if no entry stands behind one that was served later.
-/

namespace Ryu

variable {α τ : Type*} [LinearOrder τ]

/-- No entry that counts stands behind one with a later time. -/
def InOrder (live : α → Prop) (key : α → WithBot τ) (l : List α) : Prop :=
  l.Pairwise fun a b => live b → key a ≤ key b

/-- The entries up to the first one that was served after `t`. -/
def dueScan (key : α → WithBot τ) (t : τ) (l : List α) : List α := l.takeWhile (key · ≤ t)

variable {live live' : α → Prop} {key key' : α → WithBot τ} {a b : α} {l l' : List α} {t : τ}

theorem dueScan_cons_of_le (h : key a ≤ t) : dueScan key t (a :: l) = a :: dueScan key t l := by
  simp [dueScan, h]

theorem dueScan_cons_of_lt (h : t < key a) : dueScan key t (a :: l) = [] := by
  simp [dueScan, h]

/-- A time that one key has reached and a later one has not. -/
theorem exists_time_between [NoMinOrder τ] (h : key a < key b) : ∃ t : τ, key a ≤ t ∧ t < key b := by
  cases ha : key a with
  | coe x => exact ⟨x, le_rfl, ha ▸ h⟩
  | bot =>
    rw [ha] at h
    obtain ⟨y, hy⟩ := WithBot.ne_bot_iff_exists.mp h.ne'
    obtain ⟨x, hx⟩ := exists_lt y
    exact ⟨x, bot_le, hy ▸ WithBot.coe_lt_coe.mpr hx⟩

theorem InOrder.mem_dueScan (h : InOrder live key l) (ha : a ∈ l) (hl : live a) (ht : key a ≤ t) :
    a ∈ dueScan key t l := by
  induction l with
  | nil => cases ha
  | cons b l ih =>
    obtain ⟨hb, h⟩ := List.pairwise_cons.mp h
    have hbt : key b ≤ t := by
      obtain rfl | hm := List.mem_cons.mp ha
      · exact ht
      · exact (hb a hm hl).trans ht
    rw [dueScan_cons_of_le hbt]
    obtain rfl | hm := List.mem_cons.mp ha
    · exact List.mem_cons_self
    · exact List.mem_cons_of_mem b (ih h hm)

/-- The order is what the early end of the scan rests on. -/
theorem inOrder_iff_mem_dueScan [NoMinOrder τ] (hd : l.Nodup) :
    InOrder live key l ↔ ∀ (t : τ), ∀ a ∈ l, live a → key a ≤ t → a ∈ dueScan key t l := by
  refine ⟨fun h t a ha hl ht => h.mem_dueScan ha hl ht, fun h => ?_⟩
  induction l with
  | nil => exact List.Pairwise.nil
  | cons b l ih =>
    obtain ⟨hb, hd⟩ := List.nodup_cons.mp hd
    have hle : ∀ a ∈ l, live a → key b ≤ key a := by
      intro a ha hl
      by_contra hc
      obtain ⟨t, h1, h2⟩ := exists_time_between (not_le.mp hc)
      have hm := h t a (List.mem_cons_of_mem b ha) hl h1
      rw [dueScan_cons_of_lt h2] at hm
      cases hm
    refine List.pairwise_cons.mpr ⟨hle, ih hd fun t a ha hl ht => ?_⟩
    have hm := h t a (List.mem_cons_of_mem b ha) hl ht
    rw [dueScan_cons_of_le ((hle a ha hl).trans ht)] at hm
    obtain rfl | hm := List.mem_cons.mp hm
    · exact absurd ha hb
    · exact hm

/-! ## Moving entries -/

section Moving

variable (hlive : ∀ b ∈ l, b ≠ a → (live' b ↔ live b)) (hkey : ∀ b ∈ l, b ≠ a → key' b = key b)
include hlive hkey

theorem InOrder.congr_of_notMem (h : InOrder live key l) (ha : a ∉ l) : InOrder live' key' l := by
  have hne : ∀ b ∈ l, b ≠ a := fun b hb he => ha (he ▸ hb)
  refine List.Pairwise.imp_of_mem (fun hb hc hle hl => ?_) h
  rw [hkey _ hb (hne _ hb), hkey _ hc (hne _ hc)]
  exact hle ((hlive _ hc (hne _ hc)).mp hl)

variable [DecidableEq α]

theorem InOrder.erase_congr (h : InOrder live key l) (hd : l.Nodup) :
    InOrder live' key' (l.erase a) := by
  have hs : l.erase a ⊆ l := List.erase_subset
  exact InOrder.congr_of_notMem (fun b hb => hlive b (hs hb)) (fun b hb => hkey b (hs hb))
    (h.sublist List.erase_sublist) hd.not_mem_erase

/-- An entry that loses its time is moved to the front. -/
theorem InOrder.moveToFront (h : InOrder live key l) (hd : l.Nodup) (ha : key' a = ⊥) :
    InOrder live' key' (a :: l.erase a) :=
  List.pairwise_cons.mpr ⟨fun _ _ _ => ha ▸ bot_le, h.erase_congr hlive hkey hd⟩

/-- An entry that was just served is moved to the end. -/
theorem InOrder.moveToEnd_iff (h : InOrder live key l) (hd : l.Nodup) :
    InOrder live' key' (l.erase a ++ [a]) ↔ (live' a → ∀ b ∈ l, b ≠ a → key b ≤ key' a) := by
  have hr := h.erase_congr hlive hkey hd
  have hmem (b : α) : b ∈ l.erase a ↔ b ≠ a ∧ b ∈ l := hd.mem_erase_iff
  constructor
  · intro h' hl b hb hne
    rw [← hkey b hb hne]
    exact (List.pairwise_append.mp h').2.2 b ((hmem b).mpr ⟨hne, hb⟩) a (List.mem_singleton_self a) hl
  · intro hle
    refine List.pairwise_append.mpr ⟨hr, List.pairwise_singleton _ _, fun b hb c hc hl => ?_⟩
    obtain rfl := List.mem_singleton.mp hc
    obtain ⟨hne, hb⟩ := (hmem b).mp hb
    rw [hkey b hb hne]
    exact hle hl b hb hne

/-- An entry is changed where it stands, and its time does not grow. -/
theorem InOrder.inPlace_iff (h : InOrder live key l) (hd : l.Nodup) (ha : a ∈ l)
    (hle : key' a ≤ key a) :
    InOrder live' key' l ↔ (live' a → ∀ b ∈ l.takeWhile (· ≠ a), key b ≤ key' a) := by
  induction l with
  | nil => cases ha
  | cons c l ih =>
    obtain ⟨hc, hd⟩ := List.nodup_cons.mp hd
    obtain ⟨hfirst, hrest⟩ := List.pairwise_cons.mp h
    have hlive' : ∀ b ∈ l, b ≠ a → (live' b ↔ live b) :=
      fun b hb => hlive b (List.mem_cons_of_mem c hb)
    have hkey' : ∀ b ∈ l, b ≠ a → key' b = key b := fun b hb => hkey b (List.mem_cons_of_mem c hb)
    by_cases hca : c = a
    · subst hca
      refine iff_of_true (List.pairwise_cons.mpr ⟨fun b hb hl => ?_, ?_⟩) (by simp)
      · have hbc : b ≠ c := fun he => hc (he ▸ hb)
        rw [hkey' b hb hbc]
        exact hle.trans (hfirst b hb ((hlive' b hb hbc).mp hl))
      · exact InOrder.congr_of_notMem hlive' hkey' hrest hc
    · have hal : a ∈ l := (List.mem_cons.mp ha).resolve_left (Ne.symm hca)
      have hkc : key' c = key c := hkey c List.mem_cons_self hca
      rw [InOrder, List.pairwise_cons]
      refine (and_congr_right' (ih hlive' hkey' hrest hd hal)).trans ?_
      have htw : (c :: l).takeWhile (· ≠ a) = c :: l.takeWhile (· ≠ a) := by simp [hca]
      rw [htw]
      constructor
      · rintro ⟨h1, h2⟩ hl b hb
        obtain rfl | hb := List.mem_cons.mp hb
        · exact hkc ▸ h1 a hal hl
        · exact h2 hl b hb
      · intro h1
        refine ⟨fun b hb hl => ?_, fun hl b hb => h1 hl b (List.mem_cons_of_mem c hb)⟩
        rw [hkc]
        by_cases hba : b = a
        · subst hba
          exact h1 hl c List.mem_cons_self
        · rw [hkey' b hb hba]
          exact hfirst b hb ((hlive' b hb hba).mp hl)

end Moving

end Ryu
