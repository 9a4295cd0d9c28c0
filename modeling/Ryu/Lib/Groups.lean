import Mathlib.Data.List.Induction
import Ryu.Lib.Numeral

/-! # Numbers written in groups

A number of a fixed number of digits in a large base is written digit by digit, each as a
numeral, with a separator between them. It reads back as the number.
-/

namespace Ryu

/-- The digits of `n` in base `b`, as many as are asked for, most significant first. -/
def toGroups (b : ℕ) : ℕ → ℕ → List ℕ
  | 0, _ => []
  | k + 1, n => toGroups b k (n / b) ++ [n % b]

def ofGroups (b : ℕ) (gs : List ℕ) : ℕ := gs.foldl (fun a g => b * a + g) 0

/-- The separator, the base and the width of a group, how many values a group has, and how many
groups there are. -/
structure GroupFormat where
  sep : Char
  base : ℕ
  width : ℕ
  size : ℕ
  count : ℕ
  sep_val : Numeral.charVal sep = none
  base_gt : 1 < base
  base_le : base ≤ 16
  size_pos : 0 < size
  count_gt : 1 < count

open Numeral

variable {b k n : ℕ} {gs : List ℕ} {F : GroupFormat} {c : Char}

theorem ofGroups_concat (b : ℕ) (gs : List ℕ) (g : ℕ) :
    ofGroups b (gs ++ [g]) = b * ofGroups b gs + g := by
  simp [ofGroups, List.foldl_append]

theorem ofGroups_toGroups (h : n < b ^ k) : ofGroups b (toGroups b k n) = n := by
  induction k generalizing n with
  | zero =>
    obtain rfl : n = 0 := by simpa using h
    rfl
  | succ k ih =>
    have hd : n / b < b ^ k := Nat.div_lt_of_lt_mul (by rwa [pow_succ'] at h)
    rw [toGroups, ofGroups_concat, ih hd, Nat.div_add_mod]

theorem ofGroups_lt (h : ∀ g ∈ gs, g < b) : ofGroups b gs < b ^ gs.length := by
  induction gs using List.reverseRecOn with
  | nil => simp [ofGroups]
  | append_singleton gs g ih =>
    have hgs := ih fun g hg => h g (List.mem_append_left _ hg)
    have hg := h g (by simp)
    rw [ofGroups_concat, List.length_append, List.length_singleton, pow_succ']
    calc b * ofGroups b gs + g < b * ofGroups b gs + b := by omega
      _ = b * (ofGroups b gs + 1) := (Nat.mul_succ b _).symm
      _ ≤ b * b ^ gs.length := Nat.mul_le_mul_left b hgs

theorem length_toGroups (b k n : ℕ) : (toGroups b k n).length = k := by
  induction k generalizing n with
  | zero => rfl
  | succ k ih => simp [toGroups, ih]

theorem lt_of_mem_toGroups (hb : 0 < b) {g : ℕ} (h : g ∈ toGroups b k n) : g < b := by
  induction k generalizing n with
  | zero => cases h
  | succ k ih =>
    rcases List.mem_append.mp h with h | h
    · exact ih h
    · rw [List.mem_singleton.mp h]
      exact Nat.mod_lt n hb

theorem mem_intercalate {ls : List Text} {s : Char} (h : c ∈ [s].intercalate ls) :
    c = s ∨ ∃ l ∈ ls, c ∈ l := by
  induction ls with
  | nil => cases h
  | cons l ls ih =>
    cases ls with
    | nil => exact Or.inr ⟨l, List.mem_cons_self, by simpa using h⟩
    | cons l' ls =>
      rw [List.intercalate_cons_cons] at h
      rcases List.mem_append.mp h with h | h
      · rcases List.mem_append.mp h with h | h
        · exact Or.inr ⟨l, List.mem_cons_self, h⟩
        · exact Or.inl (List.mem_singleton.mp h)
      · rcases ih h with h | ⟨m, hm, hc⟩
        · exact Or.inl h
        · exact Or.inr ⟨m, List.mem_cons_of_mem _ hm, hc⟩

theorem forall_of_mapM_some {α β : Type} {f : α → Option β} {l : List α} {r : List β}
    (h : l.mapM f = some r) : r.length = l.length ∧ ∀ a ∈ l, (f a).isSome := by
  induction l generalizing r with
  | nil =>
    obtain rfl := Option.some.inj h
    simp
  | cons a l ih =>
    rw [List.mapM_cons] at h
    obtain ⟨b, hb, h⟩ := Option.bind_eq_some_iff.mp h
    obtain ⟨r', hr', h⟩ := Option.bind_eq_some_iff.mp h
    obtain rfl := Option.some.inj h
    obtain ⟨hlen, hsome⟩ := ih hr'
    exact ⟨congrArg Nat.succ hlen, List.forall_mem_cons.mpr ⟨by rw [hb]; rfl, hsome⟩⟩

namespace GroupFormat

/-- One group as a numeral. -/
def group (F : GroupFormat) (g : ℕ) : Text := pad F.width (Nat.toDigits F.base g)

def write (F : GroupFormat) (n : ℕ) : Text :=
  [F.sep].intercalate ((toGroups F.size F.count n).map F.group)

def read (F : GroupFormat) (t : Text) : Option ℕ :=
  match (t.splitOn F.sep).mapM (ofDigits F.base 0) with
  | none => none
  | some gs =>
    if gs.length = F.count ∧ ∀ g ∈ gs, g < F.size then some (ofGroups F.size gs) else none

theorem ofDigits_group (F : GroupFormat) (g : ℕ) : ofDigits F.base 0 (F.group g) = some g := by
  have hb : 0 < F.base := Nat.lt_of_succ_lt F.base_gt
  rw [group, ofDigits_pad hb, ofDigits_toDigits F.base_gt F.base_le]

theorem charVal_of_mem_group {g : ℕ} (h : c ∈ F.group g) : (charVal c).isSome := by
  have hd := digit?_of_ofDigits (F.ofDigits_group g) h
  cases hv : charVal c with
  | none => simp [digit?, hv] at hd
  | some d => rfl

theorem sep_not_mem_group (F : GroupFormat) (g : ℕ) : F.sep ∉ F.group g := by
  intro h
  have hs := charVal_of_mem_group h
  simp [F.sep_val] at hs

theorem read_write (h : n < F.size ^ F.count) : F.read (F.write n) = some n := by
  have hgs : (toGroups F.size F.count n).map F.group ≠ [] := by
    have hl := length_toGroups F.size F.count n
    have hc := F.count_gt
    intro hnil
    rw [List.map_eq_nil_iff.mp hnil] at hl
    simp only [List.length_nil] at hl
    omega
  have hsplit : (F.write n).splitOn F.sep = (toGroups F.size F.count n).map F.group := by
    refine List.splitOn_intercalate _ (fun l hl => ?_) hgs
    obtain ⟨g, -, rfl⟩ := List.mem_map.mp hl
    exact F.sep_not_mem_group g
  have hmap : ((toGroups F.size F.count n).map F.group).mapM (ofDigits F.base 0) =
      some (toGroups F.size F.count n) := by
    rw [List.mapM_map]
    have hf : (ofDigits F.base 0 ∘ F.group) = fun g => some g := funext F.ofDigits_group
    rw [hf]
    exact List.mapM_pure.trans (by simp)
  have hlt : ∀ g ∈ toGroups F.size F.count n, g < F.size := fun g hg =>
    lt_of_mem_toGroups F.size_pos hg
  rw [read, hsplit, hmap]
  simp only [length_toGroups, true_and]
  rw [if_pos hlt, ofGroups_toGroups h]

theorem read_lt {t : Text} (h : F.read t = some n) : n < F.size ^ F.count := by
  unfold read at h
  split at h
  · cases h
  · next gs _ =>
    split at h
    · next hgs =>
      cases h
      exact hgs.1 ▸ ofGroups_lt hgs.2
    · cases h

/-- What reads as a number has more than one group. -/
theorem sep_mem_of_read {t : Text} (h : F.read t = some n) : F.sep ∈ t := by
  unfold read at h
  split at h
  · cases h
  · next gs hgs =>
    split at h
    · next hlen =>
      by_contra hmem
      have hsplit := (forall_of_mapM_some hgs).1
      rw [List.splitOn_eq_singleton hmem, List.length_singleton] at hsplit
      have hc := F.count_gt
      omega
    · cases h

/-- What reads as a number consists of digits and separators. -/
theorem mem_of_read {t : Text} (h : F.read t = some n) (hc : c ∈ t) :
    c = F.sep ∨ (charVal c).isSome := by
  unfold read at h
  split at h
  · cases h
  · next gs hgs =>
    have ht : [F.sep].intercalate (t.splitOn F.sep) = t := List.intercalate_splitOn F.sep
    rw [← ht] at hc
    rcases mem_intercalate hc with hsep | ⟨l, hl, hcl⟩
    · exact Or.inl hsep
    · obtain ⟨g, hg⟩ := Option.isSome_iff_exists.mp ((forall_of_mapM_some hgs).2 l hl)
      have hd := digit?_of_ofDigits hg hcl
      right
      cases hv : charVal c with
      | none => simp [digit?, hv] at hd
      | some d => rfl

theorem not_mem_write (hs : c ≠ F.sep) (hc : charVal c = none) : c ∉ F.write n := by
  intro h
  rcases mem_intercalate h with h | ⟨l, hl, h⟩
  · exact hs h
  · obtain ⟨g, -, rfl⟩ := List.mem_map.mp hl
    have hv := charVal_of_mem_group h
    simp [hc] at hv

/-- There are two groups or more, with a separator between them. -/
theorem sep_mem_write (F : GroupFormat) (n : ℕ) : F.sep ∈ F.write n := by
  have hl := length_toGroups F.size F.count n
  have hc := F.count_gt
  cases hg : toGroups F.size F.count n with
  | nil =>
    simp only [hg, List.length_nil] at hl
    omega
  | cons a l =>
    cases l with
    | nil =>
      simp only [hg, List.length_cons, List.length_nil] at hl
      omega
    | cons a' l => simp [write, hg]

theorem isDigits_write (F : GroupFormat) (hs : F.sep.isDigit = false) (n : ℕ) :
    isDigits (F.write n) = false := by
  have hall : (F.write n).all Char.isDigit = false :=
    List.all_eq_false.mpr ⟨F.sep, F.sep_mem_write n, by simp [hs]⟩
  simp [isDigits, hall]

end GroupFormat

end Ryu
