import Mathlib.Data.List.Pairwise

/-! # Tables

A table holds at most one entry of each key. An entry that is put takes the place of the one with
its key, if there is one, and stands at the end.
-/

namespace Ryu.Table

variable {α κ : Type*} [DecidableEq κ] (key : α → κ)

/-- The table without the entry of a key. -/
def remove (table : List α) (k : κ) : List α := table.filter fun g => key g ≠ k

def put (table : List α) (f : α) : List α := remove key table (key f) ++ [f]

/-- The entries are put one after the other. -/
def putAll (table entries : List α) : List α := entries.foldl (put key) table

/-- The keys are removed one after the other. -/
def removeAll (table : List α) (keys : List κ) : List α := keys.foldl (remove key) table

/-- No two entries have one key. -/
def Keyed (table : List α) : Prop := table.Pairwise fun f g => key f ≠ key g

variable {key} {table entries : List α} {f g : α} {k : κ}

theorem mem_remove : g ∈ remove key table k ↔ g ∈ table ∧ key g ≠ k := by
  simp [remove]

theorem mem_put : g ∈ put key table f ↔ g = f ∨ g ∈ table ∧ key g ≠ key f := by
  rw [put, List.mem_append, mem_remove, List.mem_singleton, or_comm]

theorem remove_sublist : (remove key table k).Sublist table := List.filter_sublist

theorem mem_removeAll {keys : List κ} :
    g ∈ removeAll key table keys ↔ g ∈ table ∧ key g ∉ keys := by
  induction keys generalizing table with
  | nil => simp [removeAll]
  | cons k keys ih =>
    simp only [removeAll, List.foldl_cons] at ih ⊢
    rw [ih, mem_remove, List.mem_cons, not_or, and_assoc]

theorem Keyed.remove (h : Keyed key table) (k : κ) : Keyed key (remove key table k) :=
  h.sublist remove_sublist

theorem Keyed.put (h : Keyed key table) (f : α) : Keyed key (put key table f) := by
  refine List.pairwise_append.mpr ⟨h.remove _, List.pairwise_singleton _ _, ?_⟩
  intro g hg f' hf'
  obtain rfl : f' = f := by simpa using hf'
  exact (mem_remove.1 hg).2

theorem Keyed.putAll (h : Keyed key table) (entries : List α) :
    Keyed key (putAll key table entries) := by
  induction entries generalizing table with
  | nil => exact h
  | cons f entries ih => exact ih (h.put f)

omit [DecidableEq κ] in
/-- The entries of a keyed table are told by their keys. -/
theorem Keyed.eq (h : Keyed key table) (hf : f ∈ table) (hg : g ∈ table) (hk : key f = key g) :
    f = g := by
  have : Std.Symm fun f g : α => key f ≠ key g := ⟨fun _ _ hne => hne.symm⟩
  by_contra hne
  exact h.forall hf hg hne hk

theorem mem_putAll (h : Keyed key entries) : g ∈ putAll key table entries ↔
    g ∈ entries ∨ g ∈ table ∧ ∀ f ∈ entries, key g ≠ key f := by
  induction entries generalizing table with
  | nil => simp [putAll]
  | cons f entries ih =>
    obtain ⟨hf, h⟩ := List.pairwise_cons.mp h
    have hrec := @ih (Table.put key table f) h
    simp only [putAll, List.foldl_cons] at hrec ⊢
    rw [hrec, mem_put]
    constructor
    · rintro (hg | ⟨rfl | ⟨hg, hne⟩, hall⟩)
      · exact .inl (List.mem_cons_of_mem _ hg)
      · exact .inl List.mem_cons_self
      · exact .inr ⟨hg, List.forall_mem_cons.mpr ⟨hne, hall⟩⟩
    · rintro (hg | ⟨hg, hall⟩)
      · rcases List.mem_cons.mp hg with rfl | hg
        · exact .inr ⟨.inl rfl, hf⟩
        · exact .inl hg
      · obtain ⟨hne, hall⟩ := List.forall_mem_cons.mp hall
        exact .inr ⟨.inr ⟨hg, hne⟩, hall⟩

/-- Entries of a keyed table that are put back changed, under their keys: each entry is there,
changed if it was put. -/
theorem mem_putAll_map {φ : α → α} {p : α → Prop} [DecidablePred p] (h : Keyed key table)
    (hφ : ∀ f, key (φ f) = key f) :
    g ∈ putAll key table ((table.filter fun f => p f).map φ) ↔
      ∃ f ∈ table, g = if p f then φ f else f := by
  have hk : Keyed key ((table.filter fun f => p f).map φ) := by
    refine List.pairwise_map.mpr ((h.sublist List.filter_sublist).imp ?_)
    intro f g hne
    rwa [hφ, hφ]
  rw [mem_putAll hk]
  constructor
  · rintro (hg | ⟨hg, hne⟩)
    · obtain ⟨f, hf, rfl⟩ := List.mem_map.mp hg
      obtain ⟨hf, hp⟩ := List.mem_filter.mp hf
      exact ⟨f, hf, by rw [if_pos (by simpa using hp)]⟩
    · refine ⟨g, hg, ?_⟩
      rw [if_neg]
      intro hp
      have hmem : φ g ∈ (table.filter fun f => p f).map φ :=
        List.mem_map_of_mem (List.mem_filter.mpr ⟨hg, by simpa using hp⟩)
      exact hne _ hmem (hφ g).symm
  · rintro ⟨f, hf, rfl⟩
    by_cases hp : p f
    · rw [if_pos hp]
      exact .inl (List.mem_map_of_mem (List.mem_filter.mpr ⟨hf, by simpa using hp⟩))
    · rw [if_neg hp]
      refine .inr ⟨hf, ?_⟩
      rintro f' hf' hkey
      obtain ⟨f₀, hf₀, rfl⟩ := List.mem_map.mp hf'
      obtain ⟨hf₀, hp₀⟩ := List.mem_filter.mp hf₀
      obtain rfl := h.eq hf hf₀ (hkey.trans (hφ f₀))
      exact hp (by simpa using hp₀)

end Ryu.Table
