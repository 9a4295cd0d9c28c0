import Mathlib.Data.Finset.Basic
import Ryu.Lib.Dict

/-! # Inverted indexes

A dictionary that lists for every key the members that have it. Members are listed and taken out
again key by key, and a key that is left without a member is dropped. An index lists a relation
if the members of every key are those in relation to it and no key is listed in vain; listing a
member and taking it out again keep this.
-/

namespace Ryu

/-- The members by key. -/
abbrev Index (κ τ : Type*) := Dict κ (Finset τ)

namespace Index

variable {κ τ : Type*} [DecidableEq κ]

/-- The members under a key. -/
def members (i : Index κ τ) (k : κ) : Finset τ := (i.get? k).getD ∅

/-- The members of a key are those in relation to it, and every key has one. -/
structure Lists (i : Index κ τ) (R : τ → κ → Prop) : Prop where
  mem_iff : ∀ t k, t ∈ i.members k ↔ R t k
  nonempty : ∀ k, i.get? k ≠ some ∅

theorem members_set (i : Index κ τ) (k k' : κ) (ts : Finset τ) :
    Index.members (i.set k ts) k' = if k = k' then ts else i.members k' := by
  unfold members
  rw [Dict.get?_set]
  split <;> rfl

theorem isSome_of_mem {i : Index κ τ} {t : τ} {k : κ} (h : t ∈ i.members k) :
    (i.get? k).isSome := by
  rw [members] at h
  cases hg : i.get? k with
  | none => simp [hg] at h
  | some ts => rfl

theorem lists_empty : Lists (Dict.empty : Index κ τ) fun _ _ => False :=
  ⟨fun _ _ => by simp [members], fun _ => by simp⟩

theorem Lists.congr {i : Index κ τ} {R S : τ → κ → Prop} (h : i.Lists R)
    (hRS : ∀ t k, R t k ↔ S t k) : i.Lists S :=
  ⟨fun t k => (h.mem_iff t k).trans (hRS t k), h.nonempty⟩

theorem get?_foldl_erase (noted : List κ) (i : Index κ τ) (k : κ) :
    Dict.get? (noted.foldl Dict.erase i) k = if k ∈ noted then none else i.get? k := by
  induction noted generalizing i with
  | nil => simp
  | cons k' noted ih =>
    rw [List.foldl_cons, ih, Dict.get?_erase]
    by_cases hk : k' = k
    · simp [hk]
    · simp [hk, Ne.symm hk]

variable [DecidableEq τ] {i : Index κ τ} {R : τ → κ → Prop} {t : τ} {keys noted : List κ}

/-- List a member under keys. -/
def link (i : Index κ τ) (t : τ) (keys : List κ) : Index κ τ :=
  keys.foldl (fun i k => i.set k (insert t (i.members k))) i

/-- Take a member out of keys; the keys that are left without one are noted. There is no result if
a key is not listed. -/
def takeOut (t : τ) : Index κ τ → List κ → List κ → Option (List κ) × Index κ τ
  | i, noted, [] => (some noted, i)
  | i, noted, k :: keys =>
    match i.get? k with
    | none => (none, i)
    | some ts =>
      if ts = ∅ then takeOut t i noted keys
      else
        takeOut t (i.set k (ts.erase t)) (if ts.erase t = ∅ then noted ++ [k] else noted) keys

/-- Take a member out of keys and drop the keys noted; tell whether all keys were listed. -/
def unlink (i : Index κ τ) (t : τ) (keys : List κ) : Bool × Index κ τ :=
  match takeOut t i [] keys with
  | (none, i) => (false, i)
  | (some noted, i) => (true, noted.foldl Dict.erase i)

theorem mem_members_link {u : τ} {k : κ} :
    u ∈ (i.link t keys).members k ↔ u ∈ i.members k ∨ u = t ∧ k ∈ keys := by
  unfold link
  induction keys generalizing i with
  | nil => simp
  | cons k' keys ih =>
    rw [List.foldl_cons, ih, members_set, List.mem_cons]
    split
    · next hk =>
      subst hk
      rw [Finset.mem_insert]
      tauto
    · next hk =>
      have hne : k ≠ k' := Ne.symm hk
      tauto

theorem get?_link_ne_empty {k : κ} (h : i.get? k ≠ some ∅) : (i.link t keys).get? k ≠ some ∅ := by
  unfold link
  induction keys generalizing i with
  | nil => exact h
  | cons k' keys ih =>
    refine ih ?_
    rw [Dict.get?_set]
    split
    · exact fun he => Finset.insert_ne_empty _ _ (Option.some.inj he)
    · exact h

/-- What is listed is added. -/
theorem Lists.link (h : i.Lists R) (t : τ) (keys : List κ) :
    (i.link t keys).Lists fun u k => R u k ∨ u = t ∧ k ∈ keys := by
  refine ⟨fun u k => ?_, fun k => get?_link_ne_empty (h.nonempty k)⟩
  rw [mem_members_link, h.mem_iff]

/-- The members while one is taken out; keys without a member are noted or were there before. -/
structure TakenOut (i : Index κ τ) (vain : κ → Prop) (noted : List κ) (R : τ → κ → Prop) :
    Prop where
  mem_iff : ∀ u k, u ∈ i.members k ↔ R u k
  noted_iff : ∀ k, i.get? k = some ∅ ↔ vain k ∨ k ∈ noted

theorem takeOut_ok {vain : κ → Prop} (h : TakenOut i vain noted R)
    (hlisted : ∀ k ∈ keys, (i.get? k).isSome) :
    ∃ noted' i', takeOut t i noted keys = (some noted', i') ∧
      TakenOut i' vain noted' fun u k => R u k ∧ ¬ (u = t ∧ k ∈ keys) := by
  induction keys generalizing i noted R with
  | nil => exact ⟨noted, i, rfl, by simpa using h.mem_iff, h.noted_iff⟩
  | cons k keys ih =>
    obtain ⟨hk, hrest⟩ := List.forall_mem_cons.mp hlisted
    obtain ⟨ts, hts⟩ := Option.isSome_iff_exists.mp hk
    have hmembers : i.members k = ts := by simp [members, hts]
    unfold takeOut
    simp only [hts]
    by_cases hempty : ts = ∅
    · have hnone : ∀ u, ¬ R u k := by
        intro u hu
        rw [← h.mem_iff, hmembers, hempty] at hu
        exact Finset.notMem_empty u hu
      rw [if_pos hempty]
      obtain ⟨noted', i', he, hi⟩ := ih h hrest
      refine ⟨noted', i', he, fun u k' => (hi.mem_iff u k').trans ?_, hi.noted_iff⟩
      rw [List.mem_cons]
      have hne : R u k' → k' ≠ k := by
        rintro hu rfl
        exact hnone u hu
      tauto
    · rw [if_neg hempty]
      have hset : TakenOut (i.set k (ts.erase t)) vain
          (if ts.erase t = ∅ then noted ++ [k] else noted)
          fun u k' => R u k' ∧ ¬ (u = t ∧ k' = k) := by
        constructor
        · intro u k'
          rw [members_set]
          split
          · next hk' =>
            subst hk'
            rw [Finset.mem_erase, ← hmembers, h.mem_iff]
            tauto
          · next hk' => simp [h.mem_iff, Ne.symm hk']
        · intro k'
          rw [Dict.get?_set]
          split
          · next hk' =>
            subst hk'
            have hnot : ¬ (vain k ∨ k ∈ noted) := by
              intro hn
              have := hts.symm.trans ((h.noted_iff k).mpr hn)
              exact hempty (Option.some.inj this)
            obtain ⟨hvain, hnoted⟩ := not_or.mp hnot
            by_cases he : ts.erase t = ∅ <;> simp [he, hvain, hnoted]
          · next hk' =>
            rw [h.noted_iff]
            split <;> simp [Ne.symm hk']
      have hrest' : ∀ k' ∈ keys, (Dict.get? (i.set k (ts.erase t)) k').isSome := by
        intro k' hk'
        rw [Dict.get?_set]
        split
        · rfl
        · exact hrest k' hk'
      obtain ⟨noted', i', he, hi⟩ := ih hset hrest'
      refine ⟨noted', i', he, fun u k' => (hi.mem_iff u k').trans ?_, hi.noted_iff⟩
      rw [List.mem_cons]
      tauto

/-- A member is taken out of keys that are listed, and nothing else goes. -/
theorem unlink_ok (hlisted : ∀ k ∈ keys, (i.get? k).isSome) :
    (i.unlink t keys).1 = true ∧
      (∀ u k, u ∈ members (i.unlink t keys).2 k ↔ u ∈ i.members k ∧ ¬ (u = t ∧ k ∈ keys)) ∧
      ∀ k, (i.unlink t keys).2.get? k = some ∅ → i.get? k = some ∅ := by
  have hstart : TakenOut i (fun k => i.get? k = some ∅) [] fun u k => u ∈ i.members k :=
    ⟨fun _ _ => Iff.rfl, fun k => by simp⟩
  obtain ⟨noted', i', he, hi⟩ := takeOut_ok hstart hlisted
  unfold Index.unlink
  rw [he]
  refine ⟨rfl, fun u k => ?_, fun k => ?_⟩
  · dsimp only
    rw [← hi.mem_iff, members, members, get?_foldl_erase]
    split
    · next hk => simp [(hi.noted_iff k).mpr (Or.inr hk)]
    · rfl
  · dsimp only
    rw [get?_foldl_erase]
    split
    · simp
    · next hk =>
      intro hvain
      exact ((hi.noted_iff k).mp hvain).resolve_right hk

/-- What is listed can be taken out, and the rest stays listed. -/
theorem Lists.unlink (h : i.Lists R) (hkeys : ∀ k ∈ keys, R t k) :
    (i.unlink t keys).1 = true ∧
      (i.unlink t keys).2.Lists fun u k => R u k ∧ ¬ (u = t ∧ k ∈ keys) := by
  obtain ⟨hok, hmem, hvain⟩ := unlink_ok (t := t) fun k hk =>
    isSome_of_mem ((h.mem_iff t k).mpr (hkeys k hk))
  refine ⟨hok, fun u k => ?_, fun k he => h.nonempty k (hvain k he)⟩
  rw [hmem, h.mem_iff]

end Index

end Ryu
