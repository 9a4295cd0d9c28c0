import Mathlib.Data.List.Nodup

/-! # Insertion-ordered dictionaries

A dictionary is a list of entries with distinct keys. Setting a known key keeps its
place, a new key goes last, and iteration follows the entries.
-/

namespace Ryu

variable {κ ν : Type*} [DecidableEq κ]

namespace Assoc

/-- The value of the first entry with the given key. -/
def lookup (k : κ) : List (κ × ν) → Option ν
  | [] => none
  | (k', v) :: l => if k' = k then some v else lookup k l

/-- Replace the value of a present key in place, or append a new entry. -/
def insert (k : κ) (v : ν) : List (κ × ν) → List (κ × ν)
  | [] => [(k, v)]
  | (k', v') :: l => if k' = k then (k, v) :: l else (k', v') :: insert k v l

/-- Drop the entries with the given key. -/
def erase (k : κ) : List (κ × ν) → List (κ × ν)
  | [] => []
  | (k', v) :: l => if k' = k then erase k l else (k', v) :: erase k l

theorem lookup_insert (k k' : κ) (v : ν) (l : List (κ × ν)) :
    lookup k' (insert k v l) = if k = k' then some v else lookup k' l := by
  induction l with
  | nil => rfl
  | cons p l ih =>
    obtain ⟨a, b⟩ := p
    by_cases ha : a = k
    · by_cases hk : k = k' <;> simp [insert, lookup, ha, hk]
    · by_cases hk : k = k'
      · subst hk; simp [insert, lookup, ha, ih]
      · simp only [insert, ha, if_false, lookup, ih, hk]

theorem keys_insert (k : κ) (v : ν) (l : List (κ × ν)) :
    (insert k v l).map Prod.fst =
      if k ∈ l.map Prod.fst then l.map Prod.fst else l.map Prod.fst ++ [k] := by
  induction l with
  | nil => rfl
  | cons p l ih =>
    obtain ⟨a, b⟩ := p
    by_cases ha : a = k
    · simp [insert, ha]
    · have hka : k ≠ a := Ne.symm ha
      by_cases hm : k ∈ l.map Prod.fst <;>
        simp only [insert, ha, if_false, List.map_cons, ih, hm, List.mem_cons, hka, if_true,
          false_or, List.cons_append]

theorem mem_keys_iff (k : κ) (l : List (κ × ν)) :
    k ∈ l.map Prod.fst ↔ (lookup k l).isSome := by
  induction l with
  | nil => simp [lookup]
  | cons p l ih =>
    obtain ⟨a, b⟩ := p
    by_cases ha : a = k
    · simp [lookup, ha]
    · rw [List.map_cons, List.mem_cons, ih]
      simp [lookup, ha, Ne.symm ha]

theorem mem_iff_lookup {l : List (κ × ν)} (h : (l.map Prod.fst).Nodup) (k : κ) (v : ν) :
    (k, v) ∈ l ↔ lookup k l = some v := by
  induction l with
  | nil => simp [lookup]
  | cons p l ih =>
    obtain ⟨a, b⟩ := p
    obtain ⟨hn, hl⟩ := List.nodup_cons.mp h
    by_cases ha : a = k
    · subst ha
      have hnot : (a, v) ∉ l := fun hm => hn (List.mem_map.mpr ⟨_, hm, rfl⟩)
      simp [lookup, hnot, eq_comm]
    · simp [lookup, ha, Ne.symm ha, ih hl]

theorem lookup_erase (k k' : κ) (l : List (κ × ν)) :
    lookup k' (erase k l) = if k = k' then none else lookup k' l := by
  induction l with
  | nil => simp [erase, lookup]
  | cons p l ih =>
    obtain ⟨a, b⟩ := p
    by_cases ha : a = k
    · subst ha
      simp only [erase, if_true, ih, lookup]
      split <;> rfl
    · by_cases hk : k = k'
      · subst hk; simp [erase, lookup, ha, ih]
      · simp only [erase, ha, if_false, lookup, ih, hk]

theorem erase_sublist (k : κ) (l : List (κ × ν)) : List.Sublist (erase k l) l := by
  induction l with
  | nil => exact List.Sublist.slnil
  | cons p l ih =>
    obtain ⟨a, b⟩ := p
    by_cases ha : a = k
    · simpa [erase, ha] using ih.cons _
    · simpa [erase, ha] using ih

theorem lookup_filterMap {α : Type*} (l : List α) (key : α → κ)
    (val : α → Option ν) (k : κ) :
    lookup k (l.filterMap fun a => (val a).map fun v => (key a, v)) =
      ((l.filter fun a => key a = k).filterMap val).head? := by
  induction l with
  | nil => rfl
  | cons a l ih =>
    cases hv : val a with
    | none => by_cases hk : key a = k <;> simp [hv, hk, ih]
    | some v => by_cases hk : key a = k <;> simp [hv, hk, ih, lookup]

theorem filter_key {l : List (κ × ν)} (h : (l.map Prod.fst).Nodup) (k : κ) :
    (l.filter fun p => p.1 = k).map Prod.snd = (lookup k l).toList := by
  induction l with
  | nil => rfl
  | cons p l ih =>
    obtain ⟨a, b⟩ := p
    obtain ⟨hn, hl⟩ := List.nodup_cons.mp h
    by_cases ha : a = k
    · subst ha
      have hnil : l.filter (fun p => p.1 = a) = [] := by
        refine List.filter_eq_nil_iff.mpr fun p hp => ?_
        simpa using fun he : p.1 = a => hn (List.mem_map.mpr ⟨p, hp, he⟩)
      simp [lookup, hnil]
    · simp [lookup, ha, ih hl]

theorem lookup_map {ν' : Type*} (f : κ → ν → ν') (l : List (κ × ν)) (k : κ) :
    lookup k (l.map fun e => (e.1, f e.1 e.2)) = (lookup k l).map (f k) := by
  induction l with
  | nil => rfl
  | cons e l ih =>
    obtain ⟨a, b⟩ := e
    by_cases ha : a = k
    · subst ha
      simp [lookup]
    · simp [lookup, ha, ih]

theorem lookup_filter (p : κ → ν → Bool) {l : List (κ × ν)} (h : (l.map Prod.fst).Nodup) (k : κ) :
    lookup k (l.filter fun e => p e.1 e.2) = (lookup k l).filter (p k) := by
  induction l with
  | nil => rfl
  | cons e l ih =>
    obtain ⟨a, b⟩ := e
    obtain ⟨hn, hl⟩ := List.nodup_cons.mp h
    by_cases ha : a = k
    · subst ha
      have hnone : lookup a l = none := by
        simpa using mt (mem_keys_iff a l).mpr hn
      cases hp : p a b with
      | true => simp [hp, lookup, Option.filter]
      | false => simp [hp, lookup, ih hl, hnone, Option.filter]
    · cases hp : p a b with
      | true => simp [hp, lookup, ha, ih hl]
      | false => simp [hp, lookup, ha, ih hl]

theorem filter_insert (p : κ → Bool) (k : κ) (v : ν) (l : List (κ × ν)) :
    (insert k v l).filter (fun e => p e.1) =
      if p k then insert k v (l.filter fun e => p e.1) else l.filter fun e => p e.1 := by
  induction l with
  | nil => cases hk : p k <;> simp [insert, hk]
  | cons e l ih =>
    obtain ⟨a, b⟩ := e
    by_cases ha : a = k
    · subst ha
      cases hp : p a <;> simp [insert, hp]
    · cases hp : p a <;> cases hk : p k <;> simp [insert, ha, hp, hk, ih]

theorem filter_erase (p : κ → Bool) (k : κ) (l : List (κ × ν)) :
    (erase k l).filter (fun e => p e.1) = erase k (l.filter fun e => p e.1) := by
  induction l with
  | nil => rfl
  | cons e l ih =>
    obtain ⟨a, b⟩ := e
    by_cases ha : a = k
    · subst ha
      cases hp : p a <;> simp [erase, hp, ih]
    · cases hp : p a <;> simp [erase, ha, hp, ih]

theorem insert_insert (k : κ) (v w : ν) (l : List (κ × ν)) :
    insert k w (insert k v l) = insert k w l := by
  induction l with
  | nil => simp [insert]
  | cons e l ih =>
    obtain ⟨a, b⟩ := e
    by_cases ha : a = k
    · simp [insert, ha]
    · simp [insert, ha, ih]

end Assoc

/-- A dictionary: entries in insertion order, no key twice. -/
structure Dict (κ ν : Type*) where
  entries : List (κ × ν)
  nodup_keys : (entries.map Prod.fst).Nodup

namespace Dict

omit [DecidableEq κ] in
@[ext] theorem ext {d e : Dict κ ν} (h : d.entries = e.entries) : d = e := by
  cases d; cases e; cases h; rfl

instance [DecidableEq ν] : DecidableEq (Dict κ ν) := fun d e =>
  decidable_of_iff (d.entries = e.entries) ⟨ext, congrArg entries⟩

instance [Repr κ] [Repr ν] : Repr (Dict κ ν) := ⟨fun d => reprPrec d.entries⟩

/-- `{}`. -/
def empty : Dict κ ν := ⟨[], List.nodup_nil⟩

def keys (d : Dict κ ν) : List κ := d.entries.map Prod.fst

def values (d : Dict κ ν) : List ν := d.entries.map Prod.snd

/-- `d.get(k)`. -/
def get? (d : Dict κ ν) (k : κ) : Option ν := Assoc.lookup k d.entries

/-- `d[k] = v`. -/
def set (d : Dict κ ν) (k : κ) (v : ν) : Dict κ ν where
  entries := Assoc.insert k v d.entries
  nodup_keys := by
    rw [Assoc.keys_insert]
    split
    · exact d.nodup_keys
    · next hk =>
      exact List.nodup_append.mpr ⟨d.nodup_keys, List.nodup_singleton k,
        fun a ha b hb => by rintro rfl; exact hk (List.mem_singleton.mp hb ▸ ha)⟩

/-- `d.setdefault(k, v)`. -/
def setdefault (d : Dict κ ν) (k : κ) (v : ν) : Dict κ ν :=
  if (d.get? k).isSome then d else d.set k v

/-- `del d[k]` for a present key, nothing otherwise. -/
def erase (d : Dict κ ν) (k : κ) : Dict κ ν where
  entries := Assoc.erase k d.entries
  nodup_keys := d.nodup_keys.sublist (List.Sublist.map _ (Assoc.erase_sublist k d.entries))

omit [DecidableEq κ] in
/-- The entries that satisfy `p`, in their order. -/
def filter (p : κ → ν → Bool) (d : Dict κ ν) : Dict κ ν where
  entries := d.entries.filter fun e => p e.1 e.2
  nodup_keys := d.nodup_keys.sublist (List.Sublist.map _ List.filter_sublist)

omit [DecidableEq κ] in
/-- The same keys with other values. -/
def mapValues {ν' : Type*} (f : κ → ν → ν') (d : Dict κ ν) : Dict κ ν' where
  entries := d.entries.map fun e => (e.1, f e.1 e.2)
  nodup_keys := by
    rw [List.map_map]
    exact d.nodup_keys

variable {d : Dict κ ν} {k k' : κ} {v : ν}

@[simp] theorem get?_empty (k : κ) : (empty : Dict κ ν).get? k = none := rfl

omit [DecidableEq κ] in
@[simp] theorem nodup_keys' (d : Dict κ ν) : d.keys.Nodup := d.nodup_keys

theorem get?_set (d : Dict κ ν) (k k' : κ) (v : ν) :
    (d.set k v).get? k' = if k = k' then some v else d.get? k' :=
  Assoc.lookup_insert k k' v d.entries

@[simp] theorem get?_set_self (d : Dict κ ν) (k : κ) (v : ν) : (d.set k v).get? k = some v := by
  simp [get?_set]

theorem get?_set_of_ne (h : k ≠ k') : (d.set k v).get? k' = d.get? k' := by
  simp [get?_set, h]

theorem get?_erase (d : Dict κ ν) (k k' : κ) :
    (d.erase k).get? k' = if k = k' then none else d.get? k' :=
  Assoc.lookup_erase k k' d.entries

theorem mem_keys_iff : k ∈ d.keys ↔ (d.get? k).isSome :=
  Assoc.mem_keys_iff k d.entries

theorem mem_entries_iff : (k, v) ∈ d.entries ↔ d.get? k = some v :=
  Assoc.mem_iff_lookup d.nodup_keys k v

theorem entries_filter_key (d : Dict κ ν) (k : κ) :
    (d.entries.filter fun p => p.1 = k).map Prod.snd = (d.get? k).toList :=
  Assoc.filter_key d.nodup_keys k

/-- A new key goes last. -/
theorem entries_set_of_none (h : d.get? k = none) :
    (d.set k v).entries = d.entries ++ [(k, v)] := by
  have hi (l : List (κ × ν)) (hl : Assoc.lookup k l = none) :
      Assoc.insert k v l = l ++ [(k, v)] := by
    induction l with
    | nil => rfl
    | cons e l ih =>
      obtain ⟨a, b⟩ := e
      by_cases ha : a = k
      · simp [Assoc.lookup, ha] at hl
      · simp only [Assoc.lookup, ha, if_false] at hl
        simp [Assoc.insert, ha, ih hl]
  exact hi d.entries h

theorem set_of_get? (h : d.get? k = some v) : d.set k v = d := by
  have hi (l : List (κ × ν)) (hl : Assoc.lookup k l = some v) : Assoc.insert k v l = l := by
    induction l with
    | nil => cases hl
    | cons e l ih =>
      obtain ⟨a, b⟩ := e
      by_cases ha : a = k
      · simp only [Assoc.lookup, ha, if_true, Option.some.injEq] at hl
        simp [Assoc.insert, ha, hl]
      · simp only [Assoc.lookup, ha, if_false] at hl
        simp [Assoc.insert, ha, ih hl]
  exact ext (hi d.entries h)

/-- Setting a known key leaves what the new value shares with the old one in its place. -/
theorem map_entries_set {α : Type*} (f : ν → α) {w : ν} (h : d.get? k = some w)
    (hf : f v = f w) :
    (d.set k v).entries.map (fun e => (e.1, f e.2)) = d.entries.map fun e => (e.1, f e.2) := by
  have hi (l : List (κ × ν)) (hl : Assoc.lookup k l = some w) :
      (Assoc.insert k v l).map (fun e => (e.1, f e.2)) = l.map fun e => (e.1, f e.2) := by
    induction l with
    | nil => cases hl
    | cons e l ih =>
      obtain ⟨a, b⟩ := e
      by_cases ha : a = k
      · simp only [Assoc.lookup, ha, if_true, Option.some.injEq] at hl
        simp [Assoc.insert, ha, hf, hl]
      · simp only [Assoc.lookup, ha, if_false] at hl
        simp [Assoc.insert, ha, ih hl]
  exact hi d.entries h

theorem mem_keys_set : k' ∈ (d.set k v).keys ↔ k' = k ∨ k' ∈ d.keys := by
  simp only [mem_keys_iff, get?_set]
  by_cases h : k = k'
  · simp [h]
  · simp [h, Ne.symm h]

theorem keys_set_of_none (h : d.get? k = none) : (d.set k v).keys = d.keys ++ [k] := by
  rw [keys, entries_set_of_none h, List.map_append]
  rfl

theorem keys_erase (d : Dict κ ν) (k : κ) : (d.erase k).keys = d.keys.erase k := by
  have hi (l : List (κ × ν)) : (Assoc.erase k l).map Prod.fst =
      (l.map Prod.fst).filter (· != k) := by
    induction l with
    | nil => rfl
    | cons e l ih =>
      obtain ⟨a, b⟩ := e
      by_cases ha : a = k
      · simp [Assoc.erase, ha, ih]
      · simp [Assoc.erase, ha, ih]
  exact (hi d.entries).trans (d.nodup_keys.erase_eq_filter k).symm

theorem erase_of_none (h : d.get? k = none) : d.erase k = d := by
  have hi (l : List (κ × ν)) (hl : Assoc.lookup k l = none) : Assoc.erase k l = l := by
    induction l with
    | nil => rfl
    | cons e l ih =>
      obtain ⟨a, b⟩ := e
      by_cases ha : a = k
      · simp [Assoc.lookup, ha] at hl
      · simp only [Assoc.lookup, ha, if_false] at hl
        simp [Assoc.erase, ha, ih hl]
  exact ext (hi d.entries h)

/-- The entry of a known key, and the others. -/
theorem entries_perm_of_get? (h : d.get? k = some v) :
    d.entries.Perm ((k, v) :: (d.erase k).entries) := by
  have hi (l : List (κ × ν)) (hn : (l.map Prod.fst).Nodup) (hl : Assoc.lookup k l = some v) :
      l.Perm ((k, v) :: Assoc.erase k l) := by
    induction l with
    | nil => cases hl
    | cons e l ih =>
      obtain ⟨a, b⟩ := e
      obtain ⟨hnot, hn⟩ := List.nodup_cons.mp hn
      by_cases ha : a = k
      · subst ha
        simp only [Assoc.lookup, if_true, Option.some.injEq] at hl
        have hnone : (⟨l, hn⟩ : Dict κ ν).get? a = none := by
          rw [← Option.not_isSome_iff_eq_none, ← mem_keys_iff]
          exact hnot
        have hrest : Assoc.erase a l = l := congrArg entries (erase_of_none hnone)
        rw [Assoc.erase, if_pos rfl, hrest, hl]
      · simp only [Assoc.lookup, ha, if_false] at hl
        rw [Assoc.erase, if_neg ha]
        exact ((ih hn hl).cons _).trans (List.Perm.swap ..)
  exact hi d.entries d.nodup_keys h

theorem erase_set (d : Dict κ ν) (k : κ) (v : ν) : (d.set k v).erase k = d.erase k := by
  have hi (l : List (κ × ν)) : Assoc.erase k (Assoc.insert k v l) = Assoc.erase k l := by
    induction l with
    | nil => simp [Assoc.insert, Assoc.erase]
    | cons e l ih =>
      obtain ⟨a, b⟩ := e
      by_cases ha : a = k
      · simp [Assoc.insert, Assoc.erase, ha]
      · simp [Assoc.insert, Assoc.erase, ha, ih]
  exact ext (hi d.entries)

theorem entries_set_perm (d : Dict κ ν) (k : κ) (v : ν) :
    (d.set k v).entries.Perm ((k, v) :: (d.erase k).entries) := by
  rw [← erase_set d k v]
  exact entries_perm_of_get? (get?_set_self d k v)

theorem values_perm_of_get? (h : d.get? k = some v) : d.values.Perm (v :: (d.erase k).values) :=
  (entries_perm_of_get? h).map Prod.snd

theorem keys_perm_of_get? (h : d.get? k = some v) : d.keys.Perm (k :: (d.erase k).keys) :=
  (entries_perm_of_get? h).map Prod.fst

theorem values_set_perm (d : Dict κ ν) (k : κ) (v : ν) :
    (d.set k v).values.Perm (v :: (d.erase k).values) :=
  (entries_set_perm d k v).map Prod.snd

theorem get?_setdefault (d : Dict κ ν) (k k' : κ) (v : ν) :
    (d.setdefault k v).get? k' =
      if k = k' then some ((d.get? k).getD v) else d.get? k' := by
  unfold setdefault
  split
  · next h =>
    obtain ⟨w, hw⟩ := Option.isSome_iff_exists.mp h
    by_cases hk : k = k'
    · subst hk; simp [hw]
    · simp [hk]
  · next h =>
    rw [get?_set, Option.not_isSome_iff_eq_none.mp h]
    rfl

theorem get?_mapValues {ν' : Type*} (f : κ → ν → ν') (d : Dict κ ν) (k : κ) :
    (d.mapValues f).get? k = (d.get? k).map (f k) :=
  Assoc.lookup_map f d.entries k

theorem get?_filter (p : κ → ν → Bool) (d : Dict κ ν) (k : κ) :
    (d.filter p).get? k = (d.get? k).filter (p k) :=
  Assoc.lookup_filter p d.nodup_keys k

theorem set_set (d : Dict κ ν) (k : κ) (v w : ν) : (d.set k v).set k w = d.set k w :=
  ext (Assoc.insert_insert k v w d.entries)

theorem filter_set (d : Dict κ ν) (p : κ → Bool) (k : κ) (v : ν) :
    (d.set k v).filter (fun k' _ => p k') =
      if p k then (d.filter fun k' _ => p k').set k v else d.filter fun k' _ => p k' := by
  apply ext
  refine (Assoc.filter_insert p k v d.entries).trans ?_
  split <;> rfl

theorem filter_erase (d : Dict κ ν) (p : κ → Bool) (k : κ) :
    (d.erase k).filter (fun k' _ => p k') = (d.filter fun k' _ => p k').erase k :=
  ext (Assoc.filter_erase p k d.entries)

omit [DecidableEq κ] in
theorem filter_mapValues {ν' : Type*} (d : Dict κ ν) (p : κ → Bool) (f : κ → ν → ν') :
    (d.mapValues f).filter (fun k _ => p k) = (d.filter fun k _ => p k).mapValues f := by
  apply ext
  simp only [filter, mapValues, List.filter_map]
  rfl

omit [DecidableEq κ] in
/-- The dictionaries have the same entries in the same order, but for two keys, whose places
relative to each other may differ. -/
def AlikeBut (a b : κ) (d e : Dict κ ν) : Prop :=
  ∀ p : κ → Bool, p a = false ∨ p b = false →
    (d.filter fun k _ => p k) = e.filter fun k _ => p k

section AlikeBut

variable {a b : κ} {e f : Dict κ ν}

omit [DecidableEq κ] in
theorem AlikeBut.refl (a b : κ) (d : Dict κ ν) : AlikeBut a b d d := fun _ _ => rfl

omit [DecidableEq κ] in
theorem AlikeBut.trans (h : AlikeBut a b d e) (h' : AlikeBut a b e f) : AlikeBut a b d f :=
  fun p hp => (h p hp).trans (h' p hp)

theorem AlikeBut.get? (h : AlikeBut a b d e) (hab : a ≠ b) (k : κ) : d.get? k = e.get? k := by
  have hp : decide (a = k) = false ∨ decide (b = k) = false := by
    by_contra hn
    simp only [decide_eq_false_iff_not, not_or, not_not] at hn
    exact hab (hn.1.trans hn.2.symm)
  have htrue : ∀ o : Option ν, o.filter (fun _ => true) = o := fun o => by cases o <;> rfl
  have hk := congrArg (fun d => Dict.get? d k) (h (fun k' => k' = k) hp)
  simpa [get?_filter, htrue] using hk

theorem AlikeBut.set (h : AlikeBut a b d e) (k : κ) (v : ν) :
    AlikeBut a b (d.set k v) (e.set k v) := by
  intro p hp
  rw [filter_set, filter_set, h p hp]

theorem AlikeBut.erase (h : AlikeBut a b d e) (k : κ) : AlikeBut a b (d.erase k) (e.erase k) := by
  intro p hp
  rw [filter_erase, filter_erase, h p hp]

omit [DecidableEq κ] in
theorem AlikeBut.mapValues {ν' : Type*} (h : AlikeBut a b d e) (g : κ → ν → ν') :
    AlikeBut a b (d.mapValues g) (e.mapValues g) := by
  intro p hp
  rw [filter_mapValues, filter_mapValues, h p hp]

/-- The order in which the two keys are set. -/
theorem alikeBut_set_set (d : Dict κ ν) (a b : κ) (v w : ν) :
    AlikeBut a b ((d.set a v).set b w) ((d.set b w).set a v) := by
  rintro p (hp | hp)
  · simp only [filter_set, hp, Bool.false_eq_true, if_false]
  · simp only [filter_set, hp, Bool.false_eq_true, if_false]

end AlikeBut

theorem get?_foldl_set (l : List κ) (d : Dict κ ν) (v : ν) (k : κ) :
    (l.foldl (fun d a => d.set a v) d).get? k = if k ∈ l then some v else d.get? k := by
  induction l generalizing d with
  | nil => simp
  | cons a l ih =>
    rw [List.foldl_cons, ih, get?_set]
    by_cases ha : a = k
    · simp [ha]
    · simp [ha, Ne.symm ha]

theorem get?_foldl_setdefault_const (l : List κ) (d : Dict κ ν) (v : ν) (k : κ) :
    (l.foldl (fun d a => d.setdefault a v) d).get? k =
      if k ∈ l then some ((d.get? k).getD v) else d.get? k := by
  induction l generalizing d with
  | nil => simp
  | cons a l ih =>
    rw [List.foldl_cons, ih, get?_setdefault]
    by_cases ha : a = k
    · simp [ha]
    · simp [ha, Ne.symm ha]

/-- Of the values set by default for a key the first is kept. -/
theorem get?_foldl_setdefault (l : List (κ × ν)) (d : Dict κ ν) (k : κ) :
    (l.foldl (fun d x => d.setdefault x.1 x.2) d).get? k =
      (d.get? k).or (Assoc.lookup k l) := by
  induction l generalizing d with
  | nil => simp [Assoc.lookup]
  | cons x l ih =>
    obtain ⟨a, b⟩ := x
    rw [List.foldl_cons, ih, get?_setdefault]
    by_cases ha : a = k
    · subst ha
      cases d.get? a <;> simp [Assoc.lookup]
    · simp [Assoc.lookup, ha]

end Dict

end Ryu
