import Mathlib.Data.List.Nodup
import Mathlib.Logic.Function.Basic
import Ryu.Lib.Dict

/-! # Doubly linked lists with a sentinel

A list kept in cells with two links each, closed to a ring by a sentinel, and a table that
finds the cell of a key. The cells are numbered and the sentinel is the cell 0. Appending,
prepending and removing a key do what they do to a list of distinct keys, and following the
links from the sentinel gives that list.
-/

namespace Ryu

structure Ring (κ : Type*) where
  next : ℕ → ℕ
  prev : ℕ → ℕ
  key : ℕ → Option κ
  cells : Dict κ ℕ
  fresh : ℕ

namespace Ring

open Function

variable {κ : Type*} [DecidableEq κ]

/-- The sentinel alone. -/
def empty : Ring κ := ⟨fun _ => 0, fun _ => 0, fun _ => none, Dict.empty, 1⟩

/-- A new cell between the last one and the sentinel. -/
def append (r : Ring κ) (k : κ) : Ring κ :=
  let last := r.prev 0
  { next := update (update r.next last r.fresh) r.fresh 0
    prev := update (update r.prev 0 r.fresh) r.fresh last
    key := update r.key r.fresh (some k)
    cells := r.cells.set k r.fresh
    fresh := r.fresh + 1 }

/-- A new cell between the sentinel and the first one. -/
def prepend (r : Ring κ) (k : κ) : Ring κ :=
  let first := r.next 0
  { next := update (update r.next 0 r.fresh) r.fresh first
    prev := update (update r.prev first r.fresh) r.fresh 0
    key := update r.key r.fresh (some k)
    cells := r.cells.set k r.fresh
    fresh := r.fresh + 1 }

/-- Take out the cell of a key, if it has one. -/
def remove (r : Ring κ) (k : κ) : Option (Ring κ) :=
  (r.cells.get? k).map fun n =>
    { r with
      next := update r.next (r.prev n) (r.next n)
      prev := update r.prev (r.next n) (r.prev n)
      cells := r.cells.erase k }

/-- The keys met from a cell up to the sentinel, with so many cells at most. -/
def walk (r : Ring κ) : ℕ → ℕ → Option (List (Option κ))
  | 0, _ => none
  | fuel + 1, n => if n = 0 then some [] else (walk r fuel (r.next n)).map (r.key n :: ·)

/-! ## Paths -/

/-- The links lead from `a` through the cells to `b`, and back. -/
def Path (next prev : ℕ → ℕ) : ℕ → List ℕ → ℕ → Prop
  | a, [], b => next a = b ∧ prev b = a
  | a, x :: l, b => next a = x ∧ prev x = a ∧ Path next prev x l b

variable {next prev next' prev' : ℕ → ℕ} {a b x : ℕ} {l l' : List ℕ}

theorem path_append : Path next prev a (l ++ x :: l') b ↔
    Path next prev a l x ∧ Path next prev x l' b := by
  induction l generalizing a with
  | nil => simp [Path, and_assoc]
  | cons y l ih => simp [Path, ih, and_assoc]

theorem Path.congr (h : Path next prev a l b) (hn : ∀ n ∈ a :: l, next' n = next n)
    (hp : ∀ n ∈ l ++ [b], prev' n = prev n) : Path next' prev' a l b := by
  induction l generalizing a with
  | nil =>
    obtain ⟨h1, h2⟩ := h
    exact ⟨(hn a List.mem_cons_self).trans h1, (hp b (by simp)).trans h2⟩
  | cons y l ih =>
    obtain ⟨h1, h2, h3⟩ := h
    refine ⟨(hn a List.mem_cons_self).trans h1, (hp y (by simp)).trans h2, ih h3 ?_ ?_⟩
    · exact fun n hm => hn n (List.mem_cons_of_mem a hm)
    · exact fun n hm => hp n (List.mem_cons_of_mem y hm)

theorem Path.prev_mem (h : Path next prev a l b) : prev b ∈ a :: l := by
  induction l generalizing a with
  | nil => exact List.mem_singleton.mpr h.2
  | cons y l ih => exact List.mem_cons_of_mem a (ih h.2.2)

/-- The last cell is made to lead to another end. -/
theorem Path.redirect (h : Path next prev a l b) (hd : (a :: l).Nodup) (hx : x ∉ l) :
    Path (update next (prev b) x) (update prev x (prev b)) a l x := by
  induction l generalizing a with
  | nil =>
    obtain ⟨-, rfl⟩ := h
    exact ⟨update_self .., update_self ..⟩
  | cons y l ih =>
    obtain ⟨h1, h2, h3⟩ := h
    obtain ⟨ha, hd⟩ := List.nodup_cons.mp hd
    have hne : a ≠ prev b := by
      rintro rfl
      exact ha h3.prev_mem
    have hyx : y ≠ x := fun he => hx (he ▸ List.mem_cons_self)
    refine ⟨?_, ?_, ih h3 hd fun hm => hx (List.mem_cons_of_mem y hm)⟩
    · rw [update_of_ne hne, h1]
    · rw [update_of_ne hyx, h2]

/-- The first cell is made to come from another start. -/
theorem Path.restart (h : Path next prev a l b) (hd : (l ++ [b]).Nodup) (hx : x ∉ l) :
    Path (update next x (next a)) (update prev (next a) x) x l b := by
  cases l with
  | nil =>
    obtain ⟨rfl, -⟩ := h
    exact ⟨update_self .., update_self ..⟩
  | cons y l =>
    obtain ⟨rfl, -, h3⟩ := h
    refine ⟨update_self .., update_self .., h3.congr (fun n hn => ?_) fun n hn => ?_⟩
    · refine update_of_ne (fun he => ?_) _ _
      subst he
      exact hx hn
    · refine update_of_ne (fun he => ?_) _ _
      subst he
      exact (List.nodup_cons.mp hd).1 hn

/-- A cell is passed over. -/
theorem Path.unlink (h : Path next prev a (l ++ x :: l') b) (hd : (a :: (l ++ x :: l')).Nodup)
    (hb : b ∉ l ++ x :: l') :
    Path (update next (prev x) (next x)) (update prev (next x) (prev x)) a (l ++ l') b := by
  obtain ⟨h1, h2⟩ := path_append.1 h
  have hd1 : (a :: l).Nodup :=
    hd.sublist ((List.sublist_append_left l _).cons_cons a)
  cases l' with
  | nil =>
    obtain ⟨rfl, -⟩ := h2
    rw [List.append_nil]
    exact h1.redirect hd1 fun hm => hb (List.mem_append_left _ hm)
  | cons y l' =>
    obtain ⟨rfl, hy, h3⟩ := h2
    have hdy : next x ∉ l ∧ next x ∉ l' := by
      obtain ⟨-, hd⟩ := List.nodup_cons.mp hd
      obtain ⟨-, hd2, hdis⟩ := List.nodup_append.mp hd
      refine ⟨fun hm => hdis _ hm _ (by simp) rfl, ?_⟩
      exact (List.nodup_cons.mp (List.nodup_cons.mp hd2).2).1
    refine path_append.2 ⟨h1.redirect hd1 hdy.1, h3.congr (fun n hn => ?_) fun n hn => ?_⟩
    · refine update_of_ne (fun he => ?_) _ _
      subst he
      have hp := h1.prev_mem
      have hn' : prev x ∈ x :: next x :: l' := List.mem_cons_of_mem x hn
      rw [← List.cons_append] at hd
      exact (List.nodup_append.mp hd).2.2 _ hp _ hn' rfl
    · refine update_of_ne (fun he => ?_) _ _
      subst he
      rcases List.mem_append.mp hn with hn | hn
      · exact hdy.2 hn
      · rw [List.mem_singleton] at hn
        exact hb (by simp [← hn])

/-! ## The list a ring holds -/

/-- The ring holds the keys of the list, in its order. -/
structure Holds (r : Ring κ) (ks : List κ) (ns : List ℕ) : Prop where
  path : Path r.next r.prev 0 ns 0
  nodup : (0 :: ns).Nodup
  lt_fresh : ∀ n ∈ 0 :: ns, n < r.fresh
  keys : ns.map r.key = ks.map some
  cells : ∀ k n, r.cells.get? k = some n ↔ n ∈ ns ∧ r.key n = some k

variable {r : Ring κ} {ks : List κ} {ns : List ℕ} {k : κ}

theorem holds_empty : Holds (empty : Ring κ) [] [] where
  path := ⟨rfl, rfl⟩
  nodup := List.nodup_singleton 0
  lt_fresh n hn := by rw [List.mem_singleton.mp hn]; exact Nat.one_pos
  keys := rfl
  cells k n := by simp [empty]

theorem Holds.mem_iff (h : Holds r ks ns) : k ∈ ks ↔ (r.cells.get? k).isSome := by
  have hm : k ∈ ks ↔ some k ∈ ns.map r.key := by
    rw [h.keys]
    simp
  simp only [hm, List.mem_map, Option.isSome_iff_exists, h.cells]

theorem Holds.nodup_keys (h : Holds r ks ns) : ks.Nodup := by
  have hn : (ns.map r.key).Nodup := by
    refine (List.nodup_cons.mp h.nodup).2.map_on fun n hn m hm he => ?_
    have hs : (r.key n).isSome := by
      have hk : r.key n ∈ ks.map some := h.keys ▸ List.mem_map_of_mem hn
      obtain ⟨k, -, hk⟩ := List.mem_map.mp hk
      rw [← hk]
      rfl
    obtain ⟨k, hk⟩ := Option.isSome_iff_exists.mp hs
    have h1 := (h.cells k n).mpr ⟨hn, hk⟩
    have h2 := (h.cells k m).mpr ⟨hm, he ▸ hk⟩
    exact Option.some.inj (h1.symm.trans h2)
  rw [h.keys] at hn
  exact hn.of_map some

theorem Holds.fresh_notMem (h : Holds r ks ns) : r.fresh ∉ 0 :: ns :=
  fun hm => Nat.lt_irrefl _ (h.lt_fresh _ hm)

theorem Holds.update_key (h : Holds r ks ns) {n : ℕ} (hn : n ∈ ns) :
    update r.key r.fresh (some k) n = r.key n := by
  refine update_of_ne (fun he => ?_) _ _
  subst he
  exact h.fresh_notMem (List.mem_cons_of_mem 0 hn)

/-- A new key is known by its cell. -/
theorem Holds.cells_set (h : Holds r ks ns) (hk : k ∉ ks) {ns' : List ℕ}
    (hns : ∀ n, n ∈ ns' ↔ n = r.fresh ∨ n ∈ ns) (k' : κ) (n : ℕ) :
    (r.cells.set k r.fresh).get? k' = some n ↔
      n ∈ ns' ∧ update r.key r.fresh (some k) n = some k' := by
  have hnone : ∀ m ∈ ns, r.key m ≠ some k := fun m hm hkm =>
    hk (h.mem_iff.mpr (Option.isSome_iff_exists.mpr ⟨m, (h.cells k m).mpr ⟨hm, hkm⟩⟩))
  rw [Dict.get?_set, hns]
  by_cases hkk : k = k'
  · subst hkk
    rw [if_pos rfl, Option.some.injEq]
    constructor
    · rintro rfl
      exact ⟨.inl rfl, update_self ..⟩
    · rintro ⟨rfl | hn, hu⟩
      · rfl
      · rw [h.update_key hn] at hu
        exact absurd hu (hnone n hn)
  · rw [if_neg hkk, h.cells]
    constructor
    · rintro ⟨hn, hu⟩
      exact ⟨.inr hn, (h.update_key hn).trans hu⟩
    · rintro ⟨rfl | hn, hu⟩
      · rw [update_self] at hu
        exact absurd (Option.some.inj hu) hkk
      · exact ⟨hn, (h.update_key hn).symm.trans hu⟩

theorem Holds.map_key (h : Holds r ks ns) :
    ns.map (update r.key r.fresh (some k)) = ns.map r.key :=
  List.map_congr_left fun _ hn => h.update_key hn

theorem Holds.append (h : Holds r ks ns) (hk : k ∉ ks) :
    Holds (r.append k) (ks ++ [k]) (ns ++ [r.fresh]) where
  path := by
    have hf := h.fresh_notMem
    have h1 := h.path.redirect h.nodup fun hm => hf (List.mem_cons_of_mem 0 hm)
    have h0 : r.fresh ≠ 0 := fun he => hf (he ▸ List.mem_cons_self)
    refine path_append.2 ⟨h1.congr (fun n hn => ?_) fun n hn => ?_, ?_⟩
    · refine update_of_ne (fun he => ?_) _ _
      subst he
      exact hf hn
    · rcases List.mem_append.mp hn with hn | hn
      · have hn0 : n ≠ 0 := fun he => (List.nodup_cons.mp h.nodup).1 (he ▸ hn)
        have hnf : n ≠ r.fresh := fun he => hf (he ▸ List.mem_cons_of_mem 0 hn)
        simp [Ring.append, hn0, hnf]
      · rw [List.mem_singleton.mp hn]
        simp [Ring.append]
    · simp [Ring.append, Path, h0.symm]
  nodup := by
    rw [← List.cons_append]
    exact List.nodup_append.mpr ⟨h.nodup, List.nodup_singleton _, fun a ha b hb => by
      rw [List.mem_singleton.mp hb]
      exact fun he => h.fresh_notMem (he ▸ ha)⟩
  lt_fresh n hn := by
    rw [← List.cons_append] at hn
    rcases List.mem_append.mp hn with hn | hn
    · exact Nat.lt_succ_of_lt (h.lt_fresh n hn)
    · rw [List.mem_singleton.mp hn]
      exact Nat.lt_succ_self _
  keys := by
    simp [Ring.append, h.map_key, h.keys]
  cells k' n := h.cells_set hk (fun n => by simp [or_comm]) k' n

theorem Holds.prepend (h : Holds r ks ns) (hk : k ∉ ks) :
    Holds (r.prepend k) (k :: ks) (r.fresh :: ns) where
  path := by
    have hf := h.fresh_notMem
    have h0 : r.fresh ≠ 0 := fun he => hf (he ▸ List.mem_cons_self)
    have hd : (ns ++ [0]).Nodup := List.nodup_append_comm.mp h.nodup
    have h1 := h.path.restart hd fun hm => hf (List.mem_cons_of_mem 0 hm)
    refine ⟨by simp [Ring.prepend, h0.symm], by simp [Ring.prepend], ?_⟩
    refine h1.congr (fun n hn => ?_) fun n hn => ?_
    · rcases List.mem_cons.mp hn with rfl | hn
      · simp [Ring.prepend]
      · have hn0 : n ≠ 0 := fun he => (List.nodup_cons.mp h.nodup).1 (he ▸ hn)
        have hnf : n ≠ r.fresh := fun he => hf (he ▸ List.mem_cons_of_mem 0 hn)
        simp [Ring.prepend, hn0, hnf]
    · refine update_of_ne (fun he => hf ?_) _ _
      rw [← he]
      rcases List.mem_append.mp hn with hn | hn
      · exact List.mem_cons_of_mem 0 hn
      · rw [List.mem_singleton.mp hn]
        exact List.mem_cons_self
  nodup := by
    have hf := h.fresh_notMem
    obtain ⟨h0, hn⟩ := List.nodup_cons.mp h.nodup
    refine List.nodup_cons.mpr ⟨fun hm => ?_, List.nodup_cons.mpr ⟨?_, hn⟩⟩
    · rcases List.mem_cons.mp hm with he | hm
      · exact hf (he ▸ List.mem_cons_self)
      · exact h0 hm
    · exact fun hm => hf (List.mem_cons_of_mem 0 hm)
  lt_fresh n hn := by
    rcases List.mem_cons.mp hn with rfl | hn
    · exact Nat.lt_succ_of_lt (h.lt_fresh 0 List.mem_cons_self)
    · rcases List.mem_cons.mp hn with rfl | hn
      · exact Nat.lt_succ_self _
      · exact Nat.lt_succ_of_lt (h.lt_fresh n (List.mem_cons_of_mem 0 hn))
  keys := by
    simp [Ring.prepend, h.map_key, h.keys]
  cells k' n := h.cells_set hk (fun n => by simp) k' n

theorem Holds.remove (h : Holds r ks ns) (hk : k ∈ ks) :
    ∃ r' ns', r.remove k = some r' ∧ Holds r' (ks.erase k) ns' := by
  obtain ⟨n, hn⟩ := Option.isSome_iff_exists.mp (h.mem_iff.mp hk)
  obtain ⟨hmem, hkey⟩ := (h.cells k n).mp hn
  obtain ⟨l, l', rfl⟩ := List.append_of_mem hmem
  have hkeys := h.keys
  rw [List.map_append, List.map_cons] at hkeys
  obtain ⟨k₁, k₂', rfl, h1, h2⟩ := List.map_eq_append_iff.mp hkeys.symm
  obtain ⟨k', k₂, rfl, hk', h2⟩ := List.map_eq_cons_iff.mp h2
  obtain rfl : k' = k := Option.some.inj (hk'.trans hkey)
  have hnd := (List.nodup_cons.mp h.nodup).2
  have hn0 : n ∉ l ++ l' := by
    obtain ⟨-, hd2, hdis⟩ := List.nodup_append.mp hnd
    intro hm
    rcases List.mem_append.mp hm with hm | hm
    · exact hdis n hm n List.mem_cons_self rfl
    · exact (List.nodup_cons.mp hd2).1 hm
  have hsub : (l ++ l').Sublist (l ++ n :: l') :=
    (List.Sublist.refl l).append (List.sublist_cons_self n l')
  have he : (k₁ ++ k' :: k₂).erase k' = k₁ ++ k₂ := by
    have hnk := (List.nodup_append.mp h.nodup_keys).2.2
    have hk₁ : k' ∉ k₁ := fun hm => hnk k' hm k' List.mem_cons_self rfl
    rw [List.erase_append_right _ hk₁, List.erase_cons_head]
  rw [he]
  refine ⟨_, l ++ l', by rw [Ring.remove, hn]; rfl, ?_⟩
  constructor
  · exact h.path.unlink h.nodup (List.nodup_cons.mp h.nodup).1
  · exact h.nodup.sublist (hsub.cons_cons 0)
  · exact fun m hm => h.lt_fresh m ((hsub.cons_cons 0).subset hm)
  · rw [List.map_append, List.map_append, h1, h2]
  · intro k m
    rw [Dict.get?_erase]
    by_cases hkk : k' = k
    · subst hkk
      rw [if_pos rfl]
      refine iff_of_false (by simp) fun ⟨hm, hkm⟩ => hn0 ?_
      have hm' := (h.cells k' m).mpr ⟨hsub.subset hm, hkm⟩
      rwa [Option.some.inj (hn.symm.trans hm')]
    · rw [if_neg hkk, h.cells]
      refine and_congr_left fun hkm => ⟨fun hm => ?_, fun hm => hsub.subset hm⟩
      have hne : m ≠ n := fun he => hkk (Option.some.inj ((he ▸ hkey).symm.trans hkm))
      simpa [hne] using hm

omit [DecidableEq κ] in
/-- Following the links from the sentinel gives the list, when there are cells enough. -/
theorem Path.walk {n : ℕ} {ns : List ℕ} (h : Path r.next r.prev n ns 0) (h0 : 0 ∉ ns) {fuel : ℕ}
    (hf : ns.length < fuel) : r.walk fuel (r.next n) = some (ns.map r.key) := by
  induction ns generalizing n fuel with
  | nil =>
    obtain ⟨fuel, rfl⟩ := Nat.exists_eq_add_of_lt hf
    rw [h.1]
    rfl
  | cons m ns ih =>
    obtain ⟨rfl, -, h3⟩ := h
    obtain ⟨hm, h0⟩ := not_or.mp (fun hc => h0 (List.mem_cons.mpr hc))
    cases fuel with
    | zero => exact absurd hf (Nat.not_lt_zero _)
    | succ fuel =>
      rw [Ring.walk, if_neg (Ne.symm hm), ih h3 h0 (Nat.lt_of_succ_lt_succ hf)]
      rfl

theorem Holds.walk (h : Holds r ks ns) {fuel : ℕ} (hf : ks.length < fuel) :
    r.walk fuel (r.next 0) = some (ks.map some) := by
  have hl : ns.length = ks.length := by
    have hk := congrArg List.length h.keys
    simpa using hk
  rw [h.path.walk (List.nodup_cons.mp h.nodup).1 (hl ▸ hf), h.keys]

end Ring

end Ryu
