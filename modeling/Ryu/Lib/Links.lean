import Mathlib.Data.List.Chain
import Mathlib.Data.List.Nodup
import Mathlib.Logic.Function.Basic

/-! # Linked objects

Objects of any kind, each with a link to the one behind it and one to the one before it, which
both may be missing. Objects are on a ring if the links lead from one of them, the head, through
the others back to it, and back. To join two objects keeps all that does not come across the
links that are changed, so that an object is put on a ring or taken off it by one or two joins.
-/

namespace Ryu

/-- The links of the objects. -/
structure Links (α : Type*) where
  next : α → Option α
  prev : α → Option α

namespace Links

open Function List

variable {α : Type*}

/-- The two objects are linked to each other. -/
def Joined (s : Links α) (a b : α) : Prop := s.next a = some b ∧ s.prev b = some a

/-- The links lead through the objects of the list and back. -/
def Path (s : Links α) (l : List α) : Prop := l.IsChain s.Joined

/-- The objects of the list are on the ring of `h`, in this order. -/
structure OnRing (s : Links α) (h : α) (l : List α) : Prop where
  path : s.Path (h :: (l ++ [h]))
  nodup : (h :: l).Nodup

/-- `b` is put behind `a`. -/
def link [DecidableEq α] (s : Links α) (a b : α) : Links α :=
  ⟨update s.next a (some b), update s.prev b (some a)⟩

variable {s s' : Links α} {a b c h x : α} {l us vs xs ys : List α}

section Rings

/-- A path is kept if no link along it changes. -/
theorem Path.congr (hp : s.Path l) (hn : ∀ c ∈ l.dropLast, s'.next c = s.next c)
    (hpr : ∀ c ∈ l.tail, s'.prev c = s.prev c) : s'.Path l := by
  induction l with
  | nil => exact .nil
  | cons a l ih =>
    cases l with
    | nil => exact .singleton a
    | cons b l =>
      obtain ⟨⟨h1, h2⟩, hp⟩ := isChain_cons_cons.mp hp
      refine isChain_cons_cons.mpr ⟨⟨?_, ?_⟩, ih hp ?_ ?_⟩
      · rw [hn a (by simp), h1]
      · rw [hpr b (by simp), h2]
      · exact fun c hc => hn c (by simp [hc])
      · exact fun c hc => hpr c (mem_of_mem_tail hc)

theorem OnRing.congr (hr : s.OnRing h l) (hn : ∀ c ∈ h :: l, s'.next c = s.next c)
    (hp : ∀ c ∈ h :: l, s'.prev c = s.prev c) : s'.OnRing h l where
  path := by
    refine hr.path.congr (fun c hc => hn c ?_) fun c hc => hp c ?_
    · rwa [← cons_append, dropLast_concat] at hc
    · rw [tail_cons] at hc
      rcases mem_append.mp hc with hc | hc
      · exact mem_cons_of_mem h hc
      · exact mem_singleton.mp hc ▸ mem_cons_self
  nodup := hr.nodup

theorem exists_concat (h : α) (l : List α) : ∃ us p, h :: l = us ++ [p] :=
  ⟨_, _, (dropLast_concat_getLast (cons_ne_nil h l)).symm⟩

theorem exists_cons (l : List α) (h : α) : ∃ p vs, l ++ [h] = p :: vs := by
  cases l with
  | nil => exact ⟨h, [], rfl⟩
  | cons p vs => exact ⟨p, vs ++ [h], rfl⟩

theorem OnRing.next_head (hr : s.OnRing h l) : s.next h = (l ++ [h]).head? := by
  obtain ⟨p, vs, hvs⟩ := exists_cons l h
  have hpath := hr.path
  rw [hvs] at hpath ⊢
  exact (isChain_cons_cons.mp hpath).1.1

theorem OnRing.prev_head (hr : s.OnRing h l) : s.prev h = (h :: l).getLast? := by
  obtain ⟨us, p, hus⟩ := exists_concat h l
  have hpath := hr.path
  rw [← cons_append, hus, append_assoc, singleton_append] at hpath
  rw [hus, getLast?_concat]
  exact (isChain_append_cons_cons.mp hpath).2.1.2

theorem OnRing.exists_last (hr : s.OnRing h l) : ∃ a, s.prev h = some a ∧ a ∈ h :: l := by
  obtain ⟨us, p, hus⟩ := exists_concat h l
  refine ⟨p, ?_, ?_⟩
  · rw [hr.prev_head, hus, getLast?_concat]
  · rw [hus]
    exact mem_append_right us mem_cons_self

theorem OnRing.exists_first (hr : s.OnRing h l) : ∃ b, s.next h = some b ∧ b ∈ h :: l := by
  obtain ⟨p, vs, hvs⟩ := exists_cons l h
  refine ⟨p, by rw [hr.next_head, hvs, head?_cons], ?_⟩
  have hp : p ∈ l ++ [h] := hvs ▸ mem_cons_self
  rcases mem_append.mp hp with hp | hp
  · exact mem_cons_of_mem h hp
  · exact mem_singleton.mp hp ▸ mem_cons_self

/-- A ring around one of its objects. -/
theorem ring_eq (hus : h :: xs = us ++ [a]) (hvs : ys ++ [h] = b :: vs) :
    h :: ((xs ++ x :: ys) ++ [h]) = us ++ a :: x :: b :: vs := by
  calc h :: ((xs ++ x :: ys) ++ [h]) = (h :: xs) ++ x :: (ys ++ [h]) := by simp
    _ = (us ++ [a]) ++ x :: (b :: vs) := by rw [hus, hvs]
    _ = us ++ a :: x :: b :: vs := by simp

/-- An object on a ring is linked to its neighbours. -/
theorem OnRing.neighbours (hr : s.OnRing h (xs ++ x :: ys)) :
    s.prev x = (h :: xs).getLast? ∧ s.next x = (ys ++ [h]).head? := by
  obtain ⟨us, p, hus⟩ := exists_concat h xs
  obtain ⟨n, vs, hvs⟩ := exists_cons ys h
  have hpath := hr.path
  rw [ring_eq hus hvs] at hpath
  obtain ⟨-, hpx, hrest⟩ := isChain_append_cons_cons.mp hpath
  rw [hus, hvs, getLast?_concat]
  exact ⟨hpx.2, (isChain_cons_cons.mp hrest).1.1⟩

theorem OnRing.exists_neighbours (hr : s.OnRing h (xs ++ x :: ys)) :
    ∃ a b, s.prev x = some a ∧ s.next x = some b ∧ a ∈ h :: (xs ++ x :: ys) ∧
      b ∈ h :: (xs ++ x :: ys) := by
  obtain ⟨us, p, hus⟩ := exists_concat h xs
  obtain ⟨n, vs, hvs⟩ := exists_cons ys h
  refine ⟨p, n, by rw [hr.neighbours.1, hus, getLast?_concat],
    by rw [hr.neighbours.2, hvs, head?_cons], ?_, ?_⟩
  · have hp : p ∈ h :: xs := hus ▸ mem_append_right us mem_cons_self
    rw [← cons_append]
    exact mem_append_left _ hp
  · have hn : n ∈ ys ++ [h] := hvs ▸ mem_cons_self
    rcases mem_append.mp hn with hn | hn
    · exact mem_cons_of_mem h (mem_append_right xs (mem_cons_of_mem x hn))
    · exact mem_singleton.mp hn ▸ mem_cons_self

/-- No object on a ring is linked to itself but the head of an empty one. -/
theorem OnRing.next_ne (hr : s.OnRing h (xs ++ x :: ys)) : s.next x ≠ some x := by
  intro he
  rw [hr.neighbours.2] at he
  obtain ⟨vs, hvs⟩ := head?_eq_some_iff.mp he
  have hd : (h :: (xs ++ x :: ys)).Nodup := hr.nodup
  cases ys with
  | nil =>
    obtain rfl : h = x := (cons.inj hvs).1
    simp at hd
  | cons y ys =>
    obtain rfl : y = x := (cons.inj hvs).1
    simp [nodup_append] at hd

end Rings

section Joins

variable [DecidableEq α]

theorem joined_link (s : Links α) (a b : α) : (s.link a b).Joined a b :=
  ⟨update_self .., update_self ..⟩

@[simp] theorem link_next_of_ne (hc : c ≠ a) : (s.link a b).next c = s.next c :=
  update_of_ne hc _ _

@[simp] theorem link_prev_of_ne (hc : c ≠ b) : (s.link a b).prev c = s.prev c :=
  update_of_ne hc _ _

theorem Path.link (hp : s.Path l) (ha : a ∉ l.dropLast) (hb : b ∉ l.tail) :
    (s.link a b).Path l := by
  refine hp.congr (fun c hc => link_next_of_ne ?_) fun c hc => link_prev_of_ne ?_
  · rintro rfl
    exact ha hc
  · rintro rfl
    exact hb hc

/-- Two paths are joined. -/
theorem Path.join (hx : s.Path (us ++ [a])) (hy : s.Path (b :: vs)) (ha : a ∉ us)
    (ha' : a ∉ (b :: vs).dropLast) (hb : b ∉ (us ++ [a]).tail) (hb' : b ∉ vs) :
    (s.link a b).Path (us ++ a :: b :: vs) := by
  have hx' : (s.link a b).Path (us ++ [a]) := hx.link (by rwa [dropLast_concat]) hb
  have hy' : (s.link a b).Path (b :: vs) := hy.link ha' hb'
  exact isChain_append_cons_cons.mpr ⟨hx', joined_link s a b, hy'⟩

/-- Joins of objects that are not on the ring do not change it. -/
theorem OnRing.link (hr : s.OnRing h l) (ha : a ∉ h :: l) (hb : b ∉ h :: l) :
    (s.link a b).OnRing h l := by
  refine hr.congr (fun c hc => link_next_of_ne ?_) fun c hc => link_prev_of_ne ?_
  · rintro rfl
    exact ha hc
  · rintro rfl
    exact hb hc

/-- An object is put behind the others. -/
theorem OnRing.append (hr : s.OnRing h l) (hx : x ∉ h :: l) (hp : s.prev h = some a) :
    ((s.link x h).link a x).OnRing h (l ++ [x]) := by
  rw [hr.prev_head] at hp
  obtain ⟨us, hus⟩ := getLast?_eq_some_iff.mp hp
  have hpath := hr.path
  rw [← cons_append, hus, append_assoc, singleton_append] at hpath
  have hxh : x ≠ h := fun he => hx (he ▸ mem_cons_self)
  have hd : (us ++ [a]).Nodup := hus ▸ hr.nodup
  have hfirst : (s.link x h).Path (us ++ [a]) := by
    refine Path.link (isChain_append_cons_cons.mp hpath).1 ?_ ?_
    · rw [← hus]
      exact fun hm => hx (dropLast_subset _ hm)
    · rw [← hus]
      exact (nodup_cons.mp hr.nodup).1
  have hlast : (s.link x h).Path [x, h] := isChain_cons_cons.mpr ⟨joined_link s x h, .singleton h⟩
  have ha : a ∈ h :: l := by
    rw [hus]
    simp
  have hjoin := hfirst.join hlast (fun hm => (nodup_append.mp hd).2.2 a hm a (by simp) rfl)
    (by
      intro hm
      obtain rfl : a = x := by simpa using hm
      exact hx ha)
    (by
      rw [← hus]
      exact fun hm => hx (mem_cons_of_mem h hm))
    (by simpa using hxh)
  refine ⟨?_, ?_⟩
  · have heq : h :: (l ++ [x] ++ [h]) = us ++ a :: x :: [h] := by
      rw [append_assoc, ← cons_append, hus]
      simp
    rw [heq]
    exact hjoin
  · rw [← cons_append]
    exact nodup_append.mpr ⟨hr.nodup, nodup_singleton x, fun c hc d hd => by
      rintro rfl
      exact hx (mem_singleton.mp hd ▸ hc)⟩

/-- An object is put before the others. -/
theorem OnRing.prepend (hr : s.OnRing h l) (hx : x ∉ h :: l) (hn : s.next h = some b) :
    ((s.link h x).link x b).OnRing h (x :: l) := by
  rw [hr.next_head] at hn
  obtain ⟨vs, hvs⟩ := head?_eq_some_iff.mp hn
  have hpath := hr.path
  rw [hvs] at hpath
  have hxh : x ≠ h := fun he => hx (he ▸ mem_cons_self)
  obtain ⟨hhl, hdl⟩ := nodup_cons.mp hr.nodup
  have hd : (b :: vs).Nodup := by
    rw [← hvs]
    exact nodup_append_comm.mp hr.nodup
  have hdrop : (b :: vs).dropLast = l := by rw [← hvs, dropLast_concat]
  have hxvs : x ∉ b :: vs := by
    rw [← hvs]
    simpa [hxh] using fun hm => hx (mem_cons_of_mem h hm)
  have hrest : (s.link h x).Path (b :: vs) := by
    refine Path.link (isChain_cons_cons.mp hpath).2 ?_ ?_
    · rwa [hdrop]
    · exact fun hm => hxvs (mem_cons_of_mem b hm)
  have hfirst : (s.link h x).Path ([h] ++ [x]) :=
    isChain_cons_cons.mpr ⟨joined_link s h x, .singleton x⟩
  have hjoin := hfirst.join hrest (by simpa using hxh)
    (by
      rw [hdrop]
      exact fun hm => hx (mem_cons_of_mem h hm))
    (by
      intro hm
      obtain rfl : b = x := by simpa using hm
      exact hxvs mem_cons_self)
    (nodup_cons.mp hd).1
  refine ⟨?_, ?_⟩
  · rw [cons_append, hvs]
    exact hjoin
  · refine nodup_cons.mpr ⟨?_, nodup_cons.mpr ⟨fun hm => hx (mem_cons_of_mem h hm), hdl⟩⟩
    rintro (_ | ⟨_, hm⟩)
    · exact hxh rfl
    · exact hhl hm

/-- An object is passed over. -/
theorem OnRing.remove (hr : s.OnRing h (xs ++ x :: ys)) (hp : s.prev x = some a)
    (hn : s.next x = some b) : (s.link a b).OnRing h (xs ++ ys) := by
  rw [hr.neighbours.1] at hp
  rw [hr.neighbours.2] at hn
  obtain ⟨us, hus⟩ := getLast?_eq_some_iff.mp hp
  obtain ⟨vs, hvs⟩ := head?_eq_some_iff.mp hn
  have hpath := hr.path
  rw [ring_eq hus hvs] at hpath
  obtain ⟨hfirst, -, hrest⟩ := isChain_append_cons_cons.mp hpath
  have hd : (h :: (xs ++ ys)).Nodup :=
    hr.nodup.sublist ((sublist_append_right [x] ys).append_left xs |>.cons_cons h)
  obtain ⟨hdx, hdy, hdis⟩ := nodup_append.mp (show ((h :: xs) ++ ys).Nodup from hd)
  have hdrop : (b :: vs).dropLast = ys := by rw [← hvs, dropLast_concat]
  have ha : a ∈ h :: xs := by
    rw [hus]
    simp
  have hb : b ∈ ys ++ [h] := by
    rw [hvs]
    simp
  have hjoin := Path.join hfirst (isChain_cons_cons.mp hrest).2
    (by
      rw [hus] at hdx
      exact fun hm => (nodup_append.mp hdx).2.2 a hm a (by simp) rfl)
    (by
      rw [hdrop]
      exact fun hm => hdis a ha a hm rfl)
    (by
      rw [← hus, tail_cons]
      intro hm
      rcases mem_append.mp hb with hb | hb
      · exact hdis b (mem_cons_of_mem h hm) b hb rfl
      · exact (nodup_cons.mp hdx).1 (mem_singleton.mp hb ▸ hm))
    (by
      have hdvs : (b :: vs).Nodup := by
        rw [← hvs]
        exact nodup_append_comm.mp
          (hd.sublist ((sublist_append_right xs ys).cons_cons h))
      exact (nodup_cons.mp hdvs).1)
  refine ⟨?_, hd⟩
  have heq : h :: ((xs ++ ys) ++ [h]) = us ++ a :: b :: vs := by
    rw [append_assoc, ← cons_append, hus, hvs]
    simp
  rw [heq]
  exact hjoin

end Joins

end Links

end Ryu
