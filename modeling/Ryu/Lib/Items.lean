import Ryu.Lib.Codec

/-! # Loops over the items of a buffer

`while buf: item, buf = read(buf)`. A reader that leaves the buffer as it found it is called again
and again, so that a loop that ends does so in no more rounds than the buffer is long.
-/

namespace Ryu

variable {ε α β : Type*}

/-- At most so many rounds of the loop, and nothing if they are not enough. -/
def readItems (read : List β → Except ε (α × List β)) : ℕ → List β → Option (Except ε (List α))
  | _, [] => some (.ok [])
  | 0, _ :: _ => none
  | n + 1, x :: b =>
    match read (x :: b) with
    | .error e => some (.error e)
    | .ok (a, r) => (readItems read n r).map (Except.map (a :: ·))

variable {read : List β → Except ε (α × List β)} {n : ℕ} {b r : List β} {a : α} {l : List α}

@[simp] theorem readItems_nil (read : List β → Except ε (α × List β)) (n : ℕ) :
    readItems read n [] = some (.ok []) := by
  cases n <;> rfl

theorem readItems_step (h : read b = .ok (a, r)) (hb : b ≠ []) :
    readItems read (n + 1) b = (readItems read n r).map (Except.map (a :: ·)) := by
  obtain ⟨x, b, rfl⟩ := List.exists_cons_of_ne_nil hb
  rw [readItems, h]

/-- The first round of a loop that returns. -/
theorem readItems_inv (h : readItems read n b = some (.ok l)) (hb : b ≠ []) :
    ∃ m a r l', n = m + 1 ∧ read b = .ok (a, r) ∧ readItems read m r = some (.ok l') ∧
      l = a :: l' := by
  obtain ⟨x, b, rfl⟩ := List.exists_cons_of_ne_nil hb
  cases n with
  | zero => cases h
  | succ m =>
    rw [readItems] at h
    split at h
    · cases h
    · next a r hread =>
      obtain ⟨y, hy, hmap⟩ := Option.map_eq_some_iff.mp h
      obtain ⟨l', rfl, rfl⟩ := map_eq_ok.1 hmap
      exact ⟨m, a, r, l', rfl, hread, hy, rfl⟩

/-- Items that each are read off are all read off. -/
theorem readItems_flatMap {w : α → List β} (hw : ∀ a ∈ l, w a ≠ [])
    (hread : ∀ a ∈ l, ∀ r, read (w a ++ r) = .ok (a, r)) (hn : l.length ≤ n) :
    readItems read n (l.flatMap w) = some (.ok l) := by
  induction l generalizing n with
  | nil => simp
  | cons a l ih =>
    obtain ⟨m, rfl⟩ : ∃ m, n = m + 1 := ⟨n - 1, by simp at hn; omega⟩
    have hne : w a ++ l.flatMap w ≠ [] := by simp [hw a List.mem_cons_self]
    rw [List.flatMap_cons, readItems_step (hread a List.mem_cons_self _) hne,
      ih (fun a' ha' => hw a' (List.mem_cons_of_mem a ha'))
        (fun a' ha' => hread a' (List.mem_cons_of_mem a ha')) (by simpa using hn)]
    rfl

namespace Decoder

variable {D : Decoder ε β α}

/-- The first round of a decoder. -/
theorem readAll_eq_ok_iff (hb : b ≠ []) : D.readAll b = .ok l ↔
    ∃ a r l', D.read b = .ok (a, r) ∧ D.readAll r = .ok l' ∧ l = a :: l' := by
  constructor
  · intro h
    cases hread : D.read b with
    | error e =>
      rw [readAll_error hb hread] at h
      cases h
    | ok x =>
      rw [readAll_ok hread] at h
      obtain ⟨l', hl', rfl⟩ := map_eq_ok.1 h
      exact ⟨x.1, x.2, l', rfl, hl', rfl⟩
  · rintro ⟨a, r, l', hread, hl', rfl⟩
    rw [readAll_ok hread, hl']
    rfl

/-- A list of items is read back exactly if each is read back in front of the ones behind it. -/
theorem readAll_flatMap_iff {γ : Type*} {w : γ → List β} {f : γ → α} {p : γ → Prop}
    {q : γ → List γ → Prop} {l : List γ} (hw : ∀ g ∈ l, w g ≠ [])
    (hread : ∀ g post, g :: post <:+ l → ∀ r,
      (D.read (w g ++ post.flatMap w) = .ok (f g, r) ∧ p g ↔ q g post ∧ r = post.flatMap w)) :
    D.readAll (l.flatMap w) = .ok (l.map f) ∧ (∀ g ∈ l, p g) ↔
      ∀ g post, g :: post <:+ l → q g post := by
  induction l with
  | nil => simp
  | cons g l ih =>
    obtain ⟨hg, hl⟩ := List.forall_mem_cons.mp hw
    have hne : w g ++ l.flatMap w ≠ [] := by simp [hg]
    have hfirst := hread g l List.suffix_rfl
    have hrest := ih hl fun g' post h => hread g' post (h.trans (List.suffix_cons g l))
    rw [List.flatMap_cons, List.map_cons, List.forall_mem_cons, readAll_eq_ok_iff hne]
    constructor
    · rintro ⟨⟨a, r, l', hr, hl', heq⟩, hp, hps⟩ g' post hsuffix
      obtain ⟨rfl, rfl⟩ := List.cons.inj heq
      obtain ⟨hq, rfl⟩ := (hfirst r).mp ⟨hr, hp⟩
      obtain heq | hsuffix := List.suffix_cons_iff.mp hsuffix
      · obtain ⟨rfl, rfl⟩ := List.cons.inj heq
        exact hq
      · exact hrest.mp ⟨hl', hps⟩ g' post hsuffix
    · intro h
      obtain ⟨hr, hp⟩ := (hfirst _).mpr ⟨h g l List.suffix_rfl, rfl⟩
      obtain ⟨hl', hps⟩ := hrest.mpr fun g' post hsuffix =>
        h g' post (hsuffix.trans (List.suffix_cons g l))
      exact ⟨⟨f g, _, _, hr, hl', rfl⟩, hp, hps⟩

/-- Items are written again as they were read, if each of them is. -/
theorem writeEach_of_readAll {write : α → Except ε (List β × α)} {p : α → Prop}
    (h : ∀ a b r, D.read b = .ok (a, r) → p a → ∃ w, write a = .ok (w, a) ∧ b = w ++ r)
    (hread : D.readAll b = .ok l) (hp : ∀ a ∈ l, p a) : writeEach write l = .ok (b, l) := by
  induction l generalizing b with
  | nil =>
    obtain rfl : b = [] := by
      by_contra hb
      obtain ⟨a, r, l', -, -, hl⟩ := (readAll_eq_ok_iff hb).mp hread
      cases hl
    rfl
  | cons a l ih =>
    obtain ⟨ha, hp⟩ := List.forall_mem_cons.mp hp
    have hb : b ≠ [] := by
      rintro rfl
      cases Except.ok.inj hread
    obtain ⟨a', r, l', hfirst, hrest, heq⟩ := (readAll_eq_ok_iff hb).mp hread
    obtain ⟨rfl, rfl⟩ := List.cons.inj heq
    obtain ⟨w, hw, rfl⟩ := h _ _ _ hfirst ha
    simp only [writeEach, hw, ih hrest hp]
    rfl

end Decoder

/-- Items that can each be written can all be written. -/
theorem exists_writeEach {write : α → Except ε (List β × α)} (h : ∀ a ∈ l, ∃ x, write a = .ok x) :
    ∃ x, writeEach write l = .ok x := by
  induction l with
  | nil => exact ⟨_, rfl⟩
  | cons a l ih =>
    obtain ⟨⟨x, hx⟩, h⟩ := List.forall_mem_cons.mp h
    obtain ⟨y, hy⟩ := ih h
    exact ⟨(x.1 ++ y.1, x.2 :: y.2), by simp only [writeEach, hx, hy]; rfl⟩

theorem writeEach_congr {write write' : α → Except ε (List β × α)}
    (h : ∀ a ∈ l, write a = write' a) : writeEach write l = writeEach write' l := by
  induction l with
  | nil => rfl
  | cons a l ih =>
    obtain ⟨ha, h⟩ := List.forall_mem_cons.mp h
    simp only [writeEach, ha, ih h]

/-! ## Writers one after the other -/

/-- Octets, and those of a writer behind them. -/
def writeBehind (hdr : Except ε (List β)) (x : Except ε (List β × α)) : Except ε (List β × α) :=
  match hdr with
  | .error e => .error e
  | .ok b => x.map fun y => (b ++ y.1, y.2)

theorem writeBehind_eq_ok_iff {hdr : Except ε (List β)} {x : Except ε (List β × α)} :
    writeBehind hdr x = .ok (b, a) ↔ ∃ h t, hdr = .ok h ∧ x = .ok (t, a) ∧ h ++ t = b := by
  cases hdr with
  | error e => simp [writeBehind]
  | ok h => simp [writeBehind, map_eq_ok]

end Ryu
