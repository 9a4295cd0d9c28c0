import Ryu.Lib.Bytes
import Ryu.Lib.Python

/-! # Encoders and decoders

Fields of a fixed size, written one after the other, and the two loops that read them back:
a counted one, and one that goes on while input is left. What reads back each item reads back
a list of them.
-/

namespace Ryu

open Bytes

/-- What `struct` raises, for a value that does not fit and for a buffer that is too short. -/
def structError : PyError := .other "struct.error"

/-- `msg_pack_into` of one unsigned number of `size` octets. -/
def packInto (size v : ℕ) : Except PyError (List UInt8) :=
  if v < 256 ^ size then .ok (toBytes size v) else .error structError

/-- `struct.unpack_from` of one unsigned number, with the buffer behind it. -/
def unpackFrom (size : ℕ) (buf : List UInt8) : Except PyError (ℕ × List UInt8) :=
  if buf.length < size then .error structError
  else .ok (ofBytes (buf.take size), buf.drop size)

/-- A decoder that takes something off each buffer it accepts. -/
structure Decoder (ε β α : Type*) where
  read : List β → Except ε (α × List β)
  read_lt : ∀ {b r : List β} {a : α}, read b = .ok (a, r) → r.length < b.length

section Lists

variable {ε β α : Type*}

/-- Write the items of a list one after the other. -/
def writeAll (write : α → Except ε (List β)) : List α → Except ε (List β)
  | [] => .ok []
  | a :: l =>
    match write a with
    | .error e => .error e
    | .ok b => (writeAll write l).map (b ++ ·)

/-- Write the items of a list, each beside what it leaves of itself. -/
def writeEach (write : α → Except ε (List β × α)) : List α → Except ε (List β × List α)
  | [] => .ok ([], [])
  | a :: l =>
    match write a with
    | .error e => .error e
    | .ok (b, a') => (writeEach write l).map fun x => (b ++ x.1, a' :: x.2)

theorem writeAll_cons_ok {write : α → Except ε (List β)} {a : α} {l : List α} {buf : List β}
    (h : writeAll write (a :: l) = .ok buf) :
    ∃ b rest, write a = .ok b ∧ writeAll write l = .ok rest ∧ buf = b ++ rest := by
  rw [writeAll] at h
  split at h
  · cases h
  · next b hb =>
    obtain ⟨rest, hrest, rfl⟩ := map_eq_ok.1 h
    exact ⟨b, rest, hb, hrest, rfl⟩

theorem writeEach_cons_ok {write : α → Except ε (List β × α)} {a : α} {l l' : List α}
    {buf : List β} (h : writeEach write (a :: l) = .ok (buf, l')) :
    ∃ b a' rest l'', write a = .ok (b, a') ∧ writeEach write l = .ok (rest, l'') ∧
      buf = b ++ rest ∧ l' = a' :: l'' := by
  rw [writeEach] at h
  split at h
  · cases h
  · next b a' hb =>
    obtain ⟨⟨rest, l''⟩, hrest, heq⟩ := map_eq_ok.1 h
    obtain ⟨rfl, rfl⟩ := Prod.mk.inj heq
    exact ⟨b, a', rest, l'', hb, hrest, rfl, rfl⟩

/-- Items of which it is known when they are written, and what is written and left then. -/
theorem writeEach_eq_ok_iff {write : α → Except ε (List β × α)} {P : α → Prop} {w : α → List β}
    {f : α → α} {l l' : List α} {buf : List β}
    (h : ∀ a ∈ l, ∀ b a', write a = .ok (b, a') ↔ P a ∧ b = w a ∧ a' = f a) :
    writeEach write l = .ok (buf, l') ↔
      (∀ a ∈ l, P a) ∧ buf = l.flatMap w ∧ l' = l.map f := by
  induction l generalizing buf l' with
  | nil => simp [writeEach, eq_comm]
  | cons a l ih =>
    obtain ⟨ha, hl⟩ := List.forall_mem_cons.mp h
    rw [List.forall_mem_cons]
    constructor
    · intro hok
      obtain ⟨b, a', rest, l'', hb, hrest, rfl, rfl⟩ := writeEach_cons_ok hok
      obtain ⟨hp, rfl, rfl⟩ := (ha b a').mp hb
      obtain ⟨hps, rfl, rfl⟩ := (ih hl).mp hrest
      exact ⟨⟨hp, hps⟩, rfl, rfl⟩
    · rintro ⟨⟨hp, hps⟩, rfl, rfl⟩
      have hb := (ha _ _).mpr ⟨hp, rfl, rfl⟩
      have hrest := (ih hl).mpr ⟨hps, rfl, rfl⟩
      simp only [writeEach, hb, hrest]
      rfl

/-- Read as many items as asked for. -/
def readTimes (read : List β → Except ε (α × List β)) :
    ℕ → List β → Except ε (List α × List β)
  | 0, b => .ok ([], b)
  | n + 1, b =>
    match read b with
    | .error e => .error e
    | .ok (a, r) => (readTimes read n r).map fun x => (a :: x.1, x.2)

namespace Decoder

variable (D : Decoder ε β α)

/-- At most `n` rounds of the loop. -/
def rounds : ℕ → List β → Except ε (List α)
  | 0, _ => .ok []
  | n + 1, b =>
    if b = [] then .ok []
    else
      match D.read b with
      | .error e => .error e
      | .ok (a, r) => (rounds n r).map (a :: ·)

/-- Read items while input is left. No round leaves the buffer as it is, so there are no more
than it has octets. -/
def readAll (b : List β) : Except ε (List α) := D.rounds b.length b

variable {D}

theorem rounds_eq_of_le {n m : ℕ} {b : List β} (hn : b.length ≤ n) (hm : b.length ≤ m) :
    D.rounds n b = D.rounds m b := by
  induction n generalizing m b with
  | zero =>
    obtain rfl : b = [] := List.length_eq_zero_iff.mp (by omega)
    cases m <;> simp [rounds]
  | succ n ih =>
    cases m with
    | zero =>
      obtain rfl : b = [] := List.length_eq_zero_iff.mp (by omega)
      simp [rounds]
    | succ m =>
      by_cases hb : b = []
      · simp [rounds, hb]
      · simp only [rounds, if_neg hb]
        cases hr : D.read b with
        | error e => rfl
        | ok x =>
          have hlt := D.read_lt hr
          have heq : D.rounds n x.2 = D.rounds m x.2 := ih (by omega) (by omega)
          simp only [heq]

@[simp] theorem readAll_nil : D.readAll [] = .ok [] := rfl

theorem readAll_error {b : List β} {e : ε} (hb : b ≠ []) (h : D.read b = .error e) :
    D.readAll b = .error e := by
  obtain ⟨n, hn⟩ := Nat.exists_eq_succ_of_ne_zero (List.length_pos_iff.mpr hb).ne'
  rw [readAll, hn, rounds, if_neg hb, h]

theorem readAll_ok {b r : List β} {a : α} (h : D.read b = .ok (a, r)) :
    D.readAll b = (D.readAll r).map (a :: ·) := by
  have hlt := D.read_lt h
  obtain ⟨n, hn⟩ := Nat.exists_eq_succ_of_ne_zero (show b.length ≠ 0 by omega)
  have hb : b ≠ [] := by
    rintro rfl
    cases hn
  have hr : D.rounds n r = D.readAll r := rounds_eq_of_le (by omega) le_rfl
  rw [readAll, hn, rounds, if_neg hb, h, ← hr]

/-- What is read back item by item is read back as a list. -/
theorem readAll_writeAll {ε' γ : Type*} {write : γ → Except ε' (List β)} {f : γ → α} {l : List γ}
    (h : ∀ a ∈ l, ∀ b, write a = .ok b → ∀ r, D.read (b ++ r) = .ok (f a, r)) {buf : List β}
    (hbuf : writeAll write l = .ok buf) : D.readAll buf = .ok (l.map f) := by
  induction l generalizing buf with
  | nil =>
    obtain rfl := Except.ok.inj hbuf
    rfl
  | cons a l ih =>
    obtain ⟨b, rest, hb, hrest, rfl⟩ := writeAll_cons_ok hbuf
    have hread := h a List.mem_cons_self b hb rest
    rw [readAll_ok hread, ih (fun a' ha' => h a' (List.mem_cons_of_mem _ ha')) hrest]
    rfl

theorem readAll_writeEach {ε' : Type*} {write : α → Except ε' (List β × α)} {l l' : List α}
    (h : ∀ a ∈ l, ∀ b a', write a = .ok (b, a') → ∀ r, D.read (b ++ r) = .ok (a', r))
    {buf : List β} (hbuf : writeEach write l = .ok (buf, l')) : D.readAll buf = .ok l' := by
  induction l generalizing buf l' with
  | nil =>
    obtain ⟨rfl, rfl⟩ := Prod.mk.inj (Except.ok.inj hbuf)
    rfl
  | cons a l ih =>
    obtain ⟨b, a', rest, l'', hb, hrest, rfl, rfl⟩ := writeEach_cons_ok hbuf
    have hread := h a List.mem_cons_self b a' hb rest
    rw [readAll_ok hread, ih (fun a' ha' => h a' (List.mem_cons_of_mem _ ha')) hrest]
    rfl

end Decoder

/-- What each item leaves of itself has what the item has. -/
theorem map_writeEach {γ : Type*} {f : α → γ} {write : α → Except ε (List β × α)} {l l' : List α}
    (h : ∀ a ∈ l, ∀ b a', write a = .ok (b, a') → f a' = f a) {buf : List β}
    (hbuf : writeEach write l = .ok (buf, l')) : l'.map f = l.map f := by
  induction l generalizing buf l' with
  | nil =>
    obtain ⟨-, rfl⟩ := Prod.mk.inj (Except.ok.inj hbuf)
    rfl
  | cons a l ih =>
    obtain ⟨b, a', rest, l'', hb, hrest, -, rfl⟩ := writeEach_cons_ok hbuf
    rw [List.map_cons, List.map_cons, h a List.mem_cons_self b a' hb,
      ih (fun a' ha' => h a' (List.mem_cons_of_mem _ ha')) hrest]

variable {read : List β → Except ε (α × List β)} {write : α → Except ε (List β)} {l : List α}

theorem readTimes_writeAll (h : ∀ a ∈ l, ∀ b, write a = .ok b → ∀ r, read (b ++ r) = .ok (a, r))
    {buf : List β} (hbuf : writeAll write l = .ok buf) (r : List β) :
    readTimes read l.length (buf ++ r) = .ok (l, r) := by
  induction l generalizing buf with
  | nil =>
    obtain rfl := Except.ok.inj hbuf
    rfl
  | cons a l ih =>
    obtain ⟨b, rest, hb, hrest, rfl⟩ := writeAll_cons_ok hbuf
    have hread := h a List.mem_cons_self b hb (rest ++ r)
    have hl := ih (fun a' ha' => h a' (List.mem_cons_of_mem _ ha')) hrest
    simp only [List.length_cons, readTimes, List.append_assoc, hread, hl]
    rfl

theorem length_le_of_readTimes (h : ∀ {b r : List β} {a : α}, read b = .ok (a, r) →
    r.length ≤ b.length) {n : ℕ} {b r : List β} (hr : readTimes read n b = .ok (l, r)) :
    r.length ≤ b.length := by
  induction n generalizing b l with
  | zero =>
    obtain ⟨-, rfl⟩ := Prod.mk.inj (Except.ok.inj hr)
    exact le_rfl
  | succ n ih =>
    rw [readTimes] at hr
    split at hr
    · cases hr
    · next hread =>
      obtain ⟨x, hx, heq⟩ := map_eq_ok.1 hr
      obtain ⟨-, rfl⟩ := Prod.mk.inj heq
      exact (ih hx).trans (h hread)

theorem writeAll_ok {w : α → List β} (h : ∀ a ∈ l, write a = .ok (w a)) :
    writeAll write l = .ok (l.flatMap w) := by
  induction l with
  | nil => rfl
  | cons a l ih =>
    simp only [writeAll, h a List.mem_cons_self,
      ih fun a' ha' => h a' (List.mem_cons_of_mem _ ha')]
    rfl

theorem writeAll_map {γ : Type*} {f : γ → α} {write' : γ → Except ε (List β)} {l : List γ}
    (h : ∀ a ∈ l, write (f a) = write' a) : writeAll write (l.map f) = writeAll write' l := by
  induction l with
  | nil => rfl
  | cons a l ih =>
    simp only [List.map_cons, writeAll, h a List.mem_cons_self,
      ih fun a' ha' => h a' (List.mem_cons_of_mem _ ha')]

end Lists

/-- A decoder that keeps a state from one item to the next. -/
structure StateDecoder (σ ε β α : Type*) where
  read : σ → List β → Except ε (α × List β) × σ
  read_lt : ∀ {s s' : σ} {b r : List β} {a : α}, read s b = (.ok (a, r), s') → r.length < b.length

namespace StateDecoder

variable {σ ε ε' β α : Type*} (D : StateDecoder σ ε β α)

/-- At most `n` rounds of the loop. -/
def rounds : ℕ → σ → List β → Except ε (List α) × σ
  | 0, s, _ => (.ok [], s)
  | n + 1, s, b =>
    if b = [] then (.ok [], s)
    else
      match D.read s b with
      | (.error e, s') => (.error e, s')
      | (.ok (a, r), s') => ((rounds n s' r).1.map (a :: ·), (rounds n s' r).2)

/-- Read items while input is left, from a state on. -/
def readAll (s : σ) (b : List β) : Except ε (List α) × σ := D.rounds b.length s b

/-- Reading comes to an input with the property. -/
inductive ComesTo (P : List β → Prop) : σ → List β → Prop
  | here {s : σ} {b : List β} (h : P b) : ComesTo P s b
  | later {s s' : σ} {b r : List β} {a : α} (h : D.read s b = (.ok (a, r), s'))
      (hr : ComesTo P s' r) : ComesTo P s b

variable {D} {s s' : σ} {b r : List β} {a : α}

theorem rounds_eq_of_le {n m : ℕ} (hn : b.length ≤ n) (hm : b.length ≤ m) :
    D.rounds n s b = D.rounds m s b := by
  induction n generalizing m b s with
  | zero =>
    obtain rfl : b = [] := List.length_eq_zero_iff.mp (by omega)
    cases m <;> simp [rounds]
  | succ n ih =>
    cases m with
    | zero =>
      obtain rfl : b = [] := List.length_eq_zero_iff.mp (by omega)
      simp [rounds]
    | succ m =>
      by_cases hb : b = []
      · simp [rounds, hb]
      · simp only [rounds, if_neg hb]
        match hr : D.read s b with
        | (.error e, s') => rfl
        | (.ok (a, r), s') =>
          have hlt := D.read_lt hr
          have heq : D.rounds n s' r = D.rounds m s' r := ih (by omega) (by omega)
          simp only [heq]

@[simp] theorem readAll_nil (s : σ) : D.readAll s [] = (.ok [], s) := rfl

theorem readAll_error {e : ε} (hb : b ≠ []) (h : D.read s b = (.error e, s')) :
    D.readAll s b = (.error e, s') := by
  obtain ⟨n, hn⟩ := Nat.exists_eq_succ_of_ne_zero (List.length_pos_iff.mpr hb).ne'
  rw [readAll, hn, rounds, if_neg hb, h]

theorem readAll_ok (h : D.read s b = (.ok (a, r), s')) :
    D.readAll s b = ((D.readAll s' r).1.map (a :: ·), (D.readAll s' r).2) := by
  have hlt := D.read_lt h
  obtain ⟨n, hn⟩ := Nat.exists_eq_succ_of_ne_zero (show b.length ≠ 0 by omega)
  have hb : b ≠ [] := by
    rintro rfl
    cases hn
  have hr : D.rounds n s' r = D.readAll s' r := rounds_eq_of_le (by omega) le_rfl
  rw [readAll, hn, rounds, if_neg hb, h, ← hr]

/-- A state that no item changes. -/
theorem readAll_state (h : ∀ b, (D.read s b).2 = s) (b : List β) : (D.readAll s b).2 = s := by
  unfold readAll
  generalize b.length = n
  induction n generalizing b with
  | zero => rfl
  | succ n ih =>
    rw [rounds]
    split
    · rfl
    · have hs := h b
      split
      · next hr => rwa [hr] at hs
      · next hr =>
        rw [hr] at hs
        obtain rfl : _ = s := hs
        exact ih _

/-- What is read back item by item, without a change of the state, is read back as a list. -/
theorem readAll_writeEach {write : α → Except ε' (List β × α)} {l l' : List α}
    (h : ∀ a ∈ l, ∀ b a', write a = .ok (b, a') → ∀ r, D.read s (b ++ r) = (.ok (a', r), s))
    {buf : List β} (hbuf : writeEach write l = .ok (buf, l')) : D.readAll s buf = (.ok l', s) := by
  induction l generalizing buf l' with
  | nil =>
    obtain ⟨rfl, rfl⟩ := Prod.mk.inj (Except.ok.inj hbuf)
    rfl
  | cons a l ih =>
    obtain ⟨b, a', rest, l'', hb, hrest, rfl, rfl⟩ := writeEach_cons_ok hbuf
    have hread := h a List.mem_cons_self b a' hb rest
    rw [readAll_ok hread, ih (fun a' ha' => h a' (List.mem_cons_of_mem _ ha')) hrest]
    rfl

end StateDecoder

variable {size v : ℕ} {buf : List UInt8}

theorem packInto_eq_ok : packInto size v = .ok buf ↔ v < 256 ^ size ∧ toBytes size v = buf := by
  unfold packInto
  split <;> simp_all

theorem unpackFrom_toBytes (hv : v < 256 ^ size) (r : List UInt8) :
    unpackFrom size (toBytes size v ++ r) = .ok (v, r) := by
  have hlen : ¬(toBytes size v ++ r).length < size := by simp
  have htake : (toBytes size v ++ r).take size = toBytes size v :=
    List.take_left' (length_toBytes size v)
  have hdrop : (toBytes size v ++ r).drop size = r := List.drop_left' (length_toBytes size v)
  rw [unpackFrom, if_neg hlen, htake, hdrop, ofBytes_toBytes, Nat.mod_eq_of_lt hv]

theorem unpackFrom_packInto (h : packInto size v = .ok buf) (r : List UInt8) :
    unpackFrom size (buf ++ r) = .ok (v, r) := by
  obtain ⟨hv, rfl⟩ := packInto_eq_ok.1 h
  exact unpackFrom_toBytes hv r

theorem length_of_unpackFrom {r : List UInt8} (h : unpackFrom size buf = .ok (v, r)) :
    buf.length = size + r.length := by
  unfold unpackFrom at h
  split at h
  · cases h
  · next hl =>
    obtain ⟨rfl, rfl⟩ := Prod.mk.inj (Except.ok.inj h)
    rw [List.length_drop]
    omega

end Ryu
