import Mathlib.Data.Nat.Notation
import Mathlib.Data.Int.Notation
import Mathlib.Tactic.Linarith

/-! # Numerals

Texts of digits in a base, and Python's two readings of a text as an integer: in base
ten, and as a literal whose base is written in front. What is written in a base, padded
with zeros or not, reads back as the number.
-/

namespace Ryu

/-- An ASCII text. -/
abbrev Text := List Char

namespace Numeral

/-- The value of a digit or a letter. -/
def charVal (c : Char) : Option ℕ :=
  if c.isDigit then some (c.toNat - 48)
  else if c.isLower then some (c.toNat - 87)
  else if c.isUpper then some (c.toNat - 55)
  else none

/-- The value of a digit of base `b`. -/
def digit? (b : ℕ) (c : Char) : Option ℕ := (charVal c).filter (· < b)

/-- Read digits, most significant first, after what has been read. -/
def ofDigits (b : ℕ) (acc : ℕ) : Text → Option ℕ
  | [] => some acc
  | c :: cs => (digit? b c).bind fun d => ofDigits b (b * acc + d) cs

/-- Zeros in front, up to a width. -/
def pad (w : ℕ) (s : Text) : Text := List.replicate (w - s.length) '0' ++ s

/-- A text of digits, with single underscores between them. -/
def nat? (b : ℕ) (s : Text) : Option ℕ :=
  if [] ∈ s.splitOn '_' then none else ofDigits b 0 (s.splitOn '_').flatten

def isSpace (c : Char) : Bool := c ∈ [' ', '\t', '\n', '\r', '\x0b', '\x0c']

/-- `s.strip()`. -/
def strip (s : Text) : Text := ((s.dropWhile isSpace).reverse.dropWhile isSpace).reverse

/-- A sign in front, and space around. -/
def signed (f : Text → Option ℕ) (s : Text) : Option ℤ :=
  match strip s with
  | '+' :: t => (f t).map Int.ofNat
  | '-' :: t => (f t).map fun n => -Int.ofNat n
  | t => (f t).map Int.ofNat

/-- An underscore may follow the mark of the base. -/
def based (b : ℕ) : Text → Option ℕ
  | '_' :: t => nat? b t
  | t => nat? b t

/-- A literal: without a mark of the base it is decimal, and only zero starts with a zero. -/
def literal : Text → Option ℕ
  | '0' :: 'x' :: t => based 16 t
  | '0' :: 'X' :: t => based 16 t
  | '0' :: 'o' :: t => based 8 t
  | '0' :: 'O' :: t => based 8 t
  | '0' :: 'b' :: t => based 2 t
  | '0' :: 'B' :: t => based 2 t
  | '0' :: t => (nat? 10 ('0' :: t)).filter (· = 0)
  | t => nat? 10 t

/-- A literal of base 16, with its mark in front or not. -/
def hexLiteral : Text → Option ℕ
  | '0' :: 'x' :: t => based 16 t
  | '0' :: 'X' :: t => based 16 t
  | t => nat? 16 t

/-- `int(s)`. -/
def int? : Text → Option ℤ := signed (nat? 10)

/-- `int(s, 0)`. -/
def int0? : Text → Option ℤ := signed literal

/-- `int(s, 16)`. -/
def int16? : Text → Option ℤ := signed hexLiteral

/-- `s.isdigit()`. -/
def isDigits (s : Text) : Bool := s ≠ [] ∧ s.all Char.isDigit

/-- `'%d' % n`. -/
def dec (n : ℕ) : Text := Nat.toDigits 10 n

/-- `'%d' % z`. -/
def decInt (z : ℤ) : Text := if z < 0 then '-' :: dec z.natAbs else dec z.natAbs

/-- `'0x%04x' % n`, for any width. -/
def hex (w n : ℕ) : Text := '0' :: 'x' :: pad w (Nat.toDigits 16 n)

variable {b n : ℕ} {s t : Text} {c : Char}

theorem ofDigits_append (b acc : ℕ) (s t : Text) :
    ofDigits b acc (s ++ t) = (ofDigits b acc s).bind fun a => ofDigits b a t := by
  induction s generalizing acc with
  | nil => rfl
  | cons c s ih =>
    simp only [List.cons_append, ofDigits]
    cases digit? b c with
    | none => rfl
    | some d => exact ih _

theorem digit?_digitChar (hb : b ≤ 16) {d : ℕ} (hd : d < b) : digit? b d.digitChar = some d := by
  have h16 : d < 16 := by omega
  have hv : ∀ d < 16, charVal (Nat.digitChar d) = some d := by decide
  rw [digit?, hv d h16, Option.filter_some]
  simp [hd]

/-- What is written in base `b` reads back. -/
theorem ofDigits_toDigits (hb : 1 < b) (hb' : b ≤ 16) (n : ℕ) :
    ofDigits b 0 (Nat.toDigits b n) = some n := by
  induction n using Nat.strong_induction_on with
  | h n ih =>
    rw [Nat.toDigits_eq_if hb]
    split
    · next hn => simp [ofDigits, digit?_digitChar hb' hn]
    · next hn =>
      have hlt : n / b < n := Nat.div_lt_self (by omega) hb
      have hmod : n % b < b := Nat.mod_lt n (by omega)
      rw [ofDigits_append, ih _ hlt]
      simp [ofDigits, digit?_digitChar hb' hmod, Nat.div_add_mod]

theorem digit?_of_ofDigits {acc : ℕ} (h : ofDigits b acc s = some n) (hc : c ∈ s) :
    (digit? b c).isSome := by
  induction s generalizing acc with
  | nil => cases hc
  | cons c' s ih =>
    obtain ⟨d, hd, h⟩ := Option.bind_eq_some_iff.mp h
    rcases List.mem_cons.mp hc with rfl | hc
    · simp [hd]
    · exact ih h hc

theorem ofDigits_pad (hb : 0 < b) (w : ℕ) (s : Text) : ofDigits b 0 (pad w s) = ofDigits b 0 s := by
  have h0 : digit? b '0' = some 0 := by
    have hv : charVal '0' = some 0 := by decide
    simp [digit?, hv, hb]
  have hz : ∀ k, ofDigits b 0 (List.replicate k '0') = some 0 := by
    intro k
    induction k with
    | zero => rfl
    | succ k ih => simpa [List.replicate_succ, ofDigits, h0] using ih
  simp [pad, ofDigits_append, hz]

/-- A text of digits alone is read as it stands. -/
theorem nat?_of_ofDigits (hs : s ≠ []) (h : ofDigits b 0 s = some n) : nat? b s = some n := by
  have hu : '_' ∉ s := by
    intro hm
    have hd : digit? b '_' = none := by
      have hv : charVal '_' = none := by decide
      simp [digit?, hv]
    simpa [hd] using digit?_of_ofDigits h hm
  rw [nat?, List.splitOn_eq_singleton hu]
  simpa [Ne.symm hs] using h

/-- A text without spaces has nothing to strip. -/
theorem strip_eq (h : ∀ c ∈ s, isSpace c = false) : strip s = s := by
  have hdrop : ∀ t : Text, (∀ c ∈ t, isSpace c = false) → t.dropWhile isSpace = t := by
    intro t ht
    cases t with
    | nil => rfl
    | cons c t => simp [ht c List.mem_cons_self]
  rw [strip, hdrop s h, hdrop s.reverse fun c hc => h c (List.mem_reverse.mp hc),
    List.reverse_reverse]

theorem isSpace_of_charVal (h : (charVal c).isSome ∨ c = 'x') : isSpace c = false := by
  rw [Bool.eq_false_iff]
  intro hsp
  have hm : c ∈ [' ', '\t', '\n', '\r', '\x0b', '\x0c'] := by simpa [isSpace] using hsp
  have hnone : charVal c = none ∧ c ≠ 'x' := by
    simp only [List.mem_cons, List.not_mem_nil, or_false] at hm
    rcases hm with rfl | rfl | rfl | rfl | rfl | rfl <;> decide
  rcases h with h | h
  · simp [hnone.1] at h
  · exact hnone.2 h

/-- A text that starts and ends with a digit has no space to strip and no sign. -/
theorem signed_of_digits (f : Text → Option ℕ) (hs : s ≠ [])
    (hd : ∀ c ∈ s, (charVal c).isSome ∨ c = 'x') : signed f s = (f s).map Int.ofNat := by
  rw [signed, strip_eq fun c hc => isSpace_of_charVal (hd c hc)]
  split
  · exact absurd (hd '+' List.mem_cons_self) (by decide)
  · exact absurd (hd '-' List.mem_cons_self) (by decide)
  · rfl

theorem charVal_of_mem_toDigits (hb : 1 < b) (hb' : b ≤ 16) (h : c ∈ Nat.toDigits b n) :
    (charVal c).isSome := by
  have hd := digit?_of_ofDigits (ofDigits_toDigits hb hb' n) h
  cases hv : charVal c with
  | none => simp [digit?, hv] at hd
  | some d => rfl

theorem dec_ne_nil (n : ℕ) : dec n ≠ [] := Nat.toDigits_ne_nil

theorem signed_dec (f : Text → Option ℕ) (n : ℕ) :
    signed f (dec n) = (f (dec n)).map Int.ofNat :=
  signed_of_digits f (dec_ne_nil n) fun _ hc =>
    Or.inl (charVal_of_mem_toDigits (by decide) (by decide) hc)

/-- Only zero is written with a zero in front. -/
theorem head?_dec (h : (dec n).head? = some '0') : n = 0 := by
  unfold dec at h
  induction n using Nat.strong_induction_on with
  | h n ih =>
    rw [Nat.toDigits_eq_if (by decide)] at h
    split at h
    · next hn =>
      have hz : ∀ d < 10, Nat.digitChar d = '0' → d = 0 := by decide
      exact hz n hn (by simpa using h)
    · next hn =>
      have hlt : n / 10 < n := Nat.div_lt_self (by omega) (by decide)
      have hz : (Nat.toDigits 10 (n / 10)).head? = some '0' := by
        cases hd : Nat.toDigits 10 (n / 10) with
        | nil => exact absurd hd Nat.toDigits_ne_nil
        | cons c l => simpa [hd] using h
      have := ih _ hlt hz
      omega

theorem nat?_dec (n : ℕ) : nat? 10 (dec n) = some n :=
  nat?_of_ofDigits (dec_ne_nil n) (ofDigits_toDigits (by decide) (by decide) n)

theorem literal_dec (n : ℕ) : literal (dec n) = some n := by
  have hn := nat?_dec n
  by_cases h0 : n = 0
  · subst h0
    rfl
  · have hh := mt head?_dec h0
    unfold literal
    split <;> first | exact hn | simp [*] at hh

@[simp] theorem int?_dec (n : ℕ) : int? (dec n) = some (n : ℤ) := by
  rw [int?, signed_dec, nat?_dec]
  rfl

theorem decInt_natCast (n : ℕ) : decInt n = dec n := by
  rw [decInt, if_neg (by omega), Int.natAbs_natCast]

@[simp] theorem int?_decInt (z : ℤ) : int? (decInt z) = some z := by
  unfold decInt
  split
  · next hz =>
    have hsp : ∀ c ∈ '-' :: dec z.natAbs, isSpace c = false := by
      intro c hc
      rcases List.mem_cons.mp hc with rfl | hc
      · rfl
      · exact isSpace_of_charVal (.inl (charVal_of_mem_toDigits (by decide) (by decide) hc))
    rw [int?, signed, strip_eq hsp]
    simp only [nat?_dec, Option.map_some, Int.ofNat_eq_natCast]
    rw [Int.ofNat_natAbs_of_nonpos hz.le, neg_neg]
  · rw [int?_dec]
    congr 1
    omega

@[simp] theorem int0?_dec (n : ℕ) : int0? (dec n) = some (n : ℤ) := by
  rw [int0?, signed_dec, literal_dec]
  rfl

theorem pad_ne_nil (w : ℕ) (hs : s ≠ []) : pad w s ≠ [] := by
  simp [pad, hs]

@[simp] theorem int0?_hex (w n : ℕ) : int0? (hex w n) = some (n : ℤ) := by
  have ho : ofDigits 16 0 (pad w (Nat.toDigits 16 n)) = some n :=
    (ofDigits_pad (by decide) w _).trans (ofDigits_toDigits (by decide) (by decide) n)
  have hne := pad_ne_nil w (Nat.toDigits_ne_nil (n := n) (b := 16))
  have hd : ∀ c ∈ pad w (Nat.toDigits 16 n), (charVal c).isSome := by
    intro c hc
    have h := digit?_of_ofDigits ho hc
    cases hv : charVal c with
    | none => simp [digit?, hv] at h
    | some d => rfl
  have hl : literal (hex w n) = some n := by
    have hp : based 16 (pad w (Nat.toDigits 16 n)) = some n := by
      unfold based
      split
      · next t ht =>
        exact absurd (hd '_' (by rw [ht]; exact List.mem_cons_self)) (by decide)
      · exact nat?_of_ofDigits hne ho
    exact hp
  rw [int0?, signed_of_digits, hl]
  · rfl
  · exact List.cons_ne_nil _ _
  · intro c hc
    rcases List.mem_cons.mp hc with rfl | hc
    · exact Or.inl (by decide)
    · rcases List.mem_cons.mp hc with rfl | hc
      · exact Or.inr rfl
      · exact Or.inl (hd c hc)

@[simp] theorem int16?_pad (w n : ℕ) : int16? (pad w (Nat.toDigits 16 n)) = some (n : ℤ) := by
  have ho : ofDigits 16 0 (pad w (Nat.toDigits 16 n)) = some n :=
    (ofDigits_pad (by decide) w _).trans (ofDigits_toDigits (by decide) (by decide) n)
  have hne := pad_ne_nil w (Nat.toDigits_ne_nil (n := n) (b := 16))
  have hd (c : Char) (hc : c ∈ pad w (Nat.toDigits 16 n)) : (digit? 16 c).isSome :=
    digit?_of_ofDigits ho hc
  have hl : hexLiteral (pad w (Nat.toDigits 16 n)) = some n := by
    unfold hexLiteral
    split
    · next t ht => exact absurd (hd 'x' (by simp [ht])) (by decide)
    · next t ht => exact absurd (hd 'X' (by simp [ht])) (by decide)
    · exact nat?_of_ofDigits hne ho
  rw [int16?, signed_of_digits _ hne, hl]
  · rfl
  · intro c hc
    have h := hd c hc
    cases hv : charVal c with
    | none => simp [digit?, hv] at h
    | some d => exact Or.inl rfl

theorem isDigits_dec (n : ℕ) : isDigits (dec n) = true := by
  have hd : ∀ c ∈ dec n, c.isDigit := fun c hc =>
    Nat.isDigit_of_mem_toDigits (by decide) (by decide) hc
  simpa [isDigits, dec_ne_nil] using hd

theorem isDigits_hex (w n : ℕ) : isDigits (hex w n) = false := by
  have hx : Char.isDigit 'x' = false := by decide
  simp [isDigits, hex, hx]

/-- A sign that is no digit is in no decimal numeral. -/
theorem not_mem_dec (hc : c.isDigit = false) : c ∉ dec n := by
  intro h
  rw [Nat.isDigit_of_mem_toDigits (by decide) (by decide) h] at hc
  cases hc

theorem not_mem_decInt {z : ℤ} (hc : c.isDigit = false) (hm : c ≠ '-') : c ∉ decInt z := by
  unfold decInt
  split
  · exact List.not_mem_cons_of_ne_of_not_mem hm (not_mem_dec hc)
  · exact not_mem_dec hc

theorem not_mem_hex (w : ℕ) (hc : charVal c = none) (hx : c ≠ 'x') : c ∉ hex w n := by
  intro h
  have h0 : charVal '0' = some 0 := by decide
  rcases List.mem_cons.mp h with rfl | h
  · simp [h0] at hc
  · rcases List.mem_cons.mp h with rfl | h
    · exact hx rfl
    · rcases List.mem_append.mp h with h | h
      · rw [List.eq_of_mem_replicate h, h0] at hc
        cases hc
      · have hs := charVal_of_mem_toDigits (by decide) (by decide) h
        simp [hc] at hs

end Numeral

end Ryu
