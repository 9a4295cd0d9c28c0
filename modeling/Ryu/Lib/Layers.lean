import Mathlib.Data.List.Basic
import Ryu.Lib.Struct

/-! # Headers in front of one another

Each header says of which class the next one is. The headers are written from the last to the first,
and read in their order, until there is no class or nothing but zeros are left, which may be there
as padding. A header reads as itself when the octets behind it come out as they were written, up to
zeros at their end.
-/

namespace Ryu

/-- What is put into a packet: a header, or octets. -/
inductive LayerItem (π : Type)
  | proto (p : π)
  | raw (data : List UInt8)
  deriving DecidableEq, Repr

/-- How headers of some classes are read and written. Reading gives the header, if there is one,
with the class of what is behind it, and writing, given the item in front of it, the header as it is
left with the octets behind it, which it may pad. A header may count as false. -/
structure Layers (π κ : Type) where
  parse : κ → List UInt8 → Except PyError (Option π × Option κ × List UInt8)
  write : Option (LayerItem π) → π → List UInt8 → Except PyError (List UInt8 × π × List UInt8)
  truth : π → Bool

/-- There is nothing but zeros. -/
def blank (b : List UInt8) : Bool := b.all (· = 0)

def zeros (n : ℕ) : List UInt8 := List.replicate n 0

namespace Layers

variable {π κ : Type} (L : Layers π κ)

/-- The loop over the headers, with what is left behind them, if so many rounds are enough. A header
that counts as false is skipped. -/
def parseLoop : ℕ → Option κ → List UInt8 → Option (Except PyError (List π × List UInt8))
  | _, none, b => some (.ok ([], b))
  | 0, some _, _ => none
  | fuel + 1, some c, b =>
    if blank b then some (.ok ([], b))
    else
      match L.parse c b with
      | .error e => some (if e = structError then .ok ([], b) else .error e)
      | .ok (p, c', r) => (parseLoop fuel c' r).map (Except.map fun x =>
        ((p.filter L.truth).toList ++ x.1, x.2))

/-- The items of a packet. -/
def parseItems (fuel : ℕ) (c : κ) (b : List UInt8) : Option (Except PyError (List (LayerItem π))) :=
  (L.parseLoop fuel (some c) b).map (Except.map fun x =>
    x.1.map .proto ++ if blank x.2 then [] else [.raw x.2])

/-- The octets of some items, with the items as they are left. -/
def writeItems : Option (LayerItem π) → List (LayerItem π) →
    Except PyError (List UInt8 × List (LayerItem π))
  | _, [] => .ok ([], [])
  | prev, item :: l =>
    match writeItems (some item) l with
    | .error e => .error e
    | .ok (data, l') =>
      match item with
      | .proto p => (L.write prev p data).map fun x => (x.1 ++ x.2.2, .proto x.2.1 :: l')
      | .raw b => .ok (b ++ data, .raw b :: l')

variable {L} {b d data : List UInt8} {c : κ} {c' : Option κ} {p : π} {ps : List π}

/-- Octets are written as they are. -/
theorem writeItems_raw (L : Layers π κ) (prev : Option (LayerItem π)) (ds : List (List UInt8)) :
    L.writeItems prev (ds.map .raw) = .ok (ds.flatten, ds.map .raw) := by
  induction ds generalizing prev with
  | nil => rfl
  | cons d ds ih =>
    rw [List.map_cons, writeItems, ih]
    rfl

theorem blank_append : blank (b ++ d) = (blank b && blank d) := List.all_append

@[simp] theorem blank_zeros (n : ℕ) : blank (zeros n) = true := by
  simp [blank, zeros]

theorem zeros_add (m n : ℕ) : zeros m ++ zeros n = zeros (m + n) := List.replicate_append_replicate

theorem drop_zeros (m n : ℕ) : (zeros n).drop m = zeros (n - m) := List.drop_replicate ..

/-- The first octets, where they reach into the zeros. -/
theorem take_append_zeros {m : ℕ} (h : d.length ≤ m) (k : ℕ) :
    (d ++ zeros k).take m = d ++ zeros (min (m - d.length) k) := by
  rw [List.take_append, List.take_of_length_le h, zeros, zeros, List.take_replicate]

/-- A number that is not zero is not written as zeros. -/
theorem blank_toBytes {size v : ℕ} (h : v < 256 ^ size) (hv : v ≠ 0) (r : List UInt8) :
    blank (Bytes.toBytes size v ++ r) = false := by
  rw [blank_append, Bool.and_eq_false_imp]
  intro hb
  have hzeros : Bytes.toBytes size v = List.replicate size 0 :=
    List.eq_replicate_iff.mpr ⟨Bytes.length_toBytes .., by simpa [blank] using hb⟩
  have hval := Bytes.ofBytes_toBytes size v
  rw [hzeros, Bytes.ofBytes_zeros, Nat.mod_eq_of_lt h] at hval
  exact absurd hval.symm hv

/-- In front of `k` zeros, the headers `ps` are read off, and `d` with `k'` zeros is left. -/
def Reads (L : Layers π κ) (c : Option κ) (b : List UInt8) (k : ℕ) (ps : List π) (d : List UInt8)
    (k' : ℕ) : Prop :=
  ∀ fuel, ps.length ≤ fuel → L.parseLoop fuel c (b ++ zeros k) = some (.ok (ps, d ++ zeros k'))

theorem reads_none (L : Layers π κ) (d : List UInt8) (k : ℕ) : L.Reads none d k [] d k := by
  intro fuel _
  cases fuel <;> rfl

variable {k k' k'' : ℕ}

/-- A header is read off in front of what is read off. -/
theorem Reads.cons (h : L.Reads c' data k' ps d k'') (hp : L.truth p = true) (hb : blank b = false)
    (hparse : L.parse c (b ++ zeros k) = .ok (some p, c', data ++ zeros k')) :
    L.Reads (some c) b k (p :: ps) d k'' := by
  intro fuel hfuel
  obtain ⟨fuel, rfl⟩ := Nat.exists_eq_succ_of_ne_zero (Nat.ne_zero_of_lt hfuel)
  rw [parseLoop, if_neg (by simp [blank_append, hb]), hparse]
  simp only
  rw [h fuel (Nat.le_of_succ_le_succ hfuel), Option.filter_some, if_pos hp]
  rfl

/-- The items of what is read off. -/
theorem Reads.parseItems (h : L.Reads (some c) b k ps d k') {fuel : ℕ} (hfuel : ps.length ≤ fuel) :
    L.parseItems fuel c (b ++ zeros k) =
      some (.ok (ps.map .proto ++ if blank d then [] else [.raw (d ++ zeros k')])) := by
  rw [Layers.parseItems, h fuel hfuel]
  simp only [Option.map_some, Except.map, blank_append, blank_zeros, Bool.and_true]

end Layers

end Ryu
