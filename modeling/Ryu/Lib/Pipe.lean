import Ryu.Lib.Framing

/-! # Messages through a pipe

Messages are packed one behind the other and cut off again wherever the octets arrive. What was
taken is a prefix of what was sent, and the octets that are still underway are those of the rest.
-/

namespace Ryu

variable {α μ : Type*}

/-- A framer that cuts off each packed message, whatever is behind it. -/
structure PipeCodec (α μ : Type*) where
  framer : Framer α μ
  pack : μ → List α
  next_pack : ∀ (m : μ) (r : List α), framer.next (pack m ++ r) = some (m, r)

namespace PipeCodec

variable (C : PipeCodec α μ)

/-- Of the messages sent, those up to `taken` have been taken, and `bytes` are underway. -/
def Carries (sent taken : List μ) (bytes : List α) : Prop :=
  ∃ rest, sent = taken ++ rest ∧ bytes = rest.flatMap C.pack

variable {C} {sent taken : List μ} {b r c bytes : List α} {m : μ}

/-- A packed message is not empty, as it is cut off itself. -/
theorem pack_ne_nil (m : μ) : C.pack m ≠ [] := by
  intro h
  have hcut := C.next_pack m []
  rw [h] at hcut
  exact absurd (C.framer.next_lt hcut) (Nat.not_lt_zero _)

theorem carries_nil : C.Carries [] [] [] := ⟨[], rfl, rfl⟩

theorem Carries.send (h : C.Carries sent taken bytes) (m : μ) :
    C.Carries (sent ++ [m]) taken (bytes ++ C.pack m) := by
  obtain ⟨rest, rfl, rfl⟩ := h
  exact ⟨rest ++ [m], by simp, by simp⟩

theorem Carries.sendAll (h : C.Carries sent taken bytes) (ms : List μ) :
    C.Carries (sent ++ ms) taken (bytes ++ ms.flatMap C.pack) := by
  induction ms generalizing sent bytes with
  | nil => simpa using h
  | cons m ms ih => simpa using ih (h.send m)

theorem Carries.isPrefix (h : C.Carries sent taken bytes) : taken <+: sent := by
  obtain ⟨rest, rfl, -⟩ := h
  exact List.prefix_append taken rest

/-- A message that is cut off what has arrived is the next one that was sent. -/
theorem Carries.take (h : C.Carries sent taken (b ++ c)) (hnext : C.framer.next b = some (m, r)) :
    C.Carries sent (taken ++ [m]) (r ++ c) := by
  obtain ⟨rest, rfl, hbytes⟩ := h
  have hcut : C.framer.next (rest.flatMap C.pack) = some (m, r ++ c) := by
    rw [← hbytes]
    exact C.framer.next_append c hnext
  cases rest with
  | nil => exact absurd (C.framer.next_lt hcut) (Nat.not_lt_zero _)
  | cons m' rest =>
    rw [List.flatMap_cons, C.next_pack] at hcut
    obtain ⟨rfl, hrest⟩ := Prod.mk.inj (Option.some.inj hcut)
    exact ⟨rest, by simp, hrest.symm⟩

/-- Where nothing is underway, all messages have been taken. -/
theorem Carries.eq_of_nil (h : C.Carries sent taken []) : taken = sent := by
  obtain ⟨rest, rfl, hbytes⟩ := h
  cases rest with
  | nil => exact (List.append_nil taken).symm
  | cons m rest =>
    rw [List.flatMap_cons] at hbytes
    exact absurd (List.append_eq_nil_iff.mp hbytes.symm).1 (pack_ne_nil m)

end PipeCodec

end Ryu
