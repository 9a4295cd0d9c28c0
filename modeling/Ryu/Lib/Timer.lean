import Mathlib.Algebra.Order.Monoid.Defs

/-! # Timers that post an event

A timer that is started waits for its deadline and then posts one event. A start or a cancel
forgets what the timer did before, but not an event that is posted already: the event of a timer
that has been started anew finds the timer in another state than `fired`.
-/

namespace Ryu

/-- A timer over the times `τ`. -/
inductive Timer (τ : Type*) where
  | idle
  | waiting (deadline : τ)
  /-- The event has been posted, and the timer was not started or cancelled since. -/
  | fired (deadline : τ)
  deriving DecidableEq, Repr

namespace Timer

variable {τ : Type*}

/-- A timer just started. What it did before does not matter. -/
def start [Add τ] (now interval : τ) : Timer τ := .waiting (now + interval)

/-- The time the timer was set for. -/
def deadline : Timer τ → Option τ
  | idle => none
  | waiting d => some d
  | fired d => some d

/-- A timer that has fired is running still, until it is cancelled. -/
def isRunning : Timer τ → Bool
  | idle => false
  | waiting _ => true
  | fired _ => true

def hasFired : Timer τ → Bool
  | fired _ => true
  | _ => false

/-- The timer waits, and its deadline is over. -/
def isDue [LE τ] [DecidableLE τ] (now : τ) : Timer τ → Bool
  | waiting d => d ≤ now
  | _ => false

/-- The timer posts its event. -/
def fire : Timer τ → Timer τ
  | waiting d => fired d
  | t => t

variable {t : Timer τ} {d now : τ}

@[simp] theorem deadline_idle : (idle : Timer τ).deadline = none := rfl

@[simp] theorem deadline_start [Add τ] (now interval : τ) :
    (start now interval).deadline = some (now + interval) := rfl

@[simp] theorem deadline_fire (t : Timer τ) : t.fire.deadline = t.deadline := by
  cases t <;> rfl

theorem isRunning_iff : t.isRunning ↔ ∃ d, t.deadline = some d := by
  cases t <;> simp [isRunning, deadline]

theorem not_isRunning_iff : t.isRunning = false ↔ t = idle := by
  cases t <;> simp [isRunning]

/-- A timer that has fired was due. -/
def Sound [LE τ] (now : τ) (t : Timer τ) : Prop := ∀ d, t = fired d → d ≤ now

section Order

variable [Preorder τ]

@[simp] theorem sound_idle : Sound now (idle : Timer τ) := by
  rintro d ⟨⟩

@[simp] theorem sound_start [Add τ] (t₀ interval : τ) : Sound now (start t₀ interval) := by
  rintro d ⟨⟩

theorem Sound.later {now' : τ} (h : Sound now t) (hle : now ≤ now') : Sound now' t :=
  fun d hd => (h d hd).trans hle

theorem sound_fire [DecidableLE τ] (h : t.isDue now) : Sound now t.fire := by
  cases t with
  | waiting d =>
    rintro d' ⟨⟩
    simpa [isDue] using h
  | idle | fired => simp [isDue] at h

/-- What the event of a timer that has fired says. -/
theorem Sound.deadline_le (h : Sound now t) (hf : t.hasFired) :
    ∃ d, t.deadline = some d ∧ d ≤ now := by
  cases t with
  | fired d => exact ⟨d, rfl, h d rfl⟩
  | idle | waiting => cases hf

end Order

end Timer

end Ryu
