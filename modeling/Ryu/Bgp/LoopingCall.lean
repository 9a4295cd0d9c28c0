import Mathlib.Algebra.Order.Ring.Int
import Ryu.Lib.Python
import Ryu.Lib.Run

/-! # Looping calls

A `LoopingCall` keeps the thread that was spawned for its next call, and cancels it when it is
stopped or reset. As long as only a running call is reset, there is at most one such thread, and
it is due at the time that the latest start, reset or invocation has set.
-/

namespace Ryu.Bgp

/-- What has been done to a looping call over the times `τ`. -/
inductive CallMark (τ : Type*)
  | started (interval : τ) (now : Bool)
  | stopped
  | reset
  | invoked
  deriving DecidableEq, Repr

/-- The instance variables of a `LoopingCall`; threads go by number. -/
structure LoopingCall (τ : Type*) where
  running : Bool
  interval : τ
  selfThread : Option ℕ
  deriving DecidableEq, Repr

/-- A looping call, the threads of the hub that have not started yet with the times they are
due, and what was done so far, the latest first. -/
structure CallState (τ : Type*) where
  call : LoopingCall τ
  clock : τ
  threads : List (ℕ × τ)
  nextId : ℕ
  log : List (τ × CallMark τ)
  deriving DecidableEq, Repr

/-- Time goes on up to the time given, or the thread given is started. -/
inductive CallEvent (τ : Type*)
  | start (interval : τ) (now : Bool)
  | stop
  | reset
  | fire (thread : ℕ)
  | wait (time : τ)
  deriving DecidableEq, Repr

section Model

variable {τ : Type*}

namespace CallState

variable (s : CallState τ)

/-- A `LoopingCall` that was just made. -/
def init [Zero τ] (clock : τ) : CallState τ := ⟨⟨false, 0, none⟩, clock, [], 0, []⟩

def mark (m : CallMark τ) : CallState τ := { s with log := (s.clock, m) :: s.log }

/-- `hub.spawn_after` of the call itself, kept in `_self_thread`. -/
def spawnAfter [Add τ] (seconds : τ) : CallState τ :=
  { s with
    call := { s.call with selfThread := some s.nextId }
    threads := s.threads ++ [(s.nextId, s.clock + seconds)]
    nextId := s.nextId + 1 }

/-- `_self_thread.cancel()`, which does nothing to a thread that has started, and `None` for
the thread. -/
def cancel : CallState τ :=
  match s.call.selfThread with
  | none => s
  | some i =>
    { s with
      call := { s.call with selfThread := none }
      threads := s.threads.filter (·.1 ≠ i) }

/-- `stop`. -/
def stop : CallState τ :=
  ({ s with call := { s.call with running := false } } : CallState τ).cancel

/-- `start`. -/
def start [Zero τ] [Add τ] [LT τ] [DecidableLT τ] (interval : τ) (now : Bool) :
    Except PyError (CallState τ) :=
  if interval < 0 then .error (.valueError "interval must be >= 0")
  else
    let s := if s.call.running then s.stop else s
    let s := { s with call := { s.call with running := true, interval := interval } }
    .ok (s.spawnAfter (if now then 0 else interval))

/-- `reset`. -/
def reset [Add τ] : CallState τ := s.cancel.spawnAfter s.call.interval

/-- `__call__`. The function itself may start, stop or reset the call. -/
def invoke [Add τ] : CallState τ :=
  if s.call.running then s.spawnAfter s.call.interval else s

/-- One step. The hub starts a thread at the time it is due, and no time passes before it. -/
def step [Zero τ] [Add τ] [LinearOrder τ] (s : CallState τ) : CallEvent τ → CallState τ
  | .start interval now =>
    match s.start interval now with
    | .error _ => s
    | .ok s' => s'.mark (.started interval now)
  | .stop => s.stop.mark .stopped
  | .reset => s.reset.mark .reset
  | .fire i =>
    if (i, s.clock) ∈ s.threads then
      ({ s with threads := s.threads.erase (i, s.clock) } : CallState τ).invoke.mark .invoked
    else s
  | .wait time =>
    if s.clock ≤ time ∧ ∀ t ∈ s.threads, time ≤ t.2 then { s with clock := time } else s

end CallState

/-- The interval of the latest start, if there was no stop since. -/
def intervalOf : List (τ × CallMark τ) → Option τ
  | [] => none
  | (_, .started interval _) :: _ => some interval
  | (_, .stopped) :: _ => none
  | (_, .reset) :: log | (_, .invoked) :: log => intervalOf log

/-- When the next invocation is due: an interval after the latest start, reset or invocation, or
at once after a start that asks for it; never after a stop. -/
def due [Add τ] : List (τ × CallMark τ) → Option τ
  | [] => none
  | (t, .started interval now) :: _ => some (if now then t else t + interval)
  | (_, .stopped) :: _ => none
  | (t, .reset) :: log | (t, .invoked) :: log => (intervalOf log).map (t + ·)

/-- Exactly the invocation that is due is pending, and every invocation was made when it was
due. -/
structure Timely [Add τ] (s : CallState τ) : Prop where
  pending : s.threads.map Prod.snd = (due s.log).toList
  made : ∀ t log, (t, .invoked) :: log <:+ s.log → due log = some t

/-- A call that is reset is running. -/
def ResetRunning (s : CallState τ) : CallEvent τ → Prop
  | .reset => s.call.running = true
  | _ => True

end Model

section Steps

variable {τ : Type*} {s : CallState τ} {e : CallEvent τ} {log : List (τ × CallMark τ)} {t : τ}

theorem due_of_intervalOf [Add τ] (h : intervalOf log = none) : due log = none := by
  match log, h with
  | [], _ => rfl
  | (_, .stopped) :: _, _ => rfl
  | (_, .reset) :: log, h | (_, .invoked) :: log, h =>
    rw [due, show intervalOf log = none from h]
    rfl

/-- What the steps keep. -/
structure CallInv [Add τ] (s : CallState τ) : Prop where
  interval : intervalOf s.log = if s.call.running then some s.call.interval else none
  thread : s.call.running = true → ∃ i t, s.call.selfThread = some i ∧ s.threads = [(i, t)] ∧
    due s.log = some t
  idle : s.call.running = false → s.threads = []
  made : ∀ t log, (t, .invoked) :: log <:+ s.log → due log = some t

theorem CallInv.timely [Add τ] (h : CallInv s) : Timely s := by
  refine ⟨?_, h.made⟩
  cases hr : s.call.running with
  | true =>
    obtain ⟨i, t, -, hthreads, hdue⟩ := h.thread hr
    rw [hthreads, hdue]
    rfl
  | false =>
    have hnone : intervalOf s.log = none := by
      rw [h.interval, hr]
      rfl
    rw [h.idle hr, due_of_intervalOf hnone]
    rfl

theorem callInv_init [Zero τ] [Add τ] (clock : τ) : CallInv (CallState.init clock) where
  interval := rfl
  thread h := by cases h
  idle _ := rfl
  made t log h := by simp [CallState.init] at h

@[simp] theorem cancel_log : s.cancel.log = s.log := by
  unfold CallState.cancel
  split <;> rfl

@[simp] theorem cancel_clock : s.cancel.clock = s.clock := by
  unfold CallState.cancel
  split <;> rfl

@[simp] theorem cancel_running : s.cancel.call.running = s.call.running := by
  unfold CallState.cancel
  split <;> rfl

@[simp] theorem cancel_interval : s.cancel.call.interval = s.call.interval := by
  unfold CallState.cancel
  split <;> rfl

/-- The thread that is kept is the only one that is pending. -/
theorem CallInv.cancel_threads [Add τ] (h : CallInv s) : s.cancel.threads = [] := by
  unfold CallState.cancel
  cases hr : s.call.running with
  | true =>
    obtain ⟨i, t, hi, hthreads, -⟩ := h.thread hr
    simp only [hi, hthreads, ne_eq, not_true_eq_false, decide_false, Bool.false_eq_true,
      not_false_eq_true, List.filter_cons_of_neg, List.filter_nil]
  | false =>
    cases s.call.selfThread with
    | none => exact h.idle hr
    | some i =>
      simp only [h.idle hr, List.filter_nil]

/-- A mark is put on the log that is no invocation. -/
theorem made_of_mark [Add τ] {l : List (τ × CallMark τ)} {m : CallMark τ}
    (h : ∀ t log, (t, .invoked) :: log <:+ l → due log = some t) (hm : m ≠ .invoked) (now : τ) :
    ∀ t log, (t, .invoked) :: log <:+ (now, m) :: l → due log = some t := by
  intro t log hsuf
  rcases List.suffix_cons_iff.mp hsuf with heq | hsuf
  · exact absurd (Prod.mk.inj (List.cons.inj heq).1).2.symm hm
  · exact h t log hsuf

@[simp] theorem stop_log : s.stop.log = s.log := cancel_log

@[simp] theorem stop_clock : s.stop.clock = s.clock := cancel_clock

@[simp] theorem stop_running : s.stop.call.running = false := cancel_running

theorem stop_threads : s.stop.threads = s.cancel.threads := by
  unfold CallState.stop CallState.cancel
  cases s.call.selfThread <;> rfl

theorem callInv_stop [Add τ] (h : CallInv s) : CallInv (s.stop.mark .stopped) where
  interval := by
    have hrun : (s.stop.mark .stopped).call.running = false := stop_running
    rw [hrun]
    rfl
  thread hr := by
    have hrun : (s.stop.mark .stopped).call.running = false := stop_running
    rw [hrun] at hr
    cases hr
  idle _ := stop_threads.trans h.cancel_threads
  made t log hsuf := by
    have hlog : (s.stop.mark .stopped).log = (s.clock, .stopped) :: s.log := by
      rw [CallState.mark, stop_log, stop_clock]
    rw [hlog] at hsuf
    exact made_of_mark h.made (by simp) _ t log hsuf

/-- A running call without a thread is given one. -/
theorem callInv_spawnAfter [Add τ] {seconds : τ} {m : CallMark τ} (hrun : s.call.running = true)
    (hthreads : s.threads = [])
    (hinterval : intervalOf ((s.clock, m) :: s.log) = some s.call.interval)
    (hdue : due ((s.clock, m) :: s.log) = some (s.clock + seconds))
    (hmade : ∀ t log, (t, .invoked) :: log <:+ (s.clock, m) :: s.log → due log = some t) :
    CallInv ((s.spawnAfter seconds).mark m) where
  interval := by
    have hr : ((s.spawnAfter seconds).mark m).call.running = true := hrun
    rw [hr]
    exact hinterval
  thread _ := by
    refine ⟨s.nextId, s.clock + seconds, rfl, ?_, hdue⟩
    change s.threads ++ _ = _
    rw [hthreads, List.nil_append]
  idle hr := by
    have hr' : s.call.running = false := hr
    rw [hrun] at hr'
    cases hr'
  made := hmade

theorem callInv_step [AddZeroClass τ] [LinearOrder τ] (h : CallInv s) (hr : ResetRunning s e) :
    CallInv (s.step e) := by
  cases e with
  | start interval now =>
    rw [CallState.step, CallState.start]
    split
    · exact h
    · next s' hs' =>
      split at hs'
      · cases hs'
      · obtain rfl := Except.ok.inj hs'
        -- A running call is stopped first, the other has no thread.
        have hthreads : (if s.call.running then s.stop else s).threads = [] := by
          split
          · exact stop_threads.trans h.cancel_threads
          · next hoff => exact h.idle (Bool.eq_false_iff.mpr hoff)
        have hlog : (if s.call.running then s.stop else s).log = s.log := by
          split <;> simp
        refine callInv_spawnAfter rfl hthreads rfl ?_ ?_
        · cases now <;> simp [due]
        · change ∀ t log, _ <:+ (_, _) :: (if s.call.running then s.stop else s).log → _
          rw [hlog]
          exact made_of_mark h.made (by simp) _
  | stop => exact callInv_stop h
  | reset =>
    have hrun : s.call.running = true := hr
    have hinterval : intervalOf s.log = some s.call.interval := by
      rw [h.interval, if_pos hrun]
    refine callInv_spawnAfter (by rw [cancel_running, hrun]) h.cancel_threads ?_ ?_ ?_
    · rw [cancel_log, cancel_interval]
      exact hinterval
    · rw [cancel_log, cancel_clock, due, hinterval]
      rfl
    · rw [cancel_log, cancel_clock]
      exact made_of_mark h.made (by simp) _
  | fire i =>
    rw [CallState.step]
    split
    · next hmem =>
      have hrun : s.call.running = true := by
        by_contra hoff
        rw [h.idle (Bool.eq_false_iff.mpr hoff)] at hmem
        cases hmem
      obtain ⟨j, t, -, hthreads, hdue⟩ := h.thread hrun
      rw [hthreads, List.mem_singleton] at hmem
      obtain ⟨rfl, rfl⟩ := Prod.mk.inj hmem
      have hinterval : intervalOf s.log = some s.call.interval := by
        rw [h.interval, if_pos hrun]
      rw [CallState.invoke, if_pos hrun]
      refine callInv_spawnAfter hrun (by rw [hthreads, List.erase_cons_head]) hinterval ?_ ?_
      · rw [due, hinterval]
        rfl
      · intro t log hsuf
        rcases List.suffix_cons_iff.mp hsuf with heq | hsuf
        · obtain ⟨hfst, rfl⟩ := List.cons.inj heq
          rw [(Prod.mk.inj hfst).1]
          exact hdue
        · exact h.made t log hsuf
    · exact h
  | wait time =>
    rw [CallState.step]
    split
    · exact ⟨h.interval, h.thread, h.idle, h.made⟩
    · exact h

end Steps

section Claims

variable {τ : Type*} [AddZeroClass τ] [LinearOrder τ]

/-- In a run that resets the call only while it is running, all that is pending at any time is
the one invocation that is due, none after a stop, and each invocation is made when it is due. -/
theorem timely_throughout (clock : τ) (es : List (CallEvent τ))
    (h : EveryStep CallState.step ResetRunning (CallState.init clock) es) :
    Throughout CallState.step Timely (CallState.init clock) es :=
  (throughout_of_everyStep (callInv_init clock) (fun _ _ => callInv_step) h).mono
    fun _ => CallInv.timely

theorem timely_throughout_holdTimer :
    Throughout CallState.step Timely (CallState.init (0 : ℤ))
      [.start 90 false, .wait 30, .reset, .wait 120, .fire 1, .stop, .wait 500] :=
  timely_throughout (0 : ℤ) _ ⟨trivial, trivial, rfl, trivial, trivial, trivial, trivial, trivial⟩

/-- A call that is started at once is not invoked an interval after its start, and a call that is
reset after a stop is pending. -/
theorem invoked_at_once_and_revived :
    (([.start 90 true, .fire 0] : List (CallEvent ℤ)).foldl CallState.step (CallState.init 0)).log =
        [(0, .invoked), (0, .started 90 true)] ∧
      (([.start 90 false, .stop, .reset] : List (CallEvent ℤ)).foldl CallState.step
        (CallState.init 0)).threads = [(1, 90)] := by
  decide

end Claims

end Ryu.Bgp
