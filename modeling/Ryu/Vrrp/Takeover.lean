import Mathlib.Algebra.Order.Field.Rat
import Mathlib.Tactic.Linarith
import Mathlib.Data.Rat.Cast.Order
import Ryu.Lib.Run
import Ryu.Vrrp.Consistent

/-! # When a Backup router takes over

A watch is kept beside the router: since when it waits for its master, how long it has to, and
since when it has heard of lower priorities only. A router takes over for a reason the watch
confirms, as long as no event of a timer is handled that has been cancelled or started anew since,
and an advertisement to defer to finds the preempt delay timer idle wherever it does not cancel it.
-/

namespace Ryu.Vrrp

/-- What is known of the advertisements a router has handled. -/
structure Watch where
  /-- When it last handled one it must defer to, or a release, or became Backup. -/
  since : ℚ
  /-- The interval it has to wait since, as the master-down timer was last started with. -/
  interval : Except PyError ℚ
  /-- When it handled the first one of lower priority after the last one of at least its own. -/
  lowerSince : Option ℚ

/-- The router must defer to a sender: any without preemption, and one of at least its own
priority with it. -/
def Router.defersTo (r : Router) (a : Received) : Prop :=
  ¬ r.config.preemptMode ∨ r.config.priority ≤ a.vrrp.priority

instance (r : Router) (a : Received) : Decidable (r.defersTo a) := inferInstanceAs (Decidable (_ ∨ _))

namespace Watch

/-- The watch of a router just started. -/
def start (now : ℚ) (r : Router) : Watch := ⟨now, r.masterDownInterval, none⟩

/-- Since when lower priorities only were heard, after another advertisement. -/
def lowerAfter (w : Watch) (now : ℚ) (a : Received) (r : Router) : Option ℚ :=
  if r.config.priority ≤ a.vrrp.priority then none
  else if a.vrrp.priority = 0 then w.lowerSince
  else w.lowerSince.or (some now)

/-- The watch after an advertisement that took the router from `r` to `r'`. -/
def heard (w : Watch) (now : ℚ) (a : Received) (r r' : Router) : Watch :=
  let lower := w.lowerAfter now a r
  match r.state, r'.state with
  | .backup, _ =>
    if a.vrrp.priority = 0 then ⟨now, r'.skewTime, lower⟩
    else if r.defersTo a then ⟨now, r'.masterDownInterval, lower⟩
    else if 0 < r.config.preemptDelay then ⟨w.since, r'.masterDownInterval, lower⟩
    else ⟨w.since, w.interval, lower⟩
  | _, .backup => ⟨now, r'.masterDownInterval, lower⟩
  | _, _ => ⟨w.since, w.interval, lower⟩

/-- The watch after an event. -/
def observe (w : Watch) (now : ℚ) (e : Event) (r : Router) : Watch :=
  match e with
  | .request (.received a) => w.heard now a r (r.vrrpReceived now a).1
  | _ => w

end Watch

/-- The event makes the router the address owner. -/
def Event.makesOwner (config : VRRPConfig) : Event → Bool
  | .request (.configChange c) => c.priority.isSome && (config.change c).addressOwner
  | _ => false

/-- A system that is watched. -/
structure Watched where
  system : System
  watch : Watch

namespace Watched

def start (now : ℚ) (config : VRRPConfig) (primaryIpAddress : Address) : Watched where
  system := System.start now config primaryIpAddress
  watch := Watch.start now (Router.start now config primaryIpAddress).1

def step (s : Watched) (i : Input) : Watched where
  system := s.system.step i
  watch :=
    match i, s.system.events with
    | .handle, e :: _ => s.watch.observe s.system.now e s.system.router
    | _, _ => s.watch

/-- The reasons for taking over. -/
def Justified (s : Watched) (e : Event) : Prop :=
  e.makesOwner s.system.router.config ∨
  (∃ i ∈ s.watch.interval.toOption, s.watch.since + i ≤ s.system.now) ∨
  (s.system.router.config.preemptMode ∧
    ∃ t ∈ s.watch.lowerSince, t + s.system.router.config.preemptDelay ≤ s.system.now)

/-- The step moves the router from Backup to Master only for a reason. -/
def TakesOverJustified (s : Watched) (i : Input) : Prop :=
  s.system.router.state = .backup → (s.system.step i).router.state = .master →
    i = .handle ∧ ∃ e ∈ s.system.events.head?, s.Justified e

instance (s : Watched) (e : Event) : Decidable (s.Justified e) :=
  inferInstanceAs (Decidable (_ ∨ _ ∨ _))

instance (s : Watched) (i : Input) : Decidable (s.TakesOverJustified i) :=
  inferInstanceAs (Decidable (_ → _ → _))

end Watched

/-- A timer's event finds its timer as it fired, and a V3 router, or one that hears a release, has
no preempt delay to cancel. -/
def Router.InTime (r : Router) : Event → Prop
  | .timer .adver => True
  | .timer t => r.state = .backup → (r.timer t).hasFired
  | .request (.received a) =>
    r.state = .backup → r.config.priority ≤ a.vrrp.priority → r.preemptDelayTimer.isRunning →
      r.config.version = .v2 ∧ a.vrrp.priority ≠ 0
  | .request _ => True

instance (r : Router) (e : Event) : Decidable (r.InTime e) :=
  match e with
  | .timer .adver => inferInstanceAs (Decidable True)
  | .timer .masterDown | .timer .preemptDelay => inferInstanceAs (Decidable (_ → _))
  | .request (.received _) => inferInstanceAs (Decidable (_ → _ → _ → _))
  | .request .shutdown | .request (.configChange _) => inferInstanceAs (Decidable True)

/-- The event that is handled, if one is, comes in time. -/
def System.InTime (s : System) (i : Input) : Prop :=
  i = .handle → ∀ e ∈ s.events.head?, s.router.InTime e

instance (s : System) (i : Input) : Decidable (s.InTime i) := inferInstanceAs (Decidable (_ → _))

namespace Router

variable {r : Router} {now i : ℚ} {a : Received} {w : Watch}

/-- What the watch knows of a router and its timers. -/
structure Watches (r : Router) (w : Watch) (now : ℚ) : Prop where
  past : w.since ≤ now
  lowerPast : ∀ t, w.lowerSince = some t → t ≤ now
  waits : r.state = .backup → ∀ d, r.masterDownTimer.deadline = some d →
    ∃ i, w.interval = .ok i ∧ w.since + i ≤ d
  lower : ∀ d, r.preemptDelayTimer.deadline = some d → r.state = .backup ∧ r.config.preemptMode ∧
    ∃ t, w.lowerSince = some t ∧ t + r.config.preemptDelay ≤ d
  masterDown : r.masterDownTimer.Sound now
  preemptDelay : r.preemptDelayTimer.Sound now

theorem Watches.idle_of_not_backup (h : r.Watches w now) (hb : r.state ≠ .backup) :
    r.preemptDelayTimer = .idle := by
  rw [← Timer.not_isRunning_iff, ← Bool.not_eq_true, Timer.isRunning_iff]
  rintro ⟨d, hd⟩
  exact hb (h.lower d hd).1

/-- The master-down timer is started, and the watch knows the interval. -/
theorem watches_startMasterDown {x : Except PyError ℚ} {j since : ℚ} {lower : Option ℚ}
    (hx : x = .ok j) (hp : since ≤ now) (hlp : ∀ t, lower = some t → t ≤ now)
    (hb : r.state = .backup)
    (hl : ∀ d, r.preemptDelayTimer.deadline = some d → r.config.preemptMode ∧
      ∃ t, lower = some t ∧ t + r.config.preemptDelay ≤ d)
    (hs : r.preemptDelayTimer.Sound now) :
    (r.startMasterDown now x).1.Watches ⟨since, x, lower⟩ now := by
  subst hx
  constructor
  · exact hp
  · exact hlp
  · rintro - d hd
    obtain rfl : now + j = d := Option.some.inj hd
    exact ⟨j, rfl, add_le_add_left hp j⟩
  · exact fun d hd => ⟨hb, hl d hd⟩
  · exact Timer.sound_start _ _
  · exact hs

@[simp] theorem state_startMasterDown (x : Except PyError ℚ) :
    (r.startMasterDown now x).1.state = r.state := by
  cases x <;> rfl

@[simp] theorem masterDownInterval_startMasterDown (x : Except PyError ℚ) :
    (r.startMasterDown now x).1.masterDownInterval = r.masterDownInterval := by
  cases x <;> rfl

@[simp] theorem skewTime_startMasterDown (x : Except PyError ℚ) :
    (r.startMasterDown now x).1.skewTime = r.skewTime := by
  cases x <;> rfl

theorem lowerAfter_past (hlp : ∀ t, w.lowerSince = some t → t ≤ now) :
    ∀ t, w.lowerAfter now a r = some t → t ≤ now := by
  unfold Watch.lowerAfter
  rintro t ht
  split_ifs at ht
  · exact hlp t ht
  · cases hw : w.lowerSince with
    | none =>
      rw [hw] at ht
      exact (Option.some.inj ht).ge
    | some t' =>
      rw [hw] at ht
      exact hlp t (hw.trans ht)

/-- Backup hears a release. -/
theorem Watches.release (h : r.Watches w now) (hc : r.Consistent) (hb : r.state = .backup)
    (hg : r.InTime (.request (.received a))) (h0 : a.vrrp.priority = 0) :
    (r.startMasterDown now r.skewTime).1.Watches
      (w.heard now a r (r.startMasterDown now r.skewTime).1) now := by
  obtain ⟨i, hi⟩ := hc.known (Or.inl hb)
  obtain ⟨j, hj⟩ := skewTime_eq_ok hi
  have hw : w.heard now a r (r.startMasterDown now r.skewTime).1 =
      ⟨now, r.skewTime, w.lowerAfter now a r⟩ := by
    simp [Watch.heard, hb, h0]
  rw [hw]
  apply watches_startMasterDown hj le_rfl (lowerAfter_past h.lowerPast) hb _ h.preemptDelay
  intro d hd
  obtain ⟨-, hpm, t, ht, htd⟩ := h.lower d hd
  refine ⟨hpm, t, ?_, htd⟩
  have hlt : ¬ r.config.priority ≤ a.vrrp.priority :=
    fun hle => (hg hb hle (Timer.isRunning_iff.mpr ⟨d, hd⟩)).2 h0
  simp only [Watch.lowerAfter, if_neg hlt, if_pos h0, ht]

/-- Backup hears an advertisement it defers to, and leaves no preempt delay in `s`. -/
theorem Watches.deferral (h : r.Watches w now) (hb : r.state = .backup)
    (h0 : a.vrrp.priority ≠ 0) (hd : r.defersTo a) {s : Router} (hb₁ : s.state = .backup)
    (hi : s.masterAdverInterval = some i) (hidle : s.preemptDelayTimer = .idle) :
    (s.startMasterDown now s.masterDownInterval).1.Watches
      (w.heard now a r (s.startMasterDown now s.masterDownInterval).1) now := by
  obtain ⟨j, hj⟩ := masterDownInterval_eq_ok hi
  have hw : w.heard now a r (s.startMasterDown now s.masterDownInterval).1 =
      ⟨now, s.masterDownInterval, w.lowerAfter now a r⟩ := by
    simp [Watch.heard, hb, h0, hd]
  rw [hw]
  apply watches_startMasterDown hj le_rfl (lowerAfter_past h.lowerPast) hb₁
  · rw [hidle]
    rintro d ⟨⟩
  · rw [hidle]
    exact Timer.sound_idle

/-- The preempt delay timer of a router that hears a lower priority. -/
theorem Watches.startPreemptDelay (h : r.Watches w now) (hpm : r.config.preemptMode)
    {lower : Option ℚ} (hl : lower = w.lowerSince.or (some now)) :
    (∀ d, (r.startPreemptDelay now).preemptDelayTimer.deadline = some d → r.config.preemptMode ∧
      ∃ t, lower = some t ∧ t + r.config.preemptDelay ≤ d) ∧
    (r.startPreemptDelay now).preemptDelayTimer.Sound now := by
  subst hl
  unfold Router.startPreemptDelay
  split_ifs with hrun
  · refine ⟨fun d hd => ?_, h.preemptDelay⟩
    obtain ⟨-, -, t, ht, htd⟩ := h.lower d hd
    exact ⟨hpm, t, by rw [ht]; rfl, htd⟩
  · refine ⟨fun d hd => ⟨hpm, ?_⟩, Timer.sound_start _ _⟩
    obtain rfl : now + r.config.preemptDelay = d := Option.some.inj hd
    cases hw : w.lowerSince with
    | none => exact ⟨now, rfl, le_rfl⟩
    | some t =>
      have ht := h.lowerPast t hw
      exact ⟨t, rfl, by linarith⟩

/-- Backup hears a lower priority and preempts after a delay. -/
theorem Watches.preempts (h : r.Watches w now) (hc : r.Consistent) (hb : r.state = .backup)
    (h0 : a.vrrp.priority ≠ 0) (hd : ¬ r.defersTo a) (hdelay : 0 < r.config.preemptDelay) :
    let r₁ := r.startPreemptDelay now
    (r₁.startMasterDown now r.masterDownInterval).1.Watches
      (w.heard now a r (r₁.startMasterDown now r.masterDownInterval).1) now := by
  intro r₁
  obtain ⟨hpm, hlt⟩ := not_or.mp hd
  obtain ⟨i, hi⟩ := hc.known (Or.inl hb)
  obtain ⟨j, hj⟩ := masterDownInterval_eq_ok hi
  have hb₁ : r₁.state = .backup := by
    simp only [r₁, Router.startPreemptDelay]
    split_ifs <;> exact hb
  have hj₁ : r₁.masterDownInterval = r.masterDownInterval := by
    simp only [r₁, Router.startPreemptDelay]
    split_ifs <;> rfl
  have hc₁ : r₁.config = r.config := by
    simp only [r₁, Router.startPreemptDelay]
    split_ifs <;> rfl
  have hw : w.heard now a r (r₁.startMasterDown now r.masterDownInterval).1 =
      ⟨w.since, r.masterDownInterval, w.lowerSince.or (some now)⟩ := by
    simp [Watch.heard, Watch.lowerAfter, hb, h0, hd, hdelay, hlt, hj₁]
  rw [hw]
  obtain ⟨hl, hs⟩ := h.startPreemptDelay (not_not.mp hpm) rfl
  apply watches_startMasterDown hj h.past _ hb₁ _ hs
  · have := lowerAfter_past (a := a) (r := r) h.lowerPast
    simpa [Watch.lowerAfter, h0, hlt] using this
  · rw [hc₁]
    exact hl

/-- Backup ignores a lower priority. -/
theorem Watches.ignores (h : r.Watches w now) (hb : r.state = .backup)
    (h0 : a.vrrp.priority ≠ 0) (hd : ¬ r.defersTo a) (hdelay : ¬ 0 < r.config.preemptDelay) :
    r.Watches (w.heard now a r r) now := by
  have hlt := (not_or.mp hd).2
  have hw : w.heard now a r r = ⟨w.since, w.interval, w.lowerSince.or (some now)⟩ := by
    simp [Watch.heard, Watch.lowerAfter, hb, h0, hd, hdelay, hlt]
  have hlp := lowerAfter_past (a := a) (r := r) h.lowerPast
  simp only [Watch.lowerAfter, hlt, h0, if_false] at hlp
  rw [hw]
  refine ⟨h.past, hlp, h.waits, fun d hd => ?_, h.masterDown, h.preemptDelay⟩
  obtain ⟨-, hpm, t, ht, htd⟩ := h.lower d hd
  exact ⟨hb, hpm, t, by rw [ht]; rfl, htd⟩

theorem Watches.backupReceivedV2 (h : r.Watches w now) (hc : r.Consistent) (hb : r.state = .backup)
    (hg : r.InTime (.request (.received a))) :
    (r.backupReceivedV2 now a).1.Watches (w.heard now a r (r.backupReceivedV2 now a).1) now := by
  unfold Router.backupReceivedV2
  split_ifs with h0 hd hdelay
  · exact h.release hc hb hg h0
  · obtain ⟨i, hi⟩ := hc.known (Or.inl hb)
    exact h.deferral hb h0 hd (s := { r with preemptDelayTimer := .idle }) hb hi rfl
  · exact h.preempts hc hb h0 hd hdelay
  · exact h.ignores hb h0 hd hdelay

theorem Watches.backupReceivedV3 (h : r.Watches w now) (hc : r.Consistent) (hb : r.state = .backup)
    (hv : r.config.version = .v3) (hg : r.InTime (.request (.received a))) :
    (r.backupReceivedV3 now a).1.Watches (w.heard now a r (r.backupReceivedV3 now a).1) now := by
  unfold Router.backupReceivedV3
  split_ifs with h0 hd hdelay
  · exact h.release hc hb hg h0
  · have hidle : r.preemptDelayTimer = .idle := by
      rw [← Timer.not_isRunning_iff, ← Bool.not_eq_true]
      intro hrun
      obtain ⟨d, hdl⟩ := Timer.isRunning_iff.mp hrun
      -- a delay runs with preemption only, so the sender has at least the router's priority
      have hle := hd.resolve_left (not_not.mpr (h.lower d hdl).2.1)
      cases hv.symm.trans (hg hb hle hrun).1
    exact h.deferral hb h0 hd
      (s := { r with masterAdverInterval := some a.vrrp.maxAdverIntInSec }) hb rfl hidle
  · exact h.preempts hc hb h0 hd hdelay
  · exact h.ignores hb h0 hd hdelay

/-- What a router does not defer to in Backup changes none of the watch's times otherwise. -/
theorem Watches.heard_of_not_backup (h : r.Watches w now) (hb : r.state ≠ .backup) {s : Router}
    (hb' : s.state ≠ .backup) (hm : s.masterDownTimer.Sound now)
    (hidle : s.preemptDelayTimer = .idle) : s.Watches (w.heard now a r s) now := by
  have hw : w.heard now a r s = ⟨w.since, w.interval, w.lowerAfter now a r⟩ := by
    unfold Watch.heard
    split
    · contradiction
    · contradiction
    · rfl
  rw [hw]
  constructor
  · exact h.past
  · exact lowerAfter_past h.lowerPast
  · exact fun h' => absurd h' hb'
  · rw [hidle]
    rintro d ⟨⟩
  · exact hm
  · rw [hidle]
    exact Timer.sound_idle

theorem Watches.givesWay (h : r.Watches w now) (hb : r.state ≠ .backup) {s : Router}
    (hb₁ : s.state = .backup) (hi : s.masterAdverInterval = some i)
    (hidle : s.preemptDelayTimer = .idle) :
    (s.startMasterDown now s.masterDownInterval).1.Watches
      (w.heard now a r (s.startMasterDown now s.masterDownInterval).1) now := by
  obtain ⟨j, hj⟩ := masterDownInterval_eq_ok hi
  have hw : w.heard now a r (s.startMasterDown now s.masterDownInterval).1 =
      ⟨now, s.masterDownInterval, w.lowerAfter now a r⟩ := by
    unfold Watch.heard
    rw [state_startMasterDown, hb₁]
    split
    · contradiction
    · rw [masterDownInterval_startMasterDown]
    · contradiction
  rw [hw]
  apply watches_startMasterDown hj le_rfl (lowerAfter_past h.lowerPast) hb₁
  · rw [hidle]
    rintro d ⟨⟩
  · rw [hidle]
    exact Timer.sound_idle

theorem Watches.vrrpReceived (h : r.Watches w now) (hc : r.Consistent)
    (hg : r.InTime (.request (.received a))) :
    (r.vrrpReceived now a).1.Watches (w.heard now a r (r.vrrpReceived now a).1) now := by
  unfold Router.vrrpReceived
  split
  · next hs =>
    have hb : r.state ≠ .backup := by simp [hs]
    exact h.heard_of_not_backup hb hb h.masterDown (h.idle_of_not_backup hb)
  · next hs hv =>
    have hb : r.state ≠ .backup := by simp [hs]
    have hidle := h.idle_of_not_backup hb
    unfold masterReceivedV2
    split_ifs
    · exact h.heard_of_not_backup hb (s := r.adver now) hb h.masterDown hidle
    · obtain ⟨i, hi⟩ := hc.known (Or.inr hv)
      exact h.givesWay hb (s := { r with adverTimer := .idle, state := .backup }) rfl hi hidle
    · exact h.heard_of_not_backup hb hb h.masterDown hidle
  · next hs hv =>
    have hb : r.state ≠ .backup := by simp [hs]
    have hidle := h.idle_of_not_backup hb
    unfold masterReceivedV3
    split_ifs
    · exact h.heard_of_not_backup hb (s := r.adver now) hb h.masterDown hidle
    · exact h.givesWay hb (s := { r with
        adverTimer := .idle
        masterAdverInterval := some a.vrrp.maxAdverIntInSec
        state := .backup }) rfl rfl hidle
    · exact h.heard_of_not_backup hb hb h.masterDown hidle
  · next hs hv => exact h.backupReceivedV2 hc hs hg
  · next hs hv => exact h.backupReceivedV3 hc hs hv hg

/-- A router that is Master or shut down watches its timers only. -/
theorem Watches.stops (h : r.Watches w now) {s : Router} (hb : s.state ≠ .backup)
    (hm : s.masterDownTimer.Sound now) (hidle : s.preemptDelayTimer = .idle) : s.Watches w now := by
  constructor
  · exact h.past
  · exact h.lowerPast
  · exact fun h' => absurd h' hb
  · rw [hidle]
    rintro d ⟨⟩
  · exact hm
  · rw [hidle]
    exact Timer.sound_idle

theorem Watches.timerExpired (h : r.Watches w now) (t : TimerId) :
    (r.timerExpired now t).Watches w now := by
  unfold Router.timerExpired
  split
  · exact ⟨h.past, h.lowerPast, h.waits, h.lower, h.masterDown, h.preemptDelay⟩
  · exact h.stops (s := r.masterDown now) (by simp [Router.masterDown]) h.masterDown rfl
  · exact h.stops (s := r.masterDown now) (by simp [Router.masterDown]) h.masterDown rfl
  · exact h

theorem Watches.shutdownRequest (h : r.Watches w now) : r.shutdownRequest.Watches w now := by
  unfold Router.shutdownRequest
  split
  · exact h
  · next hs =>
    have hb : r.state ≠ .backup := by simp [hs]
    exact h.stops (by simp) h.masterDown (h.idle_of_not_backup hb)
  · exact h.stops (by simp) Timer.sound_idle rfl

theorem Watches.backupConfigChange {c : ConfigChange} (h : r.Watches w now)
    (hb : r.state = .backup) :
    (Router.backupConfigChange now c { r with config := r.config.change c, vrrp := none }).Watches
      w now := by
  unfold Router.backupConfigChange
  split_ifs with ho hp hp
  · exact h.stops (by simp [Router.masterDown]) Timer.sound_idle rfl
  · exact h.stops (by simp [Router.masterDown]) Timer.sound_idle rfl
  · refine ⟨h.past, h.lowerPast, h.waits, ?_, h.masterDown, Timer.sound_idle⟩
    rintro d ⟨⟩
  · refine ⟨h.past, h.lowerPast, h.waits, ?_, h.masterDown, h.preemptDelay⟩
    intro d hd
    obtain ⟨-, hpm, ht⟩ := h.lower d hd
    obtain ⟨hm, hdl⟩ := not_or.mp hp
    have hm' : (r.config.change c).preemptMode = r.config.preemptMode := by
      simp [VRRPConfig.change, Option.not_isSome_iff_eq_none.mp hm]
    have hdl' : (r.config.change c).preemptDelay = r.config.preemptDelay := by
      simp [VRRPConfig.change, Option.not_isSome_iff_eq_none.mp hdl]
    refine ⟨hb, ?_, ?_⟩
    · exact hm'.trans hpm
    · simpa only [hdl'] using ht

theorem Watches.configChangeRequest (h : r.Watches w now) (c : ConfigChange) :
    (r.configChangeRequest now c).Watches w now := by
  dsimp only [Router.configChangeRequest]
  split
  · next hs =>
    have hb : r.state ≠ .backup := fun hb => by cases hs.symm.trans hb
    exact h.stops hb h.masterDown (h.idle_of_not_backup hb)
  · next hs =>
    have hb : r.state ≠ .backup := fun hb => by cases hs.symm.trans hb
    unfold masterConfigChange
    split_ifs
    · exact h.stops (s := Router.adver now _) hb h.masterDown (h.idle_of_not_backup hb)
    · exact h.stops hb h.masterDown (h.idle_of_not_backup hb)
  · next hs => exact h.backupConfigChange hs

/-- What one event leaves of the watch. -/
theorem Watches.handle (h : r.Watches w now) (hc : r.Consistent) {e : Event} (hg : r.InTime e) :
    (r.handle now e).1.Watches (w.observe now e r) now := by
  match e with
  | .timer t => exact h.timerExpired t
  | .request (.received a) => exact h.vrrpReceived hc hg
  | .request .shutdown => exact h.shutdownRequest
  | .request (.configChange c) => exact h.configChangeRequest c

theorem watches_startBackup (hi : r.masterAdverInterval = some i)
    (hidle : r.preemptDelayTimer = .idle) :
    (r.startBackup now).1.Watches (Watch.start now (r.startBackup now).1) now := by
  obtain ⟨j, hj⟩ := masterDownInterval_eq_ok (r := { r with state := .backup }) hi
  dsimp only [Router.startBackup, Watch.start]
  rw [masterDownInterval_startMasterDown]
  apply watches_startMasterDown hj le_rfl
  · rintro t ⟨⟩
  · rfl
  · rw [hidle]
    rintro d ⟨⟩
  · rw [hidle]
    exact Timer.sound_idle

theorem watches_startMaster (hidle : r.preemptDelayTimer = .idle)
    (hidle' : r.masterDownTimer = .idle) :
    (r.startMaster now).Watches (Watch.start now (r.startMaster now)) now := by
  constructor
  · exact le_rfl
  · rintro t ⟨⟩
  · rintro ⟨⟩
  · change ∀ d, r.preemptDelayTimer.deadline = some d → _
    rw [hidle]
    rintro d ⟨⟩
  · change r.masterDownTimer.Sound now
    rw [hidle']
    exact Timer.sound_idle
  · change r.preemptDelayTimer.Sound now
    rw [hidle]
    exact Timer.sound_idle

/-- A router just started. -/
theorem watches_start (now : ℚ) (config : VRRPConfig) (primaryIpAddress : Address) :
    (Router.start now config primaryIpAddress).1.Watches
      (Watch.start now (Router.start now config primaryIpAddress).1) now := by
  unfold Router.start
  split
  · dsimp only [startV2]
    split_ifs
    · exact watches_startMaster rfl rfl
    · exact watches_startBackup rfl rfl
  · dsimp only [startV3]
    split_ifs
    · exact watches_startMaster rfl rfl
    · exact watches_startBackup rfl rfl

@[simp] theorem state_startPreemptDelay (now : ℚ) (r : Router) :
    (r.startPreemptDelay now).state = r.state := by
  unfold Router.startPreemptDelay
  split_ifs <;> rfl

/-- Backup remains Backup when it hears an advertisement. -/
theorem state_vrrpReceived_of_backup (now : ℚ) (a : Received) (hb : r.state = .backup) :
    (r.vrrpReceived now a).1.state = .backup := by
  unfold Router.vrrpReceived
  split
  · next hs => cases hs.symm.trans hb
  · next hs _ => cases hs.symm.trans hb
  · next hs _ => cases hs.symm.trans hb
  · unfold Router.backupReceivedV2
    split_ifs <;> simp [hb]
  · unfold Router.backupReceivedV3
    split_ifs <;> simp [hb]

/-- Only Backup takes over, and only for its timers or as the address owner. -/
theorem handle_becomes_master {e : Event} (hb : r.state = .backup)
    (hm : (r.handle now e).1.state = .master) :
    e = .timer .masterDown ∨ e = .timer .preemptDelay ∨ e.makesOwner r.config := by
  match e with
  | .timer .masterDown => exact Or.inl rfl
  | .timer .preemptDelay => exact Or.inr (Or.inl rfl)
  | .timer .adver =>
    simp [Router.handle, Router.timerExpired, hb] at hm
  | .request (.received a) =>
    cases (state_vrrpReceived_of_backup now a hb).symm.trans hm
  | .request .shutdown =>
    simp [Router.handle, Router.shutdownRequest, hb] at hm
  | .request (.configChange c) =>
    refine Or.inr (Or.inr (Bool.and_eq_true_iff.mpr ?_))
    by_contra ho
    have : (r.handle now (.request (.configChange c))).1.state = .backup := by
      dsimp only [Router.handle, Router.configChangeRequest]
      rw [hb]
      dsimp only [Router.backupConfigChange]
      rw [if_neg ho]
      split_ifs <;> rfl
    cases this.symm.trans hm

end Router

namespace Watched

variable {s : Watched} {i : Input}

/-- The watch of a system. -/
structure Watches (s : Watched) : Prop where
  consistent : s.system.router.Consistent
  watches : s.system.router.Watches s.watch s.system.now

theorem watches_tick {r : Router} {w : Watch} {now now' : ℚ} (h : r.Watches w now)
    (hle : now ≤ now') : r.Watches w now' :=
  ⟨h.past.trans hle, fun t ht => (h.lowerPast t ht).trans hle, h.waits, h.lower,
    h.masterDown.later hle, h.preemptDelay.later hle⟩

theorem watches_fire {r : Router} {w : Watch} {now : ℚ} (h : r.Watches w now) {t : Router.TimerId}
    (hdue : (r.timer t).isDue now) : (r.fireTimer t).Watches w now := by
  cases t with
  | masterDown =>
    refine ⟨h.past, h.lowerPast, fun hb d hd => h.waits hb d ?_, h.lower,
      Timer.sound_fire hdue, h.preemptDelay⟩
    exact (Timer.deadline_fire _).symm.trans hd
  | adver => exact ⟨h.past, h.lowerPast, h.waits, h.lower, h.masterDown, h.preemptDelay⟩
  | preemptDelay =>
    refine ⟨h.past, h.lowerPast, h.waits, fun d hd => h.lower d ?_, h.masterDown,
      Timer.sound_fire hdue⟩
    exact (Timer.deadline_fire _).symm.trans hd

theorem watches_step (h : s.Watches) (hg : s.system.InTime i) : (s.step i).Watches := by
  refine ⟨Router.consistent_step h.consistent i, ?_⟩
  match i with
  | .post q => exact h.watches
  | .tick d => exact watches_tick h.watches (by simp [step, System.step])
  | .fire t =>
    simp only [step, System.step]
    split_ifs with hdue
    · exact watches_fire h.watches hdue
    · exact h.watches
  | .handle =>
    cases he : s.system.events with
    | nil => simpa only [step, System.step, he] using h.watches
    | cons e es =>
      simpa only [step, System.step, he] using
        h.watches.handle h.consistent (hg rfl e (by simp [he]))

theorem justified_of_watches (hw : s.Watches) (hg : s.system.InTime i) : s.TakesOverJustified i := by
  have h := hw.watches
  intro hb hm
  match i with
  | .post q => cases hb.symm.trans hm
  | .tick d => cases hb.symm.trans hm
  | .fire t =>
    have hf : (s.system.step (.fire t)).router.state = s.system.router.state := by
      dsimp only [System.step]
      split_ifs
      · cases t <;> rfl
      · rfl
    cases (hf.trans hb).symm.trans hm
  | .handle =>
    cases he : s.system.events with
    | nil =>
      simp only [System.step, he] at hm
      cases hb.symm.trans hm
    | cons e es =>
      simp only [System.step, he] at hm
      have hin := hg rfl e (by simp [he])
      refine ⟨rfl, e, by simp, ?_⟩
      obtain rfl | rfl | hc := Router.handle_becomes_master hb hm
      · obtain ⟨d, hd, hle⟩ := h.masterDown.deadline_le (hin hb)
        obtain ⟨j, hj, hjd⟩ := h.waits hb d hd
        exact Or.inr (Or.inl ⟨j, toOption_eq_some.2 hj, hjd.trans hle⟩)
      · obtain ⟨d, hd, hle⟩ := h.preemptDelay.deadline_le (hin hb)
        obtain ⟨-, hpm, t, ht, htd⟩ := h.lower d hd
        exact Or.inr (Or.inr ⟨hpm, t, ht, htd.trans hle⟩)
      · exact Or.inl hc

end Watched

/-- A router moves from Backup to Master only for a reason, in every run whose events come in
time. -/
theorem takeovers_justified (now : ℚ) (config : VRRPConfig) (primaryIpAddress : Address)
    (inputs : List Input)
    (hg : EveryStep Watched.step (fun s i => s.system.InTime i)
      (Watched.start now config primaryIpAddress) inputs) :
    EveryStep Watched.step Watched.TakesOverJustified
      (Watched.start now config primaryIpAddress) inputs := by
  have h0 : (Watched.start now config primaryIpAddress).Watches :=
    ⟨Router.consistent_start now config primaryIpAddress,
      Router.watches_start now config primaryIpAddress⟩
  apply everyStep_of_everyStep h0 _ hg
  intro s i h hin
  exact ⟨Watched.justified_of_watches h hin, Watched.watches_step h hin⟩

/-- A V3 router of priority 150 that preempts after two seconds. -/
def preempting : VRRPConfig where
  version := .v3
  vrid := 1
  adminState := .flag true
  priority := 150
  ipAddresses := [hostAddress 1]
  advertisementInterval := 1
  preemptMode := true
  preemptDelay := 2
  acceptMode := false

/-- An advertisement of another router arrives. -/
def advertised (priority : ℕ) : Input :=
  .post (.received ⟨hostAddress 9, ⟨.v3, 1, priority, 100, [hostAddress 1]⟩⟩)

/-- A lower priority is heard, and nothing else until the preempt delay is over. -/
theorem takeovers_justified_preempting : EveryStep Watched.step Watched.TakesOverJustified
    (Watched.start 0 preempting (hostAddress 2))
    [advertised 100, .handle, .tick 2, .fire .preemptDelay, .handle] :=
  takeovers_justified 0 preempting (hostAddress 2) _ (by decide +kernel)

/-- A higher priority heard a second later does not cancel the preempt delay of a V3 router. -/
theorem takesOver_unjustified : ¬ EveryStep Watched.step Watched.TakesOverJustified
    (Watched.start 0 preempting (hostAddress 2))
    [advertised 100, .handle, .tick 1, advertised 200, .handle, .tick 1, .fire .preemptDelay,
      .handle] := by
  decide +kernel

end Ryu.Vrrp
