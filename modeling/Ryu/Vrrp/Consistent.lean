import Ryu.Vrrp.Router

/-! # What every run of a VRRP router keeps

The cached advertisement is the one the configuration gives, and where the master-down interval
is read the interval of the master is known.
-/

namespace Ryu.Vrrp.Router

variable {r r' : Router} {now i : ℚ} {a : Received}

theorem skewTime_eq_ok (h : r.masterAdverInterval = some i) : ∃ j, r.skewTime = .ok j := by
  unfold skewTime
  cases r.config.version with
  | v2 => exact ⟨_, rfl⟩
  | v3 => exact ⟨_, by rw [h]⟩

theorem masterDownInterval_eq_ok (h : r.masterAdverInterval = some i) :
    ∃ j, r.masterDownInterval = .ok j := by
  obtain ⟨j, hj⟩ := skewTime_eq_ok h
  exact ⟨3 * i + j, by rw [masterDownInterval, h, hj]; rfl⟩

structure Consistent (r : Router) : Prop where
  cached : ∀ v ∈ r.vrrp, v = r.createAdvertisement
  known : r.state = .backup ∨ r.config.version = .v2 → ∃ i, r.masterAdverInterval = some i

theorem Consistent.currentAdvertisement_eq (h : r.Consistent) :
    r.currentAdvertisement = r.createAdvertisement := by
  unfold currentAdvertisement
  cases hv : r.vrrp with
  | none => rfl
  | some v => exact h.cached v hv

theorem Consistent.sendAdvertisement (h : r.Consistent) (release : Bool) :
    (r.sendAdvertisement release).Consistent := by
  refine ⟨?_, h.known⟩
  rintro v hv
  obtain rfl : r.currentAdvertisement = v := Option.some.inj hv
  exact h.currentAdvertisement_eq

theorem Consistent.startMasterDown (h : r.Consistent) (x : Except PyError ℚ) :
    (r.startMasterDown now x).1.Consistent := by
  cases x with
  | ok i => exact ⟨h.cached, h.known⟩
  | error e => exact h

theorem Consistent.startPreemptDelay (h : r.Consistent) : (r.startPreemptDelay now).Consistent := by
  unfold Router.startPreemptDelay
  split_ifs
  · exact h
  · exact ⟨h.cached, h.known⟩

theorem Consistent.adver (h : r.Consistent) : (r.adver now).Consistent :=
  ⟨(h.sendAdvertisement false).cached, h.known⟩

/-- Outside Backup only a V2 router has to know the interval. -/
theorem Consistent.of_not_backup (h : r.Consistent)
    (hc : ∀ v ∈ r'.vrrp, v = r'.createAdvertisement)
    (hv : r'.config.version = r.config.version)
    (hk : r'.masterAdverInterval = r.masterAdverInterval) (hb : r'.state ≠ .backup) :
    r'.Consistent := by
  refine ⟨hc, ?_⟩
  rintro (hb' | hv')
  · exact absurd hb' hb
  · rw [hk]
    exact h.known (Or.inr (hv ▸ hv'))

theorem Consistent.masterDown (h : r.Consistent) : (Router.masterDown now r).Consistent :=
  h.of_not_backup (h.sendAdvertisement false).cached rfl rfl (by simp [Router.masterDown])

theorem Consistent.masterReceivedV2 (h : r.Consistent) (hv : r.config.version = .v2) :
    (r.masterReceivedV2 now a).1.Consistent := by
  dsimp only [Router.masterReceivedV2]
  split_ifs
  · exact h.adver
  · apply Consistent.startMasterDown
    exact ⟨h.cached, fun _ => h.known (Or.inr hv)⟩
  · exact h

theorem Consistent.masterReceivedV3 (h : r.Consistent) :
    (r.masterReceivedV3 now a).1.Consistent := by
  dsimp only [Router.masterReceivedV3]
  split_ifs
  · exact h.adver
  · apply Consistent.startMasterDown
    exact ⟨h.cached, fun _ => ⟨a.vrrp.maxAdverIntInSec, rfl⟩⟩
  · exact h

theorem Consistent.backupReceivedV2 (h : r.Consistent) :
    (r.backupReceivedV2 now a).1.Consistent := by
  dsimp only [Router.backupReceivedV2]
  split_ifs
  · exact h.startMasterDown _
  · apply Consistent.startMasterDown
    exact ⟨h.cached, h.known⟩
  · exact h.startPreemptDelay.startMasterDown _
  · exact h

theorem Consistent.backupReceivedV3 (h : r.Consistent) :
    (r.backupReceivedV3 now a).1.Consistent := by
  dsimp only [Router.backupReceivedV3]
  split_ifs
  · exact h.startMasterDown _
  · apply Consistent.startMasterDown
    exact ⟨h.cached, fun _ => ⟨a.vrrp.maxAdverIntInSec, rfl⟩⟩
  · exact h.startPreemptDelay.startMasterDown _
  · exact h

theorem Consistent.vrrpReceived (h : r.Consistent) : (r.vrrpReceived now a).1.Consistent := by
  unfold Router.vrrpReceived
  split
  · exact h
  · next hv => exact h.masterReceivedV2 hv
  · exact h.masterReceivedV3
  · exact h.backupReceivedV2
  · exact h.backupReceivedV3

theorem Consistent.timerExpired (h : r.Consistent) (t : TimerId) :
    (r.timerExpired now t).Consistent := by
  unfold Router.timerExpired
  split
  · exact h.adver
  · exact h.masterDown
  · exact h.masterDown
  · exact h

theorem Consistent.shutdownRequest (h : r.Consistent) : r.shutdownRequest.Consistent := by
  unfold Router.shutdownRequest
  split
  · exact h
  · exact h.of_not_backup (h.sendAdvertisement true).cached rfl rfl (by simp)
  · exact h.of_not_backup h.cached rfl rfl (by simp)

/-- The change of the settings drops the cached advertisement. -/
theorem Consistent.change (h : r.Consistent) (c : ConfigChange) :
    Consistent { r with config := r.config.change c, vrrp := none } := by
  refine ⟨?_, h.known⟩
  rintro v ⟨⟩

theorem Consistent.backupConfigChange (h : r.Consistent) (c : ConfigChange) :
    (r.backupConfigChange now c).Consistent := by
  dsimp only [Router.backupConfigChange]
  split_ifs
  · exact h.of_not_backup (h.sendAdvertisement false).cached rfl rfl (by simp [Router.masterDown])
  · exact ⟨h.cached, h.known⟩
  · exact h.of_not_backup (h.sendAdvertisement false).cached rfl rfl (by simp [Router.masterDown])
  · exact h

theorem Consistent.configChangeRequest (h : r.Consistent) (c : ConfigChange) :
    (r.configChangeRequest now c).Consistent := by
  dsimp only [Router.configChangeRequest]
  split
  · exact h.change c
  · unfold masterConfigChange
    split_ifs
    · exact (h.change c).adver
    · exact h.change c
  · exact (h.change c).backupConfigChange c

theorem Consistent.handle (h : r.Consistent) (e : Event) : (r.handle now e).1.Consistent := by
  match e with
  | .timer t => exact h.timerExpired t
  | .request (.received a) => exact h.vrrpReceived
  | .request .shutdown => exact h.shutdownRequest
  | .request (.configChange c) => exact h.configChangeRequest c

theorem Consistent.fireTimer (h : r.Consistent) (t : TimerId) : (r.fireTimer t).Consistent := by
  cases t <;> exact ⟨h.cached, h.known⟩

theorem consistent_startBackup (hv : r.vrrp = none) (hi : r.masterAdverInterval = some i) :
    (r.startBackup now).1.Consistent := by
  unfold startBackup
  apply Consistent.startMasterDown
  refine ⟨?_, fun _ => ⟨i, hi⟩⟩
  simp [hv]

theorem consistent_startMaster (hv : r.vrrp = none)
    (hk : r.config.version = .v2 → ∃ i, r.masterAdverInterval = some i) :
    (r.startMaster now).Consistent := by
  refine ⟨?_, ?_⟩
  · rintro v hv'
    obtain rfl : r.currentAdvertisement = v := Option.some.inj hv'
    simp [currentAdvertisement, hv, startMaster, createAdvertisement, sendAdvertisement]
  · rintro (hb | hv')
    · cases hb
    · exact hk hv'

theorem consistent_start (now : ℚ) (config : VRRPConfig) (primaryIpAddress : Address) :
    (Router.start now config primaryIpAddress).1.Consistent := by
  unfold Router.start
  split
  · dsimp only [startV2]
    split_ifs
    · exact consistent_startMaster rfl fun _ => ⟨_, rfl⟩
    · exact consistent_startBackup rfl rfl
  · next hv =>
    dsimp only [startV3]
    split_ifs
    · exact consistent_startMaster rfl fun hv' => by cases hv.symm.trans hv'
    · exact consistent_startBackup rfl rfl

theorem consistent_step {s : System} (h : s.router.Consistent) (i : Input) :
    (s.step i).router.Consistent := by
  match i with
  | .post q => exact h
  | .tick d => exact h
  | .fire t =>
    dsimp only [System.step]
    split_ifs
    · exact h.fireTimer t
    · exact h
  | .handle =>
    dsimp only [System.step]
    split
    · exact h
    · exact h.handle _

end Ryu.Vrrp.Router
