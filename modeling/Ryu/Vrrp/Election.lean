import Mathlib.Data.Fintype.EquivFin
import Mathlib.Data.Fintype.Lattice
import Mathlib.Algebra.Order.Field.Rat
import Mathlib.Data.Prod.Lex
import Mathlib.Order.Lex
import Ryu.Lib.Run
import Ryu.Vrrp.Consistent

/-! # One master of several

Routers of one virtual router that are all Master hear each other's advertisements. Each one
compares the sender's priority and address with its own, and all of them agree on the greatest, as
long as that is not the priority 0 of a release.
-/

namespace Ryu.Vrrp

namespace Router

variable {r : Router} {now : ℚ} {a : Received}

/-- What others receive when the router sends its advertisement. -/
def announces (r : Router) : Received := ⟨r.primaryIpAddress, r.currentAdvertisement⟩

/-- Priorities first, then addresses. -/
def rank (r : Router) : ℕ ×ₗ Address := toLex (r.config.priority, r.primaryIpAddress)

/-- The router was started and then handled what a run brought. -/
def Reached (r : Router) : Prop :=
  ∃ now config primaryIpAddress inputs,
    r = (List.foldl System.step (System.start now config primaryIpAddress) inputs).router

/-- The router left Master: it waits for the new master and advertises no more. -/
structure Left (r : Router) : Prop where
  backup : r.state = .backup
  armed : ∃ d, r.masterDownTimer = .waiting d
  stopped : r.adverTimer = .idle

theorem Reached.consistent (h : r.Reached) : r.Consistent := by
  obtain ⟨now, config, address, inputs, rfl⟩ := h
  have h0 : (System.start now config address).router.Consistent :=
    consistent_start now config address
  exact (throughout_of_step (P := fun s : System => s.router.Consistent) h0
    (fun _ i h => consistent_step h i) inputs).last

theorem givesWay_iff {r' : Router} (h : r'.Consistent) :
    r.givesWay r'.announces ↔ r.rank < r'.rank := by
  unfold givesWay rank announces
  rw [Prod.Lex.toLex_lt_toLex, h.currentAdvertisement_eq]
  rfl

/-- A Master that hears the advertisement becomes Backup. -/
def yieldsTo (r : Router) (a : Received) : Prop := a.vrrp.priority ≠ 0 ∧ r.givesWay a

/-- The router after an advertisement it handled at some time. -/
def hear (r : Router) (d : ℚ × Received) : Router := (r.vrrpReceived d.1 d.2).1

theorem startMasterDown_left (hi : ∃ i, r.masterAdverInterval = some i) (hb : r.state = .backup)
    (hs : r.adverTimer = .idle) : (r.startMasterDown now r.masterDownInterval).1.Left := by
  obtain ⟨i, hi⟩ := hi
  obtain ⟨j, hj⟩ := masterDownInterval_eq_ok hi
  rw [hj]
  exact ⟨hb, ⟨_, rfl⟩, hs⟩

theorem hear_of_yieldsTo (hc : r.Consistent) (hm : r.state = .master) (hy : r.yieldsTo a) :
    (r.hear (now, a)).Left := by
  obtain ⟨h0, hy⟩ := hy
  unfold hear vrrpReceived
  rw [hm]
  split
  · contradiction
  · next hv =>
    dsimp only [masterReceivedV2]
    rw [if_neg h0, if_pos hy]
    apply startMasterDown_left
    · exact hc.known (Or.inr hv)
    · rfl
    · rfl
  · dsimp only [masterReceivedV3]
    rw [if_neg h0, if_pos hy]
    apply startMasterDown_left
    · exact ⟨_, rfl⟩
    · rfl
    · rfl
  · contradiction
  · contradiction

theorem hear_of_not_yieldsTo (hm : r.state = .master) (hy : ¬ r.yieldsTo a) :
    (r.hear (now, a)).state = .master := by
  unfold hear vrrpReceived
  rw [hm]
  split
  · contradiction
  · unfold masterReceivedV2
    split_ifs with h0 hg
    · exact hm
    · exact absurd ⟨h0, hg⟩ hy
    · exact hm
  · unfold masterReceivedV3
    split_ifs with h0 hg
    · exact hm
    · exact absurd ⟨h0, hg⟩ hy
    · exact hm
  · contradiction
  · contradiction

theorem Left.startMasterDown_skew (h : r.Left) (hi : ∃ i, r.masterAdverInterval = some i) :
    (r.startMasterDown now r.skewTime).1.Left := by
  obtain ⟨i, hi⟩ := hi
  obtain ⟨j, hj⟩ := skewTime_eq_ok hi
  rw [hj]
  exact ⟨h.backup, ⟨_, rfl⟩, h.stopped⟩

theorem startPreemptDelay_eq (r : Router) (now : ℚ) :
    ∃ t, r.startPreemptDelay now = { r with preemptDelayTimer := t } := by
  unfold startPreemptDelay
  split_ifs
  · exact ⟨_, rfl⟩
  · exact ⟨_, rfl⟩

theorem Left.preempts (h : r.Left) (hi : ∃ i, r.masterAdverInterval = some i) :
    ((r.startPreemptDelay now).startMasterDown now r.masterDownInterval).1.Left := by
  obtain ⟨t, ht⟩ := startPreemptDelay_eq r now
  rw [ht]
  exact startMasterDown_left (r := { r with preemptDelayTimer := t }) hi h.backup h.stopped

/-- A Backup waits for its master again, or goes on waiting. -/
theorem Left.hear (h : r.Left) (hc : r.Consistent) : (r.hear (now, a)).Left := by
  have hi := hc.known (Or.inl h.backup)
  unfold Router.hear vrrpReceived
  rw [h.backup]
  split
  · contradiction
  · contradiction
  · contradiction
  · dsimp only [backupReceivedV2]
    split_ifs
    · exact h.startMasterDown_skew hi
    · exact startMasterDown_left hi h.backup h.stopped
    · exact h.preempts hi
    · exact h
  · dsimp only [backupReceivedV3]
    split_ifs
    · exact h.startMasterDown_skew hi
    · exact startMasterDown_left ⟨_, rfl⟩ h.backup h.stopped
    · exact h.preempts hi
    · exact h

/-- The configuration and the address of a router. -/
def identity (r : Router) : VRRPConfig × Address := (r.config, r.primaryIpAddress)

theorem identity_startMasterDown (x : Except PyError ℚ) :
    (r.startMasterDown now x).1.identity = r.identity := by
  cases x <;> rfl

theorem identity_startPreemptDelay : (r.startPreemptDelay now).identity = r.identity := by
  obtain ⟨t, ht⟩ := startPreemptDelay_eq r now
  rw [ht]
  rfl

theorem identity_hear (r : Router) (d : ℚ × Received) : (r.hear d).identity = r.identity := by
  unfold hear vrrpReceived
  split
  · rfl
  · dsimp only [masterReceivedV2]
    split_ifs
    · rfl
    · exact identity_startMasterDown _
    · rfl
  · dsimp only [masterReceivedV3]
    split_ifs
    · rfl
    · exact identity_startMasterDown _
    · rfl
  · dsimp only [backupReceivedV2]
    split_ifs
    · exact identity_startMasterDown _
    · exact identity_startMasterDown _
    · exact (identity_startMasterDown _).trans identity_startPreemptDelay
    · rfl
  · dsimp only [backupReceivedV3]
    split_ifs
    · exact identity_startMasterDown _
    · exact identity_startMasterDown _
    · exact (identity_startMasterDown _).trans identity_startPreemptDelay
    · rfl

theorem yieldsTo_hear (d : ℚ × Received) : (r.hear d).yieldsTo a ↔ r.yieldsTo a := by
  obtain ⟨hc, hp⟩ := Prod.mk.inj (identity_hear r d)
  unfold yieldsTo givesWay
  rw [hc, hp]

theorem Left.hear_all (h : r.Left) (hc : r.Consistent) (ds : List (ℚ × Received)) :
    (ds.foldl Router.hear r).Left := by
  induction ds generalizing r with
  | nil => exact h
  | cons d ds ih => exact ih (h.hear hc) hc.vrrpReceived

/-- A Master leaves exactly when it yields to one of the advertisements it hears. -/
theorem hear_all (hc : r.Consistent) (hm : r.state = .master) (ds : List (ℚ × Received)) :
    ((∃ d ∈ ds, r.yieldsTo d.2) → (ds.foldl hear r).Left) ∧
    ((∀ d ∈ ds, ¬ r.yieldsTo d.2) → (ds.foldl hear r).state = .master) := by
  induction ds generalizing r with
  | nil => simpa using hm
  | cons d ds ih =>
    by_cases hy : r.yieldsTo d.2
    · have hl : (ds.foldl hear (r.hear d)).Left :=
        (hear_of_yieldsTo hc hm hy).hear_all hc.vrrpReceived ds
      exact ⟨fun _ => hl, fun h => absurd hy (h d List.mem_cons_self)⟩
    · obtain ⟨ih₁, ih₂⟩ := ih (r := r.hear d) hc.vrrpReceived (hear_of_not_yieldsTo hm hy)
      simp only [yieldsTo_hear] at ih₁ ih₂
      constructor
      · rintro ⟨e, he, hye⟩
        obtain rfl | he := List.mem_cons.mp he
        · exact absurd hye hy
        · exact ih₁ ⟨e, he, hye⟩
      · exact fun h => ih₂ fun e he => h e (List.mem_cons_of_mem d he)

end Router

/-- A router handles the advertisement another one sent. -/
structure Delivery (ι : Type*) where
  now : ℚ
  receiver : ι
  sender : ι

/-- The routers after deliveries of what they announced at first. -/
def exchange {ι : Type*} [DecidableEq ι] (routers : ι → Router) (ds : List (Delivery ι)) :
    ι → Router :=
  ds.foldl (fun rs d => Function.update rs d.receiver
    ((rs d.receiver).hear (d.now, (routers d.sender).announces))) routers

section Exchange

variable {ι : Type*} [DecidableEq ι]

theorem exchange_apply (routers : ι → Router) (ds : List (Delivery ι)) (i : ι) :
    exchange routers ds i = ((ds.filter (·.receiver = i)).map fun d =>
      (d.now, (routers d.sender).announces)).foldl Router.hear (routers i) := by
  rw [List.foldl_map]
  exact foldl_update_apply (fun r d => r.hear (d.now, (routers d.sender).announces))
    Delivery.receiver ds routers i

/-- Of routers that are all Master and handle the advertisement of each other, in any order and
any number of times, exactly the one of the greatest rank stays Master, unless all priorities are
0. The others wait for it. -/
theorem exchange_elects [Finite ι] (routers : ι → Router) (hr : ∀ i, (routers i).Reached)
    (hm : ∀ i, (routers i).state = .master)
    (ha : Function.Injective fun i => (routers i).primaryIpAddress)
    (h0 : ∃ i, (routers i).config.priority ≠ 0) (ds : List (Delivery ι))
    (hall : ∀ i j, i ≠ j → ∃ d ∈ ds, d.receiver = i ∧ d.sender = j) :
    ∃ w, (∀ i, i ≠ w → (routers i).rank < (routers w).rank) ∧
      (exchange routers ds w).state = .master ∧
      ∀ i, i ≠ w → (exchange routers ds i).Left := by
  obtain ⟨i₀, h0⟩ := h0
  have : Nonempty ι := ⟨i₀⟩
  obtain ⟨w, hw⟩ := Finite.exists_max fun i => (routers i).rank
  have hlt : ∀ i, i ≠ w → (routers i).rank < (routers w).rank := by
    intro i hi
    apply lt_of_le_of_ne (hw i)
    intro he
    exact hi (ha (congrArg (fun x => (ofLex x).2) he))
  have hw0 : (routers w).config.priority ≠ 0 := by
    intro hz
    obtain hlt₀ | ⟨he, -⟩ := Prod.Lex.toLex_le_toLex.mp (hw i₀)
    · exact Nat.not_lt_zero _ (hz ▸ hlt₀)
    · exact h0 (he.trans hz)
  have hyield : ∀ i j, (routers i).yieldsTo (routers j).announces ↔
      (routers j).config.priority ≠ 0 ∧ (routers i).rank < (routers j).rank := by
    intro i j
    unfold Router.yieldsTo
    rw [Router.givesWay_iff (hr j).consistent, Router.announces,
      (hr j).consistent.currentAdvertisement_eq]
    rfl
  refine ⟨w, hlt, ?_, ?_⟩
  · rw [exchange_apply]
    apply (Router.hear_all (hr w).consistent (hm w) _).2
    intro d hd
    obtain ⟨e, -, rfl⟩ := List.mem_map.mp hd
    rw [hyield]
    rintro ⟨-, h⟩
    exact (hw e.sender).not_gt h
  · intro i hi
    rw [exchange_apply]
    apply (Router.hear_all (hr i).consistent (hm i) _).1
    obtain ⟨d, hd, rfl, rfl⟩ := hall i w hi
    refine ⟨_, List.mem_map.mpr ⟨d, List.mem_filter.mpr ⟨hd, by simp⟩, rfl⟩, ?_⟩
    exact (hyield d.receiver d.sender).mpr ⟨hw0, hlt _ hi⟩

end Exchange

/-- A router of version 2. -/
def contender (priority : ℕ) : VRRPConfig where
  version := .v2
  vrid := 1
  adminState := .flag true
  priority := priority
  ipAddresses := [hostAddress 1]
  advertisementInterval := 1
  preemptMode := true
  preemptDelay := 0
  acceptMode := false

/-- A router that heard of no other for five seconds. -/
def unheard (priority : ℕ) (primaryIpAddress : Address) : Router :=
  (List.foldl System.step (System.start 0 (contender priority) primaryIpAddress)
    [.tick 5, .fire .masterDown, .handle]).router

/-- Two such routers. -/
def unheardTwo (low high : ℕ) : Bool → Router
  | false => unheard low (hostAddress 2)
  | true => unheard high (hostAddress 3)

/-- The two hear each other. -/
def mutually : List (Delivery Bool) := [⟨5, false, true⟩, ⟨5, true, false⟩]

theorem reached_unheardTwo (low high : ℕ) (i : Bool) : (unheardTwo low high i).Reached := by
  cases i <;> exact ⟨_, _, _, _, rfl⟩

theorem exchange_elects_two :
    ∃ w, (∀ i, i ≠ w → (unheardTwo 100 200 i).rank < (unheardTwo 100 200 w).rank) ∧
      (exchange (unheardTwo 100 200) mutually w).state = .master ∧
      ∀ i, i ≠ w → (exchange (unheardTwo 100 200) mutually i).Left :=
  exchange_elects (unheardTwo 100 200) (reached_unheardTwo 100 200) (by decide +kernel)
    (by decide +kernel) ⟨false, by decide +kernel⟩ mutually (by decide +kernel)

/-- Two routers of priority 0 both stay Master: each takes the other's for a release. -/
theorem releases_elect_none : (∀ i, (unheardTwo 0 0 i).Reached) ∧
    (∀ i, (unheardTwo 0 0 i).state = .master) ∧
    (Function.Injective fun i => (unheardTwo 0 0 i).primaryIpAddress) ∧
    (∀ i j, i ≠ j → ∃ d ∈ mutually, d.receiver = i ∧ d.sender = j) ∧
    ¬ ∃ w, ∀ i, (exchange (unheardTwo 0 0) mutually i).state = .master ↔ i = w :=
  ⟨reached_unheardTwo 0 0, by decide +kernel, by decide +kernel, by decide +kernel,
    by decide +kernel⟩

end Ryu.Vrrp
