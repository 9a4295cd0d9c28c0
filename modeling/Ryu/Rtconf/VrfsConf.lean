import Ryu.Lib.Dict
import Ryu.Lib.Run
import Ryu.Rtconf.VrfUpdate

/-! # The container of VRF configurations

The container keeps its configurations by route distinguisher and family and by id. A removal takes
those that its arguments describe out of both and notifies the listeners of each. It goes through
the families it is given as one name letter by letter, and asks a configuration that it has found by
its id for an attribute that no configuration has.
-/

namespace Ryu.Rtconf

/-- A configuration whose route family is supported, if it has one. -/
structure SupportedConf where
  conf : VrfConf
  supported : ∀ rf ∈ conf.routeFamily, supportedVrfRf.contains rf

theorem SupportedConf.ext {c c' : SupportedConf} (h : c.conf = c'.conf) : c = c' := by
  cases c
  cases h
  rfl

/-- `rd_rf_id`. -/
def SupportedConf.rdRfId (c : SupportedConf) : Text × Option Text :=
  (c.conf.routeDist, c.conf.routeFamily)

def SupportedConf.id (c : SupportedConf) : Text := c.conf.id

/-- The events of the container. -/
inductive VrfsEvt
  | addVrfConf
  | removeVrfConf
  deriving DecidableEq, Repr

/-- What a callback raises, if it does. -/
abbrev Listener := VrfsEvt → SupportedConf → Option PyError

/-- The argument `vrf_rf`: nothing, one name, or a list of names. -/
inductive VrfRf
  | none
  | name (rf : Text)
  | names (rfs : List Text)
  deriving DecidableEq, Repr

namespace VrfRf

/-- The families that the loop goes through. What is empty counts as nothing, and a name is gone
through letter by letter. -/
def iterated : VrfRf → List Text
  | .none | .name [] | .names [] => supportedVrfRf
  | .name (a :: rf) => (a :: rf).map fun ch => [ch]
  | .names (rf :: rfs) => rf :: rfs

/-- The families that are described. -/
def described : VrfRf → List Text
  | .none | .name [] | .names [] => supportedVrfRf
  | .name (a :: rf) => [a :: rf]
  | .names (rf :: rfs) => rf :: rfs

end VrfRf

/-- `_vrfs_by_rd_rf` and `_vrfs_by_id`. -/
structure VrfsConf where
  byRdRf : Dict (Text × Option Text) SupportedConf
  byId : Dict Text SupportedConf

/-- What is returned or raised, the container, and the calls of the callbacks. -/
structure Outcome (α : Type) where
  result : Except PyError α
  state : VrfsConf
  notified : List (VrfsEvt × SupportedConf)

/-- `_notify_listeners`. -/
def notifyListeners (evt : VrfsEvt) (c : SupportedConf) :
    List Listener → Except PyError Unit × List (VrfsEvt × SupportedConf)
  | [] => (.ok (), [])
  | callback :: listeners =>
    match callback evt c with
    | some e => (.error e, [(evt, c)])
    | none => ((notifyListeners evt c listeners).1, (evt, c) :: (notifyListeners evt c listeners).2)

/-- The loop over what was removed. -/
def notifyRemoved (listeners : List Listener) :
    List SupportedConf → Except PyError Unit × List (VrfsEvt × SupportedConf)
  | [] => (.ok (), [])
  | c :: cs =>
    match notifyListeners .removeVrfConf c listeners with
    | (.error e, notified) => (.error e, notified)
    | (.ok (), notified) =>
      ((notifyRemoved listeners cs).1, notified ++ (notifyRemoved listeners cs).2)

namespace VrfsConf

def init : VrfsConf := ⟨.empty, .empty⟩

/-- `add_vrf_conf`. -/
def addVrfConf (s : VrfsConf) (listeners : List Listener) (c : SupportedConf) : Outcome Unit :=
  if (s.byRdRf.get? c.rdRfId).isSome then
    ⟨.error (.other "VrfConf with rd_rf already exists"), s, []⟩
  else if (s.byId.get? c.id).isSome then ⟨.error (.other "VrfConf with id already exists"), s, []⟩
  else
    let r := notifyListeners .addVrfConf c listeners
    ⟨r.1, ⟨s.byRdRf.set c.rdRfId c, s.byId.set c.id c⟩, r.2⟩

/-- The loop over the families: the configurations removed, and the container. A configuration has
an `rd_rf_id`, and no `rd_rd_id`. -/
def popVrfConfs (routeDist vrfId : Option Text) :
    List Text → VrfsConf → Except PyError (List SupportedConf) × VrfsConf
  | [], s => (.ok [], s)
  | rf :: rfs, s =>
    match routeDist with
    | some rd =>
      match s.byRdRf.get? (rd, some rf) with
      | none => popVrfConfs routeDist vrfId rfs s
      | some c =>
        let r := popVrfConfs routeDist vrfId rfs
          ⟨s.byRdRf.erase (rd, some rf), s.byId.erase c.id⟩
        (r.1.map (c :: ·), r.2)
    | none =>
      match vrfId.bind s.byId.get? with
      | none => popVrfConfs routeDist vrfId rfs s
      | some c => (.error (.attributeError "rd_rd_id"), ⟨s.byRdRf, s.byId.erase c.id⟩)

/-- `remove_vrf_conf`. -/
def removeVrfConf (s : VrfsConf) (listeners : List Listener) (routeDist vrfId : Option Text)
    (vrfRf : VrfRf) : Outcome (List SupportedConf) :=
  if routeDist = none ∧ vrfId = none then
    ⟨.error (.other "To delete supply route_dist or id."), s, []⟩
  else
    match popVrfConfs routeDist vrfId vrfRf.iterated s with
    | (.error e, s) => ⟨.error e, s, []⟩
    | (.ok removed, s) =>
      let r := notifyRemoved listeners removed
      ⟨r.1.map fun _ => removed, s, r.2⟩

end VrfsConf

/-- A call, with the callbacks there are then. -/
inductive VrfsCall
  | add (listeners : List Listener) (c : SupportedConf)
  | remove (listeners : List Listener) (routeDist vrfId : Option Text) (vrfRf : VrfRf)

/-- The arguments of a removal describe a configuration. -/
def Describes (routeDist vrfId : Option Text) (vrfRf : VrfRf) (c : SupportedConf) : Prop :=
  match routeDist, vrfId with
  | some rd, _ => ∃ rf ∈ vrfRf.described, c.rdRfId = (rd, some rf)
  | none, some id => c.id = id
  | none, none => False

namespace VrfsConf

def step (s : VrfsConf) : VrfsCall → VrfsConf
  | .add listeners c => (s.addVrfConf listeners c).state
  | .remove listeners routeDist vrfId vrfRf =>
    (s.removeVrfConf listeners routeDist vrfId vrfRf).state

def Holds (s : VrfsConf) (c : SupportedConf) : Prop := ∃ k, s.byRdRf.get? k = some c

/-- The indexes hold the same configurations. -/
def Agree (s : VrfsConf) : Prop := ∀ c, s.Holds c ↔ ∃ id, s.byId.get? id = some c

/-- A call that raises changes nothing, and a removal that does not removes what it describes and
calls each callback once for each configuration. -/
def Right (s : VrfsConf) : VrfsCall → Prop
  | .add listeners c => ∀ e, (s.addVrfConf listeners c).result = .error e →
      (s.addVrfConf listeners c).state = s
  | .remove listeners routeDist vrfId vrfRf =>
    match (s.removeVrfConf listeners routeDist vrfId vrfRf).result with
    | .error _ => (s.removeVrfConf listeners routeDist vrfId vrfRf).state = s
    | .ok removed => removed.Nodup ∧
        (∀ c, c ∈ removed ↔ s.Holds c ∧ Describes routeDist vrfId vrfRf c) ∧
        (∀ c, (s.removeVrfConf listeners routeDist vrfId vrfRf).state.Holds c ↔
          s.Holds c ∧ ¬ Describes routeDist vrfId vrfRf c) ∧
        (s.removeVrfConf listeners routeDist vrfId vrfRf).notified =
          removed.flatMap fun c => List.replicate listeners.length (.removeVrfConf, c)

/-- No callback raises for a configuration that is added or described, no configuration has the id
of a removal, and none has the route distinguisher and the family of one that gives one name. -/
def Meets (s : VrfsConf) : VrfsCall → Prop
  | .add listeners c => s.byRdRf.get? c.rdRfId = none → s.byId.get? c.id = none →
      ∀ callback ∈ listeners, callback .addVrfConf c = none
  | .remove listeners (some rd) _ vrfRf =>
    (∀ rf, vrfRf = .name rf → s.byRdRf.get? (rd, some rf) = none) ∧
      ∀ c, s.Holds c → Describes (some rd) none vrfRf c →
        ∀ callback ∈ listeners, callback .removeVrfConf c = none
  | .remove _ none (some id) _ => s.byId.get? id = none
  | .remove _ none none _ => True

end VrfsConf

section Notify

variable {evt : VrfsEvt} {c : SupportedConf} {cs : List SupportedConf} {listeners : List Listener}

theorem notifyListeners_ok (h : ∀ callback ∈ listeners, callback evt c = none) :
    notifyListeners evt c listeners =
      (.ok (), List.replicate listeners.length (evt, c)) := by
  induction listeners with
  | nil => rfl
  | cons callback listeners ih =>
    rw [notifyListeners, h callback List.mem_cons_self,
      ih fun callback hmem => h callback (List.mem_cons_of_mem _ hmem)]
    rfl

theorem notifyListeners_error (h : ¬ ∀ callback ∈ listeners, callback evt c = none) :
    ∃ e, (notifyListeners evt c listeners).1 = .error e := by
  induction listeners with
  | nil => exact absurd (fun _ hmem => absurd hmem List.not_mem_nil) h
  | cons callback listeners ih =>
    rw [notifyListeners]
    split
    · exact ⟨_, rfl⟩
    · next hnone =>
      refine ih fun hall => h fun callback' hmem => ?_
      obtain rfl | hmem := List.mem_cons.mp hmem
      · exact hnone
      · exact hall callback' hmem

theorem notifyRemoved_ok
    (h : ∀ c ∈ cs, ∀ callback ∈ listeners, callback .removeVrfConf c = none) :
    notifyRemoved listeners cs =
      (.ok (), cs.flatMap fun c => List.replicate listeners.length (.removeVrfConf, c)) := by
  induction cs with
  | nil => rfl
  | cons c cs ih =>
    rw [notifyRemoved, notifyListeners_ok (h c List.mem_cons_self),
      ih fun c hmem => h c (List.mem_cons_of_mem _ hmem)]
    rfl

theorem notifyRemoved_error
    (h : ¬ ∀ c ∈ cs, ∀ callback ∈ listeners, callback .removeVrfConf c = none) :
    ∃ e, (notifyRemoved listeners cs).1 = .error e := by
  induction cs with
  | nil => exact absurd (fun _ hmem => absurd hmem List.not_mem_nil) h
  | cons c cs ih =>
    by_cases hc : ∀ callback ∈ listeners, callback .removeVrfConf c = none
    · rw [notifyRemoved, notifyListeners_ok hc]
      refine ih fun hall => h fun c' hmem => ?_
      obtain rfl | hmem := List.mem_cons.mp hmem
      · exact hc
      · exact hall c' hmem
    · obtain ⟨e, he⟩ := notifyListeners_error hc
      rw [notifyRemoved]
      generalize notifyListeners .removeVrfConf c listeners = r at he
      obtain ⟨res, notified⟩ := r
      obtain rfl : res = .error e := he
      exact ⟨e, rfl⟩

end Notify

namespace VrfRf

theorem iterated_ne_nil (vrfRf : VrfRf) : vrfRf.iterated ≠ [] := by
  cases vrfRf with
  | none => decide
  | name rf => cases rf <;> simp [iterated, supportedVrfRf]
  | names rfs => cases rfs <;> simp [iterated, supportedVrfRf]

/-- Only a name is gone through otherwise than it is meant. -/
theorem iterated_eq_described {vrfRf : VrfRf} (h : ∀ a rf, vrfRf ≠ .name (a :: rf)) :
    vrfRf.iterated = vrfRf.described := by
  cases vrfRf with
  | none => rfl
  | name rf =>
    cases rf with
    | nil => rfl
    | cons a rf => exact absurd rfl (h a rf)
  | names rfs => cases rfs <;> rfl

end VrfRf

theorem not_supported_nil : ¬ supportedVrfRf.contains [] := by decide

/-- No letter is a family. -/
theorem not_supported_letter (ch : Char) : ¬ supportedVrfRf.contains [ch] := by
  simp [supportedVrfRf]

namespace VrfsConf

/-- The keys are those of the configurations. -/
structure Keyed (s : VrfsConf) : Prop where
  rdRf : ∀ k c, s.byRdRf.get? k = some c → c.rdRfId = k
  id : ∀ i c, s.byId.get? i = some c → c.id = i

variable {s s' : VrfsConf} {c : SupportedConf} {rd id : Text} {rf : Text} {rfs : List Text}
  {vrfId : Option Text} {listeners : List Listener} {vrfRf : VrfRf}

theorem Keyed.holds_iff (h : s.Keyed) : s.Holds c ↔ s.byRdRf.get? c.rdRfId = some c := by
  refine ⟨fun ⟨k, hk⟩ => ?_, fun hc => ⟨_, hc⟩⟩
  rwa [h.rdRf k c hk]

theorem Keyed.exists_id_iff (h : s.Keyed) :
    (∃ i, s.byId.get? i = some c) ↔ s.byId.get? c.id = some c := by
  refine ⟨fun ⟨i, hi⟩ => ?_, fun hc => ⟨_, hc⟩⟩
  rwa [h.id i c hi]

theorem Keyed.agree_iff (h : s.Keyed) :
    s.Agree ↔ ∀ c, s.byRdRf.get? c.rdRfId = some c ↔ s.byId.get? c.id = some c := by
  simp only [Agree, h.holds_iff, h.exists_id_iff]

theorem keyed_init : init.Keyed := by
  constructor <;> rintro _ _ ⟨⟩

theorem Keyed.erase (h : s.Keyed) (k : Text × Option Text) (i : Text) :
    Keyed ⟨s.byRdRf.erase k, s.byId.erase i⟩ := by
  refine ⟨fun k' c hc => ?_, fun i' c hc => ?_⟩
  · rw [Dict.get?_erase] at hc
    split at hc
    · cases hc
    · exact h.rdRf k' c hc
  · rw [Dict.get?_erase] at hc
    split at hc
    · cases hc
    · exact h.id i' c hc

theorem Keyed.set (h : s.Keyed) (c : SupportedConf) :
    Keyed ⟨s.byRdRf.set c.rdRfId c, s.byId.set c.id c⟩ := by
  refine ⟨fun k c' hc => ?_, fun i c' hc => ?_⟩
  · rw [Dict.get?_set] at hc
    split at hc
    · next hk => exact Option.some.inj hc ▸ hk
    · exact h.rdRf k c' hc
  · rw [Dict.get?_set] at hc
    split at hc
    · next hi => exact Option.some.inj hc ▸ hi
    · exact h.id i c' hc

/-- What the loop over the families of a route distinguisher removes. -/
theorem popVrfConfs_rd (rd : Text) (vrfId : Option Text) (h : s.Keyed) (rfs : List Text) :
    ∃ popped s', popVrfConfs (some rd) vrfId rfs s = (.ok popped, s') ∧ s'.Keyed ∧ popped.Nodup ∧
      (∀ c, c ∈ popped ↔ ∃ rf ∈ rfs, s.byRdRf.get? (rd, some rf) = some c) ∧
      (∀ k c, s'.byRdRf.get? k = some c ↔
        s.byRdRf.get? k = some c ∧ ∀ rf ∈ rfs, k ≠ (rd, some rf)) ∧
      (∀ i c, s'.byId.get? i = some c ↔
        s.byId.get? i = some c ∧ ∀ c' ∈ popped, c'.id ≠ i) ∧ (popped = [] → s' = s) := by
  induction rfs generalizing s with
  | nil => exact ⟨[], s, rfl, h, List.nodup_nil, by simp, by simp, by simp, fun _ => rfl⟩
  | cons rf rfs ih =>
    rw [popVrfConfs]
    cases hget : s.byRdRf.get? (rd, some rf) with
    | none =>
      obtain ⟨popped, s', hpop, hkeyed, hnodup, hmem, hrd, hid, hnil⟩ := ih h
      refine ⟨popped, s', hpop, hkeyed, hnodup, fun c => ?_, fun k c => ?_, hid, hnil⟩
      · simp [hmem, hget]
      · rw [hrd, List.forall_mem_cons]
        refine and_congr_right fun hk => ⟨fun hne => ⟨?_, hne⟩, And.right⟩
        rintro rfl
        rw [hget] at hk
        cases hk
    | some c =>
      obtain ⟨popped, s', hpop, hkeyed, hnodup, hmem, hrd, hid, -⟩ :=
        ih (h.erase (rd, some rf) c.id)
      have hc : c.rdRfId = (rd, some rf) := h.rdRf _ _ hget
      have hnot : c ∉ popped := by
        intro hcp
        obtain ⟨rf', -, hrf'⟩ := (hmem c).mp hcp
        rw [Dict.get?_erase] at hrf'
        split at hrf'
        · cases hrf'
        · next hne => exact hne (hc.symm.trans (h.rdRf _ _ hrf'))
      refine ⟨c :: popped, s', by simp only [hpop]; rfl, hkeyed, List.nodup_cons.mpr ⟨hnot, hnodup⟩,
        fun c' => ?_, fun k c' => ?_, fun i c' => ?_, fun h => absurd h (List.cons_ne_nil c popped)⟩
      · rw [List.mem_cons, hmem]
        constructor
        · rintro (rfl | ⟨rf', hrf, hget'⟩)
          · exact ⟨rf, List.mem_cons_self, hget⟩
          · rw [Dict.get?_erase] at hget'
            split at hget'
            · cases hget'
            · exact ⟨rf', List.mem_cons_of_mem _ hrf, hget'⟩
        · rintro ⟨rf', hrf, hget'⟩
          by_cases heq : rf' = rf
          · subst heq
            rw [hget] at hget'
            exact Or.inl (Option.some.inj hget').symm
          · refine Or.inr ⟨rf', List.mem_of_ne_of_mem heq hrf, ?_⟩
            rw [Dict.get?_erase, if_neg (by simpa using Ne.symm heq), hget']
      · rw [hrd, Dict.get?_erase, List.forall_mem_cons]
        by_cases hk : (rd, some rf) = k
        · simp [hk]
        · simp [hk, Ne.symm hk]
      · rw [hid, Dict.get?_erase, List.forall_mem_cons]
        by_cases hi : c.id = i
        · simp [hi]
        · simp [hi]

theorem popVrfConfs_id_none (h : s.byId.get? id = none) (rfs : List Text) :
    popVrfConfs none (some id) rfs s = (.ok [], s) := by
  induction rfs with
  | nil => rfl
  | cons rf rfs ih =>
    simp only [popVrfConfs, Option.bind_some, h]
    exact ih

theorem popVrfConfs_id_some (h : s.byId.get? id = some c) (hne : rfs ≠ []) :
    popVrfConfs none (some id) rfs s =
      (.error (.attributeError "rd_rd_id"), ⟨s.byRdRf, s.byId.erase c.id⟩) := by
  obtain ⟨rf, rfs, rfl⟩ := List.exists_cons_of_ne_nil hne
  simp only [popVrfConfs, Option.bind_some, h]

theorem addVrfConf_refused (listeners : List Listener)
    (h : ¬(s.byRdRf.get? c.rdRfId = none ∧ s.byId.get? c.id = none)) :
    (s.addVrfConf listeners c).state = s := by
  rw [addVrfConf]
  split
  · rfl
  · next hrd =>
    split
    · rfl
    · next hid =>
      rw [Bool.not_eq_true, Option.isSome_eq_false_iff, Option.isNone_iff_eq_none] at hrd hid
      exact absurd ⟨hrd, hid⟩ h

theorem addVrfConf_fresh (hrd : s.byRdRf.get? c.rdRfId = none) (hid : s.byId.get? c.id = none) :
    s.addVrfConf listeners c = ⟨(notifyListeners .addVrfConf c listeners).1,
      ⟨s.byRdRf.set c.rdRfId c, s.byId.set c.id c⟩,
      (notifyListeners .addVrfConf c listeners).2⟩ := by
  simp only [addVrfConf, hrd, hid, Option.isSome_none, Bool.false_eq_true, if_false]

/-- What a removal by route distinguisher does, by what the loop removed. -/
theorem removeVrfConf_rd {popped : List SupportedConf}
    (hpop : popVrfConfs (some rd) vrfId vrfRf.iterated s = (.ok popped, s')) :
    s.removeVrfConf listeners (some rd) vrfId vrfRf =
      ⟨(notifyRemoved listeners popped).1.map fun _ => popped, s',
        (notifyRemoved listeners popped).2⟩ := by
  rw [removeVrfConf, if_neg (by simp), hpop]

theorem removeVrfConf_id (id : Text) : s.removeVrfConf listeners none (some id) vrfRf =
    match popVrfConfs none (some id) vrfRf.iterated s with
    | (.error e, s) => ⟨.error e, s, []⟩
    | (.ok removed, s) => ⟨(notifyRemoved listeners removed).1.map fun _ => removed, s,
        (notifyRemoved listeners removed).2⟩ := by
  rw [removeVrfConf, if_neg (by simp)]

theorem erase_byId_ne (h : s.byId.get? id = some c) (d : Dict (Text × Option Text) SupportedConf) :
    (⟨d, s.byId.erase id⟩ : VrfsConf) ≠ s := by
  intro heq
  have hget := congrArg (fun s : VrfsConf => s.byId.get? id) heq
  simp only [Dict.get?_erase, if_pos, h] at hget
  cases hget

theorem Keyed.step (h : s.Keyed) (call : VrfsCall) : (s.step call).Keyed := by
  cases call with
  | add listeners c =>
    rw [VrfsConf.step]
    by_cases hfresh : s.byRdRf.get? c.rdRfId = none ∧ s.byId.get? c.id = none
    · rw [addVrfConf_fresh hfresh.1 hfresh.2]
      exact h.set c
    · rwa [addVrfConf_refused listeners hfresh]
  | remove listeners routeDist vrfId vrfRf =>
    rw [VrfsConf.step]
    cases routeDist with
    | some rd =>
      obtain ⟨popped, s', hpop, hkeyed, -⟩ :=
        popVrfConfs_rd rd vrfId h vrfRf.iterated
      rw [removeVrfConf_rd hpop]
      exact hkeyed
    | none =>
      cases vrfId with
      | none => exact h
      | some id =>
        rw [removeVrfConf_id]
        cases hget : s.byId.get? id with
        | none =>
          rw [popVrfConfs_id_none hget]
          exact h
        | some c =>
          rw [popVrfConfs_id_some hget vrfRf.iterated_ne_nil]
          refine ⟨h.rdRf, fun i c' hc => h.id i c' ?_⟩
          rw [Dict.get?_erase] at hc
          split at hc
          · cases hc
          · exact hc

/-- An addition keeps its part exactly if no callback raises. -/
theorem right_add_iff (h : s.Keyed) (hagree : s.Agree) :
    s.Right (.add listeners c) ∧ (s.step (.add listeners c)).Agree ↔
      s.Meets (.add listeners c) := by
  by_cases hfresh : s.byRdRf.get? c.rdRfId = none ∧ s.byId.get? c.id = none
  · obtain ⟨hrd, hid⟩ := hfresh
    have hagree' : (s.step (.add listeners c)).Agree := by
      rw [VrfsConf.step, addVrfConf_fresh hrd hid, (h.set c).agree_iff]
      intro c'
      have hold := h.agree_iff.mp hagree c'
      rw [Dict.get?_set, Dict.get?_set]
      by_cases hc : c = c'
      · subst hc
        rw [if_pos rfl, if_pos rfl]
      · have hne : some c ≠ some c' := fun he => hc (Option.some.inj he)
        split
        · next hk =>
          rw [← hk, hrd] at hold
          split
          · exact iff_of_false hne hne
          · exact iff_of_false hne fun hi => Option.some_ne_none c' (hold.mpr hi).symm
        · split
          · next hi =>
            rw [← hi, hid] at hold
            exact iff_of_false (fun hk => Option.some_ne_none c' (hold.mp hk).symm) hne
          · exact hold
    simp only [Right, Meets, addVrfConf_fresh hrd hid, hrd, hid, forall_const]
    refine ⟨fun hright => ?_, fun hmeets => ⟨fun e he => ?_, hagree'⟩⟩
    · by_contra hraises
      obtain ⟨e, he⟩ := notifyListeners_error hraises
      have hstate := congrArg (fun s : VrfsConf => s.byId.get? c.id) (hright.1 e he)
      simp only [Dict.get?_set_self, hid] at hstate
      cases hstate
    · rw [notifyListeners_ok hmeets] at he
      cases he
  · have hstate := addVrfConf_refused listeners hfresh
    refine iff_of_true ⟨fun _ _ => hstate, ?_⟩ fun hrd hid => absurd ⟨hrd, hid⟩ hfresh
    rwa [VrfsConf.step, hstate]

/-- A name describes the one configuration under it. -/
theorem describes_name {a : Char} {rf : Text} :
    Describes (some rd) vrfId (.name (a :: rf)) c ↔ c.rdRfId = (rd, some (a :: rf)) := by
  simp [Describes, VrfRf.described]

/-- The families of what is held are supported. -/
theorem Keyed.get?_rd_none (h : s.Keyed) (hrf : ¬ supportedVrfRf.contains rf) :
    s.byRdRf.get? (rd, some rf) = none := by
  cases hget : s.byRdRf.get? (rd, some rf) with
  | none => rfl
  | some c =>
    have hfamily : c.conf.routeFamily = some rf := (Prod.mk.inj (h.rdRf _ _ hget)).2
    exact absurd (c.supported rf hfamily) hrf

/-- A removal by route distinguisher keeps its part exactly if it does not give the name of what is
held, and no callback raises. -/
theorem right_remove_rd_iff (h : s.Keyed) (hagree : s.Agree) :
    s.Right (.remove listeners (some rd) vrfId vrfRf) ∧
        (s.step (.remove listeners (some rd) vrfId vrfRf)).Agree ↔
      s.Meets (.remove listeners (some rd) vrfId vrfRf) := by
  obtain ⟨popped, s', hpop, hkeyed, hnodup, hmem, hrd, hid, hnil⟩ :=
    popVrfConfs_rd rd vrfId h vrfRf.iterated
  simp only [Right, VrfsConf.step, Meets, removeVrfConf_rd hpop]
  by_cases hname : ∃ a rf, vrfRf = .name (a :: rf)
  · obtain ⟨a, rf, rfl⟩ := hname
    -- No letter is the family of a configuration, so that nothing is removed.
    obtain rfl : popped = [] := by
      refine List.eq_nil_iff_forall_not_mem.mpr fun c hc => ?_
      obtain ⟨letter, hletter, hget⟩ := (hmem c).mp hc
      obtain ⟨ch, -, rfl⟩ := List.mem_map.mp hletter
      rw [h.get?_rd_none (not_supported_letter ch)] at hget
      cases hget
    obtain rfl : s = s' := (hnil rfl).symm
    simp only [notifyRemoved, Except.map, describes_name]
    constructor
    · rintro ⟨⟨-, hmem, -⟩, -⟩
      have hnone : s.byRdRf.get? (rd, some (a :: rf)) = none := by
        cases hget : s.byRdRf.get? (rd, some (a :: rf)) with
        | none => rfl
        | some c =>
          exact absurd ((hmem c).mpr ⟨⟨_, hget⟩, h.rdRf _ _ hget⟩) List.not_mem_nil
      refine ⟨fun rf' hrf => ?_, fun c hc hk => ?_⟩
      · cases hrf
        exact hnone
      · rw [h.holds_iff, hk, hnone] at hc
        cases hc
    · rintro ⟨hnone, -⟩
      have hnot : ∀ c, s.Holds c → c.rdRfId ≠ (rd, some (a :: rf)) := by
        intro c hc hk
        rw [h.holds_iff, hk, hnone _ rfl] at hc
        cases hc
      exact ⟨⟨List.nodup_nil, fun c => iff_of_false List.not_mem_nil fun hc => hnot c hc.1 hc.2,
        fun c => ⟨fun hc => ⟨hc, hnot c hc⟩, And.left⟩, rfl⟩, hagree⟩
  · have hiterated : vrfRf.iterated = vrfRf.described :=
      VrfRf.iterated_eq_described fun a rf he => hname ⟨a, rf, he⟩
    rw [hiterated] at hmem hrd
    have hdescribed : ∀ c, c ∈ popped ↔ s.Holds c ∧ Describes (some rd) vrfId vrfRf c := by
      intro c
      rw [hmem]
      constructor
      · rintro ⟨rf, hrf, hget⟩
        exact ⟨⟨_, hget⟩, rf, hrf, h.rdRf _ _ hget⟩
      · rintro ⟨hc, rf, hrf, hk⟩
        exact ⟨rf, hrf, hk ▸ h.holds_iff.mp hc⟩
    have hholds : ∀ c, s'.Holds c ↔ s.Holds c ∧ c ∉ popped := by
      intro c
      rw [hkeyed.holds_iff, hrd, ← h.holds_iff, hdescribed]
      refine and_congr_right fun hc => ⟨fun hne hd => ?_, fun hnot rf hrf hk => ?_⟩
      · obtain ⟨-, rf, hrf, hk⟩ := hd
        exact hne rf hrf hk
      · exact hnot ⟨hc, rf, hrf, hk⟩
    have hagree' : s'.Agree := by
      intro c
      rw [hholds, hkeyed.exists_id_iff, hid, ← h.exists_id_iff, ← hagree c]
      refine and_congr_right fun hc => ⟨fun hnot c' hc' hi => ?_, fun hne hmem => hne c hmem rfl⟩
      have hheld' := (h.agree_iff.mp hagree c').mp (h.holds_iff.mp ((hdescribed c').mp hc').1)
      have hheld := (h.agree_iff.mp hagree c).mp (h.holds_iff.mp hc)
      rw [hi, hheld] at hheld'
      exact hnot (Option.some.inj hheld' ▸ hc')
    have hempty : ∀ rf, vrfRf = .name rf → s.byRdRf.get? (rd, some rf) = none := by
      rintro rf rfl
      cases rf with
      | nil => exact h.get?_rd_none not_supported_nil
      | cons a rf => exact absurd ⟨a, rf, rfl⟩ hname
    by_cases hquiet : ∀ c ∈ popped, ∀ callback ∈ listeners, callback .removeVrfConf c = none
    · rw [notifyRemoved_ok hquiet]
      refine iff_of_true ⟨⟨hnodup, hdescribed, fun c => ?_, rfl⟩, hagree'⟩
        ⟨hempty, fun c hc hd => hquiet c ((hdescribed c).mpr ⟨hc, hd⟩)⟩
      rw [hholds, hdescribed]
      exact and_congr_right fun hc => not_congr (and_iff_right hc)
    · obtain ⟨e, he⟩ := notifyRemoved_error hquiet
      rw [he]
      refine iff_of_false (fun hright => ?_) fun hmeets => hquiet fun c hc => ?_
      · have hstate : s' = s := hright.1
        obtain ⟨c, hc⟩ : ∃ c, c ∈ popped := by
          by_contra hnone
          exact hquiet fun c hc => absurd ⟨c, hc⟩ hnone
        exact ((hholds c).mp (hstate ▸ ((hdescribed c).mp hc).1)).2 hc
      · exact hmeets.2 c ((hdescribed c).mp hc).1 ((hdescribed c).mp hc).2

/-- A removal by id keeps its part exactly if nothing has the id. -/
theorem right_remove_id_iff (h : s.Keyed) (hagree : s.Agree) :
    s.Right (.remove listeners none (some id) vrfRf) ∧
        (s.step (.remove listeners none (some id) vrfRf)).Agree ↔
      s.Meets (.remove listeners none (some id) vrfRf) := by
  simp only [Right, VrfsConf.step, Meets, removeVrfConf_id]
  cases hget : s.byId.get? id with
  | none =>
    have hnone : ∀ c, s.Holds c → ¬ Describes none (some id) vrfRf c := by
      rintro c hc rfl
      rw [hagree c, h.exists_id_iff, hget] at hc
      cases hc
    simp only [popVrfConfs_id_none hget]
    refine iff_of_true ⟨⟨List.nodup_nil, fun c => ?_, fun c => ?_, rfl⟩, hagree⟩ trivial
    · exact iff_of_false List.not_mem_nil fun h => hnone c h.1 h.2
    · exact ⟨fun hc => ⟨hc, hnone c hc⟩, And.left⟩
  | some c =>
    obtain rfl := h.id _ _ hget
    simp only [popVrfConfs_id_some hget vrfRf.iterated_ne_nil]
    exact iff_of_false (fun hright => erase_byId_ne hget _ hright.1) (Option.some_ne_none c)

theorem right_iff (h : s.Keyed) (hagree : s.Agree) (call : VrfsCall) :
    s.Right call ∧ (s.step call).Agree ↔ s.Meets call := by
  cases call with
  | add listeners c => exact right_add_iff h hagree
  | remove listeners routeDist vrfId vrfRf =>
    cases routeDist with
    | some rd => exact right_remove_rd_iff h hagree
    | none =>
      cases vrfId with
      | some id => exact right_remove_id_iff h hagree
      | none => exact iff_of_true ⟨rfl, hagree⟩ trivial

theorem agree_init : init.Agree := by
  intro c
  constructor <;> rintro ⟨_, ⟨⟩⟩

/-- The indexes agree, removals remove what they describe, and what raises changes nothing, exactly
in the runs of which every call meets the condition. -/
theorem right_run_iff (calls : List VrfsCall) :
    EveryStep step Right init calls ∧ Throughout step Agree init calls ↔
      EveryStep step Meets init calls :=
  everyStep_and_throughout_iff (I := Keyed) (fun _ call h => h.step call)
    (fun _ call h hagree => right_iff h hagree call) keyed_init agree_init calls

theorem supported_oneRtConf :
    ∀ rf ∈ VrfConf.oneRtConf.routeFamily, supportedVrfRf.contains rf := by
  rintro _ ⟨⟩
  decide

/-- The configuration of one route target. -/
def oneConf : SupportedConf := ⟨VrfConf.oneRtConf, supported_oneRtConf⟩

/-- A configuration is added, and removed by its id. -/
theorem not_right_by_id : ¬(EveryStep step Right init
      [.add [] oneConf, .remove [] none (some "vrf".toList) .none] ∧
    Throughout step Agree init [.add [] oneConf, .remove [] none (some "vrf".toList) .none]) := by
  rintro ⟨⟨-, hright, -⟩, -⟩
  have hstate := congrArg (fun s : VrfsConf => (s.byId.get? "vrf".toList).isSome) hright
  exact absurd hstate (by decide)

end VrfsConf

end Ryu.Rtconf
