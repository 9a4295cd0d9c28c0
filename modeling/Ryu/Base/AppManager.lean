import Mathlib.Data.Finset.Union
import Ryu.Controller.Datapath

/-! # Applications and their events

The part of `app_manager` and `handler` that takes events from one application to another.
A handler declares the states it is for, and the applications that generate the event keep
for each observer one set of states, in which nothing stands for all states.
-/

namespace Ryu.Base

/-- An event class, with the dotted path of its module. -/
structure EventClass where
  module : List String
  name : String
  deriving DecidableEq

/-- The name `_lookup_service_brick_by_mod_name` looks up. -/
def brickName (module : List String) : String := module.getLastD ""

/-- `_Caller`. The source is the module of the event, or `None` under `set_ev_handler`. -/
structure Caller (σ : Type) where
  dispatchers : List σ
  evSource : Option (List String)
  deriving DecidableEq

/-- A bound method. Those that were decorated have `callers`. -/
structure Handler (σ : Type) where
  name : String
  callers : Option (Dict EventClass (Caller σ))
  deriving DecidableEq

/-- What is fixed of an application: its methods, in the order of `getmembers`, and `_EVENTS`. -/
structure App (σ : Type) where
  name : String
  members : List (Handler σ)
  events : List EventClass

/-- A `RyuApp` instance. -/
structure Brick (σ : Type) where
  app : App σ
  eventHandlers : Dict EventClass (List (Handler σ))
  observers : Dict EventClass (Dict String (Finset σ))

/-- `SERVICE_BRICKS`. -/
abbrev Bricks (σ : Type) := Dict String (Brick σ)

variable {σ : Type} [DecidableEq σ]

/-- `set_ev_cls` for one event class; the dispatchers are listified. -/
def setEvCls (ev : EventClass) (dispatchers : List σ) (h : Handler σ) : Handler σ :=
  { h with callers := some ((h.callers.getD Dict.empty).set ev ⟨dispatchers, some ev.module⟩) }

/-- `set_ev_handler` for one event class. -/
def setEvHandler (ev : EventClass) (dispatchers : List σ) (h : Handler σ) : Handler σ :=
  { h with callers := some ((h.callers.getD Dict.empty).set ev ⟨dispatchers, none⟩) }

/-- `RyuApp.register_handler`. -/
def Brick.registerHandler (b : Brick σ) (ev : EventClass) (h : Handler σ) : Brick σ :=
  { b with eventHandlers := b.eventHandlers.set ev ((b.eventHandlers.get? ev).getD [] ++ [h]) }

/-- `RyuApp.register_observer`: the states are added to those the observer has. -/
def Brick.registerObserver (b : Brick σ) (ev : EventClass) (name : String) (states : List σ) :
    Brick σ :=
  let names := (b.observers.get? ev).getD Dict.empty
  let names := names.set name ((names.get? name).getD ∅ ∪ states.toFinset)
  { b with observers := b.observers.set ev names }

/-- `register_instance`. -/
def registerInstance (b : Brick σ) : Brick σ :=
  b.app.members.foldl
    (fun b m => ((m.callers.map Dict.keys).getD []).foldl (fun b ev => b.registerHandler ev m) b) b

/-- `register_app`. -/
def registerApp (bs : Bricks σ) (app : App σ) : Except PyError (Bricks σ) :=
  if (bs.get? app.name).isSome then .error .assertionError
  else .ok (bs.set app.name (registerInstance ⟨app, Dict.empty, Dict.empty⟩))

/-- A call of `register_observer` on the application of a name. -/
structure Request (σ : Type) where
  brick : String
  ev : EventClass
  observer : String
  states : List σ

/-- The call, if there is such an application. -/
def request (bs : Bricks σ) (r : Request σ) : Bricks σ :=
  match bs.get? r.brick with
  | none => bs
  | some b => bs.set r.brick (b.registerObserver r.ev r.observer r.states)

/-- The calls `_update_bricks` makes for a declaration: on the application that its source
names, and on those that have the event in `_EVENTS`. -/
def callerRequests (apps : List (App σ)) (observer : String) (ev : EventClass) (c : Caller σ) :
    List (Request σ) :=
  match c.evSource with
  | none => []
  | some source =>
    ⟨brickName source, ev, observer, c.dispatchers⟩ ::
      (apps.filter (ev ∈ ·.events)).map (⟨·.name, ev, observer, c.dispatchers⟩)

/-- The calls of `AppManager._update_bricks`. It reads only what is fixed of an application. -/
def brickRequests (apps : List (App σ)) : List (Request σ) :=
  apps.flatMap fun i => i.members.flatMap fun m =>
    ((m.callers.map Dict.entries).getD []).flatMap fun (ev, c) => callerRequests apps i.name ev c

/-- What an application manager and the applications do. -/
inductive Op (σ : Type)
  | load (app : App σ)
  | updateBricks
  | observeEvent (name : String) (ev : EventClass) (states : List σ)
  | registerHandler (name : String) (ev : EventClass) (h : Handler σ)

/-- The calls of `register_observer` an operation makes. -/
def Op.requests (apps : List (App σ)) : Op σ → List (Request σ)
  | .updateBricks => brickRequests apps
  | .observeEvent name ev states => [⟨brickName ev.module, ev, name, states⟩]
  | _ => []

def Op.step (bs : Bricks σ) : Op σ → Except PyError (Bricks σ)
  | .load app => registerApp bs app
  | .updateBricks => .ok ((brickRequests (bs.values.map Brick.app)).foldl request bs)
  | .observeEvent name ev states => .ok (request bs ⟨brickName ev.module, ev, name, states⟩)
  | .registerHandler name ev h =>
    .ok (match bs.get? name with
      | none => bs
      | some b => bs.set name (b.registerHandler ev h))

def run (bs : Bricks σ) : List (Op σ) → Except PyError (Bricks σ)
  | [] => .ok bs
  | op :: ops => do
    let bs ← op.step bs
    run bs ops

/-- Does a handler run for an event sent in a state? The `test` of `get_handlers`. -/
def wants (h : Handler σ) (ev : EventClass) (state : σ) : Bool :=
  match h.callers.bind (·.get? ev) with
  | none => true
  | some c => c.dispatchers.isEmpty || state ∈ c.dispatchers

/-- The handlers an application has for an event class. -/
def handlersOf (bs : Bricks σ) (name : String) (ev : EventClass) : List (Handler σ) :=
  ((bs.get? name).bind (·.eventHandlers.get? ev)).getD []

/-- `RyuApp.get_handlers`. -/
def getHandlers (bs : Bricks σ) (name : String) (ev : EventClass) : Option σ → List (Handler σ)
  | none => handlersOf bs name ev
  | some state => (handlersOf bs name ev).filter (wants · ev state)

/-- `RyuApp.get_observers`. -/
def getObservers (b : Brick σ) (ev : EventClass) (state : Option σ) : List String :=
  (((b.observers.get? ev).getD Dict.empty).entries.filter fun (_, v) =>
    match state with
    | none => true
    | some s => v = ∅ || s ∈ v).map Prod.fst

/-- `send_event_to_observers` by an application, where `send_event` finds the receiver. -/
def receives (bs : Bricks σ) (sender : String) (ev : EventClass) (state : Option σ)
    (name : String) : Prop :=
  (∃ b, bs.get? sender = some b ∧ name ∈ getObservers b ev state) ∧ (bs.get? name).isSome

/-! ## What was asked for -/

/-- The requests that found their application. -/
def made (apps : List (App σ)) : List (Op σ) → List (Request σ)
  | [] => []
  | .load app :: ops => made (apps ++ [app]) ops
  | op :: ops => (op.requests apps).filter (·.brick ∈ apps.map App.name) ++ made apps ops

def Handler.declares (ev : EventClass) (h : Handler σ) : Bool :=
  ev ∈ (h.callers.map Dict.keys).getD []

/-- The handlers an application has: those it declares, and those registered on it. -/
def handlersIn (name : String) (ev : EventClass) (apps : List (App σ)) :
    List (Op σ) → List (Handler σ)
  | [] => []
  | .load app :: ops =>
    (if app.name = name then app.members.filter (·.declares ev) else []) ++
      handlersIn name ev (apps ++ [app]) ops
  | .registerHandler name' ev' h :: ops =>
    (if name' = name ∧ ev' = ev ∧ name ∈ apps.map App.name then [h] else []) ++
      handlersIn name ev apps ops
  | _ :: ops => handlersIn name ev apps ops

/-- The states with which an application asked another one for an event. -/
def asked (rs : List (Request σ)) (sender : String) (ev : EventClass) (name : String) :
    List (List σ) :=
  (rs.filter fun r => r.brick = sender ∧ r.ev = ev ∧ r.observer = name).map Request.states

/-- The set kept for an observer that asked with lists of states. -/
def unionOf (l : List (List σ)) : Option (Finset σ) :=
  l.foldl (fun o states => some (o.getD ∅ ∪ states.toFinset)) none

/-- The set an application keeps for an observer of an event. -/
def observed (bs : Bricks σ) (sender : String) (ev : EventClass) (name : String) :
    Option (Finset σ) :=
  (bs.get? sender).bind fun b => (b.observers.get? ev).bind (·.get? name)

variable {bs bs' : Bricks σ} {sender name : String} {ev : EventClass} {state : σ}

theorem unionOf_concat (l : List (List σ)) (states : List σ) :
    unionOf (l ++ [states]) = some ((unionOf l).getD ∅ ∪ states.toFinset) := by
  rw [unionOf, List.foldl_append]
  rfl

theorem unionOf_eq_none {l : List (List σ)} (h : unionOf l = none) : l = [] := by
  induction l using List.reverseRecOn with
  | nil => rfl
  | append_singleton l states =>
    rw [unionOf_concat] at h
    cases h

theorem unionOf_eq_some {l : List (List σ)} {o : Finset σ} (h : unionOf l = some o) :
    l ≠ [] ∧ ∀ s, s ∈ o ↔ ∃ states ∈ l, s ∈ states := by
  induction l using List.reverseRecOn generalizing o with
  | nil => cases h
  | append_singleton l states ih =>
    rw [unionOf_concat, Option.some.injEq] at h
    subst h
    refine ⟨by simp, fun s => ?_⟩
    rcases hl : unionOf l with _ | o
    · simp [unionOf_eq_none hl]
    · simp [(ih hl).2 s, or_and_right, exists_or]

omit [DecidableEq σ] in
theorem asked_append (rs rs' : List (Request σ)) :
    asked (rs ++ rs') sender ev name = asked rs sender ev name ++ asked rs' sender ev name := by
  simp [asked]

/-! ## One call -/

theorem observed_request (bs : Bricks σ) (r : Request σ) :
    observed (request bs r) sender ev name =
      if r.brick = sender ∧ r.ev = ev ∧ r.observer = name ∧ (bs.get? sender).isSome then
        some ((observed bs sender ev name).getD ∅ ∪ r.states.toFinset)
      else observed bs sender ev name := by
  unfold request
  rcases hb : bs.get? r.brick with _ | b
  · rw [if_neg]
    rintro ⟨rfl, -, -, h⟩
    rw [hb] at h
    cases h
  · by_cases hn : r.brick = sender
    · subst hn
      by_cases he : r.ev = ev
      · subst he
        have hx (o : Option (Dict String (Finset σ))) :
            (o.getD Dict.empty).get? name = o.bind (·.get? name) := by
          cases o <;> rfl
        by_cases ho : r.observer = name
        · subst ho
          simp [observed, Brick.registerObserver, hb, hx]
        · simp [observed, Brick.registerObserver, Dict.get?_set, hb, hx, ho]
      · simp [observed, Brick.registerObserver, Dict.get?_set, hb, he]
    · simp [observed, Dict.get?_set, hn]

theorem handlersOf_request (bs : Bricks σ) (r : Request σ) :
    handlersOf (request bs r) name ev = handlersOf bs name ev := by
  unfold request
  rcases hb : bs.get? r.brick with _ | b
  · rfl
  · by_cases hn : r.brick = name
    · subst hn
      simp [handlersOf, hb, Brick.registerObserver]
    · simp [handlersOf, Dict.get?_set, hn]

/-- The applications that are loaded, under their names. -/
def apps (bs : Bricks σ) : List (String × App σ) := bs.entries.map fun e => (e.1, e.2.app)

theorem apps_request (bs : Bricks σ) (r : Request σ) : apps (request bs r) = apps bs := by
  unfold request
  rcases hb : bs.get? r.brick with _ | b
  · rfl
  · exact Dict.map_entries_set Brick.app hb rfl

/-! ## A run -/

/-- A state, beside the applications loaded, the requests made and the handlers that came. -/
structure Tracks (bs : Bricks σ) (l : List (App σ)) (rs : List (Request σ))
    (hs : String → EventClass → List (Handler σ)) : Prop where
  apps : apps bs = l.map fun a => (a.name, a)
  observed : ∀ s ev n, observed bs s ev n = unionOf (asked rs s ev n)
  handlers : ∀ n ev, handlersOf bs n ev = hs n ev

variable {l : List (App σ)} {rs : List (Request σ)} {hs : String → EventClass → List (Handler σ)}

theorem Tracks.isSome_iff (h : Tracks bs l rs hs) (n : String) :
    (bs.get? n).isSome ↔ n ∈ l.map App.name := by
  have hk : bs.keys = l.map App.name := by
    have ha := congrArg (List.map Prod.fst) h.apps
    simpa [Base.apps, Dict.keys, Function.comp_def] using ha
  rw [← Dict.mem_keys_iff, hk]

theorem Tracks.values (h : Tracks bs l rs hs) : bs.values.map Brick.app = l := by
  have ha := congrArg (List.map Prod.snd) h.apps
  simpa [Base.apps, Dict.values, Function.comp_def] using ha

theorem Tracks.request (h : Tracks bs l rs hs) (r : Request σ) :
    Tracks (request bs r) l (rs ++ [r].filter (·.brick ∈ l.map App.name)) hs where
  apps := (apps_request bs r).trans h.apps
  handlers n ev := (handlersOf_request bs r).trans (h.handlers n ev)
  observed sender ev name := by
    rw [observed_request, asked_append, h.observed]
    simp only [h.isSome_iff]
    by_cases hr : r.brick = sender ∧ r.ev = ev ∧ r.observer = name
    · obtain ⟨rfl, rfl, rfl⟩ := hr
      by_cases hl : r.brick ∈ l.map App.name
      · rw [List.filter_cons_of_pos (by simpa using hl), if_pos ⟨rfl, rfl, rfl, hl⟩]
        simp [asked, unionOf_concat]
      · rw [List.filter_cons_of_neg (by simpa using hl), if_neg fun h => hl h.2.2.2]
        simp [asked]
    · have ha : asked ([r].filter (·.brick ∈ l.map App.name)) sender ev name = [] := by
        simp only [asked, List.map_eq_nil_iff, List.filter_eq_nil_iff]
        intro r' hr'
        rw [List.mem_singleton.mp (List.mem_filter.mp hr').1]
        simpa using hr
      rw [ha, List.append_nil, if_neg fun h => hr ⟨h.1, h.2.1, h.2.2.1⟩]

theorem Tracks.foldl (h : Tracks bs l rs hs) (rs' : List (Request σ)) :
    Tracks (rs'.foldl Base.request bs) l (rs ++ rs'.filter (·.brick ∈ l.map App.name)) hs := by
  induction rs' generalizing bs rs with
  | nil => simpa using h
  | cons r rs' ih =>
    have hr := ih (h.request r)
    rw [List.append_assoc, ← List.filter_append] at hr
    exact hr

omit [DecidableEq σ] in
theorem registerHandler_eventHandlers (b : Brick σ) (ev' : EventClass) (h : Handler σ)
    (ev : EventClass) :
    ((b.registerHandler ev' h).eventHandlers.get? ev).getD [] =
      (b.eventHandlers.get? ev).getD [] ++ if ev' = ev then [h] else [] := by
  by_cases he : ev' = ev
  · subst he
    simp [Brick.registerHandler]
  · simp [Brick.registerHandler, Dict.get?_set, he]

omit [DecidableEq σ] in
/-- One method is registered for the events it declares. -/
theorem foldl_registerHandler_spec (m : Handler σ) {evs : List EventClass} (hn : evs.Nodup)
    (b : Brick σ) :
    (evs.foldl (fun b ev => b.registerHandler ev m) b).app = b.app ∧
    (evs.foldl (fun b ev => b.registerHandler ev m) b).observers = b.observers ∧
    ∀ ev, ((evs.foldl (fun b ev => b.registerHandler ev m) b).eventHandlers.get? ev).getD [] =
      (b.eventHandlers.get? ev).getD [] ++ if ev ∈ evs then [m] else [] := by
  induction evs generalizing b with
  | nil => exact ⟨rfl, rfl, fun ev => by simp⟩
  | cons e evs ih =>
    obtain ⟨he, hn⟩ := List.nodup_cons.mp hn
    obtain ⟨h1, h2, h3⟩ := ih hn (b.registerHandler e m)
    refine ⟨h1, h2, fun ev => ?_⟩
    rw [List.foldl_cons, h3, registerHandler_eventHandlers]
    by_cases hev : e = ev
    · subst hev
      simp [he]
    · simp [hev, Ne.symm hev]

/-- The body of the loop of `register_instance`. -/
def registerMember (b : Brick σ) (m : Handler σ) : Brick σ :=
  ((m.callers.map Dict.keys).getD []).foldl (fun b ev => b.registerHandler ev m) b

omit [DecidableEq σ] in
theorem registerMember_spec (b : Brick σ) (m : Handler σ) :
    (registerMember b m).app = b.app ∧ (registerMember b m).observers = b.observers ∧
      ∀ ev, ((registerMember b m).eventHandlers.get? ev).getD [] =
        (b.eventHandlers.get? ev).getD [] ++ if m.declares ev then [m] else [] := by
  have hn : ((m.callers.map Dict.keys).getD []).Nodup := by
    cases m.callers with
    | none => exact List.nodup_nil
    | some cs => exact cs.nodup_keys
  simpa [registerMember, Handler.declares] using foldl_registerHandler_spec m hn b

omit [DecidableEq σ] in
theorem foldl_registerMember_spec (ms : List (Handler σ)) (b : Brick σ) :
    (ms.foldl registerMember b).app = b.app ∧ (ms.foldl registerMember b).observers = b.observers ∧
      ∀ ev, ((ms.foldl registerMember b).eventHandlers.get? ev).getD [] =
        (b.eventHandlers.get? ev).getD [] ++ ms.filter (·.declares ev) := by
  induction ms generalizing b with
  | nil => exact ⟨rfl, rfl, fun ev => by simp⟩
  | cons m ms ih =>
    obtain ⟨h1, h2, h3⟩ := registerMember_spec b m
    obtain ⟨i1, i2, i3⟩ := ih (registerMember b m)
    refine ⟨i1.trans h1, i2.trans h2, fun ev => (i3 ev).trans ?_⟩
    rw [h3, List.append_assoc, List.filter_cons]
    cases hd : m.declares ev <;> simp

omit [DecidableEq σ] in
/-- `register_instance` registers each method for the events it declares. -/
theorem registerInstance_spec (b : Brick σ) :
    (registerInstance b).app = b.app ∧ (registerInstance b).observers = b.observers ∧
      ∀ ev, ((registerInstance b).eventHandlers.get? ev).getD [] =
        (b.eventHandlers.get? ev).getD [] ++ b.app.members.filter (·.declares ev) :=
  foldl_registerMember_spec b.app.members b

theorem Tracks.load (h : Tracks bs l rs hs) {app : App σ}
    (hr : registerApp bs app = .ok bs') :
    Tracks bs' (l ++ [app]) rs fun n ev =>
      hs n ev ++ if app.name = n then app.members.filter (·.declares ev) else [] := by
  unfold registerApp at hr
  split at hr
  · cases hr
  · next hnone =>
    obtain rfl := Except.ok.inj hr
    have hnone := Option.not_isSome_iff_eq_none.mp hnone
    obtain ⟨h1, h2, h3⟩ := registerInstance_spec (⟨app, Dict.empty, Dict.empty⟩ : Brick σ)
    constructor
    · rw [Base.apps, Dict.entries_set_of_none hnone, List.map_append, List.map_append]
      exact congrArg₂ (· ++ ·) h.apps (by simp [h1])
    · intro s ev n
      by_cases hs : app.name = s
      · subst hs
        have ho := h.observed app.name ev n
        rw [← ho]
        simp [Base.observed, hnone, h2]
      · rw [← h.observed]
        simp [Base.observed, Dict.get?_set, hs]
    · intro n ev
      rw [← h.handlers]
      by_cases hn : app.name = n
      · subst hn
        have h3 := h3 ev
        simp only [Dict.get?_empty, Option.getD_none, List.nil_append] at h3
        simp [handlersOf, hnone, h3]
      · simp [handlersOf, Dict.get?_set, hn]

theorem Tracks.registerHandler (h : Tracks bs l rs hs) (n : String) (ev' : EventClass)
    (m : Handler σ) (hr : (Op.registerHandler n ev' m).step bs = .ok bs') :
    Tracks bs' l rs fun n' ev =>
      hs n' ev ++ if n = n' ∧ ev' = ev ∧ n' ∈ l.map App.name then [m] else [] := by
  obtain rfl := Except.ok.inj hr
  rcases hb : bs.get? n with _ | b
  · have hn : n ∉ l.map App.name := by
      rw [← h.isSome_iff, hb]
      exact Bool.false_ne_true
    refine ⟨h.apps, h.observed, fun n' ev => ?_⟩
    have hc : ¬ (n = n' ∧ ev' = ev ∧ n' ∈ l.map App.name) := by
      rintro ⟨rfl, -, hm⟩
      exact hn hm
    rw [if_neg hc, List.append_nil]
    exact h.handlers n' ev
  · have hn : n ∈ l.map App.name := by
      rw [← h.isSome_iff, hb]
      rfl
    constructor
    · refine Eq.trans ?_ h.apps
      exact Dict.map_entries_set (v := b.registerHandler ev' m) Brick.app hb rfl
    · intro s ev o
      rw [← h.observed]
      by_cases hs : n = s
      · subst hs
        simp [Base.observed, hb, Brick.registerHandler]
      · simp [Base.observed, Dict.get?_set, hs]
    · intro n' ev
      rw [← h.handlers]
      by_cases hn' : n = n'
      · subst hn'
        have hr := registerHandler_eventHandlers b ev' m ev
        simpa [handlersOf, hb, hn] using hr
      · simp [handlersOf, Dict.get?_set, hn']

/-- What a run makes of a state is what the operations asked for. -/
theorem Tracks.run (h : Tracks bs l rs hs) {ops : List (Op σ)} (hr : Base.run bs ops = .ok bs') :
    ∃ l', Tracks bs' l' (rs ++ made l ops) fun n ev => hs n ev ++ handlersIn n ev l ops := by
  induction ops generalizing bs l rs hs with
  | nil =>
    obtain rfl := Except.ok.inj hr
    exact ⟨l, by simpa [made, handlersIn] using h⟩
  | cons op ops ih =>
    obtain ⟨bs₁, hs₁, hr'⟩ := bind_eq_ok.1 hr
    cases op with
    | load app =>
      obtain ⟨l', hl⟩ := ih (h.load hs₁) hr'
      exact ⟨l', by simpa [made, handlersIn] using hl⟩
    | updateBricks =>
      obtain rfl := Except.ok.inj hs₁
      obtain ⟨l', hl⟩ := ih (h.foldl _) hr'
      exact ⟨l', by simpa [made, handlersIn, Op.requests, h.values] using hl⟩
    | observeEvent n ev states =>
      obtain rfl := Except.ok.inj hs₁
      obtain ⟨l', hl⟩ := ih (h.request _) hr'
      exact ⟨l', by simpa [made, handlersIn, Op.requests] using hl⟩
    | registerHandler n ev m =>
      obtain ⟨l', hl⟩ := ih (h.registerHandler n ev m hs₁) hr'
      exact ⟨l', by simpa [made, handlersIn, Op.requests] using hl⟩

theorem tracks_empty : Tracks (Dict.empty : Bricks σ) [] [] fun _ _ => [] :=
  ⟨rfl, fun _ _ _ => rfl, fun _ _ => rfl⟩

/-! ## Delivery -/

theorem receives_iff (h : Tracks bs l rs hs) (hn : (bs.get? name).isSome) (sender : String)
    (ev : EventClass) (state : σ) :
    receives bs sender ev (some state) name ↔
      (∃ r ∈ asked rs sender ev name, state ∈ r) ∨
        (asked rs sender ev name ≠ [] ∧ ∀ r ∈ asked rs sender ev name, r = []) := by
  have hmem : receives bs sender ev (some state) name ↔
      ∃ o, observed bs sender ev name = some o ∧ (o = ∅ ∨ state ∈ o) := by
    have hx (b : Brick σ) : name ∈ getObservers b ev (some state) ↔
        ∃ o, (b.observers.get? ev).bind (·.get? name) = some o ∧ (o = ∅ ∨ state ∈ o) := by
      have hd : (b.observers.get? ev).bind (·.get? name) =
          ((b.observers.get? ev).getD Dict.empty).get? name := by
        cases b.observers.get? ev <;> rfl
      simp [hd, getObservers, Dict.mem_entries_iff]
    simp only [receives, hn, and_true, hx, observed]
    rcases bs.get? sender with _ | b <;> simp
  rw [hmem, h.observed]
  rcases hu : unionOf (asked rs sender ev name) with _ | o
  · simp [unionOf_eq_none hu]
  · obtain ⟨hne, ho⟩ := unionOf_eq_some hu
    have hempty : o = ∅ ↔ ∀ r ∈ asked rs sender ev name, r = [] := by
      simp only [Finset.eq_empty_iff_forall_notMem, ho, List.eq_nil_iff_forall_not_mem]
      constructor
      · intro h r hr s hs
        exact h s ⟨r, hr, hs⟩
      · rintro h s ⟨r, hr, hs⟩
        exact h r hr s hs
    simp only [Option.some.injEq, exists_eq_left', hempty, ho, hne, ne_eq, not_false_eq_true,
      true_and]
    exact or_comm

/-- An event sent in a state reaches an application exactly when one of its handlers is for the
state or for all, and those that are run. -/
def Delivers (bs : Bricks σ) (handlers : List (Handler σ)) (sender : String) (ev : EventClass)
    (state : σ) (name : String) : Prop :=
  (receives bs sender ev (some state) name ↔ ∃ h ∈ handlers, wants h ev state = true) ∧
    getHandlers bs name ev (some state) = handlers.filter (wants · ev state)

/-- A handler is for the state, but what the application asked with names other states, or it
did not ask. -/
def Narrowed (rs : List (List σ)) (handlers : List (Handler σ)) (ev : EventClass) (state : σ) :
    Prop :=
  (∃ h ∈ handlers, wants h ev state = true) ∧ (∀ r ∈ rs, state ∉ r) ∧ (rs = [] ∨ ∃ r ∈ rs, r ≠ [])

/-- The application asked for the state, or for all, without a handler that is for it. -/
def Idle (rs : List (List σ)) (handlers : List (Handler σ)) (ev : EventClass) (state : σ) : Prop :=
  (∀ h ∈ handlers, wants h ev state = false) ∧
    ((∃ r ∈ rs, state ∈ r) ∨ (rs ≠ [] ∧ ∀ r ∈ rs, r = []))

theorem delivers_iff {ops : List (Op σ)} (hr : run Dict.empty ops = .ok bs)
    (hn : (bs.get? name).isSome) (sender : String) (ev : EventClass) (state : σ) :
    Delivers bs (handlersIn name ev [] ops) sender ev state name ↔
      ¬ Narrowed (asked (made [] ops) sender ev name) (handlersIn name ev [] ops) ev state ∧
        ¬ Idle (asked (made [] ops) sender ev name) (handlersIn name ev [] ops) ev state := by
  obtain ⟨l, h⟩ := tracks_empty.run hr
  have hh : getHandlers bs name ev (some state) =
      (handlersIn name ev [] ops).filter (wants · ev state) := by
    rw [getHandlers, h.handlers]
    rfl
  have hrec := receives_iff h hn sender ev state
  rw [List.nil_append] at hrec
  rw [Delivers, and_iff_left hh, hrec]
  generalize asked (made [] ops) sender ev name = rs
  generalize handlersIn name ev [] ops = hs'
  have hw : (∀ h ∈ hs', wants h ev state = false) ↔ ¬ ∃ h ∈ hs', wants h ev state = true := by
    simp
  have hs : (∀ r ∈ rs, state ∉ r) ∧ (rs = [] ∨ ∃ r ∈ rs, r ≠ []) ↔
      ¬ ((∃ r ∈ rs, state ∈ r) ∨ (rs ≠ [] ∧ ∀ r ∈ rs, r = [])) := by
    rw [not_or, not_and_or, not_exists, not_not]
    simp only [not_and, not_forall, exists_prop]
  rw [Narrowed, Idle, hw, hs]
  generalize (∃ h ∈ hs', wants h ev state = true) = W
  generalize ((∃ r ∈ rs, state ∈ r) ∨ (rs ≠ [] ∧ ∀ r ∈ rs, r = [])) = A
  by_cases hA : A <;> by_cases hW : W <;> simp [hA, hW]

def Op.app? : Op σ → Option (App σ)
  | .load app => some app
  | _ => none

omit [DecidableEq σ] in
/-- A declaration under `set_ev_cls` is asked for where its source leads, once the bricks have
been updated after it was loaded. -/
theorem mem_asked_of_declared {apps : List (App σ)} {ops ops' : List (Op σ)} {app : App σ}
    {m : Handler σ} {cs : Dict EventClass (Caller σ)} {states : List σ} {source : List String}
    (ha : app ∈ apps ++ ops.filterMap Op.app?) (hm : m ∈ app.members) (hcs : m.callers = some cs)
    (hc : cs.get? ev = some ⟨states, some source⟩)
    (hs : brickName source ∈ (apps ++ ops.filterMap Op.app?).map App.name) :
    states ∈ asked (made apps (ops ++ .updateBricks :: ops')) (brickName source) ev app.name := by
  have hstep {rs : List (Request σ)} {l : List (List σ)} (h : states ∈ l)
      (hl : l = asked rs (brickName source) ev app.name) (rs' : List (Request σ)) :
      states ∈ asked (rs' ++ rs) (brickName source) ev app.name := by
    rw [asked_append, ← hl]
    exact List.mem_append_right _ h
  induction ops generalizing apps with
  | nil =>
    simp only [List.filterMap_nil, List.append_nil] at ha hs
    have hr : (⟨brickName source, ev, app.name, states⟩ : Request σ) ∈ brickRequests apps := by
      simp only [brickRequests, List.mem_flatMap]
      refine ⟨app, ha, m, hm, (ev, ⟨states, some source⟩), ?_, List.mem_cons_self⟩
      simpa [hcs] using Dict.mem_entries_iff.mpr hc
    change states ∈ asked ((brickRequests apps).filter (·.brick ∈ apps.map App.name) ++ _) _ _ _
    rw [asked_append, List.mem_append]
    left
    simp only [asked, List.mem_map, List.mem_filter]
    exact ⟨_, ⟨⟨hr, by simpa using hs⟩, by simp⟩, rfl⟩
  | cons op ops ih =>
    cases op with
    | load app' =>
      have ha' : app ∈ apps ++ [app'] ++ ops.filterMap Op.app? := by simpa [Op.app?] using ha
      exact ih ha' (by simpa [Op.app?] using hs)
    | updateBricks => exact hstep (ih ha hs) rfl _
    | observeEvent n e st => exact hstep (ih ha hs) rfl _
    | registerHandler n e h => exact hstep (ih ha hs) rfl _

open Controller in
/-- An application with a handler of all states and one of MAIN for the same event, loaded with
the application that sends it. -/
def mixedStates : List (Op Dispatcher) :=
  let ev : EventClass := ⟨["ryu", "controller", "ofp_event"], "EventOFPStateChange"⟩
  [.load ⟨"ofp_event", [], []⟩,
    .load ⟨"Monitor", [setEvCls ev [] ⟨"any_handler", none⟩,
      setEvCls ev [.main] ⟨"main_handler", none⟩], []⟩,
    .updateBricks]

open Controller in
/-- Sent in MAIN the event reaches the application. -/
theorem mixedStates_main :
    ∃ bs, run Dict.empty mixedStates = .ok bs ∧
      Delivers bs (handlersIn "Monitor" ⟨["ryu", "controller", "ofp_event"], "EventOFPStateChange"⟩
        [] mixedStates) "ofp_event" ⟨["ryu", "controller", "ofp_event"], "EventOFPStateChange"⟩
        .main "Monitor" := by
  refine ⟨_, rfl, (delivers_iff rfl (by decide) _ _ _).mpr ⟨?_, ?_⟩⟩
  · rintro ⟨-, h, -⟩
    exact h [.main] (by decide) (by decide)
  · rintro ⟨h, -⟩
    exact absurd (h (setEvCls ⟨["ryu", "controller", "ofp_event"], "EventOFPStateChange"⟩ []
      ⟨"any_handler", none⟩) (by decide)) (by decide)

open Controller in
/-- Sent in DEAD it does not, although a handler is for all states. -/
theorem mixedStates_dead :
    ∃ bs, run Dict.empty mixedStates = .ok bs ∧
      ¬ Delivers bs (handlersIn "Monitor"
        ⟨["ryu", "controller", "ofp_event"], "EventOFPStateChange"⟩ [] mixedStates) "ofp_event"
        ⟨["ryu", "controller", "ofp_event"], "EventOFPStateChange"⟩ .dead "Monitor" := by
  refine ⟨_, rfl, ?_⟩
  rintro ⟨h, -⟩
  obtain ⟨⟨b, hb, hmem⟩, -⟩ := h.mpr ⟨setEvCls
    ⟨["ryu", "controller", "ofp_event"], "EventOFPStateChange"⟩ [] ⟨"any_handler", none⟩,
    by decide, by decide⟩
  obtain rfl := Option.some.inj hb
  revert hmem
  decide

end Ryu.Base
