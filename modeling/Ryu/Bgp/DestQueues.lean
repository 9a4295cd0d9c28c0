import Ryu.Bgp.CircList
import Ryu.Lib.History
import Ryu.Lib.Run

/-! # The queues of the processor

The processor takes destinations from two circular lists, first all RT destinations and then a
batch of the others, and sleeps when none of the others is left. Whether a destination is queued
is told by comparing it with the one behind it, and destinations compare by their texts. -/

namespace Ryu.Bgp

open Function Links

/-- The two lists of a processor. -/
inductive DestQueue
  | rtdest
  | dest
  deriving DecidableEq, Repr

/-- What the text of a destination is made of. -/
structure DestView where
  table : String
  nlri : String
  knownPaths : ℕ
  withdraws : ℕ
  newPaths : ℕ
  deriving DecidableEq, Repr

/-- `Destination.__str__`. -/
def DestView.str (v : DestView) : String :=
  "Destination(table: " ++ v.table ++ ", nlri: " ++ v.nlri ++ ", paths: " ++ toString v.knownPaths ++
    ", withdraws: " ++ toString v.withdraws ++ ", new paths: " ++ toString v.newPaths ++ ")"

/-- `==` of lists and destinations: lists are equal to themselves, destinations of one text are
equal, and no list has the text of a destination. -/
def sameText {ν : Type*} (view : ν → DestView) : CircObj DestQueue ν → CircObj DestQueue ν → Bool
  | .head k, .head k' => k = k'
  | .node d, .node d' => (view d).str = (view d').str
  | .head _, .node _ => false
  | .node _, .head _ => false

/-- What has happened: a cycle has begun, `enqueue` has been called, a destination has been
processed, or the filters have been updated. -/
inductive ProcEvent (ν : Type*)
  | cycle
  | enqueued (d : ν)
  | processed (d : ν)
  | updatedRtfilters
  deriving DecidableEq, Repr

/-- Where `_run` is: in the loop of `_process_rtdest`, in that of `_process_dest`, at the event, or
ended by an exception. -/
inductive ProcPhase
  | rtdests (processedAny : Bool)
  | dests (destProcessed : ℕ)
  | waiting
  | ended
  deriving DecidableEq, Repr

structure BgpProcessor (ν : Type*) where
  links : CircLinks DestQueue ν
  destQueEvt : Bool
  phase : ProcPhase
  log : List (ProcEvent ν)

/-- A call of `enqueue`, or the next piece of `_run`, while destinations have these texts. -/
inductive ProcStep (ν : Type*)
  | enqueue (view : ν → DestView) (d : ν)
  | run (view : ν → DestView)

namespace BgpProcessor

section Model

variable {ν : Type*} [DecidableEq ν]

def init : BgpProcessor ν := ⟨.init, false, .rtdests false, [.cycle]⟩

/-- The first destination of a list, unless the list is empty. -/
def takeFirst (view : ν → DestView) (links : CircLinks DestQueue ν) (q : DestQueue) :
    Except PyError (Option (Option (CircObj DestQueue ν) × CircLinks DestQueue ν)) :=
  match links.isEmpty (sameText view) q with
  | .error e => .error e
  | .ok true => .ok none
  | .ok false => (links.popFirst (sameText view) q).map some

/-- A destination that was taken is processed, which is taken not to raise. -/
def process (s : BgpProcessor ν) (x : Option (CircObj DestQueue ν)) (links : CircLinks DestQueue ν)
    (phase : ProcPhase) : BgpProcessor ν :=
  match x with
  | some (.node d) => { s with links := links, phase := phase, log := s.log ++ [.processed d] }
  | _ => { s with links := links }

/-- `work_units_per_cycle or MAX_DEST_PROCESSED_PER_CYCLE`. -/
def workUnitsPerCycle : Option ℕ → ℕ
  | none | some 0 => 100
  | some units => units

variable (units : Option ℕ) (isRt : ν → Bool)

/-- The list a destination is put on. -/
def queueOf (d : ν) : DestQueue := if isRt d then .rtdest else .dest

/-- `enqueue`. A call that raises wakes nobody. -/
def enqueue (s : BgpProcessor ν) (view : ν → DestView) (d : ν) :
    Except PyError Unit × BgpProcessor ν :=
  let called := { s with log := s.log ++ [.enqueued d] }
  match s.links.nodeIsOnList (sameText view) (.node d) with
  | .error e => (.error e, called)
  | .ok true => (.ok (), { called with destQueEvt := true })
  | .ok false =>
    match s.links.append (sameText view) (queueOf isRt d) d with
    | .error e => (.error e, called)
    | .ok links => (.ok (), { called with links := links, destQueEvt := true })

/-- The end of a cycle: with no other destinations queued the processor waits. -/
def endCycle (s : BgpProcessor ν) (view : ν → DestView) : Except PyError Unit × BgpProcessor ν :=
  match s.links.isEmpty (sameText view) .dest with
  | .error e => (.error e, { s with phase := .ended })
  | .ok true => (.ok (), { s with destQueEvt := false, phase := .waiting })
  | .ok false => (.ok (), { s with phase := .rtdests false, log := s.log ++ [.cycle] })

/-- The next piece of `_run`. -/
def runOnce (s : BgpProcessor ν) (view : ν → DestView) : Except PyError Unit × BgpProcessor ν :=
  match s.phase with
  | .rtdests processedAny =>
    match takeFirst view s.links .rtdest with
    | .error e => (.error e, { s with phase := .ended })
    | .ok (some (x, links)) => (.ok (), s.process x links (.rtdests true))
    | .ok none => (.ok (), { s with
        phase := .dests 0
        log := s.log ++ if processedAny then [.updatedRtfilters] else [] })
  | .dests destProcessed =>
    if destProcessed < workUnitsPerCycle units then
      match takeFirst view s.links .dest with
      | .error e => (.error e, { s with phase := .ended })
      | .ok (some (x, links)) => (.ok (), s.process x links (.dests (destProcessed + 1)))
      | .ok none => s.endCycle view
    else s.endCycle view
  | .waiting =>
    if s.destQueEvt then (.ok (), { s with phase := .rtdests false, log := s.log ++ [.cycle] })
    else (.ok (), s)
  | .ended => (.ok (), s)

def step (s : BgpProcessor ν) : ProcStep ν → Except PyError Unit × BgpProcessor ν
  | .enqueue view d => s.enqueue isRt view d
  | .run view => s.runOnce units view

def next (s : BgpProcessor ν) (e : ProcStep ν) : BgpProcessor ν := (s.step units isRt e).2

end Model

/-- `enqueue` has been called for a destination that has not been processed since. -/
def Owed {ν : Type*} (log : List (ProcEvent ν)) (d : ν) : Prop :=
  History.Open (.enqueued d) (.processed d) log

/-- When another destination is processed, the RT destinations that were owed when the cycle began
have been. -/
def DrainedFirst {ν : Type*} (isRt : ν → Bool) (log : List (ProcEvent ν)) : Prop :=
  ∀ before cycle after d, log = before ++ .cycle :: (cycle ++ .processed d :: after) →
    .cycle ∉ cycle → isRt d = false → ∀ e, isRt e → Owed before e → .processed e ∈ cycle

section Conditions

variable {ν : Type*} [DecidableEq ν]

/-- The destination behind one on a list has another text. -/
def Distinct (view : ν → DestView) (links : CircLinks DestQueue ν) (d : ν) : Prop :=
  ∀ d', links.next (.node d) = some (.node d') → (view d').str ≠ (view d).str

/-- The first destination of a list can be taken. -/
def FirstDistinct (view : ν → DestView) (links : CircLinks DestQueue ν) (q : DestQueue) : Prop :=
  ∀ d, links.next (.head q) = some (.node d) → Distinct view links d

/-- A list without destinations. -/
def Drained (links : CircLinks DestQueue ν) (q : DestQueue) : Prop :=
  links.next (.head q) = some (.head q)

/-- The processor has ended, or sleeps unwoken. -/
def AtRest (s : BgpProcessor ν) : Prop :=
  s.phase = .ended ∨ s.phase = .waiting ∧ s.destQueEvt = false

/-- A destination is taken while the one behind it has another text, and a cycle ends without other
destinations only if no RT destination is queued. -/
def InTurn (units : Option ℕ) (s : BgpProcessor ν) : ProcStep ν → Prop
  | .enqueue _ _ => True
  | .run view =>
    match s.phase with
    | .rtdests _ => FirstDistinct view s.links .rtdest
    | .dests destProcessed =>
      (destProcessed < workUnitsPerCycle units → FirstDistinct view s.links .dest) ∧
        (Drained s.links .dest → Drained s.links .rtdest)
    | .waiting => True
    | .ended => True

variable (units : Option ℕ) (isRt : ν → Bool)

/-- The lists hold what is owed and nothing twice, RT destinations come first, a processor that only
runs on comes to rest, and at rest it owes nothing. -/
structure Right (s : BgpProcessor ν) : Prop where
  queued : ∃ L, Represents s.links L ∧ (∀ q, (L q).Nodup) ∧
    ∀ q d, d ∈ L q ↔ queueOf isRt d = q ∧ Owed s.log d
  drained : DrainedFirst isRt s.log
  rests : ∃ bound, ∀ views : List (ν → DestView), bound ≤ views.length →
    AtRest ((views.map .run).foldl (next units isRt) s)
  settled : AtRest s → ∀ d, ¬ Owed s.log d

end Conditions

section Lists

open CircLinks

variable {ν : Type*} {links : CircLinks DestQueue ν} {L : DestQueue → List ν}
  {view : ν → DestView} {q : DestQueue} {d d' : ν} {l : List ν}

theorem drained_iff (h : Represents links L) : Drained links q ↔ L q = [] := by
  unfold Drained
  rw [(h.ring q).next_head]
  cases L q with
  | nil => simp
  | cons d l => simp

theorem listed_of_not_distinct (h : Represents links L) (hd : ¬ Distinct view links d) :
    ∃ q, d ∈ L q := by
  by_contra hun
  refine hd fun d' hnext => ?_
  rw [(h.unlisted (not_exists.mp hun)).1] at hnext
  cases hnext

theorem ne_nil_of_not_firstDistinct (h : Represents links L)
    (hd : ¬ FirstDistinct view links q) : L q ≠ [] := by
  intro hnil
  refine hd fun d hnext => ?_
  rw [(h.ring q).next_head, hnil] at hnext
  cases hnext

variable [DecidableEq ν]

/-- Whether an object is on a list is told from the object behind it. -/
theorem nodeIsOnList_congr {eq eq' : CircObj DestQueue ν → CircObj DestQueue ν → Bool}
    {x : CircObj DestQueue ν} (h : ∀ y, links.next x = some y → eq y x = eq' y x) :
    links.nodeIsOnList eq x = links.nodeIsOnList eq' x := by
  unfold nodeIsOnList
  cases hx : links.next x with
  | none => rfl
  | some y =>
    dsimp only
    rw [h y hx]

theorem isEmpty_sameText (links : CircLinks DestQueue ν) (view : ν → DestView) (q : DestQueue) :
    links.isEmpty (sameText view) q = links.isEmpty identity q := by
  unfold CircLinks.isEmpty
  rw [nodeIsOnList_congr fun y _ => ?_]
  cases y with
  | head k =>
    unfold sameText identity
    simp
  | node d => rfl

/-- With another text behind it, a destination is told from its neighbour as an object is. -/
theorem nodeIsOnList_sameText (hd : Distinct view links d) :
    links.nodeIsOnList (sameText view) (.node d) = links.nodeIsOnList identity (.node d) := by
  apply nodeIsOnList_congr
  intro y hy
  cases y with
  | head k => rfl
  | node d' =>
    have hne : d' ≠ d := by
      rintro rfl
      exact hd d' hy rfl
    simp [sameText, identity, hd d' hy, hne]

/-- A destination with one of its text behind it cannot be asked for. -/
theorem nodeIsOnList_of_sameText (h : Represents links L) (hd : ¬ Distinct view links d) :
    links.nodeIsOnList (sameText view) (.node d) = .error .assertionError := by
  obtain ⟨k, hk⟩ := listed_of_not_distinct h hd
  unfold Distinct at hd
  push Not at hd
  obtain ⟨d', hnext, htext⟩ := hd
  have hprev : links.prev (.node d) ≠ some (.node d') := by
    obtain ⟨xs, ys, hL⟩ := List.append_of_mem hk
    have hring := h.ring k
    have hnd := h.nodup k
    rw [hL, List.map_append, List.map_cons] at hring
    rw [hL] at hnd
    obtain ⟨hp, hn⟩ := hring.neighbours
    intro he
    rw [hp] at he
    rw [hn] at hnext
    have hx : CircObj.node d' ∈ CircObj.head k :: xs.map CircObj.node :=
      List.mem_of_getLast? he
    have hy : CircObj.node d' ∈ ys.map CircObj.node ++ [CircObj.head k] :=
      List.mem_of_head? hnext
    have hxs : d' ∈ xs := by simpa using hx
    have hys : d' ∈ ys := by simpa using hy
    exact (List.nodup_append.mp hnd).2.2 d' hxs d' (List.mem_cons_of_mem d hys) rfl
  unfold CircLinks.nodeIsOnList
  rw [hnext]
  simp [sameText, htext, hprev]

theorem popFirst_sameText (h : Represents links L) (hL : L q = d :: l)
    (hd : Distinct view links d) :
    links.popFirst (sameText view) q = links.popFirst identity q := by
  have hnext := (h.ring q).next_head
  rw [hL, List.map_cons, List.cons_append, List.head?_cons] at hnext
  unfold CircLinks.popFirst CircLinks.remove CircLinks.nodeUnlink
  rw [hnext]
  simp only [nodeIsOnList_sameText hd]

/-- The first destination is taken from a list. -/
theorem takeFirst_ok (h : Represents links L) (hL : L q = d :: l)
    (hd : FirstDistinct view links q) :
    ∃ links', takeFirst view links q = .ok (some (some (.node d), links')) ∧
      Represents links' (Function.update L q l) := by
  have hnext := (h.ring q).next_head
  rw [hL, List.map_cons, List.cons_append, List.head?_cons] at hnext
  obtain ⟨links', hpop, hrep⟩ := h.popFirst hL
  refine ⟨links', ?_, hrep⟩
  unfold takeFirst
  rw [isEmpty_sameText, h.isEmpty, hL, popFirst_sameText h hL (hd d hnext), hpop]
  rfl

theorem takeFirst_of_nil (h : Represents links L) (hL : L q = []) :
    takeFirst view links q = .ok none := by
  unfold takeFirst
  rw [isEmpty_sameText, h.isEmpty, hL]
  rfl

theorem takeFirst_error (h : Represents links L) (hd : ¬ FirstDistinct view links q) :
    takeFirst view links q = .error .assertionError := by
  obtain ⟨e, l, hL⟩ := List.exists_cons_of_ne_nil (ne_nil_of_not_firstDistinct h hd)
  unfold FirstDistinct at hd
  push Not at hd
  obtain ⟨d, hnext, hd⟩ := hd
  have herror := nodeIsOnList_of_sameText h hd
  unfold takeFirst
  rw [isEmpty_sameText, h.isEmpty, hL]
  unfold CircLinks.popFirst CircLinks.remove CircLinks.nodeUnlink
  simp only [hnext, List.isEmpty_cons, reduceCtorEq, if_false, herror]
  rfl

theorem append_sameText (h : Represents links L) (hd : Distinct view links d)
    (hn : Unlisted L d) : ∃ links', links.append (sameText view) q d = .ok links' ∧
      Represents links' (Function.update L q (L q ++ [d])) := by
  obtain ⟨links', happend, hrep⟩ := h.append (k := q) hn
  refine ⟨links', ?_, hrep⟩
  rw [← happend]
  unfold CircLinks.append CircLinks.nodeInsertBefore
  rw [nodeIsOnList_sameText hd]

end Lists

section Logs

variable {ν : Type*} {isRt : ν → Bool} {log before cycle : List (ProcEvent ν)} {d e : ν}
  {ev : ProcEvent ν}

theorem owed_enqueued : Owed (log ++ [.enqueued d]) e ↔ e = d ∨ Owed log e := by
  unfold Owed
  rw [History.open_concat]
  simp [eq_comm]

theorem owed_processed : Owed (log ++ [.processed d]) e ↔ e ≠ d ∧ Owed log e := by
  unfold Owed
  rw [History.open_concat]
  simp [eq_comm]

theorem owed_concat_of_ne (hen : ev ≠ .enqueued e) (hpr : ev ≠ .processed e) :
    Owed (log ++ [ev]) e ↔ Owed log e := by
  unfold Owed
  rw [History.open_concat]
  simp [hen, hpr]

/-- A destination that is processed comes behind the RT destinations of its cycle. -/
theorem DrainedFirst.concat (h : DrainedFirst isRt log)
    (hev : ∀ d, ev = .processed d → isRt d = false → ∃ before cycle,
      log = before ++ .cycle :: cycle ∧ .cycle ∉ cycle ∧
        ∀ e, isRt e → Owed before e → .processed e ∈ cycle) :
    DrainedFirst isRt (log ++ [ev]) := by
  intro before cycle after d hlog hcycle hd e he howed
  rw [← List.cons_append, ← List.append_assoc] at hlog
  rcases History.split_concat hlog with ⟨hl, rfl, -⟩ | ⟨after', -, hl⟩
  · obtain ⟨before', cycle', hl', hcycle', hall⟩ := hev d rfl hd
    obtain ⟨rfl, rfl⟩ := History.split_last (hl'.symm.trans hl) hcycle' hcycle
    exact hall e he howed
  · rw [List.append_assoc, List.cons_append] at hl
    exact h before cycle after' d hl hcycle hd e he howed

end Logs

section Steps

open CircLinks

variable {ν : Type*} {units : Option ℕ} {isRt : ν → Bool} {s s' : BgpProcessor ν}
  {L : DestQueue → List ν} {view : ν → DestView} {q : DestQueue} {d : ν}

/-- What is known where the processor is: in the first loop the RT destinations that were owed at
the start of the cycle have been processed or are owed still, in the second they have been
processed, and a processor that sleeps unwoken owes nothing. -/
def AtPhase (isRt : ν → Bool) (s : BgpProcessor ν) : Prop :=
  match s.phase with
  | .rtdests _ => ∃ before cycle, s.log = before ++ .cycle :: cycle ∧ .cycle ∉ cycle ∧
      ∀ e, isRt e → Owed before e → .processed e ∈ cycle ∨ Owed s.log e
  | .dests _ => ∃ before cycle, s.log = before ++ .cycle :: cycle ∧ .cycle ∉ cycle ∧
      ∀ e, isRt e → Owed before e → .processed e ∈ cycle
  | .waiting => s.destQueEvt = false → ∀ d, ¬ Owed s.log d
  | .ended => False

structure Inv (isRt : ν → Bool) (s : BgpProcessor ν) (L : DestQueue → List ν) : Prop where
  rep : Represents s.links L
  queued : ∀ q d, d ∈ L q ↔ queueOf isRt d = q ∧ Owed s.log d
  drained : DrainedFirst isRt s.log
  phase : AtPhase isRt s

theorem workUnitsPerCycle_pos (units : Option ℕ) : 0 < workUnitsPerCycle units := by
  rcases units with _ | _ | n
  · exact Nat.zero_lt_succ _
  · exact Nat.zero_lt_succ _
  · exact Nat.zero_lt_succ _

theorem not_owed_init (d : ν) : ¬ Owed (init : BgpProcessor ν).log d := by
  have h : ¬ Owed ([] ++ [ProcEvent.cycle]) d := by
    rw [owed_concat_of_ne (by simp) (by simp)]
    exact History.not_open_nil
  exact h

theorem Inv.init : Inv isRt (BgpProcessor.init : BgpProcessor ν) fun _ => [] where
  rep := Represents.init
  queued q d := by simp [not_owed_init]
  drained := by
    intro before cycle after d hlog
    have hlen := congrArg List.length hlog
    simp only [BgpProcessor.init, List.length_append, List.length_cons, List.length_nil] at hlen
    omega
  phase := ⟨[], [], rfl, List.not_mem_nil, fun e _ he => absurd he History.not_open_nil⟩

/-- What is enqueued is owed, wherever the processor is; unless it was owed before, the processor
is woken. -/
theorem AtPhase.enqueued (h : AtPhase isRt s) (links : CircLinks DestQueue ν) {evt : Bool}
    (hevt : evt = false → s.destQueEvt = false ∧ Owed s.log d) :
    AtPhase isRt
      { s with links := links, destQueEvt := evt, log := s.log ++ [.enqueued d] } := by
  unfold AtPhase at h ⊢
  dsimp only
  cases hp : s.phase with
  | rtdests any =>
    rw [hp] at h
    obtain ⟨before, cycle, hlog, hcycle, hall⟩ := h
    refine ⟨before, cycle ++ [.enqueued d], by simp [hlog], by simp [hcycle], fun e he ho => ?_⟩
    rw [owed_enqueued]
    rcases hall e he ho with hm | hm
    · exact Or.inl (List.mem_append_left _ hm)
    · exact Or.inr (Or.inr hm)
  | dests n =>
    rw [hp] at h
    obtain ⟨before, cycle, hlog, hcycle, hall⟩ := h
    exact ⟨before, cycle ++ [.enqueued d], by simp [hlog], by simp [hcycle],
      fun e he ho => List.mem_append_left _ (hall e he ho)⟩
  | waiting =>
    rw [hp] at h
    intro hasleep
    obtain ⟨hasleep, howed⟩ := hevt hasleep
    exact absurd howed (h hasleep d)
  | ended =>
    rw [hp] at h
    exact h

theorem DrainedFirst.enqueued (h : DrainedFirst isRt s.log) (d : ν) :
    DrainedFirst isRt (s.log ++ [.enqueued d]) :=
  h.concat fun _ he => by cases he

theorem Inv.mem_queueOf (h : Inv isRt s L) : d ∈ L (queueOf isRt d) ↔ Owed s.log d := by
  rw [h.queued]
  simp

theorem Inv.isRt_of_mem (h : Inv isRt s L) (hd : d ∈ L q) : isRt d = (q == .rtdest) := by
  have hq := ((h.queued q d).mp hd).1
  rw [← hq]
  unfold queueOf
  cases isRt d with
  | true => rfl
  | false => rfl

/-- No destination is queued or processed. -/
theorem Inv.keep (h : Inv isRt s L) (hlinks : s'.links = s.links)
    (howed : ∀ d, Owed s'.log d ↔ Owed s.log d) (hdrained : DrainedFirst isRt s'.log)
    (hphase : AtPhase isRt s') : Inv isRt s' L where
  rep := by rw [hlinks]; exact h.rep
  queued q d := by rw [howed]; exact h.queued q d
  drained := hdrained
  phase := hphase

/-- A new cycle. -/
theorem Inv.cycle (h : Inv isRt s L) :
    Inv isRt { s with phase := .rtdests false, log := s.log ++ [.cycle] } L := by
  have howed : ∀ d, Owed (s.log ++ [.cycle]) d ↔ Owed s.log d :=
    fun d => owed_concat_of_ne (by simp) (by simp)
  refine h.keep rfl howed (h.drained.concat fun _ he => by cases he) ?_
  exact ⟨s.log, [], rfl, List.not_mem_nil, fun e _ ho => Or.inr ((howed e).mpr ho)⟩

/-- The first destination of a list is processed. -/
theorem Inv.processed (h : Inv isRt s L) {l : List ν} (hL : L q = d :: l)
    {links : CircLinks DestQueue ν} (hrep : Represents links (Function.update L q l))
    {phase : ProcPhase}
    (hdrained : DrainedFirst isRt (s.log ++ [.processed d]))
    (hphase : AtPhase isRt (s.process (some (.node d)) links phase)) :
    Inv isRt (s.process (some (.node d)) links phase) (Function.update L q l) where
  rep := hrep
  queued q' e := by
    have hnd := h.rep.nodup q
    rw [hL, List.nodup_cons] at hnd
    have hd : d ∈ L q := by rw [hL]; exact List.mem_cons_self
    have hqd := ((h.queued q d).mp hd).1
    unfold process
    dsimp only
    rw [owed_processed]
    by_cases hq : q' = q
    · subst hq
      rw [update_self]
      have hmem := h.queued q' e
      rw [hL, List.mem_cons] at hmem
      constructor
      · intro he
        have hne : e ≠ d := by
          rintro rfl
          exact hnd.1 he
        obtain ⟨hqe, ho⟩ := hmem.mp (Or.inr he)
        exact ⟨hqe, hne, ho⟩
      · rintro ⟨hqe, hne, ho⟩
        exact (hmem.mpr ⟨hqe, ho⟩).resolve_left hne
    · rw [update_of_ne hq, h.queued]
      constructor
      · rintro ⟨hqe, ho⟩
        refine ⟨hqe, ?_, ho⟩
        rintro rfl
        exact hq (hqe.symm.trans hqd)
      · rintro ⟨hqe, -, ho⟩
        exact ⟨hqe, ho⟩
  drained := hdrained
  phase := hphase

/-- The pieces of `_run` until the processor sleeps, at most, with so many destinations queued. -/
def pieces (s : BgpProcessor ν) (queued : ℕ) : ℕ :=
  match s.phase with
  | .rtdests _ => 4 * queued + 2
  | .dests 0 => 4 * queued + 1
  | .dests (_ + 1) => 4 * queued + 3
  | .waiting => if s.destQueEvt then 4 * queued + 3 else 0
  | .ended => 0

def total (L : DestQueue → List ν) : ℕ := (L .rtdest).length + (L .dest).length

theorem total_update {l : List ν} (hL : L q = d :: l) :
    total (Function.update L q l) + 1 = total L := by
  unfold total
  cases q with
  | rtdest =>
    rw [hL, update_self, update_of_ne (by simp), List.length_cons]
    omega
  | dest =>
    rw [hL, update_self, update_of_ne (by simp), List.length_cons]
    omega

/-- The processor has come closer to its sleep. -/
def Advances (isRt : ν → Bool) (s : BgpProcessor ν) (L : DestQueue → List ν)
    (s' : BgpProcessor ν) : Prop :=
  ∃ L', Inv isRt s' L' ∧ pieces s' (total L') ≤ pieces s (total L) - 1

/-- What is owed and enqueued again is owed. -/
theorem Inv.enqueued_again (h : Inv isRt s L) (howed : Owed s.log d) (evt : Bool)
    (hevt : evt = false → s.destQueEvt = false) :
    Inv isRt { s with destQueEvt := evt, log := s.log ++ [.enqueued d] } L := by
  refine h.keep rfl (fun e => ?_) (h.drained.enqueued d)
    (h.phase.enqueued s.links fun he => ⟨hevt he, howed⟩)
  rw [owed_enqueued]
  constructor
  · rintro (rfl | ho)
    · exact howed
    · exact ho
  · exact Or.inr

theorem AtPhase.atRest {n : ℕ} (h : AtPhase isRt s) (hpieces : pieces s n = 0) : AtRest s := by
  unfold AtPhase at h
  unfold pieces at hpieces
  cases hphase : s.phase with
  | rtdests any =>
    rw [hphase] at hpieces
    cases hpieces
  | dests k =>
    rw [hphase] at hpieces
    cases k with
    | zero => cases hpieces
    | succ k => cases hpieces
  | waiting =>
    rw [hphase] at hpieces
    refine Or.inr ⟨hphase, ?_⟩
    by_contra hevt
    rw [(Bool.not_eq_false _).mp hevt] at hpieces
    cases hpieces
  | ended =>
    rw [hphase] at h
    exact h.elim

theorem AtPhase.settled (h : AtPhase isRt s) (hrest : AtRest s) (d : ν) : ¬ Owed s.log d := by
  unfold AtPhase at h
  rcases hrest with hphase | ⟨hphase, hevt⟩
  · rw [hphase] at h
    exact h.elim
  · rw [hphase] at h
    exact h hevt d

theorem Inv.exists_owed (h : Inv isRt s L) (hL : L q ≠ []) : ∃ d, Owed s.log d := by
  obtain ⟨d, hd⟩ := List.exists_mem_of_ne_nil _ hL
  exact ⟨d, ((h.queued q d).mp hd).2⟩

variable [DecidableEq ν]

theorem Inv.enqueue (h : Inv isRt s L) : ∃ L', Inv isRt (s.enqueue isRt view d).2 L' := by
  unfold BgpProcessor.enqueue
  by_cases hd : Distinct view s.links d
  · rw [nodeIsOnList_sameText hd]
    by_cases howed : Owed s.log d
    · rw [h.rep.nodeIsOnList (h.mem_queueOf.mpr howed)]
      exact ⟨L, h.enqueued_again howed true fun he => by cases he⟩
    · have hn : Unlisted L d := fun q hq => howed ((h.queued q d).mp hq).2
      obtain ⟨links, happend, hrep⟩ := append_sameText (q := queueOf isRt d) h.rep hd hn
      rw [h.rep.nodeIsOnList_of_unlisted hn]
      dsimp only
      rw [happend]
      refine ⟨_, hrep, fun q e => ?_, h.drained.enqueued d,
        h.phase.enqueued links fun he => by cases he⟩
      dsimp only
      rw [owed_enqueued]
      by_cases hq : q = queueOf isRt d
      · subst hq
        rw [update_self, List.mem_append, List.mem_singleton, h.queued]
        constructor
        · rintro (⟨hqe, ho⟩ | rfl)
          · exact ⟨hqe, Or.inr ho⟩
          · exact ⟨rfl, Or.inl rfl⟩
        · rintro ⟨hqe, rfl | ho⟩
          · exact Or.inr rfl
          · exact Or.inl ⟨hqe, ho⟩
      · rw [update_of_ne hq, h.queued]
        constructor
        · exact fun ⟨hqe, ho⟩ => ⟨hqe, Or.inr ho⟩
        · rintro ⟨hqe, rfl | ho⟩
          · exact absurd hqe.symm hq
          · exact ⟨hqe, ho⟩
  · obtain ⟨q, hq⟩ := listed_of_not_distinct h.rep hd
    rw [nodeIsOnList_of_sameText h.rep hd]
    exact ⟨L, h.enqueued_again ((h.queued q d).mp hq).2 s.destQueEvt id⟩

theorem Inv.endCycle (h : Inv isRt s L) {n : ℕ} (hphase : s.phase = .dests n)
    (hend : L .dest = [] → L .rtdest = []) (hn : n = 0 → L .dest = []) :
    Advances isRt s L (s.endCycle view).2 := by
  have hpieces : 0 < pieces s (total L) := by
    unfold pieces
    rw [hphase]
    cases n with
    | zero => exact Nat.succ_pos _
    | succ n => exact Nat.succ_pos _
  unfold Advances BgpProcessor.endCycle
  rw [isEmpty_sameText, h.rep.isEmpty]
  cases hL : L .dest with
  | nil =>
    refine ⟨L, h.keep rfl (fun d => Iff.rfl) h.drained ?_, Nat.le_sub_one_of_lt hpieces⟩
    intro _ d ho
    have hd := h.mem_queueOf.mpr ho
    cases hq : queueOf isRt d with
    | rtdest =>
      rw [hq, hend hL] at hd
      exact List.not_mem_nil hd
    | dest =>
      rw [hq, hL] at hd
      exact List.not_mem_nil hd
  | cons d l =>
    refine ⟨L, h.cycle, Nat.le_sub_one_of_lt ?_⟩
    unfold pieces
    rw [hphase]
    cases n with
    | zero =>
      rw [hn rfl] at hL
      cases hL
    | succ n => exact Nat.lt_succ_self _

theorem Inv.rtdests (h : Inv isRt s L) {any : Bool} (hphase : s.phase = .rtdests any)
    (hd : FirstDistinct view s.links .rtdest) : Advances isRt s L (s.runOnce units view).2 := by
  obtain ⟨before, cycle, hlog, hcycle, hall⟩ : ∃ before cycle, s.log = before ++ .cycle :: cycle ∧
      .cycle ∉ cycle ∧ ∀ e, isRt e → Owed before e → .processed e ∈ cycle ∨ Owed s.log e := by
    have hat := h.phase
    unfold AtPhase at hat
    rw [hphase] at hat
    exact hat
  unfold Advances BgpProcessor.runOnce
  rw [hphase]
  cases hL : L .rtdest with
  | nil =>
    dsimp only
    rw [takeFirst_of_nil h.rep hL]
    -- The RT destinations that were owed have all been processed.
    have hdone : ∀ e, isRt e → Owed before e → .processed e ∈ cycle := by
      intro e he ho
      refine (hall e he ho).resolve_right fun howed => ?_
      have hmem := h.mem_queueOf.mpr howed
      rw [queueOf, if_pos he, hL] at hmem
      exact List.not_mem_nil hmem
    have hpieces : pieces { s with phase := .dests 0 } (total L) < pieces s (total L) := by
      unfold pieces
      rw [hphase]
      exact Nat.lt_succ_self _
    refine ⟨L, ?_, Nat.le_sub_one_of_lt hpieces⟩
    cases any with
    | false =>
      refine h.keep rfl (fun d => ?_) ?_ ⟨before, cycle, ?_, hcycle, hdone⟩
      · simp
      · simpa using h.drained
      · simpa using hlog
    | true =>
      refine h.keep rfl (fun d => owed_concat_of_ne (by simp) (by simp))
        (h.drained.concat fun _ he => by cases he) ⟨before, cycle ++ [.updatedRtfilters], ?_, ?_, ?_⟩
      · simp [hlog]
      · simp [hcycle]
      · exact fun e he ho => List.mem_append_left _ (hdone e he ho)
  | cons d l =>
    obtain ⟨links, htake, hrep⟩ := takeFirst_ok h.rep hL hd
    dsimp only
    rw [htake]
    have hrt : isRt d = true := by
      rw [h.isRt_of_mem (q := .rtdest) (by rw [hL]; exact List.mem_cons_self)]
      rfl
    refine ⟨_, h.processed hL hrep (h.drained.concat ?_) ?_, ?_⟩
    · rintro _ ⟨⟩ hnot
      rw [hrt] at hnot
      cases hnot
    · refine ⟨before, cycle ++ [.processed d], by simp [process, hlog], by simp [hcycle], ?_⟩
      intro e he ho
      by_cases hed : e = d
      · subst hed
        exact Or.inl (List.mem_append_right _ List.mem_cons_self)
      · rcases hall e he ho with hm | hm
        · exact Or.inl (List.mem_append_left _ hm)
        · exact Or.inr (owed_processed.2 ⟨hed, hm⟩)
    · have htotal := total_update hL
      unfold pieces process
      rw [hphase]
      dsimp only
      omega

theorem Inv.dests (h : Inv isRt s L) {n : ℕ} (hphase : s.phase = .dests n)
    (hd : n < workUnitsPerCycle units → FirstDistinct view s.links .dest)
    (hend : L .dest = [] → L .rtdest = []) : Advances isRt s L (s.runOnce units view).2 := by
  obtain ⟨before, cycle, hlog, hcycle, hall⟩ : ∃ before cycle, s.log = before ++ .cycle :: cycle ∧
      .cycle ∉ cycle ∧ ∀ e, isRt e → Owed before e → .processed e ∈ cycle := by
    have hat := h.phase
    unfold AtPhase at hat
    rw [hphase] at hat
    exact hat
  by_cases hn : n < workUnitsPerCycle units
  · cases hL : L .dest with
    | nil =>
      have hrun : s.runOnce units view = s.endCycle view := by
        unfold BgpProcessor.runOnce
        rw [hphase]
        dsimp only
        rw [if_pos hn, takeFirst_of_nil h.rep hL]
      rw [hrun]
      exact h.endCycle hphase hend fun _ => hL
    | cons d l =>
      obtain ⟨links, htake, hrep⟩ := takeFirst_ok h.rep hL (hd hn)
      have hrun : s.runOnce units view =
          (.ok (), s.process (some (.node d)) links (.dests (n + 1))) := by
        unfold BgpProcessor.runOnce
        rw [hphase]
        dsimp only
        rw [if_pos hn, htake]
      rw [hrun]
      refine ⟨_, h.processed hL hrep (h.drained.concat ?_) ?_, ?_⟩
      · rintro _ ⟨⟩ -
        exact ⟨before, cycle, hlog, hcycle, hall⟩
      · exact ⟨before, cycle ++ [.processed d], by simp [process, hlog], by simp [hcycle],
          fun e he ho => List.mem_append_left _ (hall e he ho)⟩
      · have htotal := total_update hL
        unfold pieces process
        rw [hphase]
        dsimp only
        cases n with
        | zero =>
          dsimp only
          omega
        | succ n =>
          dsimp only
          omega
  · have hrun : s.runOnce units view = s.endCycle view := by
      unfold BgpProcessor.runOnce
      rw [hphase]
      dsimp only
      rw [if_neg hn]
    rw [hrun]
    refine h.endCycle hphase hend fun hzero => ?_
    subst hzero
    exact absurd (workUnitsPerCycle_pos units) hn

theorem Inv.waiting (h : Inv isRt s L) (hphase : s.phase = .waiting) :
    Advances isRt s L (s.runOnce units view).2 := by
  unfold Advances BgpProcessor.runOnce pieces
  rw [hphase]
  dsimp only
  by_cases hevt : s.destQueEvt = true
  · rw [if_pos hevt, if_pos hevt]
    exact ⟨L, h.cycle, Nat.le_refl _⟩
  · rw [if_neg hevt, if_neg hevt]
    refine ⟨L, h, ?_⟩
    dsimp only
    rw [hphase]
    dsimp only
    rw [if_neg hevt]

theorem Inv.runOnce (h : Inv isRt s L) (hturn : InTurn units s (.run view)) :
    Advances isRt s L (s.runOnce units view).2 := by
  unfold InTurn at hturn
  dsimp only at hturn
  cases hphase : s.phase with
  | rtdests any =>
    rw [hphase] at hturn
    exact h.rtdests hphase hturn
  | dests n =>
    rw [hphase] at hturn
    rw [drained_iff h.rep, drained_iff h.rep] at hturn
    exact h.dests hphase hturn.1 hturn.2
  | waiting => exact h.waiting hphase
  | ended =>
    have hat := h.phase
    unfold AtPhase at hat
    rw [hphase] at hat
    exact hat.elim

theorem AtRest.next (h : AtRest s) : next units isRt s (.run view) = s := by
  unfold BgpProcessor.next step BgpProcessor.runOnce
  dsimp only
  rcases h with hphase | ⟨hphase, hevt⟩
  · rw [hphase]
  · rw [hphase, hevt]
    rfl

/-- A step out of turn brings the processor to rest with destinations queued: it takes one that is
not told from the one behind it, or ends a cycle over RT destinations. -/
theorem Inv.atRest_of_not_inTurn (h : Inv isRt s L) {e : ProcStep ν} (hturn : ¬ InTurn units s e) :
    AtRest (BgpProcessor.next units isRt s e) ∧
      ∃ d, Owed (BgpProcessor.next units isRt s e).log d := by
  cases e with
  | enqueue view d => exact absurd trivial hturn
  | run view =>
    have hended : ∀ {q}, ¬ FirstDistinct view s.links q → AtRest { s with phase := .ended } ∧
        ∃ d, Owed s.log d := fun hfirst =>
      ⟨Or.inl rfl, h.exists_owed (ne_nil_of_not_firstDistinct h.rep hfirst)⟩
    unfold BgpProcessor.next step BgpProcessor.runOnce
    unfold InTurn at hturn
    dsimp only at hturn ⊢
    cases hphase : s.phase with
    | rtdests any =>
      rw [hphase] at hturn
      dsimp only
      rw [takeFirst_error h.rep hturn]
      exact hended hturn
    | dests n =>
      rw [hphase, drained_iff h.rep, drained_iff h.rep] at hturn
      dsimp only
      rcases not_and_or.mp hturn with hfirst | hend
      · obtain ⟨hn, hfirst⟩ := Classical.not_imp.mp hfirst
        rw [if_pos hn, takeFirst_error h.rep hfirst]
        exact hended hfirst
      · obtain ⟨hdest, hrt⟩ := Classical.not_imp.mp hend
        rw [takeFirst_of_nil h.rep hdest]
        dsimp only
        rw [ite_self]
        unfold BgpProcessor.endCycle
        rw [isEmpty_sameText, h.rep.isEmpty, hdest]
        exact ⟨Or.inr ⟨rfl, rfl⟩, h.exists_owed hrt⟩
    | waiting =>
      rw [hphase] at hturn
      exact absurd trivial hturn
    | ended =>
      rw [hphase] at hturn
      exact absurd trivial hturn

theorem AtRest.runs (h : AtRest s) (views : List (ν → DestView)) :
    (views.map .run).foldl (BgpProcessor.next units isRt) s = s := by
  induction views with
  | nil => rfl
  | cons view views ih =>
    rw [List.map_cons, List.foldl_cons, h.next]
    exact ih

/-- Running on, the processor comes to rest, in turn or not. -/
theorem Inv.runs (h : Inv isRt s L) {views : List (ν → DestView)}
    (hlen : pieces s (total L) ≤ views.length) :
    AtRest ((views.map .run).foldl (BgpProcessor.next units isRt) s) := by
  induction views generalizing s L with
  | nil => exact h.phase.atRest (Nat.le_zero.mp hlen)
  | cons view views ih =>
    rw [List.map_cons, List.foldl_cons]
    by_cases hturn : InTurn units s (.run view)
    · obtain ⟨L', h', hle⟩ := h.runOnce hturn
      refine ih h' (Nat.le_trans hle ?_)
      rw [List.length_cons] at hlen
      omega
    · have hrest := (h.atRest_of_not_inTurn hturn).1
      rw [hrest.runs]
      exact hrest

theorem Inv.right (h : Inv isRt s L) : Right units isRt s where
  queued := ⟨L, h.rep, h.rep.nodup, h.queued⟩
  drained := h.drained
  rests := ⟨pieces s (total L), fun _ hlen => h.runs hlen⟩
  settled := h.phase.settled

theorem Inv.next (h : Inv isRt s L) {e : ProcStep ν} (hturn : InTurn units s e) :
    ∃ L', Inv isRt (BgpProcessor.next units isRt s e) L' := by
  cases e with
  | enqueue view d => exact h.enqueue
  | run view =>
    obtain ⟨L', h', -⟩ := h.runOnce hturn
    exact ⟨L', h'⟩

theorem Inv.not_right (h : Inv isRt s L) {e : ProcStep ν} (hturn : ¬ InTurn units s e) :
    ¬ Right units isRt (BgpProcessor.next units isRt s e) := by
  intro hright
  obtain ⟨hrest, d, howed⟩ := h.atRest_of_not_inTurn hturn
  exact hright.settled hrest d howed

end Steps

section Claims

variable {ν : Type*} [DecidableEq ν]

/-- Whatever is enqueued between the pieces of `_run`, and however the texts of the destinations
change, the processor does right by them all along exactly if no destination has one of its text
behind it when it is taken, and no cycle ends with RT destinations only. -/
theorem throughout_right_iff (units : Option ℕ) (isRt : ν → Bool) (ops : List (ProcStep ν)) :
    Throughout (next units isRt) (Right units isRt) init ops ↔
      EveryStep (next units isRt) (InTurn units) init ops := by
  refine throughout_iff_everyStep_while (I := fun s => ∃ L, Inv isRt s L) ?_ ?_ ⟨_, Inv.init⟩
    Inv.init.right ops
  · rintro s e ⟨L, h⟩ - hright
    by_cases hturn : InTurn units s e
    · exact h.next hturn
    · exact absurd hright (h.not_right hturn)
  · rintro s e ⟨L, h⟩ -
    constructor
    · intro hright
      by_contra hturn
      exact h.not_right hturn hright
    · intro hturn
      obtain ⟨L', h'⟩ := h.next hturn
      exact h'.right

/-- Two destinations of one text are enqueued, and the first is taken. -/
theorem not_right_alikeNeighbours :
    ¬ Throughout (next none fun _ : Bool => false) (Right none fun _ => false) init
      [.enqueue (fun _ => ⟨"Vpnv4Table", "65000:1:10.0.0.0/8", 1, 0, 0⟩) true,
        .enqueue (fun _ => ⟨"Vpnv4Table", "65000:1:10.0.0.0/8", 1, 0, 0⟩) false,
        .run (fun _ => ⟨"Vpnv4Table", "65000:1:10.0.0.0/8", 1, 0, 0⟩),
        .run (fun _ => ⟨"Vpnv4Table", "65000:1:10.0.0.0/8", 1, 0, 0⟩)] := by
  intro h
  refine h.last.settled (Or.inl ?_) true ⟨[.cycle], [.enqueued false], ?_, ?_⟩
  · decide
  · decide
  · decide

end Claims

end BgpProcessor

end Ryu.Bgp
