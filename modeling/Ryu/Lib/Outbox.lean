import Mathlib.Logic.Function.Basic
import Ryu.Lib.Dict

/-! # Outgoing queues

Each receiver has a queue of messages, delivered first in first out to its log unless a
filter of the receiver blocks them. What a receiver hears last once its queue has drained
is not changed by delivery, and is the last message posted that is not blocked.
-/

namespace Ryu

/-- A queue and a log for each receiver. -/
structure Outbox (ι μ : Type*) where
  queue : ι → List μ
  log : ι → List μ

namespace Outbox

variable {ι μ : Type*} [DecidableEq ι]

def empty : Outbox ι μ := ⟨fun _ => [], fun _ => []⟩

/-- Append messages to the queue of `i`. -/
def post (o : Outbox ι μ) (i : ι) (ms : List μ) : Outbox ι μ :=
  { o with queue := Function.update o.queue i (o.queue i ++ ms) }

/-- Post a message to each receiver of a list. -/
def postEach (o : Outbox ι μ) (l : List (ι × μ)) : Outbox ι μ :=
  l.foldl (fun o x => o.post x.1 [x.2]) o

variable (block : ι → μ → Bool)

/-- Take the first message off the queue of `i` and deliver it unless it is blocked. -/
def deliver (o : Outbox ι μ) (i : ι) : Option μ × Outbox ι μ :=
  match o.queue i with
  | [] => (none, o)
  | m :: ms =>
    (some m,
      { queue := Function.update o.queue i ms
        log := if block i m then o.log else Function.update o.log i (o.log i ++ [m]) })

/-- The last message `i` hears once its queue has drained. -/
def last (o : Outbox ι μ) (i : ι) : Option μ :=
  (o.log i ++ (o.queue i).filter fun m => !block i m).getLast?

variable {block} {o o' : Outbox ι μ} {i j : ι} {ms : List μ}

theorem queue_post : (o.post i ms).queue j = if j = i then o.queue i ++ ms else o.queue j := by
  simp [post, Function.update_apply]

theorem last_deliver (i j : ι) : (o.deliver block i).2.last block j = o.last block j := by
  unfold deliver
  cases hq : o.queue i with
  | nil => rfl
  | cons m ms =>
    by_cases hj : j = i
    · subst hj
      cases hb : block j m <;> simp [last, hq, hb]
    · cases hb : block i m <;> simp [last, hb, hj]

/-- What reaches a log was not blocked. -/
theorem mem_log_deliver {m : μ} (h : m ∈ (o.deliver block i).2.log j) :
    m ∈ o.log j ∨ block j m = false := by
  unfold deliver at h
  cases hq : o.queue i with
  | nil =>
    rw [hq] at h
    exact Or.inl h
  | cons m' ms =>
    cases hb : block i m' with
    | true => exact Or.inl (by simpa [hq, hb] using h)
    | false =>
      by_cases hj : j = i
      · subst hj
        rcases List.mem_append.mp (by simpa [hq, hb] using h : m ∈ o.log j ++ [m']) with h | h
        · exact Or.inl h
        · exact Or.inr (List.mem_singleton.mp h ▸ hb)
      · exact Or.inl (by simpa [hq, hb, hj] using h)

omit [DecidableEq ι] in
theorem last_append (block : ι → μ → Bool) (hl : o'.log i = o.log i)
    (hq : o'.queue i = o.queue i ++ ms) :
    o'.last block i = ((ms.filter fun m => !block i m).getLast?).or (o.last block i) := by
  rw [last, last, hl, hq, List.filter_append, ← List.append_assoc, List.getLast?_append]

@[simp] theorem log_postEach (l : List (ι × μ)) : (o.postEach l).log = o.log := by
  induction l generalizing o with
  | nil => rfl
  | cons x l ih => exact ih

theorem queue_postEach (l : List (ι × μ)) :
    (o.postEach l).queue i = o.queue i ++ (l.filter fun x => x.1 = i).map Prod.snd := by
  induction l generalizing o with
  | nil => simp [postEach]
  | cons x l ih =>
    have hcons : o.postEach (x :: l) = (o.post x.1 [x.2]).postEach l := rfl
    rw [hcons, ih, queue_post]
    by_cases hx : x.1 = i
    · simp [hx]
    · simp [hx, Ne.symm hx]

/-- Posting the entries of a dictionary posts to `i` what the dictionary holds for it. -/
theorem queue_postEach_entries {ν : Type*} (d : Dict ι ν) (f : ν → μ) :
    (o.postEach (d.entries.map fun x => (x.1, f x.2))).queue i =
      o.queue i ++ ((d.get? i).map f).toList := by
  have hf : ((d.entries.map fun x => (x.1, f x.2)).filter fun x => x.1 = i).map Prod.snd =
      ((d.entries.filter fun x => x.1 = i).map Prod.snd).map f := by
    rw [List.filter_map, List.map_map, List.map_map]
    rfl
  rw [queue_postEach, hf, Dict.entries_filter_key, Option.toList_map]

omit [DecidableEq ι] in
/-- The last of several messages is the last one heard if it is not blocked. -/
theorem filter_getLast? {m : μ} (hm : ms.getLast? = some m) (hb : block i m = false) :
    (ms.filter fun m => !block i m).getLast? = some m := by
  obtain ⟨l, rfl⟩ := List.getLast?_eq_some_iff.mp hm
  rw [List.filter_append, List.filter_singleton, hb]
  simp

end Outbox

end Ryu
