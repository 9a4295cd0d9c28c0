import Ryu.Lib.Links
import Ryu.Lib.Python

/-! # Circular lists

Nodes are linked by attributes of their own, and a list is the head of its ring. Whether a node
is on a list is told from its links alone. Every operation does to the links what it does to the
sequences of nodes that the lists stand for, and an iteration over a list visits its nodes in
order, even if it removes the one it is at.
-/

namespace Ryu.Bgp

open Function Links

/-- The objects that are linked: lists, as their own heads, and nodes. -/
inductive CircObj (κ ν : Type*)
  | head (k : κ)
  | node (n : ν)
  deriving DecidableEq, Repr

section Model

variable {κ ν : Type*}

/-- The attributes of the objects. -/
abbrev CircLinks (κ ν : Type*) := Links (CircObj κ ν)

/-- The lists after `node_init`, and nodes without the attributes. -/
def CircLinks.init : CircLinks κ ν where
  next
    | .head k => some (.head k)
    | .node _ => none
  prev
    | .head k => some (.head k)
    | .node _ => none

/-- A call of a method of some list, or a loop over it; the loop may remove the current node. -/
inductive CircOp (κ ν : Type*)
  | append (k : κ) (n : ν)
  | prepend (k : κ) (n : ν)
  | remove (n : ν)
  | popFirst (k : κ)
  | clear (k : κ)
  | loop (k : κ) (removes : CircObj κ ν → Bool)
  | isOnList (n : ν)
  | isEmpty (k : κ)

/-- What a call gives: nothing, an exception, a node or `None`, the nodes that were visited, or a
truth value. -/
inductive CircOut (κ ν : Type*)
  | done
  | error (e : PyError)
  | popped (x : Option (CircObj κ ν))
  | visited (xs : List (Option (CircObj κ ν)))
  | bool (b : Bool)
  deriving DecidableEq, Repr

/-- A method that raises leaves the links as they were. -/
def CircLinks.outcome (s : CircLinks κ ν) : Except PyError (CircLinks κ ν) → CircOut κ ν × CircLinks κ ν
  | .error e => (.error e, s)
  | .ok s' => (.done, s')

/-- A method that tells something and changes nothing. -/
def CircLinks.tell (s : CircLinks κ ν) : Except PyError Bool → CircOut κ ν × CircLinks κ ν
  | .error e => (.error e, s)
  | .ok b => (.bool b, s)

/-- No list has the node. -/
def Unlisted (L : κ → List ν) (n : ν) : Prop := ∀ k, n ∉ L k

/-- The links are the rings of the sequences: every node is on one list at most, and a node that
is on none has no attributes. -/
structure Represents (s : CircLinks κ ν) (L : κ → List ν) : Prop where
  ring : ∀ k, s.OnRing (.head k) ((L k).map .node)
  unique : ∀ {k k' n}, n ∈ L k → n ∈ L k' → k = k'
  unlisted : ∀ {n}, Unlisted L n → s.next (.node n) = none ∧ s.prev (.node n) = none

variable [DecidableEq κ] [DecidableEq ν]

namespace CircLinks

section Operations

variable (eq : CircObj κ ν → CircObj κ ν → Bool) (s : CircLinks κ ν)

/-- `node_is_on_list`, where `==` of the objects is `eq`. -/
def nodeIsOnList (x : CircObj κ ν) : Except PyError Bool :=
  match s.next x with
  | none => if s.prev x = none then .ok false else .error .assertionError
  | some next =>
    if eq next x then
      if s.prev x = some next then .ok false else .error .assertionError
    else .ok true

/-- `node_insert_after`. -/
def nodeInsertAfter (node newNode : CircObj κ ν) : Except PyError (CircLinks κ ν) :=
  match nodeIsOnList eq s newNode with
  | .error e => .error e
  | .ok true => .error .assertionError
  | .ok false =>
    if node = newNode then .error .assertionError
    else
      match s.next node with
      | none => .error .assertionError
      | some next => .ok ((s.link node newNode).link newNode next)

/-- `node_insert_before`. -/
def nodeInsertBefore (node newNode : CircObj κ ν) : Except PyError (CircLinks κ ν) :=
  match nodeIsOnList eq s newNode with
  | .error e => .error e
  | .ok true => .error .assertionError
  | .ok false =>
    if node = newNode then .error .assertionError
    else
      match s.prev node with
      | none => .error .assertionError
      | some prev => .ok ((s.link newNode node).link prev newNode)

/-- `node_unlink`. -/
def nodeUnlink (x : CircObj κ ν) : Except PyError (CircLinks κ ν) :=
  match nodeIsOnList eq s x with
  | .error e => .error e
  | .ok false => .ok s
  | .ok true =>
    match s.prev x, s.next x with
    | some prev, some next => .ok ((s.link prev next).link x x)
    | _, _ => .error (.attributeError "None")

/-- `node_del_attrs`. The slots of a list are no attributes of these names, and without the first
attribute the second is not deleted. -/
def nodeDelAttrs : CircObj κ ν → CircLinks κ ν
  | .head _ => s
  | .node n =>
    if s.next (.node n) = none then s
    else ⟨update s.next (.node n) none, update s.prev (.node n) none⟩

/-- `remove`. -/
def remove (x : CircObj κ ν) : Except PyError (CircLinks κ ν) :=
  (nodeUnlink eq s x).map fun s => s.nodeDelAttrs x

/-- `append`. -/
def append (k : κ) (n : ν) : Except PyError (CircLinks κ ν) :=
  nodeInsertBefore eq s (.head k) (.node n)

/-- `prepend`. -/
def prepend (k : κ) (n : ν) : Except PyError (CircLinks κ ν) :=
  nodeInsertAfter eq s (.head k) (.node n)

/-- `pop_first`. To remove `None` does nothing. -/
def popFirst (k : κ) : Except PyError (Option (CircObj κ ν) × CircLinks κ ν) :=
  match s.next (.head k) with
  | none => .ok (none, s)
  | some x => if x = .head k then .ok (none, s) else (remove eq s x).map fun s => (some x, s)

/-- `is_empty`. -/
def isEmpty (k : κ) : Except PyError Bool := (nodeIsOnList eq s (.head k)).map (!·)

/-- The body of a loop over a list that removes some of the nodes it is at. -/
def removeIf (removes : CircObj κ ν → Bool) : Option (CircObj κ ν) → Except PyError (CircLinks κ ν)
  | none => .ok s
  | some x => if removes x then remove eq s x else .ok s

/-- At most so many rounds of a loop over the generator of a list: the node the loop is at, and
the one after it, which the generator has looked up before. The nodes that were visited and the
exception that has ended the loop, if one has. -/
def iterate (k : κ) (removes : CircObj κ ν → Bool) :
    ℕ → Option (CircObj κ ν) → Option (CircObj κ ν) → CircLinks κ ν →
      Option (List (Option (CircObj κ ν)) × Option PyError × CircLinks κ ν)
  | 0, _, _, _ => none
  | fuel + 1, node, next, s =>
    if node = some (.head k) then some ([], none, s)
    else
      match removeIf eq s removes node with
      | .error e => some ([node], some e, s)
      | .ok s =>
        (iterate k removes fuel next (next.bind s.next) s).map fun r => (node :: r.1, r.2)

end Operations

end CircLinks

namespace CircLinks

variable (eq : CircObj κ ν → CircObj κ ν → Bool)

/-- A loop from the first node. -/
def loop (fuel : ℕ) (s : CircLinks κ ν) (k : κ) (removes : CircObj κ ν → Bool) :
    Option (List (Option (CircObj κ ν)) × Option PyError × CircLinks κ ν) :=
  let node := s.next (.head k)
  iterate eq k removes fuel node (node.bind s.next) s

/-- One call, with so many rounds at most if it is a loop. -/
def step (fuel : ℕ) (s : CircLinks κ ν) : CircOp κ ν → Option (CircOut κ ν × CircLinks κ ν)
  | .append k n => some (s.outcome (s.append eq k n))
  | .prepend k n => some (s.outcome (s.prepend eq k n))
  | .remove n => some (s.outcome (s.remove eq (.node n)))
  | .popFirst k =>
    match s.popFirst eq k with
    | .error e => some (.error e, s)
    | .ok (x, s') => some (.popped x, s')
  | .clear k => (s.loop eq fuel k fun _ => true).map fun r =>
    (match r.2.1 with | none => .done | some e => .error e, r.2.2)
  | .loop k removes => (s.loop eq fuel k removes).map fun r =>
    (match r.2.1 with | none => .visited r.1 | some e => .error e, r.2.2)
  | .isOnList n => some (s.tell (s.nodeIsOnList eq (.node n)))
  | .isEmpty k => some (s.tell (s.isEmpty eq k))

/-- Calls one after the other, and what each gives. -/
def run (fuel : ℕ) : CircLinks κ ν → List (CircOp κ ν) →
    Option (List (CircOut κ ν) × CircLinks κ ν)
  | s, [] => some ([], s)
  | s, op :: ops =>
    match step eq fuel s op with
    | none => none
    | some (out, s') => (run fuel s' ops).map fun r => (out :: r.1, r.2)

end CircLinks

/-! ## The sequences the lists stand for -/

/-- What a call does to the sequences, and gives. -/
inductive CircSpec (L : κ → List ν) : CircOp κ ν → CircOut κ ν → (κ → List ν) → Prop
  | append {k : κ} {n : ν} (h : Unlisted L n) :
    CircSpec L (.append k n) .done (update L k (L k ++ [n]))
  | appendListed {k k' : κ} {n : ν} (h : n ∈ L k') :
    CircSpec L (.append k n) (.error .assertionError) L
  | prepend {k : κ} {n : ν} (h : Unlisted L n) :
    CircSpec L (.prepend k n) .done (update L k (n :: L k))
  | prependListed {k k' : κ} {n : ν} (h : n ∈ L k') :
    CircSpec L (.prepend k n) (.error .assertionError) L
  | remove {k : κ} {n : ν} (h : n ∈ L k) :
    CircSpec L (.remove n) .done (update L k ((L k).erase n))
  | removeUnlisted {n : ν} (h : Unlisted L n) : CircSpec L (.remove n) .done L
  | popFirst {k : κ} {n : ν} {l : List ν} (h : L k = n :: l) :
    CircSpec L (.popFirst k) (.popped (some (.node n))) (update L k l)
  | popFirstEmpty {k : κ} (h : L k = []) : CircSpec L (.popFirst k) (.popped none) L
  | clear {k : κ} : CircSpec L (.clear k) .done (update L k [])
  | loop {k : κ} {removes : CircObj κ ν → Bool} :
    CircSpec L (.loop k removes) (.visited ((L k).map fun n => some (.node n)))
      (update L k ((L k).filter fun n => !removes (.node n)))
  | isOnList {k : κ} {n : ν} (h : n ∈ L k) : CircSpec L (.isOnList n) (.bool true) L
  | isNotOnList {n : ν} (h : Unlisted L n) : CircSpec L (.isOnList n) (.bool false) L
  | isEmpty {k : κ} : CircSpec L (.isEmpty k) (.bool (L k).isEmpty) L

/-- Calls one after the other. -/
inductive CircSpecRun : (κ → List ν) → List (CircOp κ ν) → List (CircOut κ ν) →
    (κ → List ν) → Prop
  | nil (L : κ → List ν) : CircSpecRun L [] [] L
  | cons {L L' L'' : κ → List ν} {op : CircOp κ ν} {ops : List (CircOp κ ν)} {out : CircOut κ ν}
      {outs : List (CircOut κ ν)} (h : CircSpec L op out L') (hrun : CircSpecRun L' ops outs L'') :
      CircSpecRun L (op :: ops) (out :: outs) L''

end Model

section Steps

open CircLinks

variable {κ ν : Type*} {s s' : CircLinks κ ν} {L : κ → List ν} {k k' : κ} {n m : ν} {l : List ν}

@[simp] theorem node_mem_ring : (CircObj.node n : CircObj κ ν) ∈ .head k :: l.map .node ↔ n ∈ l := by
  simp

theorem Represents.init : Represents (CircLinks.init : CircLinks κ ν) fun _ => [] where
  ring k := ⟨List.isChain_cons_cons.mpr ⟨⟨rfl, rfl⟩, .singleton _⟩, List.nodup_singleton _⟩
  unique h := by cases h
  unlisted _ := ⟨rfl, rfl⟩

theorem Represents.nodup (h : Represents s L) (k : κ) : (L k).Nodup :=
  (List.nodup_cons.mp (h.ring k).nodup).2.of_map _

/-- No object is on two rings. -/
theorem Represents.disjoint (h : Represents s L) {x : CircObj κ ν}
    (hx : x ∈ .head k :: (L k).map .node) (hx' : x ∈ .head k' :: (L k').map .node) : k = k' := by
  cases x with
  | head i =>
    obtain rfl : i = k := by simpa using hx
    simpa using hx'
  | node n => exact h.unique (node_mem_ring.1 hx) (node_mem_ring.1 hx')

theorem Represents.notMem (h : Represents s L) (hk : k' ≠ k) {x : CircObj κ ν}
    (hx : x ∈ .head k :: (L k).map .node) : x ∉ .head k' :: (L k').map .node :=
  fun hx' => hk (h.disjoint hx hx').symm

variable [DecidableEq κ]

/-- The sequence of one list is changed, and the rings of the others are kept. -/
theorem Represents.update (h : Represents s L) (hk : s'.OnRing (.head k) (l.map .node))
    (hothers : ∀ k', k' ≠ k → s'.OnRing (.head k') ((L k').map .node))
    (hnew : ∀ m ∈ l, ∀ k', k' ≠ k → m ∉ L k')
    (hout : ∀ m, m ∉ l → (∀ k', k' ≠ k → m ∉ L k') →
      s'.next (.node m) = none ∧ s'.prev (.node m) = none) :
    Represents s' (update L k l) where
  ring k' := by
    by_cases hkk : k' = k
    · subst hkk
      rwa [update_self]
    · rw [update_of_ne hkk]
      exact hothers k' hkk
  unique {i j m} hi hj := by
    by_cases hik : i = k
    · by_cases hjk : j = k
      · rw [hik, hjk]
      · rw [hik, update_self] at hi
        rw [update_of_ne hjk] at hj
        exact absurd hj (hnew m hi j hjk)
    · rw [update_of_ne hik] at hi
      by_cases hjk : j = k
      · rw [hjk, update_self] at hj
        exact absurd hi (hnew m hj i hik)
      · rw [update_of_ne hjk] at hj
        exact h.unique hi hj
  unlisted {m} hm := by
    refine hout m ?_ fun k' hk' => ?_
    · have hmk := hm k
      rwa [update_self] at hmk
    · have hmk := hm k'
      rwa [update_of_ne hk'] at hmk

variable [DecidableEq ν]

/-- Nodes and lists are equal if they are the same object. -/
def identity (x y : CircObj κ ν) : Bool := x = y

/-- A node of a list is on a list, and one of none is not. -/
theorem Represents.nodeIsOnList (h : Represents s L) (hn : n ∈ L k) :
    s.nodeIsOnList identity (.node n) = .ok true := by
  obtain ⟨xs, ys, hL⟩ := List.append_of_mem hn
  have hring := h.ring k
  rw [hL, List.map_append, List.map_cons] at hring
  have hne := hring.next_ne
  cases hnext : s.next (.node n) with
  | none =>
    rw [hring.neighbours.2, List.head?_eq_none_iff] at hnext
    simp at hnext
  | some x =>
    have hx : identity x (.node n) = false := by
      rw [identity, decide_eq_false_iff_not]
      rintro rfl
      exact hne hnext
    rw [CircLinks.nodeIsOnList, hnext]
    simp only [hx, Bool.false_eq_true, if_false]

theorem Represents.nodeIsOnList_of_unlisted (h : Represents s L) (hn : Unlisted L n) :
    s.nodeIsOnList identity (.node n) = .ok false := by
  obtain ⟨hnext, hprev⟩ := h.unlisted hn
  rw [CircLinks.nodeIsOnList, hnext]
  exact if_pos hprev

theorem Represents.isEmpty (h : Represents s L) : s.isEmpty identity k = .ok (L k).isEmpty := by
  have hnext := (h.ring k).next_head
  have hprev := (h.ring k).prev_head
  rw [CircLinks.isEmpty, CircLinks.nodeIsOnList]
  cases hL : L k with
  | nil =>
    rw [hL] at hnext hprev
    simp only [List.map_nil, List.nil_append, List.head?_cons, List.getLast?_singleton]
      at hnext hprev
    simp [hnext, hprev, identity, Except.map]
  | cons n l =>
    rw [hL] at hnext
    simp only [List.map_cons, List.cons_append, List.head?_cons] at hnext
    simp [hnext, identity, Except.map]

/-- A node is put at the end of a list, or at its beginning, by joins that change nothing but its
own links and some on the ring. -/
theorem Represents.insert (h : Represents s L) (hn : Unlisted L n) {a b c d : CircObj κ ν}
    (ha : a ∈ .head k :: (L k).map .node ∨ a = .node n)
    (hb : b ∈ .head k :: (L k).map .node ∨ b = .node n)
    (hc : c ∈ .head k :: (L k).map .node ∨ c = .node n)
    (hd : d ∈ .head k :: (L k).map .node ∨ d = .node n)
    (hring : ((s.link a b).link c d).OnRing (.head k) (l.map .node))
    (hl : ∀ m, m ∈ l ↔ m = n ∨ m ∈ L k) :
    Represents ((s.link a b).link c d) (Function.update L k l) := by
  have hout : ∀ {x : CircObj κ ν} {k'}, (x ∈ .head k :: (L k).map .node ∨ x = .node n) → k' ≠ k →
      x ∉ .head k' :: (L k').map .node := by
    rintro x k' (hx | rfl) hk
    · exact h.notMem hk hx
    · rw [node_mem_ring]
      exact hn k'
  have hne : ∀ {x : CircObj κ ν} {m}, (x ∈ .head k :: (L k).map .node ∨ x = .node n) → m ∉ l →
      (.node m : CircObj κ ν) ≠ x := by
    rintro x m (hx | rfl) hm he
    · exact hm ((hl m).mpr (.inr (node_mem_ring.1 (he ▸ hx))))
    · exact hm ((hl m).mpr (.inl (CircObj.node.inj he)))
  refine h.update hring (fun k' hk => ?_) (fun m hm k' hk => ?_) fun m hm hother => ?_
  · exact ((h.ring k').link (hout ha hk) (hout hb hk)).link (hout hc hk) (hout hd hk)
  · rcases (hl m).mp hm with rfl | hm
    · exact hn k'
    · exact fun hm' => hk (h.unique hm' hm)
  · have hm' : Unlisted L m := by
      intro k'
      by_cases hk : k' = k
      · subst hk
        exact fun hmk => hm ((hl m).mpr (.inr hmk))
      · exact hother k' hk
    rw [link_next_of_ne (hne hc hm), link_next_of_ne (hne ha hm), link_prev_of_ne (hne hd hm),
      link_prev_of_ne (hne hb hm)]
    exact h.unlisted hm'

theorem Represents.append (h : Represents s L) (hn : Unlisted L n) :
    ∃ s', s.append identity k n = .ok s' ∧ Represents s' (Function.update L k (L k ++ [n])) := by
  obtain ⟨p, hprev, hp⟩ := (h.ring k).exists_last
  refine ⟨(s.link (.node n) (.head k)).link p (.node n), ?_, ?_⟩
  · rw [CircLinks.append, nodeInsertBefore, h.nodeIsOnList_of_unlisted hn]
    simp [hprev]
  · refine h.insert hn (.inr rfl) (.inl List.mem_cons_self) (.inl hp) (.inr rfl) ?_ ?_
    · rw [List.map_append]
      exact (h.ring k).append (by simpa using hn k) hprev
    · intro m
      rw [List.mem_append, List.mem_singleton, or_comm]

theorem Represents.prepend (h : Represents s L) (hn : Unlisted L n) :
    ∃ s', s.prepend identity k n = .ok s' ∧ Represents s' (Function.update L k (n :: L k)) := by
  obtain ⟨p, hnext, hp⟩ := (h.ring k).exists_first
  refine ⟨(s.link (.head k) (.node n)).link (.node n) p, ?_, ?_⟩
  · rw [CircLinks.prepend, nodeInsertAfter, h.nodeIsOnList_of_unlisted hn]
    simp [hnext]
  · refine h.insert hn (.inl List.mem_cons_self) (.inr rfl) (.inr rfl) (.inl hp) ?_ ?_
    · exact (h.ring k).prepend (by simpa using hn k) hnext
    · exact fun m => List.mem_cons

theorem Represents.remove (h : Represents s L) (hn : n ∈ L k) :
    ∃ s', s.remove identity (.node n) = .ok s' ∧
      Represents s' (Function.update L k ((L k).erase n)) := by
  obtain ⟨xs, ys, hL⟩ := List.append_of_mem hn
  have hring := h.ring k
  have hd := h.nodup k
  rw [hL] at hd
  rw [hL, List.map_append, List.map_cons] at hring
  obtain ⟨p, q, hprev, hnext, hp, hq⟩ := hring.exists_neighbours
  rw [← List.map_cons, ← List.map_append, ← hL] at hp hq
  have hunlink : nodeUnlink identity s (.node n) = .ok ((s.link p q).link (.node n) (.node n)) := by
    rw [nodeUnlink, h.nodeIsOnList hn]
    simp only [hprev, hnext]
  have herase : (L k).erase n = xs ++ ys := by
    have hnx : n ∉ xs := fun hm => (List.nodup_append.mp hd).2.2 n hm n List.mem_cons_self rfl
    rw [hL, List.erase_append_right _ hnx, List.erase_cons_head]
  have hnew : n ∉ xs ++ ys := by
    rw [← herase]
    exact (h.nodup k).not_mem_erase
  have hlinked : ((s.link p q).link (.node n) (.node n)).next (.node n) ≠ none := by
    rw [(joined_link _ _ _).1]
    exact Option.some_ne_none _
  refine ⟨nodeDelAttrs ((s.link p q).link (.node n) (.node n)) (.node n), ?_, ?_⟩
  · rw [CircLinks.remove, hunlink]
    rfl
  · -- Apart from the links of the node itself, its neighbours have been joined.
    rw [nodeDelAttrs, if_neg hlinked, herase]
    have hframe : ∀ {c : CircObj κ ν}, c ≠ .node n →
        Function.update (((s.link p q).link (.node n) (.node n)).next) (.node n) none c =
            (s.link p q).next c ∧
          Function.update (((s.link p q).link (.node n) (.node n)).prev) (.node n) none c =
            (s.link p q).prev c := by
      intro c hc
      rw [update_of_ne hc, update_of_ne hc, link_next_of_ne hc, link_prev_of_ne hc]
      exact ⟨rfl, rfl⟩
    refine h.update ?_ (fun k' hk' => ?_) (fun m hm k' hk' hm' => ?_) fun m hm hother => ?_
    · rw [List.map_append]
      refine (hring.remove hprev hnext).congr (fun c hc => (hframe ?_).1) fun c hc => (hframe ?_).2
      all_goals
        rintro rfl
        rw [← List.map_append, node_mem_ring] at hc
        exact hnew hc
    · refine ((h.ring k').link (h.notMem hk' hp) (h.notMem hk' hq)).congr
        (fun c hc => (hframe ?_).1) fun c hc => (hframe ?_).2
      all_goals
        rintro rfl
        exact hk' (h.unique (node_mem_ring.1 hc) hn)
    · refine hk' (h.unique hm' (?_ : m ∈ L k))
      rw [hL]
      rcases List.mem_append.mp hm with hm | hm
      · exact List.mem_append_left _ hm
      · exact List.mem_append_right _ (List.mem_cons_of_mem n hm)
    · by_cases hmn : m = n
      · subst hmn
        exact ⟨update_self .., update_self ..⟩
      · have hc : (.node m : CircObj κ ν) ≠ .node n := fun he => hmn (CircObj.node.inj he)
        have hm' : Unlisted L m := by
          intro k'
          by_cases hk' : k' = k
          · subst hk'
            rw [← herase] at hm
            exact fun hmk => hm ((List.mem_erase_of_ne hmn).mpr hmk)
          · exact hother k' hk'
        have hne : ∀ {x : CircObj κ ν}, x ∈ CircObj.head k :: (L k).map .node → .node m ≠ x := by
          rintro x hx rfl
          exact hm' k (node_mem_ring.1 hx)
        have hunlisted := h.unlisted hm'
        rw [← link_next_of_ne (s := s) (hne hp), ← link_prev_of_ne (s := s) (hne hq)] at hunlisted
        exact ⟨(hframe hc).1.trans hunlisted.1, (hframe hc).2.trans hunlisted.2⟩

theorem Represents.remove_unlisted (h : Represents s L) (hn : Unlisted L n) :
    s.remove identity (.node n) = .ok s := by
  rw [CircLinks.remove, nodeUnlink, h.nodeIsOnList_of_unlisted hn]
  simp only [Except.map]
  rw [nodeDelAttrs, if_pos (h.unlisted hn).1]

theorem Represents.popFirst (h : Represents s L) (hL : L k = n :: l) :
    ∃ s', s.popFirst identity k = .ok (some (.node n), s') ∧
      Represents s' (Function.update L k l) := by
  have hnext := (h.ring k).next_head
  rw [hL, List.map_cons, List.cons_append, List.head?_cons] at hnext
  have hn : n ∈ L k := hL ▸ List.mem_cons_self
  obtain ⟨s', hs', hrep⟩ := h.remove hn
  rw [hL, List.erase_cons_head] at hrep
  refine ⟨s', ?_, hrep⟩
  rw [CircLinks.popFirst, hnext]
  simp [hs', Except.map]

theorem Represents.popFirst_of_nil (h : Represents s L) (hL : L k = []) :
    s.popFirst identity k = .ok (none, s) := by
  have hnext := (h.ring k).next_head
  rw [hL, List.map_nil, List.nil_append, List.head?_cons] at hnext
  rw [CircLinks.popFirst, hnext]
  exact if_pos rfl

/-- The rest of a loop visits the rest of the sequence. The node after the current one is looked
up before the current one is removed, and is the next one all the same. -/
theorem Represents.iterate (removes : CircObj κ ν → Bool) {seen rest : List ν}
    (h : Represents s L) (hL : L k = seen ++ rest) :
    ∃ s', (∀ fuel > rest.length,
        CircLinks.iterate identity k removes fuel (rest.map CircObj.node ++ [CircObj.head k]).head?
          ((rest.map CircObj.node ++ [CircObj.head k]).head?.bind s.next) s =
            some (rest.map fun n => some (.node n), none, s')) ∧
      Represents s' (Function.update L k (seen ++ rest.filter fun n => !removes (.node n))) := by
  induction rest generalizing seen s L with
  | nil =>
    refine ⟨s, fun fuel hf => ?_, ?_⟩
    · obtain ⟨f, rfl⟩ := Nat.exists_eq_succ_of_ne_zero hf.ne'
      rw [CircLinks.iterate]
      exact if_pos rfl
    · rw [List.filter_nil, ← hL, update_eq_self]
      exact h
  | cons n rest ih =>
    have hn : n ∈ L k := by
      rw [hL]
      simp
    have hring := h.ring k
    rw [hL, List.map_append, List.map_cons] at hring
    have hnext := hring.neighbours.2
    -- What the body of the loop leaves, and the nodes it has kept.
    have hbody : ∃ s₁ L₁ seen₁, removeIf identity s removes (some (.node n)) = .ok s₁ ∧
        Represents s₁ L₁ ∧ L₁ k = seen₁ ++ rest ∧
        Function.update L₁ k (seen₁ ++ rest.filter fun n => !removes (.node n)) =
          Function.update L k (seen ++ (n :: rest).filter fun n => !removes (.node n)) := by
      cases hr : removes (.node n) with
      | true =>
        obtain ⟨s₁, hs₁, hrep⟩ := h.remove hn
        have hd := h.nodup k
        rw [hL] at hd
        have hseen : n ∉ seen := fun hm =>
          (List.nodup_append.mp hd).2.2 n hm n List.mem_cons_self rfl
        rw [hL, List.erase_append_right _ hseen, List.erase_cons_head] at hrep
        refine ⟨s₁, _, seen, ?_, hrep, update_self .., ?_⟩
        · rw [removeIf, if_pos hr, hs₁]
        · rw [update_idem, List.filter_cons_of_neg (by simp [hr])]
      | false =>
        refine ⟨s, L, seen ++ [n], ?_, h, by simp [hL], ?_⟩
        · rw [removeIf, hr]
          rfl
        · rw [List.filter_cons_of_pos (by simp [hr]), List.append_assoc]
          rfl
    obtain ⟨s₁, L₁, seen₁, hs₁, hrep, hL₁, heq⟩ := hbody
    obtain ⟨s', hs', hrep'⟩ := ih hrep hL₁
    refine ⟨s', fun fuel hf => ?_, heq ▸ hrep'⟩
    obtain ⟨f, rfl⟩ := Nat.exists_eq_succ_of_ne_zero (Nat.ne_of_gt (Nat.zero_lt_of_lt hf))
    have hf' : f > rest.length := Nat.lt_of_succ_lt_succ hf
    have hne : ¬(some (CircObj.node n) : Option (CircObj κ ν)) = some (.head k) := by simp
    simp only [List.map_cons, List.cons_append, List.head?_cons, Option.bind_some]
    rw [CircLinks.iterate, if_neg hne, hs₁, hnext]
    simp only [hs' f hf', Option.map_some]

theorem Represents.loop (removes : CircObj κ ν → Bool) (k : κ) (h : Represents s L) :
    ∃ s', (∀ fuel > (L k).length, s.loop identity fuel k removes =
        some ((L k).map fun n => some (.node n), none, s')) ∧
      Represents s' (Function.update L k ((L k).filter fun n => !removes (.node n))) := by
  obtain ⟨s', hs', hrep⟩ := h.iterate removes (List.nil_append (L k)).symm
  refine ⟨s', fun fuel hf => ?_, hrep⟩
  rw [CircLinks.loop, (h.ring k).next_head]
  exact hs' fuel hf

/-- A call does to the links what it does to the sequences, in so many rounds. -/
theorem Represents.step (h : Represents s L) (op : CircOp κ ν) :
    ∃ out L', CircSpec L op out L' ∧ ∃ bound s',
      (∀ fuel ≥ bound, s.step identity fuel op = some (out, s')) ∧ Represents s' L' := by
  cases op with
  | append k n =>
    by_cases hn : Unlisted L n
    · obtain ⟨s', hs', hrep⟩ := h.append (k := k) hn
      refine ⟨_, _, .append hn, 0, s', fun _ _ => ?_, hrep⟩
      rw [CircLinks.step, hs']
      rfl
    · obtain ⟨k', hk'⟩ := not_forall_not.mp hn
      refine ⟨_, _, .appendListed hk', 0, s, fun _ _ => ?_, h⟩
      rw [CircLinks.step, CircLinks.append, nodeInsertBefore, h.nodeIsOnList hk']
      rfl
  | prepend k n =>
    by_cases hn : Unlisted L n
    · obtain ⟨s', hs', hrep⟩ := h.prepend (k := k) hn
      refine ⟨_, _, .prepend hn, 0, s', fun _ _ => ?_, hrep⟩
      rw [CircLinks.step, hs']
      rfl
    · obtain ⟨k', hk'⟩ := not_forall_not.mp hn
      refine ⟨_, _, .prependListed hk', 0, s, fun _ _ => ?_, h⟩
      rw [CircLinks.step, CircLinks.prepend, nodeInsertAfter, h.nodeIsOnList hk']
      rfl
  | remove n =>
    by_cases hn : Unlisted L n
    · refine ⟨_, _, .removeUnlisted hn, 0, s, fun _ _ => ?_, h⟩
      rw [CircLinks.step, h.remove_unlisted hn]
      rfl
    · obtain ⟨k, hk⟩ := not_forall_not.mp hn
      obtain ⟨s', hs', hrep⟩ := h.remove hk
      refine ⟨_, _, .remove hk, 0, s', fun _ _ => ?_, hrep⟩
      rw [CircLinks.step, hs']
      rfl
  | popFirst k =>
    cases hL : L k with
    | nil =>
      refine ⟨_, _, .popFirstEmpty hL, 0, s, fun _ _ => ?_, h⟩
      simp only [CircLinks.step, h.popFirst_of_nil hL]
    | cons n l =>
      obtain ⟨s', hs', hrep⟩ := h.popFirst hL
      refine ⟨_, _, .popFirst hL, 0, s', fun _ _ => ?_, hrep⟩
      simp only [CircLinks.step, hs']
  | clear k =>
    obtain ⟨s', hs', hrep⟩ := h.loop (fun _ => true) k
    refine ⟨_, _, .clear, (L k).length + 1, s', fun fuel hf => ?_, by simpa using hrep⟩
    rw [CircLinks.step, hs' fuel hf]
    rfl
  | loop k removes =>
    obtain ⟨s', hs', hrep⟩ := h.loop removes k
    refine ⟨_, _, .loop, (L k).length + 1, s', fun fuel hf => ?_, hrep⟩
    rw [CircLinks.step, hs' fuel hf]
    rfl
  | isOnList n =>
    by_cases hn : Unlisted L n
    · refine ⟨_, _, .isNotOnList hn, 0, s, fun _ _ => ?_, h⟩
      rw [CircLinks.step, h.nodeIsOnList_of_unlisted hn]
      rfl
    · obtain ⟨k, hk⟩ := not_forall_not.mp hn
      refine ⟨_, _, .isOnList hk, 0, s, fun _ _ => ?_, h⟩
      rw [CircLinks.step, h.nodeIsOnList hk]
      rfl
  | isEmpty k =>
    refine ⟨_, _, .isEmpty, 0, s, fun _ _ => ?_, h⟩
    rw [CircLinks.step, h.isEmpty]
    rfl

theorem Represents.run (h : Represents s L) (ops : List (CircOp κ ν)) :
    ∃ outs L', CircSpecRun L ops outs L' ∧ ∃ bound s',
      (∀ fuel ≥ bound, s.run identity fuel ops = some (outs, s')) ∧ Represents s' L' := by
  induction ops generalizing s L with
  | nil => exact ⟨[], L, .nil L, 0, s, fun _ _ => rfl, h⟩
  | cons op ops ih =>
    obtain ⟨out, L₁, hspec, bound, s₁, hs₁, hrep⟩ := h.step op
    obtain ⟨outs, L₂, hrun, bound', s₂, hs₂, hrep'⟩ := ih hrep
    refine ⟨out :: outs, L₂, .cons hspec hrun, max bound bound', s₂, fun fuel hf => ?_, hrep'⟩
    rw [CircLinks.run, hs₁ fuel (Nat.le_trans (Nat.le_max_left ..) hf)]
    simp only [hs₂ fuel (Nat.le_trans (Nat.le_max_right ..) hf), Option.map_some]

end Steps

section Claims

variable {κ ν : Type*} [DecidableEq κ] [DecidableEq ν]

/-- Whatever is called, on whichever lists, the lists are the rings of the sequences that the
calls make of empty ones, every call gives what it gives of the sequences, and every loop ends. -/
theorem circList_run (ops : List (CircOp κ ν)) :
    ∃ outs L, CircSpecRun (fun _ => []) ops outs L ∧ ∃ bound s,
      (∀ fuel ≥ bound, CircLinks.run identity fuel CircLinks.init ops = some (outs, s)) ∧
        Represents s L :=
  Represents.init.run ops

end Claims

end Ryu.Bgp
