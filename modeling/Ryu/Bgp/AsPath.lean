import Ryu.Bgp.Processor

/-! # AS paths for neighbors without four-octet AS numbers

`_trans_as_path` splits a path into an AS_PATH, where AS_TRANS stands for the numbers that two
octets cannot hold, and an AS4_PATH. `_construct_as_path_attr` puts the two together again,
hop by hop from the end, where a set is one hop.
-/

namespace Ryu.Bgp

def asTrans : ℕ := 23456

def isValidOldAsn (asn : ℕ) : Bool := asn ≤ 0xffff

/-- One element of a flattened path. -/
inductive Hop
  | asn (asNumber : ℕ)
  | set (asNumbers : List ℕ)
  deriving DecidableEq, Repr

/-- `_listify`. -/
def listify : List AsPathSegment → List Hop
  | [] => []
  | .seq l :: li => l.map .asn ++ listify li
  | .set s :: li => .set s :: listify li

/-- `new_as_path_list` and `tmp_list`. -/
structure Regrouping where
  newAsPathList : List AsPathSegment
  tmpList : List ℕ

/-- Put what was collected in `tmp_list` in front of the new path. -/
def Regrouping.flush (st : Regrouping) : List AsPathSegment :=
  if st.tmpList = [] then st.newAsPathList else .seq st.tmpList :: st.newAsPathList

/-- One pass of the loop over `zip_longest`. -/
def regroupStep (st : Regrouping) : Option Hop × Option Hop → Regrouping
  | (some (.asn n), none) => { st with tmpList := n :: st.tmpList }
  | (some (.set s), none) => ⟨.set s :: st.flush, []⟩
  | (none, none) => st
  | (_, some (.asn n)) => { st with tmpList := n :: st.tmpList }
  | (_, some (.set s)) => ⟨.set s :: st.flush, []⟩

/-- `_construct_as_path_attr`. -/
def constructAsPathAttr (asPath : List AsPathSegment) :
    Option (List AsPathSegment) → List AsPathSegment
  | none => asPath
  | some as4Path =>
    if getAsPathLen asPath < getAsPathLen as4Path then asPath
    else
      let orgAsPathList := (listify asPath).reverse
      let as4PathList := (listify as4Path).reverse
      ((orgAsPathList.zipWithAll Prod.mk as4PathList).foldl regroupStep ⟨[], []⟩).flush

/-- `_swap`. -/
def swap (n : ℕ) : ℕ := if isValidOldAsn n then n else asTrans

/-- The segment with its numbers swapped; a set loses what becomes equal. -/
def swapSegment : AsPathSegment → AsPathSegment
  | .set s => .set (s.map swap).dedup
  | .seq l => .seq (l.map swap)

/-- Equality of segments; the order of a set does not matter. -/
def segmentEq : AsPathSegment → AsPathSegment → Bool
  | .set s, .set t => s ⊆ t && t ⊆ s
  | .seq l, .seq m => l = m
  | _, _ => false

def asPathEq (p q : List AsPathSegment) : Bool :=
  p.length = q.length && (p.zip q).all fun x => segmentEq x.1 x.2

/-- `_trans_as_path`. -/
def transAsPath (fourOctetCapValid : Bool) (asPathList : List AsPathSegment) :
    List AsPathSegment × Option (List AsPathSegment) :=
  if fourOctetCapValid then (asPathList, none)
  else
    let newAsPathList := asPathList.map swapSegment
    if asPathEq asPathList newAsPathList then (asPathList, none)
    else (newAsPathList, some asPathList)

/-- Merge adjacent sequences. -/
def mergeSeqs : List AsPathSegment → List AsPathSegment
  | [] => []
  | .set s :: p => .set s :: mergeSeqs p
  | .seq l :: p =>
    match mergeSeqs p with
    | .seq m :: q => .seq (l ++ m) :: q
    | q => .seq l :: q

/-- The path without its empty sequences. -/
def nonempty (p : List AsPathSegment) : List AsPathSegment := p.filter (· ≠ .seq [])

section Regroup

variable {p q : List AsPathSegment} {hs : List Hop} {st : Regrouping}

/-- The length of a path is the number of its hops. -/
theorem getAsPathLen_eq (p : List AsPathSegment) : getAsPathLen p = (listify p).length := by
  induction p with
  | nil => rfl
  | cons s p ih =>
    cases s with
    | set s => rw [getAsPathLen, listify, List.length_cons, ih, Nat.add_comm]
    | seq l => rw [getAsPathLen, listify, List.length_append, List.length_map, ih]

/-- Collect one hop in front of those after it. -/
def collect : Hop → Regrouping → Regrouping
  | .asn n, st => { st with tmpList := n :: st.tmpList }
  | .set s, st => ⟨.set s :: st.flush, []⟩

/-- The segments that hops are grouped to. -/
def regroup (hs : List Hop) : List AsPathSegment := (hs.foldr collect ⟨[], []⟩).flush

theorem listify_flush (st : Regrouping) :
    listify st.flush = st.tmpList.map .asn ++ listify st.newAsPathList := by
  unfold Regrouping.flush
  split
  · next h => rw [h, List.map_nil, List.nil_append]
  · rfl

/-- Grouping keeps the hops. -/
theorem listify_regroup (hs : List Hop) : listify (regroup hs) = hs := by
  unfold regroup
  rw [listify_flush]
  induction hs with
  | nil => rfl
  | cons h hs ih =>
    cases h with
    | asn n => exact congrArg (Hop.asn n :: ·) ih
    | set s =>
      rw [← listify_flush] at ih
      exact congrArg (Hop.set s :: ·) ih

theorem foldr_collect_asns (l : List ℕ) (st : Regrouping) :
    (l.map Hop.asn).foldr collect st = { st with tmpList := l ++ st.tmpList } := by
  induction l with
  | nil => rfl
  | cons n l ih => rw [List.map_cons, List.foldr_cons, ih]; rfl

/-- Behind an empty collection there is no sequence that it could have been put into. -/
theorem newAsPathList_ne_seq (hs : List Hop) (ht : (hs.foldr collect ⟨[], []⟩).tmpList = [])
    (m : List ℕ) (q : List AsPathSegment) :
    (hs.foldr collect ⟨[], []⟩).newAsPathList ≠ .seq m :: q := by
  cases hs with
  | nil => simp
  | cons h hs =>
    cases h with
    | asn n => simp [collect] at ht
    | set s => simp [collect]

theorem flush_ne_nil (st : Regrouping) {l : List ℕ} (hl : l ≠ []) :
    Regrouping.flush { st with tmpList := l } = .seq l :: st.newAsPathList :=
  if_neg hl

/-- Grouping the hops of a path merges its sequences and drops the empty ones. -/
theorem regroup_listify (p : List AsPathSegment) :
    regroup (listify p) = mergeSeqs (nonempty p) := by
  induction p with
  | nil => rfl
  | cons seg p ih =>
    cases seg with
    | set s => exact congrArg (AsPathSegment.set s :: ·) ih
    | seq l =>
      rcases eq_or_ne l [] with rfl | hl
      · exact ih
      have hne : nonempty (.seq l :: p) = .seq l :: nonempty p := by simp [nonempty, hl]
      rw [hne, mergeSeqs, ← ih]
      unfold regroup
      rw [listify, List.foldr_append, foldr_collect_asns, flush_ne_nil _ (by simp [hl])]
      rcases eq_or_ne ((listify p).foldr collect ⟨[], []⟩).tmpList [] with ht | ht
      · have hseq := newAsPathList_ne_seq (listify p) ht
        rw [ht, List.append_nil, Regrouping.flush, if_pos ht]
        split
        · next heq => exact absurd heq (hseq _ _)
        · rfl
      · rw [Regrouping.flush, if_neg ht]

theorem regroupStep_eq (st : Regrouping) (a b : Option Hop) :
    regroupStep st (a, b) = ((b.or a).map fun h => collect h st).getD st := by
  rcases a with _ | ⟨_ | _⟩ <;> rcases b with _ | ⟨_ | _⟩ <;> rfl

/-- The loop takes the hops of AS4_PATH as far as they reach, and then those of AS_PATH. -/
theorem foldl_regroupStep {xs ys : List Hop} (hl : ys.length ≤ xs.length) (st : Regrouping) :
    (xs.zipWithAll Prod.mk ys).foldl regroupStep st =
      (ys ++ xs.drop ys.length).foldl (fun st h => collect h st) st := by
  induction xs generalizing ys st with
  | nil =>
    obtain rfl : ys = [] := List.length_eq_zero_iff.mp (Nat.le_zero.mp hl)
    rfl
  | cons x xs ih =>
    cases ys with
    | nil =>
      have h := @ih [] (Nat.zero_le xs.length) (collect x st)
      rw [List.zipWithAll_nil] at h ⊢
      rw [List.map_cons, List.foldl_cons, regroupStep_eq]
      exact h
    | cons y ys =>
      rw [List.zipWithAll_cons_cons, List.foldl_cons, regroupStep_eq]
      exact ih (Nat.le_of_succ_le_succ hl) (collect y st)

/-- What is constructed has the hops of AS4_PATH, behind the leading hops of AS_PATH that
AS4_PATH lacks. -/
theorem constructAsPathAttr_eq (asPath as4Path : List AsPathSegment)
    (hl : getAsPathLen as4Path ≤ getAsPathLen asPath) :
    constructAsPathAttr asPath (some as4Path) =
      regroup ((listify asPath).take (getAsPathLen asPath - getAsPathLen as4Path) ++
        listify as4Path) := by
  have hlen : (listify as4Path).reverse.length ≤ (listify asPath).reverse.length := by
    simpa [getAsPathLen_eq] using hl
  rw [constructAsPathAttr, if_neg (Nat.not_lt.mpr hl)]
  dsimp only
  rw [foldl_regroupStep hlen, regroup, ← List.foldl_reverse, List.reverse_append,
    List.reverse_take, List.length_reverse, getAsPathLen_eq, getAsPathLen_eq]
  congr 3
  rw [Nat.sub_sub_self]
  rwa [getAsPathLen_eq, getAsPathLen_eq] at hl

theorem listify_constructAsPathAttr {asPath as4Path : List AsPathSegment}
    (hl : getAsPathLen as4Path ≤ getAsPathLen asPath) :
    listify (constructAsPathAttr asPath (some as4Path)) =
      (listify asPath).take (getAsPathLen asPath - getAsPathLen as4Path) ++ listify as4Path := by
  rw [constructAsPathAttr_eq asPath as4Path hl, listify_regroup]

theorem getAsPathLen_map_swapSegment (p : List AsPathSegment) :
    getAsPathLen (p.map swapSegment) = getAsPathLen p := by
  induction p with
  | nil => rfl
  | cons seg p ih =>
    cases seg with
    | set s => exact congrArg (1 + ·) ih
    | seq l => simp [swapSegment, getAsPathLen, ih]

/-- The numbers that two octets cannot hold come back from AS4_PATH. -/
theorem listify_construct_trans (p : List AsPathSegment) :
    listify (constructAsPathAttr (transAsPath false p).1 (transAsPath false p).2) = listify p := by
  unfold transAsPath
  rw [if_neg (by decide)]
  dsimp only
  split
  · rfl
  · have hlen := getAsPathLen_map_swapSegment p
    rw [listify_constructAsPathAttr hlen.ge, hlen, Nat.sub_self]
    rfl

end Regroup

/-- A path that was translated for a neighbor without four-octet numbers is reconstructed up to
merging adjacent sequences and leaving out empty ones; and what is reconstructed from an AS_PATH
that is not the shorter of the two is as long as it and ends with the AS4_PATH. -/
theorem asPath_reconstructed :
    (∀ p : List AsPathSegment,
      mergeSeqs (nonempty (constructAsPathAttr (transAsPath false p).1 (transAsPath false p).2)) =
        mergeSeqs (nonempty p)) ∧
    ∀ asPath as4Path : List AsPathSegment, getAsPathLen as4Path ≤ getAsPathLen asPath →
      getAsPathLen (constructAsPathAttr asPath (some as4Path)) = getAsPathLen asPath ∧
        listify as4Path <:+ listify (constructAsPathAttr asPath (some as4Path)) := by
  refine ⟨fun p => ?_, fun asPath as4Path hl => ⟨?_, ?_⟩⟩
  · rw [← regroup_listify, ← regroup_listify, listify_construct_trans]
  · have h := listify_constructAsPathAttr hl
    rw [getAsPathLen_eq asPath, getAsPathLen_eq as4Path] at hl h
    rw [getAsPathLen_eq, h, getAsPathLen_eq asPath, List.length_append, List.length_take]
    omega
  · rw [listify_constructAsPathAttr hl]
    exact List.suffix_append _ _

/-- An empty sequence next to a set is lost, where merging sequences does not touch it. -/
theorem emptySeq_lost :
    ¬ ∀ p : List AsPathSegment,
      mergeSeqs (constructAsPathAttr (transAsPath false p).1 (transAsPath false p).2) =
        mergeSeqs p := by
  intro h
  exact absurd (h [.seq [], .set [70000]]) (by decide)

end Ryu.Bgp
