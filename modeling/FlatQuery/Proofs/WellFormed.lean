import FlatQuery.Proofs.Meaning
import FlatQuery.Proofs.NestedNodes

/-!
# Well-formed searches

An engine refuses a combination of nothing, and it answers a nested clause within another clause in
a way that no request asks for. `Clause.nodes` lists every clause of a tree together with its
place, and `Clause.WellFormed` says what has to hold of them. The nested clauses among them are the
outer ones, which `Clause.nestedNodes` lists, each before those within it (`nestedPaths_eq`). Nothing
checks that a tree is well formed. It follows from how trees are built: the builders of terms make
`Ordinary` clauses only, because a range has an interval and a group has a term, and `combine` puts
the nested queries beside them.
-/

namespace FlatQuery

namespace Clause

/-! ## Nodes -/

/-- A clause within a tree. It is covered if it stands in a `must_not` or in a nested clause. -/
structure Node where
  clause : Clause
  covered : Bool

mutual

/-- The nodes beneath a clause. -/
def beneath (covered : Bool) : Clause → List Node
  | any clauses => listBeneath covered clauses
  | nested _ _ predicate _ => ⟨predicate, true⟩ :: predicate.beneath true
  | bool must filter mustNot =>
    slotBeneath covered must ++ slotBeneath covered filter ++ slotBeneath true mustNot
  | matchAll | equals .. | oneOf .. | inRange .. | wildcard .. | common .. | near .. => []
termination_by structural c => c

def listBeneath (covered : Bool) : List Clause → List Node
  | [] => []
  | c :: cs => ⟨c, covered⟩ :: c.beneath covered ++ listBeneath covered cs
termination_by structural cs => cs

def slotBeneath (covered : Bool) : Slot Clause → List Node
  | .empty => []
  | .one c => ⟨c, covered⟩ :: c.beneath covered
  | .many cs => listBeneath covered cs
termination_by structural slot => slot

end

/-- All nodes of a tree, the clause itself first. -/
def nodes (covered : Bool) (c : Clause) : List Node :=
  ⟨c, covered⟩ :: c.beneath covered

theorem listBeneath_eq_flatMap (covered : Bool) (cs : List Clause) :
    listBeneath covered cs = cs.flatMap (nodes covered) := by
  induction cs with
  | nil => rfl
  | cons c cs ih => rw [listBeneath, ih, List.flatMap_cons, nodes]

theorem slotBeneath_eq_flatMap (covered : Bool) (slot : Slot Clause) :
    slotBeneath covered slot = slot.toList.flatMap (nodes covered) := by
  cases slot with
  | empty => rfl
  | one c => rw [slotBeneath, Slot.toList_one, List.flatMap_singleton, nodes]
  | many cs => exact listBeneath_eq_flatMap covered cs

theorem nodes_any (covered : Bool) (cs : List Clause) :
    (any cs).nodes covered = ⟨any cs, covered⟩ :: cs.flatMap (nodes covered) := by
  rw [nodes, beneath, listBeneath_eq_flatMap]

theorem nodes_bool (covered : Bool) (must filter mustNot : Slot Clause) :
    (bool must filter mustNot).nodes covered = ⟨bool must filter mustNot, covered⟩ ::
      ((must.toList ++ filter.toList).flatMap (nodes covered) ++
        mustNot.toList.flatMap (nodes true)) := by
  rw [nodes, beneath, slotBeneath_eq_flatMap, slotBeneath_eq_flatMap, slotBeneath_eq_flatMap,
    List.flatMap_append]

theorem nodes_clause (covered : Bool) (q : NestedQuery) :
    q.clause.nodes covered = ⟨q.clause, covered⟩ :: q.predicate.nodes true := rfl

/-! ## Well-formed clauses -/

/-- Whether a clause combines something, if it is a combination of others. -/
def isFilled : Clause → Bool
  | any clauses => !clauses.isEmpty
  | bool must filter mustNot => !(must.isEmpty && filter.isEmpty && mustNot.isEmpty)
  | _ => true

/-- The path of a nested clause. -/
def nestedPath? : Clause → Option String
  | nested path .. => some path
  | _ => none

def Node.path? (node : Node) : Option String :=
  node.clause.nestedPath?

/-- The paths of all nested clauses of a tree, from left to right. -/
def nestedPaths (c : Clause) : List String :=
  (c.nodes false).filterMap Node.path?

end Clause

/-- The paths of the nested clause that a query is written as, and of those within it. -/
def NestedQuery.paths (q : NestedQuery) : List String :=
  q.path :: q.predicate.nestedPaths

namespace Clause

mutual

/-- A nested clause in a tree is an outer one or stands within one, whatever covers the tree. -/
theorem filterMap_nodes : (c : Clause) → (covered : Bool) →
    (c.nodes covered).filterMap Node.path? = c.nestedNodes.flatMap NestedQuery.paths
  | nested path context predicate size, covered => by
    -- what stands within the clause is covered by it, which its paths do not show
    have hpredicate : (predicate.nodes true).filterMap Node.path? = predicate.nestedPaths :=
      (filterMap_nodes predicate true).trans (filterMap_nodes predicate false).symm
    have hpath : Node.path? ⟨nested path context predicate size, covered⟩ = some path := rfl
    rw [nodes, beneath, ← nodes, List.filterMap_cons_some hpath, hpredicate, nestedNodes,
      List.flatMap_singleton, NestedQuery.paths]
  | any clauses, covered => by
    have hnone : Node.path? ⟨any clauses, covered⟩ = none := rfl
    rw [nodes, beneath, List.filterMap_cons_none hnone, filterMap_listBeneath, nestedNodes]
  | bool must filter mustNot, covered => by
    have hnone : Node.path? ⟨bool must filter mustNot, covered⟩ = none := rfl
    rw [nodes, beneath, List.filterMap_cons_none hnone, List.filterMap_append,
      List.filterMap_append, filterMap_slotBeneath, filterMap_slotBeneath, filterMap_slotBeneath,
      nestedNodes, List.flatMap_append, List.flatMap_append]
  | matchAll, _ | equals .., _ | oneOf .., _ | inRange .., _ | wildcard .., _ | common .., _
  | near .., _ => rfl
termination_by structural c => c

theorem filterMap_listBeneath : (cs : List Clause) → (covered : Bool) →
    (listBeneath covered cs).filterMap Node.path? = (listNodes cs).flatMap NestedQuery.paths
  | [], _ => rfl
  | c :: cs, covered => by
    rw [listBeneath, ← nodes, List.filterMap_append, filterMap_nodes c, filterMap_listBeneath cs,
      listNodes, List.flatMap_append]
termination_by structural cs => cs

theorem filterMap_slotBeneath : (slot : Slot Clause) → (covered : Bool) →
    (slotBeneath covered slot).filterMap Node.path? = (slotNodes slot).flatMap NestedQuery.paths
  | .empty, _ => rfl
  | .one c, covered => filterMap_nodes c covered
  | .many cs, covered => filterMap_listBeneath cs covered
termination_by structural slot => slot

end

/-- The nested clauses of a tree are its outer ones, each before those within it. -/
theorem nestedPaths_eq (c : Clause) :
    c.nestedPaths = c.nestedNodes.flatMap NestedQuery.paths :=
  filterMap_nodes c false

/-- What an engine expects of a whole search. -/
structure WellFormed (c : Clause) : Prop where
  /-- A boolean clause has a slot that is not empty, and a disjunction has a clause. -/
  filled : ∀ node ∈ c.nodes false, node.clause.isFilled = true
  /-- Everything is asked for by the whole search or not at all. -/
  matchAll : ∀ node ∈ c.nodes false, node.clause.isMatchAll = true → c = .matchAll
  /-- A nested clause stands in no `must_not` and in no nested clause. -/
  uncovered : ∀ node ∈ c.nodes false, node.path?.isSome = true → node.covered = false
  /-- Each path has one nested clause at most. -/
  nodup : c.nestedPaths.Nodup

/-! ## Ordinary clauses -/

/-- A clause about one field. -/
def isAtom : Clause → Bool
  | equals .. | oneOf .. | inRange .. | wildcard .. | common .. | near .. => true
  | matchAll | any _ | nested .. | bool .. => false

/-- What terms are made into: combinations of clauses about fields, none of them empty. -/
inductive Ordinary : Clause → Prop
  | atom {c : Clause} (h : c.isAtom = true) : Ordinary c
  | any {clauses : List Clause} (hne : clauses ≠ []) (h : ∀ c ∈ clauses, Ordinary c) :
    Ordinary (any clauses)
  | bool {must filter mustNot : Slot Clause}
    (hne : must.toList ++ filter.toList ++ mustNot.toList ≠ [])
    (h : ∀ c ∈ must.toList ++ filter.toList ++ mustNot.toList, Ordinary c) :
    Ordinary (bool must filter mustNot)

theorem isFilled_any {cs : List Clause} (h : cs ≠ []) : (any cs).isFilled = true := by
  simpa [isFilled] using h

theorem isFilled_bool {must filter mustNot : Slot Clause}
    (h : must.toList ++ filter.toList ++ mustNot.toList ≠ []) :
    (bool must filter mustNot).isFilled = true := by
  rw [isFilled, Bool.not_eq_true', ← Bool.not_eq_true, Bool.and_eq_true, Bool.and_eq_true,
    Slot.isEmpty_iff_toList, Slot.isEmpty_iff_toList, Slot.isEmpty_iff_toList,
    ← List.append_eq_nil_iff, ← List.append_eq_nil_iff]
  exact h

/-- A node that may stand in a search beside others. -/
structure Node.InPlace (node : Node) : Prop where
  filled : node.clause.isFilled = true
  isMatchAll : node.clause.isMatchAll = false
  uncovered : node.path?.isSome = true → node.covered = false

theorem Node.inPlace_of_path? {node : Node} (hfilled : node.clause.isFilled = true)
    (hmatchAll : node.clause.isMatchAll = false) (hnone : node.path? = none) : node.InPlace :=
  ⟨hfilled, hmatchAll, fun hsome => by rw [hnone] at hsome; cases hsome⟩

namespace Ordinary

/-- The nodes of an ordinary clause are in place, and none of them is nested. -/
theorem inPlace_nodes {c : Clause} (h : Ordinary c) (covered : Bool) :
    ∀ node ∈ c.nodes covered, node.InPlace ∧ node.path? = none := by
  -- for any `covered`, since a `must_not` slot covers what it holds
  induction h generalizing covered with
  | @atom c h =>
    cases c with
    | matchAll | any | nested | bool => cases h
    | _ => exact List.forall_mem_singleton.2 ⟨Node.inPlace_of_path? rfl rfl rfl, rfl⟩
  | any hne _ ih =>
    rw [nodes_any, List.forall_mem_cons, List.forall_mem_flatMap]
    exact ⟨⟨Node.inPlace_of_path? (isFilled_any hne) rfl rfl, rfl⟩, fun c hc => ih c hc covered⟩
  | bool hne _ ih =>
    rw [nodes_bool, List.forall_mem_cons, List.forall_mem_append, List.forall_mem_flatMap,
      List.forall_mem_flatMap]
    refine ⟨⟨Node.inPlace_of_path? (isFilled_bool hne) rfl rfl, rfl⟩, fun c hc => ih c ?_ covered,
      fun c hc => ih c ?_ true⟩
    · exact List.mem_append_left _ hc
    · exact List.mem_append_right _ hc

theorem nestedPaths_eq_nil {c : Clause} (h : Ordinary c) : c.nestedPaths = [] :=
  List.filterMap_eq_nil_iff.2 fun node hnode => (h.inPlace_nodes false node hnode).2

theorem nestedNodes_eq_nil {c : Clause} (h : Ordinary c) : c.nestedNodes = [] := by
  have hnone := h.nestedPaths_eq_nil
  rw [nestedPaths_eq, List.flatMap_eq_nil_iff] at hnone
  exact List.eq_nil_iff_forall_not_mem.2 fun q hq => List.cons_ne_nil _ _ (hnone q hq)

theorem ne_matchAll {c : Clause} (h : Ordinary c) : c ≠ .matchAll := by
  rintro rfl
  cases h with
  | atom h => cases h

theorem forall_slots {must filter mustNot : Slot Clause}
    (h : Ordinary (.bool must filter mustNot)) :
    ∀ c ∈ must.toList ++ filter.toList ++ mustNot.toList, Ordinary c := by
  cases h with
  | atom h => cases h
  | bool _ h => exact h

theorem ofMust {slot : Slot Clause} (hne : slot.toList ≠ []) (h : ∀ c ∈ slot.toList, Ordinary c) :
    Ordinary (.ofMust slot) :=
  .bool (by simpa using hne) (by simpa using h)

theorem ofFilter {slot : Slot Clause} (hne : slot.toList ≠ [])
    (h : ∀ c ∈ slot.toList, Ordinary c) : Ordinary (.ofFilter slot) :=
  .bool (by simpa using hne) (by simpa using h)

theorem ofMustNot {slot : Slot Clause} (hne : slot.toList ≠ [])
    (h : ∀ c ∈ slot.toList, Ordinary c) : Ordinary (.ofMustNot slot) :=
  .bool (by simpa using hne) (by simpa using h)

theorem slotItem {wrap : Slot Clause → Clause} {slot : Slot Clause}
    (h : slot.toList ≠ [] → Ordinary (wrap slot)) : ∀ c ∈ slotItem wrap slot, Ordinary c := by
  unfold Clause.slotItem
  split
  · simp
  · rename_i hempty
    rw [Slot.isEmpty_iff_toList] at hempty
    exact List.forall_mem_singleton.2 (h hempty)

end Ordinary

/-! ## Joining -/

/-- Nested queries that are joined to a clause stand beside ordinary ones, in slots that count. -/
theorem exists_combine_eq {standard : Clause} (h : standard = matchAll ∨ Ordinary standard)
    {queries : List NestedQuery} (hne : queries ≠ []) :
    ∃ must filter before after, combine standard queries = bool must filter .empty ∧
      must.toList ++ filter.toList = before ++ queries.map NestedQuery.clause ++ after ∧
      ∀ c ∈ before ++ after, Ordinary c := by
  have hbeside : ∀ standard : Clause, Ordinary standard →
      ∃ must filter before after, bool (.one standard) (.ofList (queries.map NestedQuery.clause))
          .empty = bool must filter .empty ∧
        must.toList ++ filter.toList = before ++ queries.map NestedQuery.clause ++ after ∧
        ∀ c ∈ before ++ after, Ordinary c := fun standard h =>
    ⟨_, _, [standard], [], rfl, by simp, by simpa using h⟩
  rw [combine, if_neg (by simpa using hne)]
  obtain rfl | h := h
  · exact ⟨.empty, _, [], [], rfl, by simp, by simp⟩
  · cases standard with
    | matchAll => exact absurd rfl h.ne_matchAll
    | any clauses => exact ⟨.empty, _, [.any clauses], [], rfl, by simp, by simpa using h⟩
    | bool must filter mustNot =>
      -- the slot `filter` is kept, and what is in the other slots moves into items beside it
      have hslots := h.forall_slots
      simp only [List.forall_mem_append] at hslots
      obtain ⟨⟨hmust, hfilter⟩, hmustNot⟩ := hslots
      refine ⟨.empty, _, filter.toList, slotItem ofMust must ++ slotItem ofMustNot mustNot, rfl,
        by simp, ?_⟩
      simp only [List.forall_mem_append]
      exact ⟨hfilter, .slotItem fun hne => .ofMust hne hmust,
        .slotItem fun hne => .ofMustNot hne hmustNot⟩
    | _ => exact hbeside _ h

/-- The nested clauses of what is joined are the queries. -/
theorem nestedPaths_combine {standard : Clause} (h : standard = matchAll ∨ Ordinary standard)
    {queries : List NestedQuery} (hqueries : ∀ q ∈ queries, Ordinary q.predicate) :
    (combine standard queries).nestedPaths = queries.map NestedQuery.path := by
  have hstandard : standard.nestedNodes = [] := by
    obtain rfl | h := h
    · rfl
    · exact h.nestedNodes_eq_nil
  have hpaths : ∀ q ∈ queries, q.paths = [q.path] := fun q hq => by
    rw [NestedQuery.paths, (hqueries q hq).nestedPaths_eq_nil]
  rw [nestedPaths_eq, nestedNodes_combine hstandard, List.map_eq_flatMap]
  exact List.flatMap_congr hpaths

/-- Where queries are joined, all nodes are in place. -/
theorem inPlace_combine {standard : Clause} (h : standard = matchAll ∨ Ordinary standard)
    {queries : List NestedQuery} (hqueries : ∀ q ∈ queries, Ordinary q.predicate)
    (hne : queries ≠ []) : ∀ node ∈ (combine standard queries).nodes false, node.InPlace := by
  obtain ⟨must, filter, before, after, hcombine, hslots, hordinary⟩ := exists_combine_eq h hne
  have hfilled : must.toList ++ filter.toList ++ (Slot.empty : Slot Clause).toList ≠ [] := by
    rw [hslots]
    simp [hne]
  have hbeside : ∀ c ∈ before ++ after, ∀ node ∈ c.nodes false, node.InPlace :=
    fun c hc node hnode => ((hordinary c hc).inPlace_nodes false node hnode).1
  have hquery : ∀ q ∈ queries, ∀ node ∈ q.clause.nodes false, node.InPlace := by
    intro q hq
    rw [nodes_clause, List.forall_mem_cons]
    exact ⟨⟨rfl, rfl, fun _ => rfl⟩, fun node hnode =>
      ((hqueries q hq).inPlace_nodes true node hnode).1⟩
  rw [List.forall_mem_append] at hbeside
  rw [hcombine, nodes_bool, hslots, Slot.toList_empty, List.flatMap_nil, List.append_nil,
    List.forall_mem_cons, List.forall_mem_flatMap, List.forall_mem_append, List.forall_mem_append,
    List.forall_mem_map]
  exact ⟨Node.inPlace_of_path? (isFilled_bool hfilled) rfl rfl, ⟨hbeside.1, hquery⟩, hbeside.2⟩

/-- Joining ordinary predicates on different paths to an ordinary clause, or to the clause that asks
for everything, makes a search that is well formed. -/
theorem wellFormed_combine {standard : Clause} (h : standard = matchAll ∨ Ordinary standard)
    {queries : List NestedQuery} (hqueries : ∀ q ∈ queries, Ordinary q.predicate)
    (hnodup : (queries.map NestedQuery.path).Nodup) : (combine standard queries).WellFormed := by
  have hpaths : (combine standard queries).nestedPaths.Nodup := by
    rw [nestedPaths_combine h hqueries]
    exact hnodup
  -- the clause that asks for everything is not in place, and is allowed as the whole search only
  by_cases hmatchAll : combine standard queries = matchAll
  · rw [hmatchAll] at hpaths ⊢
    have hnodes : matchAll.nodes false = [⟨matchAll, false⟩] := rfl
    refine ⟨?_, fun _ _ _ => rfl, ?_, hpaths⟩
    · simp [hnodes, isFilled]
    · simp [hnodes]
  · have hplace : ∀ node ∈ (combine standard queries).nodes false, node.InPlace := by
      by_cases hempty : queries = []
      · subst hempty
        obtain rfl | h := h
        · exact absurd rfl hmatchAll
        · exact fun node hnode => (h.inPlace_nodes false node hnode).1
      · exact inPlace_combine h hqueries hempty
    refine ⟨fun node hnode => (hplace node hnode).filled, fun node hnode heverything => ?_,
      fun node hnode => (hplace node hnode).uncovered, hpaths⟩
    rw [(hplace node hnode).isMatchAll] at heverything
    cases heverything

end Clause

/-! ## Terms -/

/-- Whether the ranges in a term have intervals. -/
def Term.hasIntervals : Term → Bool
  | inRange _ intervals => !intervals.isEmpty
  | negation inner => inner.hasIntervals
  | _ => true

open Clause (Ordinary)

theorem ordinary_intervalClauses (field : String) (intervals : List Interval) :
    ∀ c ∈ intervalClauses field intervals, Ordinary c := by
  rw [intervalClauses, List.forall_mem_map]
  exact fun _ _ => .atom rfl

theorem ordinary_leaf {t : Term} (h : t.hasIntervals = true) : Ordinary t.leaf := by
  induction t with
  | inRange field intervals =>
    exact .any (by simpa [intervalClauses, Term.hasIntervals] using h)
      (ordinary_intervalClauses field intervals)
  | negation inner ih => exact ih h
  | _ => exact .atom rfl

theorem ordinary_filterLeaf {t : Term} (h : t.hasIntervals = true) : Ordinary t.filterLeaf := by
  obtain heq | ⟨field, interval, -, heq⟩ := filterLeaf_cases t
  · rw [heq]
    exact ordinary_leaf h
  · rw [heq]
    exact .atom rfl

theorem ordinary_leaves {ts : List Term} (h : ∀ t ∈ ts, t.hasIntervals = true) :
    ∀ c ∈ ts.map Term.leaf, Ordinary c := by
  rw [List.forall_mem_map]
  exact fun t ht => ordinary_leaf (h t ht)

theorem ordinary_leavesOf {ts : List Term} (h : ∀ t ∈ ts, t.hasIntervals = true)
    (occasion : Occasion) : ∀ c ∈ Clause.leavesOf occasion ts, Ordinary c :=
  ordinary_leaves fun t ht => h t (List.mem_of_mem_filter ht)

/-- The term is among the leaves of its occasion. -/
theorem leavesOf_ne_nil {ts : List Term} {t : Term} (ht : t ∈ ts) :
    Clause.leavesOf t.occasion ts ≠ [] := by
  rw [Clause.leavesOf, ne_eq, List.map_eq_nil_iff]
  exact List.ne_nil_of_mem (List.mem_filter.2 ⟨ht, by simp⟩)

theorem ordinary_ofTerms {ts : List Term} (hne : ts ≠ []) (h : ∀ t ∈ ts, t.hasIntervals = true) :
    Ordinary (Clause.ofTerms ts) := by
  match ts with
  | [] => exact absurd rfl hne
  | [t] =>
    have hleaf := ordinary_leaf (h t (by simp))
    cases t with
    | negation inner => exact .ofMustNot (by simp) (List.forall_mem_singleton.2 hleaf)
    | near => exact .ofFilter (by simp) (List.forall_mem_singleton.2 hleaf)
    | _ => exact hleaf
  | t₁ :: t₂ :: ts =>
    rw [Clause.ofTerms_cons_cons]
    refine .bool ?_ ?_
    · have hleaves := leavesOf_ne_nil (List.mem_cons_self (a := t₁) (l := t₂ :: ts))
      cases hoccasion : t₁.occasion <;> rw [hoccasion] at hleaves <;> simp [hleaves]
    · simp only [Slot.toList_ofList, Slot.toList_listed, List.forall_mem_append]
      exact ⟨⟨ordinary_leavesOf h _, ordinary_leavesOf h _⟩, ordinary_leavesOf h _⟩

/-! ## Predicates -/

theorem ordinary_runItems {run : Place × List Term} (hne : run.2 ≠ [])
    (h : ∀ t ∈ run.2, t.hasIntervals = true) : ∀ c ∈ runItems run, Ordinary c := by
  obtain ⟨place, ts⟩ := run
  cases place with
  | alone =>
    rw [runItems, List.forall_mem_map]
    exact fun t ht => ordinary_filterLeaf (h t ht)
  | must =>
    exact List.forall_mem_singleton.2
      (.ofMust (by simpa using hne) (by simpa using ordinary_leaves h))
  | mustNot =>
    exact List.forall_mem_singleton.2
      (.ofMustNot (by simpa using hne) (by simpa using ordinary_leaves h))

theorem runItems_ne_nil {run : Place × List Term} (hne : run.2 ≠ []) : runItems run ≠ [] := by
  obtain ⟨place, ts⟩ := run
  cases place with
  | alone => simpa [runItems] using hne
  | must | mustNot => exact List.cons_ne_nil _ _

theorem ordinary_filterItems {ts : List Term} (h : ∀ t ∈ ts, t.hasIntervals = true) :
    ∀ c ∈ filterItems ts, Ordinary c := by
  rw [filterItems, List.forall_mem_flatMap]
  exact fun run hrun => ordinary_runItems (isRun_of_mem_termRuns run hrun).filled
    fun t ht => h t (mem_of_mem_termRuns hrun ht)

theorem filterItems_ne_nil {ts : List Term} (hne : ts ≠ []) : filterItems ts ≠ [] := by
  intro hnil
  rw [filterItems, List.flatMap_eq_nil_iff] at hnil
  have hruns : termRuns ts = [] := List.eq_nil_iff_forall_not_mem.2 fun run hrun =>
    runItems_ne_nil (isRun_of_mem_termRuns run hrun).filled (hnil run hrun)
  apply hne
  rw [← flatMap_termRuns ts, hruns, List.flatMap_nil]

theorem ordinary_jointPredicate {ts : List Term} (hne : ts ≠ [])
    (h : ∀ t ∈ ts, t.hasIntervals = true) : Ordinary (jointPredicate ts) := by
  obtain ⟨-, heq⟩ | ⟨-, heq⟩ | ⟨-, -, heq⟩ := jointPredicate_cases ts
  · rw [heq]
    exact .ofMustNot (by simpa using hne) (by simpa using ordinary_leaves h)
  · rw [heq]
    exact .ofMust (by simpa using hne) (by simpa using ordinary_leaves h)
  · rw [heq]
    refine .ofFilter ?_ ?_
    · rw [Slot.toList_listed]
      exact filterItems_ne_nil hne
    · rw [Slot.toList_listed]
      exact ordinary_filterItems h

theorem ordinary_nestedPredicate {ts : List Term} (hne : ts ≠ [])
    (h : ∀ t ∈ ts, t.hasIntervals = true) : Ordinary (nestedPredicate ts).2 := by
  obtain ⟨t, rfl, -, -, heq⟩ | ⟨-, heq⟩ := nestedPredicate_cases ts
  · rw [heq]
    exact ordinary_filterLeaf (h t (by simp))
  · rw [heq]
    exact ordinary_jointPredicate hne h

/-! ## Terms of a request -/

/-- A range without intervals is rejected. -/
theorem hasIntervals_of_term {x : Condition} {t : Term} (h : x.term = .ok t) :
    t.hasIntervals = true := by
  have hequality : (x.operand.equality x.field).hasIntervals = true := by
    cases x.operand <;> rfl
  obtain ⟨intervals, hne, rfl⟩ | rfl | rfl := term_cases h
  · simpa [Term.hasIntervals] using hne
  · exact hequality
  · exact hequality

theorem hasIntervals_of_standardTerm {x : Condition} {t : Term} (h : x.standardTerm = .ok t) :
    t.hasIntervals = true := by
  obtain ⟨pattern, rfl⟩ | ⟨query, rfl⟩ | hterm := standardTerm_cases h
  · rfl
  · rfl
  · exact hasIntervals_of_term hterm

theorem hasIntervals_of_near {t : Term} (h : t.kind = .near) : t.hasIntervals = true := by
  cases t with
  | near => rfl
  | _ => simp [Term.kind] at h

theorem field_of_ofParam {c : Catalog} {flat : Bool} {p : Param} {x : Condition}
    (h : Condition.ofParam c flat p = .ok x) : x.field = baseField p.path := by
  obtain ⟨operand, -, h⟩ := bind_eq_ok_iff.1 h
  obtain rfl := Except.ok.inj h
  rfl

namespace Plan.Stages

variable {plan : Plan} {c : Catalog} {settings : PlanSettings} {r : Request}
  {conditions : List Condition} {classified : Classified}

theorem hasIntervals_of_mem_standardTerms (h : plan.Stages c settings r conditions classified) :
    ∀ t ∈ plan.standardTerms, t.hasIntervals = true := by
  intro t ht
  obtain ⟨x, -, -, hterm⟩ | hnear := h.mem_standardTerms_iff.1 ht
  · exact hasIntervals_of_standardTerm hterm
  · exact hasIntervals_of_near ((nearTerm?_eq_ok hnear).2 t rfl).2

theorem hasIntervals_of_mem_group (h : plan.Stages c settings r conditions classified)
    {g : NestedGroup} (hg : g ∈ plan.groups) : ∀ t ∈ g.terms, t.hasIntervals = true := by
  intro t ht
  obtain ⟨x, -, -, hterm⟩ := (h.mem_groupTerms_iff hg).1 ht
  exact hasIntervals_of_term hterm

/-- There is a group only where a condition belongs to it. -/
theorem groupTerms_ne_nil (h : plan.Stages c settings r conditions classified)
    {g : NestedGroup} (hg : g ∈ plan.groups) : g.terms ≠ [] := by
  obtain ⟨group, hgroup, hbuilt⟩ := (mem_iff_of_forall₂_ok h.groups).1 hg
  obtain ⟨x, hx, hpath⟩ := h.partitions.mem_paths_iff.1 (List.mem_map_of_mem hgroup)
  have hmem : x ∈ group.2 := (h.partitions.mem_group_iff hgroup).2 ⟨hx, hpath⟩
  have hlength := (ofConditions_eq_ok hbuilt).2.length_eq
  rw [← List.length_pos_iff, ← hlength]
  exact List.length_pos_of_mem hmem

/-- A path is queried iff it owns the field of a parameter, and paths are heeded. -/
theorem queriesPath_iff_param (h : plan.Stages c settings r conditions classified)
    {path : String} : plan.queriesPath path = true ↔
      r.options.allPrograms = false ∧
        ∃ p ∈ r.params, c.nestedPath? (baseField p.path) = some path := by
  have howner : ∀ p x, Condition.ofParam c r.options.allPrograms p = .ok x →
      (x.nestedPath = some path ↔
        r.options.allPrograms = false ∧ c.nestedPath? (baseField p.path) = some path) := by
    intro p x hread
    rw [nestedPath_of_ofParam hread, field_of_ofParam hread]
    cases r.options.allPrograms <;> simp
  have hall := exists_mapM_eq_ok_iff.1 ⟨conditions, mapM_eq_ok_iff.2 h.read⟩
  rw [h.queriesPath_iff]
  constructor
  · rintro ⟨x, hx, hpath⟩
    obtain ⟨p, hp, hread⟩ := (mem_iff_of_forall₂_ok h.read).1 hx
    obtain ⟨hflat, hfield⟩ := (howner p x hread).1 hpath
    exact ⟨hflat, p, hp, hfield⟩
  · rintro ⟨hflat, p, hp, hfield⟩
    obtain ⟨x, hread⟩ := hall p hp
    exact ⟨x, (mem_iff_of_forall₂_ok h.read).2 ⟨p, hp, hread⟩, (howner p x hread).2 ⟨hflat, hfield⟩⟩

theorem ordinary_nestedQueries (h : plan.Stages c settings r conditions classified) :
    ∀ q ∈ plan.nestedQueries, Ordinary q.predicate := by
  rw [Plan.nestedQueries, List.forall_mem_map]
  exact fun g hg => ordinary_nestedPredicate (h.groupTerms_ne_nil hg)
    (h.hasIntervals_of_mem_group hg)

theorem standardClause_ordinary (h : plan.Stages c settings r conditions classified) :
    plan.standardClause = .matchAll ∨ Ordinary plan.standardClause := by
  rw [Plan.standardClause]
  by_cases hempty : plan.standardTerms = []
  · rw [hempty]
    exact Or.inl rfl
  · exact Or.inr (ordinary_ofTerms hempty h.hasIntervals_of_mem_standardTerms)

/-- The nested clauses of a search are the queries of its groups. -/
theorem nestedPaths_eq (h : plan.Stages c settings r conditions classified) :
    plan.combinedClause.nestedPaths = plan.nestedQueries.map NestedQuery.path :=
  Clause.nestedPaths_combine h.standardClause_ordinary h.ordinary_nestedQueries

end Plan.Stages

/-! ## The search of a plan -/

/-- The search of a plan is well formed, and its nested clauses are on the paths that own fields of
parameters. Where nested paths are left out of account there is none. -/
theorem wellFormed_combinedClause {c : Catalog} {settings : PlanSettings} {r : Request}
    {plan : Plan} (h : compile c settings r = .ok plan) :
    plan.combinedClause.WellFormed ∧
      ∀ path, path ∈ plan.combinedClause.nestedPaths ↔ r.options.allPrograms = false ∧
        ∃ p ∈ r.params, c.nestedPath? (baseField p.path) = some path := by
  obtain ⟨conditions, classified, hstages⟩ := stages_of_compile h
  refine ⟨Clause.wellFormed_combine hstages.standardClause_ordinary
    hstages.ordinary_nestedQueries ?_, fun path => ?_⟩
  · rw [Plan.map_path_nestedQueries]
    exact hstages.nodup_paths
  · rw [hstages.nestedPaths_eq, Plan.map_path_nestedQueries, ← hstages.queriesPath_iff_param,
      List.mem_map]
    simp [Plan.queriesPath]

/-- A negation and a range on programs, two conditions on the document itself, and one on owners. -/
theorem wellFormed_mixed_search :
    ∃ plan, compile { nested := ⟨["owners", "programs"], by decide⟩ } {}
        { params := [⟨"programs.code__not", .single "13"⟩, ⟨"state__not", .single "NY"⟩,
          ⟨"programs.size__range", .single "5..,..2"⟩, ⟨"owners.kind", .single "public"⟩,
          ⟨"city", .single "Troy"⟩] } = .ok plan ∧
      plan.combinedClause.WellFormed ∧ "programs" ∈ plan.combinedClause.nestedPaths ∧
      "owners" ∈ plan.combinedClause.nestedPaths := by
  have h : compile { nested := ⟨["owners", "programs"], by decide⟩ } {}
      { params := [⟨"programs.code__not", .single "13"⟩, ⟨"state__not", .single "NY"⟩,
        ⟨"programs.size__range", .single "5..,..2"⟩, ⟨"owners.kind", .single "public"⟩,
        ⟨"city", .single "Troy"⟩] } = .ok ⟨_, _, _, _, _, _, _⟩ := rfl
  obtain ⟨hformed, hpaths⟩ := wellFormed_combinedClause h
  refine ⟨_, h, hformed, (hpaths _).2 ⟨rfl, ⟨"programs.code__not", .single "13"⟩, by simp, rfl⟩,
    (hpaths _).2 ⟨rfl, ⟨"owners.kind", .single "public"⟩, by simp, rfl⟩⟩

end FlatQuery
