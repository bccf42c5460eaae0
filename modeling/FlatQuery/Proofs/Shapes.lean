import FlatQuery.Proofs.WellFormed

/-!
# Shapes of queries

What queries look like, beyond what they mean. Joining queries on nested paths to a clause puts them
into its filter as they are (`Clause.holds_and_filterQueries_combine`). The predicate of a nested
query has one of four shapes (`NestedShape`): a leaf that filters, a boolean clause of negated
equalities or of equalities, and else a filter whose items are the longest runs of terms
(`MaximalRuns`).
-/

namespace FlatQuery

/-! ## Joined clauses -/

namespace Clause

/-- The query that a nested clause is. -/
def nestedQuery? : Clause → Option NestedQuery
  | nested path context predicate size => some { path, context, predicate, size }
  | _ => none

/-- The nested queries directly in the filter of a boolean clause, in their order. -/
def filterQueries : Clause → List NestedQuery
  | bool _ filter _ => filter.toList.filterMap nestedQuery?
  | _ => []

theorem filterQueries_bool (must filter mustNot : Slot Clause) :
    (bool must filter mustNot).filterQueries = filter.toList.filterMap nestedQuery? := rfl

theorem filterQueries_ofFilter (slot : Slot Clause) :
    (ofFilter slot).filterQueries = slot.toList.filterMap nestedQuery? := rfl

theorem filterMap_nestedQuery?_clauses (queries : List NestedQuery) :
    (queries.map NestedQuery.clause).filterMap nestedQuery? = queries := by
  have hclause : nestedQuery? ∘ NestedQuery.clause = some := rfl
  rw [List.filterMap_map, hclause, List.filterMap_some]

theorem filterMap_nestedQuery?_slotItem {wrap : Slot Clause → Clause} {slot : Slot Clause}
    (h : (wrap slot).nestedQuery? = none) : (slotItem wrap slot).filterMap nestedQuery? = [] := by
  unfold slotItem
  split
  · rfl
  · rw [List.filterMap_cons_none h, List.filterMap_nil]

theorem filterQueries_combine (standard : Clause) (queries : List NestedQuery) :
    (combine standard queries).filterQueries = standard.filterQueries ++ queries := by
  unfold combine
  split
  · rename_i hempty
    rw [List.isEmpty_iff.1 hempty, List.append_nil]
  · cases standard with
    | bool must filter mustNot =>
      -- the other slots become items as well, but these are boolean clauses
      rw [filterQueries_ofFilter, Slot.toList_many, List.filterMap_append, List.filterMap_append,
        List.filterMap_append, filterMap_nestedQuery?_clauses,
        filterMap_nestedQuery?_slotItem rfl, filterMap_nestedQuery?_slotItem rfl,
        List.append_nil, List.append_nil, filterQueries_bool]
    | any clauses =>
      rw [filterQueries_ofFilter, Slot.toList_many, List.filterMap_cons_none rfl,
        filterMap_nestedQuery?_clauses]
      rfl
    | matchAll =>
      rw [filterQueries_ofFilter, Slot.toList_ofList, filterMap_nestedQuery?_clauses]
      rfl
    | _ =>
      rw [filterQueries_bool, Slot.toList_ofList, filterMap_nestedQuery?_clauses]
      rfl

/-- What is joined holds iff all of its parts do, and the queries stand directly in its filter after
those that are there already, each once and in their order. -/
theorem holds_and_filterQueries_combine (v : Valuation) (standard : Clause)
    (queries : List NestedQuery) :
    ((combine standard queries).holds v = true ↔
        standard.holds v = true ∧ ∀ q ∈ queries, v.nested q = true) ∧
      (combine standard queries).filterQueries = standard.filterQueries ++ queries :=
  ⟨holds_combine_iff v standard queries, filterQueries_combine standard queries⟩

end Clause

/-! ## Terms on subdocuments -/

namespace Term

/-- The terms of conditions on subdocuments: names, texts and distances are searched for on the
document itself, and no range is negated. -/
def isNested : Term → Bool
  | equals .. | oneOf .. | inRange .. | negation (equals ..) | negation (oneOf ..) => true
  | _ => false

def isNegatedEquality : Term → Bool
  | negation (equals ..) => true
  | _ => false

def isListOrRange : Term → Bool
  | oneOf .. | inRange .. => true
  | _ => false

theorem not_isNegatedEquality_of_isListOrRange {t : Term} (h : t.isListOrRange = true) :
    ¬t.isNegatedEquality = true := by
  cases t <;> simp [isListOrRange, isNegatedEquality] at h ⊢

theorem kind_ne_of_isListOrRange {t : Term} (h : t.isListOrRange = true) : t.kind ≠ .equals := by
  cases t <;> simp [isListOrRange, kind] at h ⊢

theorem kind_ne_of_isNegatedEquality {t : Term} (h : t.isNegatedEquality = true) :
    t.kind ≠ .equals := by
  cases t <;> simp [isNegatedEquality, kind] at h ⊢

end Term

/-! ## Items of a filter -/

namespace Clause

/-- Where the leaves of an item of a filter stand. -/
def itemPlace : Clause → Place
  | bool (.many _) .empty .empty => .must
  | bool .empty .empty (.many _) => .mustNot
  | _ => .alone

/-- The leaves of an item of a filter, in their order. -/
def itemLeaves : Clause → List Clause
  | bool (.many leaves) .empty .empty | bool .empty .empty (.many leaves) => leaves
  | item => [item]

def placedLeaves (item : Clause) : List (Place × Clause) :=
  item.itemLeaves.map (item.itemPlace, ·)

/-- What stands directly in the `must` slot of a clause. -/
def mustChildren : Clause → List Clause
  | bool must _ _ => must.toList
  | _ => []

/-- What stands directly in any `must` slot of a tree. -/
def inMust (c : Clause) : List Clause :=
  (c.nodes true).flatMap fun node => node.clause.mustChildren

theorem inMust_bool (must filter mustNot : Slot Clause) :
    (bool must filter mustNot).inMust =
      must.toList ++ (must.toList ++ filter.toList ++ mustNot.toList).flatMap inMust := by
  rw [inMust, nodes_bool, ← List.flatMap_append, List.flatMap_cons, List.flatMap_assoc]
  rfl

theorem inMust_ofMust (slot : Slot Clause) :
    (ofMust slot).inMust = slot.toList ++ slot.toList.flatMap inMust := by
  simp [ofMust, inMust_bool]

theorem inMust_ofFilter (slot : Slot Clause) :
    (ofFilter slot).inMust = slot.toList.flatMap inMust := by
  simp [ofFilter, inMust_bool]

theorem inMust_ofMustNot (slot : Slot Clause) :
    (ofMustNot slot).inMust = slot.toList.flatMap inMust := by
  simp [ofMustNot, inMust_bool]

end Clause

/-- What the longest runs of terms make of a filter. -/
structure MaximalRuns (ts : List Term) (items : List Clause) : Prop where
  /-- The leaves of the items are those of the terms, each once and in their order. Equalities stand
  in a `must`, negated terms in a `must_not`, and all others by themselves. -/
  leaves : items.flatMap Clause.placedLeaves = ts.map fun t => (t.place, t.filterLeaf)
  filled : ∀ item ∈ items, item.itemLeaves ≠ []
  /-- Two neighbours are not both a `must`, nor both a `must_not`. -/
  separated : items.IsChain fun a b => a.itemPlace = b.itemPlace → a.itemPlace = .alone

theorem itemPlace_filterLeaf {t : Term} (h : t.place = .alone) (hnested : t.isNested = true) :
    t.filterLeaf.itemPlace = .alone ∧ t.filterLeaf.itemLeaves = [t.filterLeaf] := by
  cases t with
  | equals | negation => simp [Term.place] at h
  | oneOf => exact ⟨rfl, rfl⟩
  | inRange field intervals =>
    obtain heq | ⟨_, _, -, heq⟩ := filterLeaf_cases (.inRange field intervals)
    · rw [heq]
      exact ⟨rfl, rfl⟩
    · rw [heq]
      exact ⟨rfl, rfl⟩
  | wildcard | common | near => simp [Term.isNested] at hnested

theorem filterLeaf_eq_leaf {t : Term} (h : t.place ≠ .alone) : t.filterLeaf = t.leaf := by
  cases t with
  | inRange => simp [Term.place] at h
  | _ => rfl

theorem Slot.listed_eq_many {α : Type} {xs : List α} (h : xs ≠ []) : Slot.listed xs = .many xs := by
  cases xs with
  | nil => exact absurd rfl h
  | cons x xs => rfl

/-- A run makes one item, which holds the leaves of its terms. -/
theorem exists_runItems_eq {run : Place × List Term} (h : IsRun run)
    (hnested : ∀ t ∈ run.2, t.isNested = true) :
    ∃ item, runItems run = [item] ∧ item.itemPlace = run.1 ∧
      item.itemLeaves = run.2.map Term.filterLeaf := by
  obtain ⟨place, ts⟩ := run
  have hleaves : place ≠ .alone → ts.map Term.leaf = ts.map Term.filterLeaf := by
    intro hne
    refine List.map_congr_left fun t ht => (filterLeaf_eq_leaf ?_).symm
    rw [h.place t ht]
    exact hne
  cases place with
  | alone =>
    obtain ⟨t, rfl⟩ := h.single rfl
    obtain ⟨hitem, hself⟩ := itemPlace_filterLeaf (h.place t (by simp)) (hnested t (by simp))
    exact ⟨t.filterLeaf, rfl, hitem, hself⟩
  | must =>
    refine ⟨_, rfl, ?_⟩
    rw [Slot.listed_eq_many (by simpa using h.filled), hleaves (by simp)]
    exact ⟨rfl, rfl⟩
  | mustNot =>
    refine ⟨_, rfl, ?_⟩
    rw [Slot.listed_eq_many (by simpa using h.filled), hleaves (by simp)]
    exact ⟨rfl, rfl⟩

section

variable {ts : List Term}

theorem exists_runItems_eq_of_mem (hnested : ∀ t ∈ ts, t.isNested = true)
    {run : Place × List Term} (hrun : run ∈ termRuns ts) :
    ∃ item, runItems run = [item] ∧ item.itemPlace = run.1 ∧
      item.itemLeaves = run.2.map Term.filterLeaf :=
  exists_runItems_eq (isRun_of_mem_termRuns run hrun) fun t ht =>
    hnested t (mem_of_mem_termRuns hrun ht)

theorem map_itemPlace_filterItems (hnested : ∀ t ∈ ts, t.isNested = true) :
    (filterItems ts).map Clause.itemPlace = (termRuns ts).map Prod.fst := by
  rw [filterItems, List.map_flatMap, List.map_eq_flatMap (f := Prod.fst)]
  refine List.flatMap_congr fun run hrun => ?_
  obtain ⟨item, hitem, hplace, -⟩ := exists_runItems_eq_of_mem hnested hrun
  rw [hitem, List.map_singleton, hplace]

theorem flatMap_placedLeaves_filterItems (hnested : ∀ t ∈ ts, t.isNested = true) :
    (filterItems ts).flatMap Clause.placedLeaves = ts.map fun t => (t.place, t.filterLeaf) := by
  have hrun : ∀ run ∈ termRuns ts, (runItems run).flatMap Clause.placedLeaves =
      run.2.map fun t => (t.place, t.filterLeaf) := by
    intro run hrun
    obtain ⟨item, hitem, hplace, hleaves⟩ := exists_runItems_eq_of_mem hnested hrun
    rw [hitem, List.flatMap_singleton, Clause.placedLeaves, hplace, hleaves, List.map_map]
    refine List.map_congr_left fun t ht => ?_
    rw [Function.comp, (isRun_of_mem_termRuns run hrun).place t ht]
  calc (filterItems ts).flatMap Clause.placedLeaves
      = (termRuns ts).flatMap fun run => (runItems run).flatMap Clause.placedLeaves := by
        rw [filterItems, List.flatMap_assoc]
    _ = (termRuns ts).flatMap fun run => run.2.map fun t => (t.place, t.filterLeaf) :=
        List.flatMap_congr hrun
    _ = ((termRuns ts).flatMap Prod.snd).map fun t => (t.place, t.filterLeaf) := by
        rw [List.map_flatMap]
    _ = ts.map fun t => (t.place, t.filterLeaf) := by rw [flatMap_termRuns]

theorem maximalRuns_filterItems (hnested : ∀ t ∈ ts, t.isNested = true) :
    MaximalRuns ts (filterItems ts) where
  leaves := flatMap_placedLeaves_filterItems hnested
  filled := by
    intro item hitem
    obtain ⟨run, hrun, hmem⟩ := List.mem_flatMap.1 hitem
    obtain ⟨item', hitem', -, hleaves⟩ := exists_runItems_eq_of_mem hnested hrun
    rw [hitem', List.mem_singleton] at hmem
    rw [hmem, hleaves, ne_eq, List.map_eq_nil_iff]
    exact (isRun_of_mem_termRuns run hrun).filled
  separated := by
    have hplaces :
        ((filterItems ts).map Clause.itemPlace).IsChain fun p q => p = q → p = .alone := by
      rw [map_itemPlace_filterItems hnested, List.isChain_map]
      exact isChain_termRuns ts
    rwa [List.isChain_map] at hplaces

/-! ## Kinds of lists -/

theorem isNegatedEquality_iff {t : Term} (hnested : t.isNested = true) :
    t.isNegatedEquality = true ↔ t.isNegation = true ∧ t.needsFilter = false := by
  cases t with
  | negation inner =>
    cases inner <;> simp [Term.isNested, Term.isNegatedEquality, Term.isNegation,
      Term.needsFilter] at hnested ⊢
  | _ => simp [Term.isNegatedEquality, Term.isNegation]

theorem kind_eq_equals_iff {t : Term} (hnested : t.isNested = true) :
    t.kind = .equals ↔ t.isNegation = false ∧ t.needsFilter = false := by
  cases t <;> simp [Term.isNested, Term.kind, Term.isNegation, Term.needsFilter] at hnested ⊢

theorem isListOrRange_iff (t : Term) :
    t.isListOrRange = true ↔ t.needsFilter = true ∧ t.isNegation = false := by
  cases t <;> simp [Term.isListOrRange, Term.isNegation, Term.needsFilter]

theorem unfiltered_true_iff (hnested : ∀ t ∈ ts, t.isNested = true) :
    Unfiltered true ts ↔ ∀ t ∈ ts, t.isNegatedEquality = true :=
  forall₂_congr fun t ht => (isNegatedEquality_iff (hnested t ht)).symm

theorem unfiltered_false_iff (hnested : ∀ t ∈ ts, t.isNested = true) :
    Unfiltered false ts ↔ ∀ t ∈ ts, t.kind = .equals :=
  forall₂_congr fun t ht => (kind_eq_equals_iff (hnested t ht)).symm

theorem sameKind_of_forall {k : Term.Kind} (h : ∀ t ∈ ts, t.kind = k) : sameKind ts = true := by
  cases ts with
  | nil => rfl
  | cons t ts =>
    rw [List.forall_mem_cons] at h
    simpa [sameKind, h.1] using h.2

/-- Terms that ask for a filter are not all equalities. -/
theorem not_forall_equals (hnested : ∀ t ∈ ts, t.isNested = true)
    (h : (∃ t ∈ ts, t.needsFilter = true) ∨ sameKind ts = false) :
    ¬∀ t ∈ ts, t.kind = .equals := by
  intro hequals
  obtain ⟨t, ht, hneeds⟩ | hsame := h
  · rw [((unfiltered_false_iff hnested).2 hequals t ht).2] at hneeds
    cases hneeds
  · rw [sameKind_of_forall hequals] at hsame
    cases hsame

/-! ## What stands in a `must` -/

theorem inMust_leaf (t : Term) : t.leaf.inMust = [] := by
  induction t with
  | inRange field intervals =>
    rw [Term.leaf, Clause.inMust, Clause.nodes_any, List.flatMap_cons, intervalClauses,
      List.flatMap_map, List.flatMap_assoc]
    simp [Clause.mustChildren, Clause.nodes, Clause.beneath]
  | negation inner ih => exact ih
  | _ => rfl

theorem inMust_filterLeaf (t : Term) : t.filterLeaf.inMust = [] := by
  obtain heq | ⟨field, interval, -, heq⟩ := filterLeaf_cases t
  · rw [heq]
    exact inMust_leaf t
  · rw [heq]
    rfl

theorem exists_filterLeaf_eq {t : Term} (h : t.place = .must) :
    ∃ field value, t.filterLeaf = .equals field value := by
  cases t with
  | equals field value => exact ⟨field, value, rfl⟩
  | _ => simp [Term.place] at h

namespace Clause

theorem item_cases (item : Clause) :
    (∃ leaves, item = ofMust (.many leaves)) ∨ (∃ leaves, item = ofMustNot (.many leaves)) ∨
      item.itemLeaves = [item] := by
  unfold itemLeaves
  split
  · exact Or.inl ⟨_, rfl⟩
  · exact Or.inr (Or.inl ⟨_, rfl⟩)
  · exact Or.inr (Or.inr rfl)

end Clause

namespace MaximalRuns

variable {items : List Clause}

/-- A leaf of an item is that of a term with the place of the item. -/
theorem exists_term (h : MaximalRuns ts items) {item leaf : Clause} (hitem : item ∈ items)
    (hleaf : leaf ∈ item.itemLeaves) :
    ∃ t ∈ ts, t.place = item.itemPlace ∧ t.filterLeaf = leaf := by
  have hmem : (item.itemPlace, leaf) ∈ items.flatMap Clause.placedLeaves :=
    List.mem_flatMap.2 ⟨item, hitem, List.mem_map_of_mem hleaf⟩
  rw [h.leaves] at hmem
  obtain ⟨t, ht, heq⟩ := List.mem_map.1 hmem
  exact ⟨t, ht, (Prod.mk.inj heq).1, (Prod.mk.inj heq).2⟩

/-- Only equalities stand directly in a `must`. -/
theorem exists_eq_of_mem_inMust (h : MaximalRuns ts items) :
    ∀ c ∈ items.flatMap Clause.inMust, ∃ field value, c = .equals field value := by
  intro c hc
  obtain ⟨item, hitem, hc⟩ := List.mem_flatMap.1 hc
  -- so nothing counts but the slot of the item itself
  have hnone : ∀ leaf ∈ item.itemLeaves, leaf.inMust = [] := by
    intro leaf hleaf
    obtain ⟨t, -, -, rfl⟩ := h.exists_term hitem hleaf
    exact inMust_filterLeaf t
  rcases item.item_cases with ⟨leaves, rfl⟩ | ⟨leaves, rfl⟩ | hself
  · have hleaves : leaves.flatMap Clause.inMust = [] := List.flatMap_eq_nil_iff.2 hnone
    rw [Clause.inMust_ofMust, Slot.toList_many, hleaves, List.append_nil] at hc
    obtain ⟨t, -, hplace, rfl⟩ := h.exists_term hitem hc
    exact exists_filterLeaf_eq hplace
  · have hleaves : leaves.flatMap Clause.inMust = [] := List.flatMap_eq_nil_iff.2 hnone
    rw [Clause.inMust_ofMustNot, Slot.toList_many, hleaves] at hc
    cases hc
  · rw [hnone item (by simp [hself])] at hc
    cases hc

end MaximalRuns

/-! ## Predicates -/

/-- The shape of the predicate that the terms on one path make. -/
structure NestedShape (ts : List Term) (predicate : Context × Clause) : Prop where
  /-- A filter is the leaf of one list or of one range. -/
  bare : ∀ leaf, predicate = (.filter, leaf) ↔
    ∃ t, ts = [t] ∧ t.isListOrRange = true ∧ leaf = t.filterLeaf
  negated : ∀ slot, predicate = (.query, .ofMustNot slot) ↔
    (∀ t ∈ ts, t.isNegatedEquality = true) ∧ slot = .many (ts.map Term.leaf)
  equal : ∀ slot, predicate = (.query, .ofMust slot) ↔
    (∀ t ∈ ts, t.kind = .equals) ∧ slot = .many (ts.map Term.leaf)
  mixed : (¬∃ t, ts = [t] ∧ t.isListOrRange = true) →
    ¬(∀ t ∈ ts, t.isNegatedEquality = true) → ¬(∀ t ∈ ts, t.kind = .equals) →
    ∃ items, predicate = (.query, .ofFilter (.many items)) ∧ MaximalRuns ts items
  /-- Only equalities stand directly in a `must`, wherever it is. -/
  inMust : ∀ c ∈ predicate.2.inMust, ∃ field value, c = .equals field value

theorem flatMap_inMust_leaves (ts : List Term) : (ts.map Term.leaf).flatMap Clause.inMust = [] := by
  rw [List.flatMap_map, List.flatMap_eq_nil_iff]
  exact fun t _ => inMust_leaf t

theorem nestedShape_bare {t : Term} (ht : t.isListOrRange = true) :
    NestedShape [t] (.filter, t.filterLeaf) where
  bare leaf := by
    constructor
    · intro h
      exact ⟨t, rfl, ht, (Prod.mk.inj h).2.symm⟩
    · rintro ⟨u, hu, -, rfl⟩
      rw [List.singleton_inj.1 hu]
  negated slot := by simp [Term.not_isNegatedEquality_of_isListOrRange ht]
  equal slot := by simp [Term.kind_ne_of_isListOrRange ht]
  mixed hbare _ _ := absurd ⟨t, rfl, ht⟩ hbare
  inMust := by
    rw [inMust_filterLeaf]
    simp

theorem nestedShape_negated (hne : ts ≠ []) (hall : ∀ t ∈ ts, t.isNegatedEquality = true) :
    NestedShape ts (.query, .ofMustNot (.many (ts.map Term.leaf))) where
  bare leaf := by
    refine iff_of_false (by simp) ?_
    rintro ⟨t, rfl, ht, -⟩
    exact Term.not_isNegatedEquality_of_isListOrRange ht (hall t (by simp))
  negated slot :=
    ⟨fun h => ⟨hall, (Clause.bool.inj (Prod.mk.inj h).2).2.2.symm⟩, fun h => by rw [h.2]⟩
  equal slot := by
    obtain ⟨t, ht⟩ := List.exists_mem_of_ne_nil ts hne
    refine iff_of_false (by simp [Clause.ofMustNot, Clause.ofMust]) fun h => ?_
    exact Term.kind_ne_of_isNegatedEquality (hall t ht) (h.1 t ht)
  mixed _ hnot _ := absurd hall hnot
  inMust := by
    rw [Clause.inMust_ofMustNot, Slot.toList_many, flatMap_inMust_leaves]
    simp

theorem nestedShape_equal (hne : ts ≠ []) (hall : ∀ t ∈ ts, t.kind = .equals) :
    NestedShape ts (.query, .ofMust (.many (ts.map Term.leaf))) where
  bare leaf := by
    refine iff_of_false (by simp) ?_
    rintro ⟨t, rfl, ht, -⟩
    exact Term.kind_ne_of_isListOrRange ht (hall t (by simp))
  negated slot := by
    obtain ⟨t, ht⟩ := List.exists_mem_of_ne_nil ts hne
    refine iff_of_false (by simp [Clause.ofMustNot, Clause.ofMust]) fun h => ?_
    exact Term.kind_ne_of_isNegatedEquality (h.1 t ht) (hall t ht)
  equal slot :=
    ⟨fun h => ⟨hall, (Clause.bool.inj (Prod.mk.inj h).2).1.symm⟩, fun h => by rw [h.2]⟩
  mixed _ _ hnot := absurd hall hnot
  inMust := by
    rw [Clause.inMust_ofMust, Slot.toList_many, flatMap_inMust_leaves, List.append_nil,
      List.forall_mem_map]
    intro t ht
    have hkind := hall t ht
    cases t with
    | equals field value => exact ⟨field, value, rfl⟩
    | _ => simp [Term.kind] at hkind

theorem nestedShape_mixed (hbare : ¬∃ t, ts = [t] ∧ t.isListOrRange = true)
    (hnegated : ¬(∀ t ∈ ts, t.isNegatedEquality = true)) (hequal : ¬(∀ t ∈ ts, t.kind = .equals))
    (hnested : ∀ t ∈ ts, t.isNested = true) :
    NestedShape ts (.query, .ofFilter (.many (filterItems ts))) where
  bare leaf := iff_of_false (by simp) fun ⟨t, hts, ht, _⟩ => hbare ⟨t, hts, ht⟩
  negated slot := iff_of_false (by simp [Clause.ofFilter, Clause.ofMustNot]) fun h => hnegated h.1
  equal slot := iff_of_false (by simp [Clause.ofFilter, Clause.ofMust]) fun h => hequal h.1
  mixed _ _ _ := ⟨filterItems ts, rfl, maximalRuns_filterItems hnested⟩
  inMust := by
    rw [Clause.inMust_ofFilter]
    exact (maximalRuns_filterItems hnested).exists_eq_of_mem_inMust

/-- The predicate of any terms on one path has the shape that they ask for. -/
theorem nestedShape_nestedPredicate (hne : ts ≠ []) (hnested : ∀ t ∈ ts, t.isNested = true) :
    NestedShape ts (nestedPredicate ts) := by
  have hleaves : ts.map Term.leaf ≠ [] := by simpa using hne
  obtain ⟨t, rfl, hfilter, hnegation, heq⟩ | ⟨hbare, heq⟩ := nestedPredicate_cases ts
  · rw [heq]
    exact nestedShape_bare ((isListOrRange_iff t).2 ⟨hfilter, hnegation⟩)
  · rw [heq]
    obtain ⟨hall, heq⟩ | ⟨hall, heq⟩ | ⟨hnegated, hmixed, heq⟩ := jointPredicate_cases ts
    · rw [heq, Slot.listed_eq_many hleaves]
      exact nestedShape_negated hne ((unfiltered_true_iff hnested).1 hall)
    · rw [heq, Slot.listed_eq_many hleaves]
      exact nestedShape_equal hne ((unfiltered_false_iff hnested).1 hall)
    · rw [heq, Slot.listed_eq_many (filterItems_ne_nil hne)]
      rw [unfiltered_true_iff hnested] at hnegated
      simp only [← isListOrRange_iff] at hbare
      exact nestedShape_mixed hbare hnegated (not_forall_equals hnested hmixed) hnested

/-- Terms on programs that ask for a filter. -/
theorem exists_maximalRuns_programs :
    ∃ items, nestedPredicate [.equals "programs.code" (.str "13"),
        .equals "programs.title" (.str "Nursing"), .oneOf "programs.level" [.str "2", .str "3"],
        .negation (.equals "programs.kind" (.str "online"))] =
        (.query, .ofFilter (.many items)) ∧
      MaximalRuns [.equals "programs.code" (.str "13"), .equals "programs.title" (.str "Nursing"),
        .oneOf "programs.level" [.str "2", .str "3"],
        .negation (.equals "programs.kind" (.str "online"))] items :=
  (nestedShape_nestedPredicate (List.cons_ne_nil _ _) (by decide)).mixed (by simp) (by decide)
    (by decide)

example (code title level level' kind : Json) :
    filterItems [.equals "programs.code" code, .equals "programs.title" title,
        .oneOf "programs.level" [level, level'], .negation (.equals "programs.kind" kind)] =
      [.ofMust (.many [.equals "programs.code" code, .equals "programs.title" title]),
        .oneOf "programs.level" [level, level'],
        .ofMustNot (.many [.equals "programs.kind" kind])] := rfl

end

end FlatQuery
