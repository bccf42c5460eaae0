import FlatQuery.Plan.Basic

/-!
# Nested queries in a clause

`Clause.nestedNodes` lists the nested queries that stand in a clause, from left to right. Terms on
the document itself make none, so that those in the clause of a plan are the queries of its groups,
each once and in their order (`nestedNodes_combinedClause`).
-/

namespace FlatQuery

namespace Clause

mutual

/-- The nested queries in a clause. What stands within the predicate of one is not searched. -/
def nestedNodes : Clause → List NestedQuery
  | nested path context predicate size => [{ path, context, predicate, size }]
  | any clauses => listNodes clauses
  | bool must filter mustNot => slotNodes must ++ slotNodes filter ++ slotNodes mustNot
  | matchAll | equals .. | oneOf .. | inRange .. | wildcard .. | common .. | near .. => []
termination_by structural c => c

def listNodes : List Clause → List NestedQuery
  | [] => []
  | c :: cs => c.nestedNodes ++ listNodes cs
termination_by structural cs => cs

def slotNodes : Slot Clause → List NestedQuery
  | .empty => []
  | .one c => c.nestedNodes
  | .many cs => listNodes cs
termination_by structural slot => slot

end

theorem listNodes_eq_flatMap (cs : List Clause) : listNodes cs = cs.flatMap nestedNodes := by
  induction cs with
  | nil => rfl
  | cons c cs ih => rw [listNodes, ih, List.flatMap_cons]

theorem slotNodes_eq_flatMap (slot : Slot Clause) :
    slotNodes slot = slot.toList.flatMap nestedNodes := by
  cases slot with
  | empty => rfl
  | one c => rw [slotNodes, Slot.toList, List.flatMap_singleton]
  | many cs => exact listNodes_eq_flatMap cs

theorem nestedNodes_bool (must filter mustNot : Slot Clause) :
    (bool must filter mustNot).nestedNodes =
      (must.toList ++ filter.toList ++ mustNot.toList).flatMap nestedNodes := by
  rw [nestedNodes, slotNodes_eq_flatMap, slotNodes_eq_flatMap, slotNodes_eq_flatMap,
    List.flatMap_append, List.flatMap_append]

theorem nestedNodes_clause (q : NestedQuery) : q.clause.nestedNodes = [q] := rfl

theorem flatMap_nestedNodes_clauses (queries : List NestedQuery) :
    (queries.map NestedQuery.clause).flatMap nestedNodes = queries := by
  induction queries with
  | nil => rfl
  | cons q queries ih => rw [List.map_cons, List.flatMap_cons, ih, nestedNodes_clause]; rfl

theorem nestedNodes_slotItem {wrap : Slot Clause → Clause} {slot : Slot Clause}
    (h : (wrap slot).nestedNodes = []) : (slotItem wrap slot).flatMap nestedNodes = [] := by
  unfold slotItem
  split
  · rfl
  · rw [List.flatMap_singleton, h]

/-- Joining adds the queries to a clause that has none. -/
theorem nestedNodes_combine {standard : Clause} (h : standard.nestedNodes = [])
    (queries : List NestedQuery) : (combine standard queries).nestedNodes = queries := by
  unfold combine
  split
  · rename_i hempty
    rw [h, List.isEmpty_iff.1 hempty]
  · cases standard with
    | bool must filter mustNot =>
      rw [nestedNodes_bool, List.flatMap_append, List.flatMap_append, List.append_eq_nil_iff,
        List.append_eq_nil_iff] at h
      obtain ⟨⟨hmust, hfilter⟩, hmustNot⟩ := h
      have hmustItem : (slotItem ofMust must).flatMap nestedNodes = [] := by
        apply nestedNodes_slotItem
        rw [ofMust, nestedNodes_bool]
        simpa using hmust
      have hmustNotItem : (slotItem ofMustNot mustNot).flatMap nestedNodes = [] := by
        apply nestedNodes_slotItem
        rw [ofMustNot, nestedNodes_bool]
        simpa using hmustNot
      simp only [ofFilter, nestedNodes_bool, Slot.toList_many, Slot.toList_empty, List.nil_append,
        List.append_nil, List.flatMap_append, hfilter, flatMap_nestedNodes_clauses, hmustItem,
        hmustNotItem]
    | nested => cases h
    | _ => simp [ofFilter, nestedNodes_bool, flatMap_nestedNodes_clauses, h]

end Clause

/-! ## Terms -/

theorem nestedNodes_leaf (t : Term) : t.leaf.nestedNodes = [] := by
  induction t with
  | inRange field intervals =>
    rw [Term.leaf, Clause.nestedNodes, Clause.listNodes_eq_flatMap, List.flatMap_eq_nil_iff]
    simp [intervalClauses, Clause.nestedNodes]
  | negation inner ih => exact ih
  | _ => rfl

theorem nestedNodes_leavesOf (occasion : Occasion) (ts : List Term) :
    (Clause.leavesOf occasion ts).flatMap Clause.nestedNodes = [] := by
  rw [List.flatMap_eq_nil_iff, Clause.leavesOf, List.forall_mem_map]
  exact fun t _ => nestedNodes_leaf t

theorem nestedNodes_ofTerms (ts : List Term) : (Clause.ofTerms ts).nestedNodes = [] := by
  match ts with
  | [] => rfl
  | [t] =>
    cases t with
    | negation inner =>
      simp [Clause.ofTerms, Clause.ofMustNot, Clause.nestedNodes_bool, nestedNodes_leaf]
    | near => rfl
    | _ => exact nestedNodes_leaf _
  | t₁ :: t₂ :: ts =>
    rw [Clause.ofTerms_cons_cons, Clause.nestedNodes_bool]
    simp [nestedNodes_leavesOf]

/-- What the engine is asked about nested paths: the queries of the groups, each once. -/
theorem nestedNodes_combinedClause (plan : Plan) :
    plan.combinedClause.nestedNodes = plan.nestedQueries :=
  Clause.nestedNodes_combine (nestedNodes_ofTerms plan.standardTerms) plan.nestedQueries

end FlatQuery
