import FlatQuery.Proofs.FirstPlaces
import FlatQuery.Proofs.Outcome
import FlatQuery.Query.Nested

/-!
# Where conditions go

`Partitions` says what classifying makes of a list of conditions: those without a nested path in one
list, the others in one group for each path, everything in the order of the parameters
(`classify_eq_ok`). A group becomes the list of the terms of its conditions
(`ofConditions_eq_ok`).
-/

namespace FlatQuery

/-! ## Adding to groups -/

theorem map_fst_addToGroup (path : String) (condition : Condition)
    (groups : List (String × List Condition)) :
    (addToGroup path condition groups).map Prod.fst =
      groups.map Prod.fst ++ if path ∈ groups.map Prod.fst then [] else [path] := by
  induction groups with
  | nil => rfl
  | cons group groups ih =>
    obtain ⟨p, conditions⟩ := group
    unfold addToGroup
    by_cases hp : p = path
    · simp [hp]
    · have hmem : path ∈ p :: groups.map Prod.fst ↔ path ∈ groups.map Prod.fst := by
        rw [List.mem_cons, or_iff_right (Ne.symm hp)]
      simp only [if_neg hp, List.map_cons, ih, hmem, List.cons_append]

/-- The members of a group afterwards are those from before, and the new one if it is its path's. -/
theorem snd_of_mem_addToGroup {path : String} (condition : Condition)
    {groups : List (String × List Condition)} (members : String → List Condition)
    (hnodup : (groups.map Prod.fst).Nodup) (hnew : path ∉ groups.map Prod.fst → members path = [])
    (hold : ∀ group ∈ groups, group.2 = members group.1) :
    ∀ group ∈ addToGroup path condition groups,
      group.2 = members group.1 ++ if group.1 = path then [condition] else [] := by
  induction groups with
  | nil =>
    intro group hg
    obtain rfl := List.mem_singleton.1 hg
    simp [hnew (by simp)]
  | cons first groups ih =>
    obtain ⟨p, conditions⟩ := first
    rw [List.map_cons, List.nodup_cons] at hnodup
    intro group hg
    unfold addToGroup at hg
    by_cases hp : p = path
    · rw [if_pos hp] at hg
      rcases List.mem_cons.1 hg with rfl | hg
      · rw [if_pos hp, ← hold (p, conditions) (by simp)]
      · have hne : group.1 ≠ path := by
          intro h
          have hpath := List.mem_map_of_mem (f := Prod.fst) hg
          rw [h, ← hp] at hpath
          exact hnodup.1 hpath
        rw [if_neg hne, List.append_nil, hold group (List.mem_cons_of_mem _ hg)]
    · rw [if_neg hp] at hg
      rcases List.mem_cons.1 hg with rfl | hg
      · rw [if_neg hp, List.append_nil, hold (p, conditions) (by simp)]
      · refine ih hnodup.2 (fun h => hnew ?_) (fun g h => hold g (List.mem_cons_of_mem _ h))
          group hg
        simpa [Ne.symm hp] using h

/-- A condition that is added is in one group, and nothing else changes. -/
theorem flatMap_addToGroup_perm (path : String) (condition : Condition)
    (groups : List (String × List Condition)) :
    ((addToGroup path condition groups).flatMap Prod.snd).Perm
      (groups.flatMap Prod.snd ++ [condition]) := by
  induction groups with
  | nil => exact .refl _
  | cons group groups ih =>
    obtain ⟨p, conditions⟩ := group
    unfold addToGroup
    split
    · simp only [List.flatMap_cons, List.append_assoc]
      exact List.perm_append_comm.append_left conditions
    · simp only [List.flatMap_cons, List.append_assoc]
      exact ih.append_left conditions

/-! ## Classified conditions -/

/-- What the classified conditions have to do with the list of all conditions. -/
structure Classified.Partitions (classified : Classified) (conditions : List Condition) : Prop where
  /-- The conditions on the document itself are those without a nested path. -/
  standard : classified.standard = conditions.filter fun x => x.nestedPath = none
  /-- A group holds the conditions that its path owns. -/
  members : ∀ group ∈ classified.groups,
    group.2 = conditions.filter fun x => x.nestedPath = some group.1
  /-- There is one group for each path, in the order of the first conditions. -/
  paths : classified.groups.map Prod.fst = (conditions.filterMap Condition.nestedPath).eraseDups
  /-- Every condition is in one place. -/
  perm : (classified.standard ++ classified.groups.flatMap Prod.snd).Perm conditions

namespace Classified.Partitions

variable {classified : Classified} {conditions : List Condition}

theorem nodup_paths (h : classified.Partitions conditions) :
    (classified.groups.map Prod.fst).Nodup := by
  rw [h.paths]
  exact nodup_eraseDups _

theorem mem_paths_iff (h : classified.Partitions conditions) {path : String} :
    path ∈ classified.groups.map Prod.fst ↔ ∃ x ∈ conditions, x.nestedPath = some path := by
  rw [h.paths, List.mem_eraseDups, List.mem_filterMap]

theorem mem_standard_iff (h : classified.Partitions conditions) {x : Condition} :
    x ∈ classified.standard ↔ x ∈ conditions ∧ x.nestedPath = none := by
  rw [h.standard, List.mem_filter, decide_eq_true_eq]

theorem mem_group_iff (h : classified.Partitions conditions) {group : String × List Condition}
    (hgroup : group ∈ classified.groups) {x : Condition} :
    x ∈ group.2 ↔ x ∈ conditions ∧ x.nestedPath = some group.1 := by
  rw [h.members group hgroup, List.mem_filter, decide_eq_true_eq]

theorem add (h : classified.Partitions conditions) (condition : Condition) :
    (classified.add condition).Partitions (conditions ++ [condition]) := by
  unfold Classified.add
  cases hpath : condition.nestedPath with
  | none =>
    refine ⟨by simp [h.standard, hpath], by simpa [hpath] using h.members,
      by simpa [hpath] using h.paths, ?_⟩
    have hswap : ([condition] ++ classified.groups.flatMap Prod.snd).Perm
        (classified.groups.flatMap Prod.snd ++ [condition]) := List.perm_append_comm
    rw [List.append_assoc]
    refine (hswap.append_left classified.standard).trans ?_
    rw [← List.append_assoc]
    exact h.perm.append_right [condition]
  | some path =>
    refine ⟨by simp [h.standard, hpath], ?_, ?_, ?_⟩
    · have hnew : path ∉ classified.groups.map Prod.fst →
          (conditions.filter fun x => x.nestedPath = some path) = [] := by
        rw [h.mem_paths_iff]
        simp
      have hmem := snd_of_mem_addToGroup condition
        (fun p => conditions.filter fun x => x.nestedPath = some p) h.nodup_paths hnew h.members
      intro group hg
      rw [hmem group hg, List.filter_append]
      by_cases hp : group.1 = path
      · simp [hp, hpath]
      · simp [hp, hpath, Ne.symm hp]
    · have hold : path ∈ classified.groups.map Prod.fst ↔
          path ∈ conditions.filterMap Condition.nestedPath := by
        rw [h.paths, List.mem_eraseDups]
      have hlast : [condition].filterMap Condition.nestedPath = [path] := by simp [hpath]
      rw [map_fst_addToGroup, List.filterMap_append, hlast, eraseDups_append_singleton, ← h.paths]
      simp only [hold]
    · have hgroups := flatMap_addToGroup_perm path condition classified.groups
      refine (hgroups.append_left classified.standard).trans ?_
      rw [← List.append_assoc]
      exact h.perm.append_right [condition]

theorem foldl_add (h : classified.Partitions conditions) (more : List Condition) :
    (more.foldl Classified.add classified).Partitions (conditions ++ more) := by
  induction more generalizing classified conditions with
  | nil => simpa using h
  | cons condition more ih => simpa using ih (h.add condition)

end Classified.Partitions

theorem partitions_empty : Classified.empty.Partitions [] :=
  ⟨rfl, by simp [Classified.empty], rfl, .refl _⟩

/-- Classifying reads every parameter and puts each condition in its place. -/
theorem classify_eq_ok {c : Catalog} {flat : Bool} {params : List Param} {classified : Classified}
    (h : classify c flat params = .ok classified) :
    ∃ conditions, params.mapM (Condition.ofParam c flat) = .ok conditions ∧
      classified.Partitions conditions := by
  obtain ⟨conditions, hc, rfl⟩ := map_eq_ok_iff.1 h
  exact ⟨conditions, hc, by simpa using partitions_empty.foldl_add conditions⟩

/-! ## Terms of a group -/

theorem NestedGroup.push_eq_ok {g g' : NestedGroup} {owner : String} {term : Term}
    (h : g.push owner term = .ok g') :
    owner = g.path ∧ g' = { g with terms := g.terms ++ [term] } := by
  unfold NestedGroup.push at h
  split at h
  · rename_i howner
    exact ⟨howner, (Except.ok.inj h).symm⟩
  · cases h

/-- What the path of the group owns is refused only if it makes no term. -/
theorem NestedGroup.add_of_owner {c : Catalog} {g : NestedGroup} {x : Condition}
    (howner : c.nestedPath? x.field = some g.path) :
    g.add c x = x.term.map fun t => { g with terms := g.terms ++ [t] } := by
  rw [NestedGroup.add, howner]
  cases x.term with
  | error e => rfl
  | ok t => rw [ok_bind, NestedGroup.push, if_pos (Option.getD_some ..), Except.map]

theorem foldlM_add_eq_ok {c : Catalog} {conditions : List Condition} {g g' : NestedGroup}
    (h : conditions.foldlM (NestedGroup.add c) g = .ok g') :
    g'.path = g.path ∧ ∃ terms, g'.terms = g.terms ++ terms ∧
      List.Forall₂ (fun x t => Condition.term x = .ok t) conditions terms := by
  induction conditions generalizing g with
  | nil =>
    obtain rfl := Except.ok.inj h
    exact ⟨rfl, [], by simp, .nil⟩
  | cons condition conditions ih =>
    rw [List.foldlM_cons] at h
    obtain ⟨g₁, hadd, h⟩ := bind_eq_ok_iff.1 h
    obtain ⟨term, hterm, hpush⟩ := bind_eq_ok_iff.1 hadd
    obtain ⟨-, rfl⟩ := NestedGroup.push_eq_ok hpush
    obtain ⟨hpath, terms, hterms, hall⟩ := ih h
    exact ⟨hpath, term :: terms, by simp [hterms], .cons hterm hall⟩

/-- A group that could be built holds the term of each of its conditions, in order. -/
theorem ofConditions_eq_ok {c : Catalog} {path : String} {conditions : List Condition}
    {g : NestedGroup} (h : NestedGroup.ofConditions c path conditions = .ok g) :
    g.path = path ∧ List.Forall₂ (fun x t => Condition.term x = .ok t) conditions g.terms := by
  obtain ⟨hpath, terms, hterms, hall⟩ := foldlM_add_eq_ok h
  exact ⟨hpath, by simpa [hterms] using hall⟩

end FlatQuery
