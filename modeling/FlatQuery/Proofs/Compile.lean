import FlatQuery.Plan.Basic
import FlatQuery.Proofs.Grouping
import Mathlib.Data.List.Perm.Basic

/-!
# What a plan is made of

`Plan.Stages` lists the parts of a compilation that succeeded, one for each part of the plan, so
that no later argument takes `compile` apart again (`stages_of_compile`). From it follow the nested
paths that a plan queries (`queriesPath_iff`) and where its terms come from: there is one for each
parameter, and one for a distance (`exists_terms`).
-/

namespace FlatQuery

/-! ## Owners -/

theorem isNested_iff {c : Catalog} {field : String} :
    c.isNested field = true ↔ ∃ path, c.nestedPath? field = some path := by
  rw [Catalog.isNested, Option.isSome_iff_exists]

/-- The path that owns a field is one of the catalog. -/
theorem mem_paths_of_nestedPath? {c : Catalog} {field path : String}
    (h : c.nestedPath? field = some path) : path ∈ c.nested.paths := by
  unfold Catalog.nestedPath? NestedPaths.resolve? at h
  simpa using List.find?_some h

theorem nestedPath_of_ofParam {c : Catalog} {flat : Bool} {p : Param} {x : Condition}
    (h : Condition.ofParam c flat p = .ok x) :
    x.nestedPath = if flat then none else c.nestedPath? x.field := by
  obtain ⟨operand, -, h⟩ := bind_eq_ok_iff.1 h
  obtain rfl := Except.ok.inj h
  rfl

/-! ## The parts of a compilation -/

/-- What the conditions of a request and the plan have to do with each other. -/
structure Plan.Stages (plan : Plan) (c : Catalog) (settings : PlanSettings) (r : Request)
    (conditions : List Condition) (classified : Classified) : Prop where
  read : List.Forall₂ (fun p x => Condition.ofParam c r.options.allPrograms p = .ok x)
    r.params conditions
  partitions : classified.Partitions conditions
  standard : FlatQuery.standardTerms c r.options classified.standard = .ok plan.standardTerms
  groups : List.Forall₂ (fun group g => NestedGroup.ofConditions c group.1 group.2 = .ok g)
    classified.groups plan.groups
  sort : r.options.compileSort c settings plan.nestedQueries = .ok plan.sort
  projection : plan.projection =
    .build c r.options.fields plan.hasNestedQuery r.options.allProgramsNested
  paging : plan.paging = r.options.paging settings.defaultPageSize
  aggregations : plan.aggregations =
    if r.options.wantsStats then numericFields c r.options.fields else []
  output : plan.output = r.options.output

theorem stages_of_compile {c : Catalog} {settings : PlanSettings} {r : Request} {plan : Plan}
    (h : compile c settings r = .ok plan) :
    ∃ conditions classified, plan.Stages c settings r conditions classified := by
  unfold compile at h
  obtain ⟨classified, hclass, h⟩ := bind_eq_ok_iff.1 h
  obtain ⟨terms, hterms, h⟩ := bind_eq_ok_iff.1 h
  obtain ⟨groups, hgroups, h⟩ := bind_eq_ok_iff.1 h
  obtain ⟨sort, hsort, h⟩ := bind_eq_ok_iff.1 h
  obtain rfl := Except.ok.inj h
  obtain ⟨conditions, hread, hparts⟩ := classify_eq_ok hclass
  exact ⟨conditions, classified, mapM_eq_ok_iff.1 hread, hparts, hterms, mapM_eq_ok_iff.1 hgroups,
    hsort, rfl, rfl, rfl, rfl⟩

namespace Plan

theorem queriesPath_iff_exists_group {plan : Plan} {path : String} :
    plan.queriesPath path = true ↔ ∃ g ∈ plan.groups, g.path = path := by
  simp [Plan.queriesPath]

theorem map_path_nestedQueries (plan : Plan) :
    plan.nestedQueries.map NestedQuery.path = plan.groups.map NestedGroup.path := by
  rw [Plan.nestedQueries, List.map_map]
  rfl

end Plan

theorem hasNestedQuery_iff {plan : Plan} :
    plan.hasNestedQuery = true ↔ ∃ path, plan.queriesPath path = true := by
  simp only [Plan.queriesPath_iff_exists_group]
  cases hgroups : plan.groups with
  | nil => simp [Plan.hasNestedQuery, hgroups]
  | cons g groups => simp [Plan.hasNestedQuery, hgroups]

/-! ## Terms of parameters -/

/-- The term of a condition in its place: with the document itself or in the group of its path. -/
def Condition.searchTerm (condition : Condition) : Except Rejection Term :=
  if condition.nestedPath.isNone then condition.standardTerm else condition.term

/-- The term of a parameter. Where `flat` is set, nested paths are left out of account. -/
def Param.searchTerm (c : Catalog) (flat : Bool) (p : Param) : Except Rejection Term := do
  let condition ← Condition.ofParam c flat p
  condition.searchTerm

/-- All terms of a plan. -/
def Plan.terms (plan : Plan) : List Term :=
  plan.standardTerms ++ plan.groups.flatMap NestedGroup.terms

namespace Plan.Stages

variable {plan : Plan} {c : Catalog} {settings : PlanSettings} {r : Request}
  {conditions : List Condition} {classified : Classified}

theorem groups_path (h : plan.Stages c settings r conditions classified) :
    plan.groups.map NestedGroup.path = classified.groups.map Prod.fst := by
  rw [← List.forall₂_eq_eq_eq, List.forall₂_map_left_iff, List.forall₂_map_right_iff]
  exact (h.groups.imp fun group g hg => (ofConditions_eq_ok hg).1).flip

theorem nodup_paths (h : plan.Stages c settings r conditions classified) :
    (plan.groups.map NestedGroup.path).Nodup := by
  rw [h.groups_path]
  exact h.partitions.nodup_paths

/-- The queried paths are those that own a condition. -/
theorem queriesPath_iff (h : plan.Stages c settings r conditions classified) {path : String} :
    plan.queriesPath path = true ↔ ∃ x ∈ conditions, x.nestedPath = some path := by
  rw [← h.partitions.mem_paths_iff, ← h.groups_path, List.mem_map]
  simp [Plan.queriesPath]

/-- Only paths of the catalog are queried. -/
theorem mem_paths_of_queriesPath (h : plan.Stages c settings r conditions classified)
    {path : String} (hqueried : plan.queriesPath path = true) : path ∈ c.nested.paths := by
  obtain ⟨x, hx, hpath⟩ := h.queriesPath_iff.1 hqueried
  have howner : ∀ x ∈ conditions,
      x.nestedPath = if r.options.allPrograms then none else c.nestedPath? x.field :=
    forall_mem_right_of_forall₂ h.read fun _ _ hread => nestedPath_of_ofParam hread
  rw [howner x hx] at hpath
  split at hpath
  · cases hpath
  · exact mem_paths_of_nestedPath? hpath

/-- A term on the document itself comes from a condition without a nested path, or is the distance
of the request. -/
theorem mem_standardTerms_iff (h : plan.Stages c settings r conditions classified) {t : Term} :
    t ∈ plan.standardTerms ↔
      (∃ x ∈ conditions, x.nestedPath = none ∧ x.standardTerm = .ok t) ∨
        nearTerm? c r.options = .ok (some t) := by
  obtain ⟨terms, hterms, hnear⟩ := bind_eq_ok_iff.1 h.standard
  obtain ⟨near, hnear, heq⟩ := bind_eq_ok_iff.1 hnear
  rw [← Except.ok.inj heq, List.mem_append, mem_iff_of_forall₂_ok (mapM_eq_ok_iff.1 hterms),
    Option.mem_toList, hnear, Except.ok.injEq]
  simp only [h.partitions.mem_standard_iff, and_assoc]

/-- A term of a group comes from a condition that the path of the group owns. -/
theorem mem_groupTerms_iff (h : plan.Stages c settings r conditions classified) {g : NestedGroup}
    (hg : g ∈ plan.groups) {t : Term} :
    t ∈ g.terms ↔ ∃ x ∈ conditions, x.nestedPath = some g.path ∧ x.term = .ok t := by
  obtain ⟨group, hgroup, hbuilt⟩ := (mem_iff_of_forall₂_ok h.groups).1 hg
  obtain ⟨hpath, hterms⟩ := ofConditions_eq_ok hbuilt
  simp only [mem_iff_of_forall₂_ok hterms, h.partitions.mem_group_iff hgroup, hpath, and_assoc]

theorem exists_standardTerms (h : plan.Stages c settings r conditions classified) :
    ∃ terms near,
      List.Forall₂ (fun x t => Condition.searchTerm x = .ok t) classified.standard terms ∧
      nearTerm? c r.options = .ok near ∧ plan.standardTerms = terms ++ near.toList := by
  obtain ⟨terms, hterms, hnear⟩ := bind_eq_ok_iff.1 h.standard
  obtain ⟨near, hnear, heq⟩ := bind_eq_ok_iff.1 hnear
  refine ⟨terms, near, ?_, hnear, (Except.ok.inj heq).symm⟩
  have hnone : ∀ x ∈ classified.standard, x.nestedPath = none := by
    rw [h.partitions.standard]
    simp
  refine ((List.forall₂_and_left _ _).2 ⟨hnone, mapM_eq_ok_iff.1 hterms⟩).imp fun x t hx => ?_
  rw [Condition.searchTerm, hx.1]
  exact hx.2

theorem forall₂_groupTerms (h : plan.Stages c settings r conditions classified) :
    List.Forall₂ (fun x t => Condition.searchTerm x = .ok t)
      (classified.groups.flatMap Prod.snd) (plan.groups.flatMap NestedGroup.terms) := by
  have hall := (List.forall₂_and_left _ _).2 ⟨h.partitions.members, h.groups⟩
  refine List.rel_flatMap hall fun group g hg => ?_
  have hsome : ∀ x ∈ group.2, x.nestedPath = some group.1 := by
    rw [hg.1]
    simp
  have hterms := (ofConditions_eq_ok hg.2).2
  refine ((List.forall₂_and_left _ _).2 ⟨hsome, hterms⟩).imp fun x t hx => ?_
  rw [Condition.searchTerm, hx.1]
  exact hx.2

/-- The terms of a plan are those of the parameters and that of the distance, in another order. -/
theorem exists_terms (h : plan.Stages c settings r conditions classified) :
    ∃ terms near, List.Forall₂ (fun p t => p.searchTerm c r.options.allPrograms = .ok t)
        r.params terms ∧
      nearTerm? c r.options = .ok near ∧ plan.terms.Perm (terms ++ near.toList) := by
  obtain ⟨standard, near, hstandard, hnear, heq⟩ := h.exists_standardTerms
  have hplaced := List.rel_append hstandard h.forall₂_groupTerms
  obtain ⟨terms, hterms, hperm⟩ := List.perm_comp_forall₂ h.partitions.perm.symm hplaced
  refine ⟨terms, near, ?_, hnear, ?_⟩
  · exact forall₂_trans h.read hterms fun p x t hp hx => bind_eq_ok_iff.2 ⟨x, hp, hx⟩
  · have hswap : (near.toList ++ plan.groups.flatMap NestedGroup.terms).Perm
        (plan.groups.flatMap NestedGroup.terms ++ near.toList) := List.perm_append_comm
    rw [Plan.terms, heq, List.append_assoc]
    refine (hswap.append_left standard).trans ?_
    rw [← List.append_assoc]
    exact (hperm.append_right near.toList).symm

end Plan.Stages

end FlatQuery
