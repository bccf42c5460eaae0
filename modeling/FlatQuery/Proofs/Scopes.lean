import FlatQuery.Proofs.Acceptance
import FlatQuery.Proofs.NestedNodes
import FlatQuery.Proofs.Ownership
import FlatQuery.Proofs.WellFormed

/-!
# Scopes of nested queries and orders

Within the subdocuments of a path an engine knows the path and what continues it, and no other
field. The fields that a nested query names are those of the parameters that its path owns
(`Plan.Stages.mem_fields_iff`), and a nested order names the field of its token. Both are in the
scope of the path but for two exceptions (`nestedScope_iff`): the path itself with one more
operator, which is left out where the owner is looked for and kept where the field is sent
(`not_inScope_second_operator`), and the field that an autocomplete field is sorted by.
-/

namespace FlatQuery

/-! ## Fields of a clause -/

/-- The field that a clause about one field names. -/
def Clause.field? : Clause → Option String
  | equals field _ | oneOf field _ | inRange field _ | wildcard field _ | common field _
  | near field _ _ => some field
  | matchAll | any _ | nested .. | bool .. => none

/-- The fields named in a clause that stands in a nested one, from left to right. -/
def Clause.fields (c : Clause) : List String :=
  (c.nodes true).filterMap fun node => node.clause.field?

/-- The fields that the predicate of a nested query names. -/
def NestedQuery.fields (q : NestedQuery) : List String :=
  q.predicate.fields

theorem fields_any (cs : List Clause) : (Clause.any cs).fields = cs.flatMap Clause.fields := by
  rw [Clause.fields, Clause.nodes_any, List.filterMap_cons, List.filterMap_flatMap]
  rfl

theorem fields_bool (must filter mustNot : Slot Clause) :
    (Clause.bool must filter mustNot).fields =
      (must.toList ++ filter.toList ++ mustNot.toList).flatMap Clause.fields := by
  rw [Clause.fields, Clause.nodes_bool, ← List.flatMap_append, List.filterMap_cons,
    List.filterMap_flatMap]
  rfl

theorem fields_ofMust (slot : Slot Clause) :
    (Clause.ofMust slot).fields = slot.toList.flatMap Clause.fields := by
  simp [Clause.ofMust, fields_bool]

theorem fields_ofFilter (slot : Slot Clause) :
    (Clause.ofFilter slot).fields = slot.toList.flatMap Clause.fields := by
  simp [Clause.ofFilter, fields_bool]

theorem fields_ofMustNot (slot : Slot Clause) :
    (Clause.ofMustNot slot).fields = slot.toList.flatMap Clause.fields := by
  simp [Clause.ofMustNot, fields_bool]

/-! ## Fields of a predicate -/

theorem fields_filterLeaf (t : Term) : t.filterLeaf.fields = t.leaf.fields := by
  obtain heq | ⟨field, interval, rfl, heq⟩ := filterLeaf_cases t
  · rw [heq]
  · rw [heq, Term.leaf, fields_any, intervalClauses, List.map_singleton, List.flatMap_singleton]

theorem fields_runItems (run : Place × List Term) :
    (runItems run).flatMap Clause.fields = run.2.flatMap fun t => t.leaf.fields := by
  obtain ⟨place, ts⟩ := run
  cases place with
  | alone => simp only [runItems, List.flatMap_map, fields_filterLeaf]
  | must => simp only [runItems, List.flatMap_singleton, fields_ofMust, Slot.toList_listed,
      List.flatMap_map]
  | mustNot => simp only [runItems, List.flatMap_singleton, fields_ofMustNot, Slot.toList_listed,
      List.flatMap_map]

theorem fields_filterItems (ts : List Term) :
    (filterItems ts).flatMap Clause.fields = ts.flatMap fun t => t.leaf.fields := by
  rw [filterItems, List.flatMap_assoc]
  simp only [fields_runItems]
  rw [← List.flatMap_assoc, flatMap_termRuns]

theorem fields_jointPredicate (ts : List Term) :
    (jointPredicate ts).fields = ts.flatMap fun t => t.leaf.fields := by
  obtain ⟨-, heq⟩ | ⟨-, heq⟩ | ⟨-, -, heq⟩ := jointPredicate_cases ts
  · rw [heq, fields_ofMustNot, Slot.toList_listed, List.flatMap_map]
  · rw [heq, fields_ofMust, Slot.toList_listed, List.flatMap_map]
  · rw [heq, fields_ofFilter, Slot.toList_listed, fields_filterItems]

/-- A predicate names the fields of its terms, in their order. -/
theorem fields_nestedPredicate (ts : List Term) :
    (nestedPredicate ts).2.fields = ts.flatMap fun t => t.leaf.fields := by
  obtain ⟨t, rfl, -, -, heq⟩ | ⟨-, heq⟩ := nestedPredicate_cases ts
  · rw [heq, List.flatMap_singleton, fields_filterLeaf]
  · rw [heq, fields_jointPredicate]

/-- The leaf of a condition names its field and no other. -/
theorem mem_fields_leaf_iff {x : Condition} {t : Term} (h : x.term = .ok t) {field : String} :
    field ∈ t.leaf.fields ↔ field = x.field := by
  have hequality : (x.operand.equality x.field).leaf.fields = [x.field] := by
    cases x.operand <;> rfl
  obtain ⟨intervals, hne, rfl⟩ | rfl | rfl := term_cases h
  · have hinterval : ∀ interval, (Clause.inRange x.field interval).fields = [x.field] :=
      fun _ => rfl
    rw [Term.leaf, fields_any, intervalClauses, List.flatMap_map]
    simp [hinterval, List.mem_flatMap, List.exists_mem_of_ne_nil intervals hne]
  · rw [Term.leaf, hequality, List.mem_singleton]
  · rw [hequality, List.mem_singleton]

/-! ## Fields of a plan -/

variable {c : Catalog} {settings : PlanSettings} {r : Request} {plan : Plan}

namespace Plan.Stages

variable {conditions : List Condition} {classified : Classified}

/-- Each condition that the path of a group owns makes a term. -/
theorem exists_term_of_group (h : plan.Stages c settings r conditions classified)
    {g : NestedGroup} (hg : g ∈ plan.groups) {x : Condition} (hx : x ∈ conditions)
    (hpath : x.nestedPath = some g.path) : ∃ t, x.term = .ok t := by
  obtain ⟨group, hgroup, hbuilt⟩ := (mem_iff_of_forall₂_ok h.groups).1 hg
  obtain ⟨hname, hterms⟩ := ofConditions_eq_ok hbuilt
  rw [hname] at hpath
  have hmem : x ∈ group.2 := (h.partitions.mem_group_iff hgroup).2 ⟨hx, hpath⟩
  exact exists_mapM_eq_ok_iff.1 ⟨g.terms, mapM_eq_ok_iff.2 hterms⟩ x hmem

theorem mem_groupFields_iff (h : plan.Stages c settings r conditions classified)
    {g : NestedGroup} (hg : g ∈ plan.groups) {field : String} :
    field ∈ g.query.fields ↔ ∃ x ∈ conditions, x.nestedPath = some g.path ∧ x.field = field := by
  have hpredicate : g.query.fields = (nestedPredicate g.terms).2.fields := rfl
  rw [hpredicate, fields_nestedPredicate, List.mem_flatMap]
  constructor
  · rintro ⟨t, ht, hfield⟩
    obtain ⟨x, hx, hpath, hterm⟩ := (h.mem_groupTerms_iff hg).1 ht
    exact ⟨x, hx, hpath, ((mem_fields_leaf_iff hterm).1 hfield).symm⟩
  · rintro ⟨x, hx, hpath, hfield⟩
    obtain ⟨t, hterm⟩ := h.exists_term_of_group hg hx hpath
    exact ⟨t, (h.mem_groupTerms_iff hg).2 ⟨x, hx, hpath, hterm⟩,
      (mem_fields_leaf_iff hterm).2 hfield.symm⟩

/-- A nested query names the fields of the parameters that its path owns. -/
theorem mem_fields_iff (h : plan.Stages c settings r conditions classified) {q : NestedQuery}
    (hq : q ∈ plan.nestedQueries) {field : String} :
    field ∈ q.fields ↔
      ∃ p ∈ r.params, baseField p.path = field ∧ c.nestedPath? field = some q.path := by
  obtain ⟨g, hg, rfl⟩ := List.mem_map.1 hq
  have hpath : g.query.path = g.path := rfl
  have hqueried : plan.queriesPath g.path = true := queriesPath_iff_exists_group.2 ⟨g, hg, rfl⟩
  obtain ⟨hflat, -⟩ := h.queriesPath_iff_param.1 hqueried
  rw [h.mem_groupFields_iff hg, hpath]
  constructor
  · rintro ⟨x, hx, howner, rfl⟩
    obtain ⟨p, hp, hread⟩ := (mem_iff_of_forall₂_ok h.read).1 hx
    exact ⟨p, hp, (field_of_ofParam hread).symm, nestedPath?_of_mem_read h.read hx howner⟩
  · rintro ⟨p, hp, rfl, howner⟩
    obtain ⟨x, hread⟩ := exists_mapM_eq_ok_iff.1 ⟨conditions, mapM_eq_ok_iff.2 h.read⟩ p hp
    refine ⟨x, (mem_iff_of_forall₂_ok h.read).2 ⟨p, hp, hread⟩, ?_, field_of_ofParam hread⟩
    rw [nestedPath_of_ofParam hread, hflat, field_of_ofParam hread]
    exact howner

end Plan.Stages

/-! ## Scopes -/

/-- The field that an order is sent with is in the scope of the path unless it is the path with an
operator after it, or is made for an autocomplete field. -/
theorem inScope_sortField_iff {field path : String} (h : c.nestedPath? field = some path) :
    InScope path (sortField c field) ↔
      c.kind field ≠ .autocomplete ∧ (baseField field = path → field = path) := by
  unfold sortField
  split
  · rename_i hkind
    simp [hkind, not_inScope_underscore h]
  · rename_i hkind
    simp [hkind, inScope_iff_of_nestedPath? h]

/-- A nested query names the fields of the parameters that its path owns, and a nested order that of
its token. A field is in the scope of the path unless it is the path with an operator after it. The
field for an order by an autocomplete field never is. -/
theorem nestedScope_iff (h : compile c settings r = .ok plan) :
    (∀ q ∈ plan.combinedClause.nestedNodes, ∀ field,
      (field ∈ q.fields ↔
        ∃ p ∈ r.params, baseField p.path = field ∧ c.nestedPath? field = some q.path) ∧
      (field ∈ q.fields →
        (InScope q.path field ↔ (baseField field = q.path → field = q.path)))) ∧
    ∃ keys, r.options.sortKeys = .ok keys ∧
      List.Forall₂ (fun key s => s.field = sortField c key.field ∧
        s.nested.map NestedSort.path = c.nestedPath? key.field ∧
        ∀ n, s.nested = some n → (InScope n.path s.field ↔
          c.kind key.field ≠ .autocomplete ∧ (baseField key.field = n.path → key.field = n.path)))
        keys plan.sort := by
  obtain ⟨conditions, classified, hstages⟩ := stages_of_compile h
  obtain ⟨keys, hkeys, hsort⟩ := hstages.exists_sortKeys
  refine ⟨fun q hq field => ?_, keys, hkeys, ?_⟩
  · rw [nestedNodes_combinedClause] at hq
    refine ⟨hstages.mem_fields_iff hq, fun hfield => ?_⟩
    obtain ⟨p, -, -, howner⟩ := (hstages.mem_fields_iff hq).1 hfield
    exact inScope_iff_of_nestedPath? howner
  · rw [hsort, List.forall₂_map_right_iff]
    refine List.forall₂_same.2 fun key _ => ⟨rfl, ?_, fun n hn => ?_⟩
    · simp [SortKey.clause, nestedSort?, Function.comp_def]
    · simp only [SortKey.clause, nestedSort?, Option.map_eq_some_iff] at hn
      obtain ⟨path, howner, rfl⟩ := hn
      exact inScope_sortField_iff howner

/-- Programs have titles that are completed as they are typed; there are grants, too. -/
def titleCatalog : Catalog where
  kinds := [("programs.title", .autocomplete)]
  nested := ⟨["grants", "programs"], List.pairwise_pair.2 (by decide)⟩

/-- Programs are searched by their code, and ordered by size and by title. -/
def titleOrderedRequest : Request :=
  { params := [⟨"programs.code__not", .single "13"⟩]
    options := { sort := some "programs.size:desc,programs.title" } }

def titleOrderedPlan : Plan where
  standardTerms := []
  groups := [⟨"programs", [.negation (.equals "programs.code" (.str "13"))]⟩]
  projection := ⟨.disabled, [], [], []⟩
  sort := [⟨"programs.size", true, some ⟨"programs",
      some (.ofMustNot (.many [.equals "programs.code" (.str "13")])), .max⟩⟩,
    ⟨"_programs.title", false, some ⟨"programs",
      some (.ofMustNot (.many [.equals "programs.code" (.str "13")])), .min⟩⟩]
  paging := ⟨0, 20, 0⟩
  aggregations := []
  output := ⟨false, false, false, [], false⟩

/-- The code and the size of a program are in its scope, the field for an order by title is not. -/
theorem nestedScope_titleOrdered :
    compile titleCatalog {} titleOrderedRequest = .ok titleOrderedPlan ∧
      (∃ q ∈ titleOrderedPlan.combinedClause.nestedNodes,
        "programs.code" ∈ q.fields ∧ InScope q.path "programs.code") ∧
      InScope "programs" "programs.size" ∧ ¬InScope "programs" "_programs.title" := by
  have h : compile titleCatalog {} titleOrderedRequest = .ok titleOrderedPlan := rfl
  have hkeys : titleOrderedRequest.options.sortKeys =
      .ok [⟨"programs.size", true⟩, ⟨"programs.title", false⟩] := rfl
  obtain ⟨hqueries, keys, hread, horders⟩ := nestedScope_iff h
  rw [hkeys] at hread
  obtain rfl := Except.ok.inj hread
  rw [titleOrderedPlan, List.forall₂_cons, List.forall₂_cons] at horders
  have hsize := horders.1.2.2
  have htitle := horders.2.1.2.2
  refine ⟨h, ?_, ?_, ?_⟩
  · rw [nestedNodes_combinedClause] at hqueries ⊢
    have hquery : NestedGroup.query ⟨"programs", [.negation (.equals "programs.code"
        (.str "13"))]⟩ ∈ titleOrderedPlan.nestedQueries := List.mem_singleton_self _
    obtain ⟨hnamed, hscope⟩ := hqueries _ hquery "programs.code"
    have hfield := hnamed.2
      ⟨⟨"programs.code__not", .single "13"⟩, List.mem_singleton_self _, rfl, rfl⟩
    exact ⟨_, hquery, hfield, (hscope hfield).2 fun heq => absurd heq (by decide)⟩
  · exact (hsize _ rfl).2 ⟨by decide, fun heq => absurd heq (by decide)⟩
  · exact fun hscope => ((htitle _ rfl).1 hscope).1 rfl

/-- A second operator is left out where the owner of a field is looked for, and is sent. -/
theorem not_inScope_second_operator :
    ¬∀ (c : Catalog) (settings : PlanSettings) (r : Request) (plan : Plan),
      compile c settings r = .ok plan →
        (∀ q ∈ plan.combinedClause.nestedNodes, ∀ field ∈ q.fields, InScope q.path field) ∧
        ∀ s ∈ plan.sort, ∀ n, s.nested = some n → InScope n.path s.field := by
  intro hall
  have h : compile titleCatalog {} { params := [⟨"programs__not__ne", .single "13"⟩] } =
      .ok ⟨[], [⟨"programs", [.negation (.equals "programs__not" (.str "13"))]⟩], _, _, _, _, _⟩ :=
    rfl
  have hqueries := (hall _ _ _ _ h).1
  rw [nestedNodes_combinedClause] at hqueries
  have hscope : InScope "programs" "programs__not" :=
    hqueries _ (List.mem_singleton_self _) _ (List.mem_singleton_self _)
  have howner : titleCatalog.nestedPath? "programs__not" = some "programs" := rfl
  exact absurd ((inScope_iff_of_nestedPath? howner).1 hscope rfl) (by decide)

end FlatQuery
