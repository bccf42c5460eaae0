import FlatQuery.Proofs.Acceptance
import FlatQuery.Proofs.Meaning

/-!
# The order of the parameters

Permuting the parameters of a request changes the shape of the search tree: groups stand in the
order of their first parameters, and runs of terms are cut elsewhere. It changes nothing that a
plan means (`compile_perm`). All builders are asked only what their clauses hold for, which depends
on the terms as a set (`Plan.SameTerms`): what is not written to the tree stays equal, and each
clause is replaced by one that holds in the same cases (`Plan.Equivalent`).
-/

namespace FlatQuery

/-! ## Equivalence -/

/-- Clauses that hold under the same valuations. -/
def Clause.Equivalent (clause other : Clause) : Prop :=
  ∀ v : Valuation, clause.holds v = other.holds v

/-- The same order of subdocuments, by filters that let the same ones through. -/
structure NestedSort.Equivalent (s other : NestedSort) : Prop where
  path : s.path = other.path
  mode : s.mode = other.mode
  filter : Option.Rel Clause.Equivalent s.filter other.filter

/-- The same order, up to equivalent filters. -/
structure SortClause.Equivalent (s other : SortClause) : Prop where
  field : s.field = other.field
  descending : s.descending = other.descending
  nested : Option.Rel NestedSort.Equivalent s.nested other.nested

/-- Plans that ask for the same, and by which the same reply is read alike. -/
structure Plan.Equivalent (plan other : Plan) : Prop where
  projection : plan.projection = other.projection
  paging : plan.paging = other.paging
  aggregations : plan.aggregations = other.aggregations
  countOnly : plan.countOnly = other.countOnly
  output : plan.output = other.output
  /-- The same nested paths are queried, each once. -/
  paths : (plan.nestedQueries.map NestedQuery.path).Perm
    (other.nestedQueries.map NestedQuery.path)
  /-- The same documents are found. -/
  clause : ∀ d : Candidate,
    plan.combinedClause.holds d.valuation = other.combinedClause.holds d.valuation
  sort : List.Forall₂ SortClause.Equivalent plan.sort other.sort

/-! ## Plans with the same terms -/

/-- Plans whose terms are the same in each place, in whatever order. -/
structure Plan.SameTerms (plan other : Plan) : Prop where
  standard : ∀ t, t ∈ plan.standardTerms ↔ t ∈ other.standardTerms
  queried : ∀ path, plan.queriesPath path = other.queriesPath path
  groups : ∀ g ∈ plan.groups, ∀ g' ∈ other.groups, g.path = g'.path →
    ∀ t, t ∈ g.terms ↔ t ∈ g'.terms

namespace Plan.SameTerms

variable {plan other : Plan}

theorem symm (h : plan.SameTerms other) : other.SameTerms plan where
  standard t := (h.standard t).symm
  queried path := (h.queried path).symm
  groups g hg g' hg' hpath t := (h.groups g' hg' g hg hpath.symm t).symm

theorem hasNestedQuery_eq (h : plan.SameTerms other) :
    plan.hasNestedQuery = other.hasNestedQuery := by
  rw [Bool.eq_iff_iff, hasNestedQuery_iff, hasNestedQuery_iff]
  simp only [h.queried]

theorem exists_group (h : plan.SameTerms other) {g : NestedGroup} (hg : g ∈ plan.groups) :
    ∃ g' ∈ other.groups, g'.path = g.path := by
  rw [← Plan.queriesPath_iff_exists_group, ← h.queried, Plan.queriesPath_iff_exists_group]
  exact ⟨g, hg, rfl⟩

/-- What the terms of one plan make hold, those of the other make hold as well. -/
theorem holds_combinedClause (h : plan.SameTerms other)
    (hplain : ∀ t ∈ plan.terms, t.isPlain = true) (hother : ∀ t ∈ other.terms, t.isPlain = true)
    {d : Candidate} (hholds : plan.combinedClause.holds d.valuation = true) :
    other.combinedClause.holds d.valuation = true := by
  have hstandard : ∀ t ∈ plan.standardTerms, t.isPlain = true :=
    fun t ht => hplain t (List.mem_append_left _ ht)
  have hotherStandard : ∀ t ∈ other.standardTerms, t.isPlain = true :=
    fun t ht => hother t (List.mem_append_left _ ht)
  rw [Plan.combinedClause, Clause.holds_combine_iff, Plan.standardClause,
    holds_ofTerms_iff _ hstandard, Plan.nestedQueries, List.forall_mem_map] at hholds
  rw [Plan.combinedClause, Clause.holds_combine_iff, Plan.standardClause,
    holds_ofTerms_iff _ hotherStandard, Plan.nestedQueries, List.forall_mem_map]
  refine ⟨fun t ht => hholds.1 t ((h.standard t).2 ht), fun g' hg' => ?_⟩
  obtain ⟨g, hg, hpath⟩ := h.symm.exists_group hg'
  obtain ⟨sub, hsub, hterms⟩ := (holds_groupQuery_iff d g fun t ht =>
    hplain t (List.mem_append_right _ (List.mem_flatMap.2 ⟨g, hg, ht⟩))).1 (hholds.2 g hg)
  refine (holds_groupQuery_iff d g' fun t ht =>
    hother t (List.mem_append_right _ (List.mem_flatMap.2 ⟨g', hg', ht⟩))).2 ?_
  rw [← hpath]
  exact ⟨sub, hsub, fun t ht => hterms t ((h.groups g hg g' hg' hpath t).2 ht)⟩

end Plan.SameTerms

/-! ## Filters -/

/-- The predicate of a group depends on its terms only as a set. -/
theorem equivalent_nestedPredicate {ts us : List Term} (hts : ∀ t ∈ ts, t.isPlain = true)
    (hus : ∀ t ∈ us, t.isPlain = true) (h : ∀ t, t ∈ ts ↔ t ∈ us) :
    (nestedPredicate ts).2.Equivalent (nestedPredicate us).2 := by
  intro v
  rw [Bool.eq_iff_iff, holds_nestedPredicate_iff v hts, holds_nestedPredicate_iff v hus]
  exact forall_congr' fun t => by rw [h t]

theorem find?_nestedQueries (plan : Plan) (path : String) :
    (plan.nestedQueries.find? fun q => q.path == path) =
      (plan.groups.find? fun g => g.path == path).map NestedGroup.query := by
  rw [Plan.nestedQueries, List.find?_map]
  rfl

theorem mem_of_find?_group {groups : List NestedGroup} {path : String} {g : NestedGroup}
    (h : (groups.find? fun g => g.path == path) = some g) : g ∈ groups ∧ g.path = path :=
  ⟨List.mem_of_find?_eq_some h, by simpa using List.find?_some h⟩

/-- Queries on one path have equivalent predicates, and there is one in both plans or in none. -/
theorem Plan.SameTerms.rel_predicate {plan other : Plan} (h : plan.SameTerms other)
    (hplain : ∀ t ∈ plan.terms, t.isPlain = true) (hother : ∀ t ∈ other.terms, t.isPlain = true)
    (path : String) :
    Option.Rel Clause.Equivalent
      ((plan.nestedQueries.find? fun q => q.path == path).map NestedQuery.predicate)
      ((other.nestedQueries.find? fun q => q.path == path).map NestedQuery.predicate) := by
  have hqueried := h.queried path
  rw [find?_nestedQueries, find?_nestedQueries]
  unfold Plan.queriesPath at hqueried
  rw [← List.isSome_find?, ← List.isSome_find?] at hqueried
  cases hg : plan.groups.find? fun g => g.path == path with
  | none =>
    rw [hg, Option.isSome_none, eq_comm, Option.isSome_eq_false_iff, Option.isNone_iff_eq_none]
      at hqueried
    rw [hqueried]
    exact .none
  | some g =>
    rw [hg, Option.isSome_some, eq_comm, Option.isSome_iff_exists] at hqueried
    obtain ⟨g', hg'⟩ := hqueried
    obtain ⟨hmem, hpath⟩ := mem_of_find?_group hg
    obtain ⟨hmem', hpath'⟩ := mem_of_find?_group hg'
    rw [hg']
    refine .some (equivalent_nestedPredicate (fun t ht => ?_) (fun t ht => ?_)
      (h.groups g hmem g' hmem' (hpath.trans hpath'.symm)))
    · exact hplain t (List.mem_append_right _ (List.mem_flatMap.2 ⟨g, hmem, ht⟩))
    · exact hother t (List.mem_append_right _ (List.mem_flatMap.2 ⟨g', hmem', ht⟩))

/-- A key makes equivalent orders next to queries with equivalent predicates. -/
theorem equivalent_sortKeyClause {c : Catalog} {queries others : List NestedQuery}
    (h : ∀ path, Option.Rel Clause.Equivalent
      ((queries.find? fun q => q.path == path).map NestedQuery.predicate)
      ((others.find? fun q => q.path == path).map NestedQuery.predicate))
    (mode : SortMode) (key : SortKey) :
    (key.clause c queries mode).Equivalent (key.clause c others mode) := by
  refine ⟨rfl, rfl, ?_⟩
  simp only [SortKey.clause, nestedSort?]
  cases c.nestedPath? key.field with
  | none => exact .none
  | some path => exact .some ⟨rfl, rfl, h path⟩

/-! ## Permuted requests -/

section

variable {c : Catalog} {settings : PlanSettings} {r : Request} {params : List Param}

theorem sameTerms_of_stages {plan other : Plan} {conditions conditions' : List Condition}
    {classified classified' : Classified}
    (h : plan.Stages c settings r conditions classified)
    (h' : other.Stages c settings { r with params } conditions' classified')
    (hsame : ∀ x, x ∈ conditions ↔ x ∈ conditions') : plan.SameTerms other where
  standard t := by
    rw [h.mem_standardTerms_iff, h'.mem_standardTerms_iff]
    simp only [hsame]
  queried path := by
    rw [Bool.eq_iff_iff, h.queriesPath_iff, h'.queriesPath_iff]
    simp only [hsame]
  groups g hg g' hg' hpath t := by
    rw [h.mem_groupTerms_iff hg, h'.mem_groupTerms_iff hg', hpath]
    simp only [hsame]

/-- Requests with the same options and the same parameters, in whatever order, have equivalent
plans. -/
theorem equivalent_of_compile {plan other : Plan} (hsame : ∀ p, p ∈ r.params ↔ p ∈ params)
    (h : compile c settings r = .ok plan)
    (h' : compile c settings { r with params } = .ok other) : plan.Equivalent other := by
  have hplain := isPlain_of_mem_terms h
  have hother := isPlain_of_mem_terms h'
  obtain ⟨conditions, classified, hstages⟩ := stages_of_compile h
  obtain ⟨conditions', classified', hstages'⟩ := stages_of_compile h'
  have hterms : plan.SameTerms other := by
    refine sameTerms_of_stages hstages hstages' fun x => ?_
    rw [mem_iff_of_forall₂_ok hstages.read, mem_iff_of_forall₂_ok hstages'.read]
    simp only [hsame]
  refine
    { projection := ?_
      paging := by rw [hstages.paging, hstages'.paging]
      aggregations := by rw [hstages.aggregations, hstages'.aggregations]
      countOnly := by rw [Plan.countOnly, Plan.countOnly, hstages.output, hstages'.output]
      output := by rw [hstages.output, hstages'.output]
      paths := ?_
      clause := fun d => ?_
      sort := ?_ }
  · rw [hstages.projection, hstages'.projection, hterms.hasNestedQuery_eq]
  · rw [Plan.map_path_nestedQueries, Plan.map_path_nestedQueries,
      List.perm_ext_iff_of_nodup hstages.nodup_paths hstages'.nodup_paths]
    intro path
    rw [List.mem_map, List.mem_map, ← Plan.queriesPath_iff_exists_group,
      ← Plan.queriesPath_iff_exists_group, hterms.queried]
  · rw [Bool.eq_iff_iff]
    exact ⟨hterms.holds_combinedClause hplain hother,
      hterms.symm.holds_combinedClause hother hplain⟩
  · obtain ⟨keys, hkeys, hsort⟩ := hstages.exists_sortKeys
    obtain ⟨keys', hkeys', hsort'⟩ := hstages'.exists_sortKeys
    obtain rfl : keys = keys' := Except.ok.inj (hkeys.symm.trans hkeys')
    rw [hsort, hsort', List.forall₂_map_left_iff, List.forall₂_map_right_iff, List.forall₂_same]
    exact fun key _ => equivalent_sortKeyClause (hterms.rel_predicate hplain hother) _ key

/-- The order of the parameters carries no meaning: permuted requests both compile or both fail,
and their plans are equivalent. -/
theorem compile_perm (hperm : r.params.Perm params) :
    ((∃ plan, compile c settings r = .ok plan) ↔
      ∃ other, compile c settings { r with params } = .ok other) ∧
    ∀ plan other, compile c settings r = .ok plan →
      compile c settings { r with params } = .ok other → plan.Equivalent other := by
  refine ⟨?_, fun plan other => equivalent_of_compile fun p => hperm.mem_iff⟩
  rw [exists_compile_iff, exists_compile_iff]
  simp only [hperm.mem_iff]

end

/-- Two conditions on programs and one on owners, in the order of program sizes. -/
def mixedRequest : Request :=
  { params := [⟨"programs.code", .single "13"⟩, ⟨"programs.size__range", .single "5.."⟩,
      ⟨"owners.kind__not", .single "public"⟩]
    options := { sort := some "programs.size:desc" } }

/-- Reversed conditions put the groups and the terms in them in another order. -/
theorem equivalent_reversed :
    ∃ plan other,
      compile { nested := ⟨["owners", "programs"], by decide⟩ } {} mixedRequest = .ok plan ∧
      compile { nested := ⟨["owners", "programs"], by decide⟩ } {}
        { mixedRequest with params := mixedRequest.params.reverse } = .ok other ∧
      plan.groups.map NestedGroup.path = ["programs", "owners"] ∧
      other.groups.map NestedGroup.path = ["owners", "programs"] ∧ plan.Equivalent other := by
  have h : compile { nested := ⟨["owners", "programs"], by decide⟩ } {} mixedRequest =
      .ok ⟨[], [⟨"programs", [.equals "programs.code" (.str "13"),
          .inRange "programs.size" [⟨some (.int 5), none⟩]]⟩,
        ⟨"owners", [.negation (.equals "owners.kind" (.str "public"))]⟩], _, _, _, _, _⟩ := rfl
  have hreversed : compile { nested := ⟨["owners", "programs"], by decide⟩ } {}
      { mixedRequest with params := mixedRequest.params.reverse } =
      .ok ⟨[], [⟨"owners", [.negation (.equals "owners.kind" (.str "public"))]⟩,
        ⟨"programs", [.inRange "programs.size" [⟨some (.int 5), none⟩],
          .equals "programs.code" (.str "13")]⟩], _, _, _, _, _⟩ := rfl
  have hperm : mixedRequest.params.Perm mixedRequest.params.reverse :=
    (List.reverse_perm _).symm
  exact ⟨_, _, h, hreversed, rfl, rfl, (compile_perm hperm).2 _ _ h hreversed⟩

end FlatQuery
