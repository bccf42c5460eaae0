import FlatQuery.Proofs.SortKeys

/-!
# Requests that compile

Whether a request compiles is decided piece by piece: each parameter has to make a term by itself,
and the distance and the order have to be readable (`exists_compile_iff`). No two pieces can spoil
each other, so neither their order nor what else is asked for matters. In particular a group is
never refused for a foreign field, since its conditions were put there by the path that owns them
(`exists_ofConditions`).
-/

namespace FlatQuery

variable {c : Catalog} {settings : PlanSettings} {r : Request}

/-! ## Groups -/

theorem exists_foldlM_add {conditions : List Condition} {g : NestedGroup}
    (howner : ∀ x ∈ conditions, c.nestedPath? x.field = some g.path)
    (hterm : ∀ x ∈ conditions, ∃ t, x.term = .ok t) :
    ∃ g', conditions.foldlM (NestedGroup.add c) g = .ok g' := by
  induction conditions generalizing g with
  | nil => exact ⟨g, rfl⟩
  | cons x conditions ih =>
    rw [List.forall_mem_cons] at howner hterm
    obtain ⟨t, ht⟩ := hterm.1
    obtain ⟨g', hg'⟩ := ih (g := { g with terms := g.terms ++ [t] }) howner.2 hterm.2
    refine ⟨g', ?_⟩
    rw [List.foldlM_cons, NestedGroup.add_of_owner howner.1, ht]
    exact hg'

/-- The conditions that a path owns make a group as soon as each of them makes a term. -/
theorem exists_ofConditions {path : String} {conditions : List Condition}
    (howner : ∀ x ∈ conditions, c.nestedPath? x.field = some path)
    (hterm : ∀ x ∈ conditions, ∃ t, x.term = .ok t) :
    ∃ g, NestedGroup.ofConditions c path conditions = .ok g :=
  exists_foldlM_add (g := { path }) howner hterm

theorem nestedPath?_of_mem_read {flat : Bool} {params : List Param} {conditions : List Condition}
    (h : List.Forall₂ (fun p x => Condition.ofParam c flat p = .ok x) params conditions)
    {x : Condition} (hx : x ∈ conditions) {path : String} (hpath : x.nestedPath = some path) :
    c.nestedPath? x.field = some path := by
  obtain ⟨p, -, hp⟩ := (mem_iff_of_forall₂_ok h).1 hx
  rw [nestedPath_of_ofParam hp] at hpath
  split at hpath
  · cases hpath
  · exact hpath

/-! ## Parts of a compilation -/

theorem searchTerm_of_nestedPath_none {x : Condition} (h : x.nestedPath = none) :
    x.searchTerm = x.standardTerm := by
  rw [Condition.searchTerm, h]
  rfl

theorem searchTerm_of_nestedPath_some {x : Condition} {path : String}
    (h : x.nestedPath = some path) : x.searchTerm = x.term := by
  rw [Condition.searchTerm, h]
  rfl

section

variable {conditions : List Condition} {classified : Classified}

theorem exists_standardTerms_eq_ok (h : classified.Partitions conditions)
    (hterm : ∀ x ∈ conditions, ∃ t, x.searchTerm = .ok t) {near : Option Term}
    (hnear : nearTerm? c r.options = .ok near) :
    ∃ terms, standardTerms c r.options classified.standard = .ok terms := by
  have hstandard : ∀ x ∈ classified.standard, ∃ t, x.standardTerm = .ok t := by
    intro x hx
    obtain ⟨hx, hnone⟩ := h.mem_standard_iff.1 hx
    rw [← searchTerm_of_nestedPath_none hnone]
    exact hterm x hx
  obtain ⟨terms, hterms⟩ := exists_mapM_eq_ok_iff.2 hstandard
  refine ⟨terms ++ near.toList, ?_⟩
  rw [standardTerms, bind_eq_ok_iff]
  exact ⟨terms, hterms, bind_eq_ok_iff.2 ⟨near, hnear, rfl⟩⟩

theorem exists_groups_eq_ok (h : classified.Partitions conditions)
    (howner : ∀ x ∈ conditions, ∀ path, x.nestedPath = some path →
      c.nestedPath? x.field = some path)
    (hterm : ∀ x ∈ conditions, ∃ t, x.searchTerm = .ok t) :
    ∃ groups, (classified.groups.mapM fun group =>
      NestedGroup.ofConditions c group.1 group.2) = .ok groups := by
  refine exists_mapM_eq_ok_iff.2 fun group hgroup => ?_
  refine exists_ofConditions (fun x hx => ?_) fun x hx => ?_
  · obtain ⟨hx, hpath⟩ := (h.mem_group_iff hgroup).1 hx
    exact howner x hx _ hpath
  · obtain ⟨hx, hpath⟩ := (h.mem_group_iff hgroup).1 hx
    rw [← searchTerm_of_nestedPath_some hpath]
    exact hterm x hx

end

/-! ## Requests -/

theorem exists_searchTerm_iff {flat : Bool} {p : Param} :
    (∃ t, p.searchTerm c flat = .ok t) ↔
      ∃ x, Condition.ofParam c flat p = .ok x ∧ ∃ t, x.searchTerm = .ok t := by
  simp only [Param.searchTerm, bind_eq_ok_iff]
  constructor
  · rintro ⟨t, x, hx, ht⟩
    exact ⟨x, hx, t, ht⟩
  · rintro ⟨x, hx, t, ht⟩
    exact ⟨t, x, hx, ht⟩

/-- A request compiles iff each of its parameters makes a term, and its distance and its order can
be read. -/
theorem exists_compile_iff :
    (∃ plan, compile c settings r = .ok plan) ↔
      (∀ p ∈ r.params, ∃ t, p.searchTerm c r.options.allPrograms = .ok t) ∧
        (∃ near, nearTerm? c r.options = .ok near) ∧ ∃ keys, r.options.sortKeys = .ok keys := by
  constructor
  · rintro ⟨plan, h⟩
    obtain ⟨conditions, classified, hstages⟩ := stages_of_compile h
    obtain ⟨terms, near, hterms, hnear, -⟩ := hstages.exists_terms
    obtain ⟨keys, hkeys, -⟩ := hstages.exists_sortKeys
    exact ⟨exists_mapM_eq_ok_iff.1 ⟨terms, mapM_eq_ok_iff.2 hterms⟩, ⟨near, hnear⟩, keys, hkeys⟩
  · rintro ⟨hparams, ⟨near, hnear⟩, keys, hkeys⟩
    have hreadable : ∀ p ∈ r.params, ∃ x, Condition.ofParam c r.options.allPrograms p = .ok x := by
      intro p hp
      obtain ⟨x, hx, -⟩ := exists_searchTerm_iff.1 (hparams p hp)
      exact ⟨x, hx⟩
    have hclassified :
        ∃ classified, classify c r.options.allPrograms r.params = .ok classified := by
      obtain ⟨conditions, hread⟩ := exists_mapM_eq_ok_iff.2 hreadable
      exact ⟨_, map_eq_ok_iff.2 ⟨conditions, hread, rfl⟩⟩
    obtain ⟨classified, hclass⟩ := hclassified
    obtain ⟨conditions, hread, hparts⟩ := classify_eq_ok hclass
    have hpairs := mapM_eq_ok_iff.1 hread
    have hterm : ∀ x ∈ conditions, ∃ t, x.searchTerm = .ok t := by
      intro x hx
      obtain ⟨p, hp, hpx⟩ := (mem_iff_of_forall₂_ok hpairs).1 hx
      obtain ⟨x', hx', ht⟩ := exists_searchTerm_iff.1 (hparams p hp)
      rw [hpx] at hx'
      obtain rfl := Except.ok.inj hx'
      exact ht
    obtain ⟨terms, hterms⟩ := exists_standardTerms_eq_ok hparts hterm hnear
    obtain ⟨groups, hgroups⟩ := exists_groups_eq_ok hparts
      (fun x hx path => nestedPath?_of_mem_read hpairs hx) hterm
    have hsort := Options.compileSort_eq c settings r.options (groups.map NestedGroup.query)
    rw [hkeys] at hsort
    unfold compile
    simp only [bind_eq_ok_iff]
    exact ⟨_, _, hclass, terms, hterms, groups, hgroups, _, hsort, rfl⟩

end FlatQuery
