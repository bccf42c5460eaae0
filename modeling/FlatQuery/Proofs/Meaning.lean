import FlatQuery.Proofs.Compile
import FlatQuery.Proofs.Predicates
import FlatQuery.Proofs.Truth

/-!
# What a plan asks for

The tree of clauses that a plan sends holds for a document iff the terms of the request do: those on
the document itself, and for each nested path all of its terms on one and the same subdocument
(`holds_combinedClause_iff`). The statement is put together from one for each builder: the leaf of a
term, the clause of the document (`holds_ofTerms_iff`), the predicate on a subdocument
(`holds_nestedPredicate_iff`), and the joint clause (`Clause.holds_combine_iff`).
-/

namespace FlatQuery

/-! ## Leaves -/

/-- What is negated is itself no negation. -/
def Term.isPlain : Term → Bool
  | negation inner => !inner.isNegation
  | _ => true

variable (v : Valuation)

theorem holds_leaf {t : Term} (h : t.isNegation = false) :
    t.leaf.holds v = t.holds v.atom := by
  cases t with
  | inRange field intervals =>
    rw [Bool.eq_iff_iff, Term.leaf, Clause.holds_any_iff]
    simp [intervalClauses, Clause.holds, Term.holds]
  | negation inner => simp [Term.isNegation] at h
  | _ => simp [Term.leaf, Clause.holds, Term.holds]

/-- The leaf of a negation is that of what is negated. -/
theorem holds_leaf_of_isNegation {t : Term} (hplain : t.isPlain = true)
    (h : t.isNegation = true) : t.leaf.holds v = !t.holds v.atom := by
  cases t with
  | negation inner =>
    rw [Term.isPlain, Bool.not_eq_true'] at hplain
    rw [Term.leaf, holds_leaf v hplain, Term.holds, Bool.not_not]
  | _ => simp [Term.isNegation] at h

theorem holds_filterLeaf (t : Term) : t.filterLeaf.holds v = t.leaf.holds v := by
  obtain heq | ⟨field, interval, rfl, heq⟩ := filterLeaf_cases t
  · rw [heq]
  · rw [heq, Bool.eq_iff_iff, Term.leaf, Clause.holds_any_iff]
    simp [intervalClauses]

/-! ## The clause of the document -/

theorem occasion_eq_mustNot_iff (t : Term) : t.occasion = .mustNot ↔ t.isNegation = true := by
  cases t <;> simp [Term.occasion, Term.isNegation]

theorem forall_mem_leavesOf_iff {occasion : Occasion} {ts : List Term} {b : Bool} :
    (∀ c ∈ Clause.leavesOf occasion ts, c.holds v = b) ↔
      ∀ t ∈ ts, t.occasion = occasion → t.leaf.holds v = b := by
  simp only [Clause.leavesOf, List.forall_mem_map, List.mem_filter, decide_eq_true_eq, and_imp]

/-- The leaves of the three occasions say together what the terms say. -/
theorem forall_leavesOf_iff {ts : List Term} (hplain : ∀ t ∈ ts, t.isPlain = true) :
    ((∀ c ∈ Clause.leavesOf .must ts, c.holds v = true) ∧
      (∀ c ∈ Clause.leavesOf .filter ts, c.holds v = true) ∧
      ∀ c ∈ Clause.leavesOf .mustNot ts, c.holds v = false) ↔
      ∀ t ∈ ts, t.holds v.atom = true := by
  simp only [forall_mem_leavesOf_iff]
  have hnegation : ∀ t ∈ ts, t.occasion = .mustNot →
      (t.leaf.holds v = false ↔ t.holds v.atom = true) := by
    intro t ht hoccasion
    rw [holds_leaf_of_isNegation v (hplain t ht) ((occasion_eq_mustNot_iff t).1 hoccasion)]
    simp
  have hother : ∀ t ∈ ts, t.occasion ≠ .mustNot → t.leaf.holds v = t.holds v.atom := by
    intro t _ hoccasion
    rw [ne_eq, occasion_eq_mustNot_iff, Bool.not_eq_true] at hoccasion
    exact holds_leaf v hoccasion
  constructor
  · rintro ⟨hmust, hfilter, hmustNot⟩ t ht
    cases hoccasion : t.occasion with
    | must => rw [← hother t ht (by simp [hoccasion]), hmust t ht hoccasion]
    | filter => rw [← hother t ht (by simp [hoccasion]), hfilter t ht hoccasion]
    | mustNot => exact (hnegation t ht hoccasion).1 (hmustNot t ht hoccasion)
  · intro h
    refine ⟨fun t ht ho => ?_, fun t ht ho => ?_, fun t ht ho => (hnegation t ht ho).2 (h t ht)⟩
    · rw [hother t ht (by simp [ho]), h t ht]
    · rw [hother t ht (by simp [ho]), h t ht]

theorem holds_ofTerms_iff {ts : List Term} (hplain : ∀ t ∈ ts, t.isPlain = true) :
    (Clause.ofTerms ts).holds v = true ↔ ∀ t ∈ ts, t.holds v.atom = true := by
  match ts with
  | [] => simp [Clause.ofTerms, Clause.holds]
  | [t] =>
    rw [List.forall_mem_singleton]
    cases t with
    | negation inner =>
      have hleaf := holds_leaf_of_isNegation v (hplain (.negation inner) (by simp)) rfl
      rw [Clause.ofTerms, Clause.holds_ofMustNot_iff, Slot.toList_listed, List.forall_mem_singleton,
        ← Term.leaf, hleaf, Bool.not_eq_false']
    | near field point distance =>
      rw [Clause.ofTerms, Clause.holds_ofFilter_iff, Slot.toList, List.forall_mem_singleton,
        holds_leaf v rfl]
    | _ => rw [Clause.ofTerms, holds_leaf v rfl] <;> simp
  | t₁ :: t₂ :: ts =>
    rw [Clause.ofTerms_cons_cons, Clause.holds_bool_iff, Slot.toList_ofList, Slot.toList_ofList,
      Slot.toList_listed]
    exact forall_leavesOf_iff v hplain

/-! ## The predicate on a subdocument -/

theorem place_eq_mustNot_iff (t : Term) : t.place = .mustNot ↔ t.isNegation = true := by
  cases t <;> simp [Term.place, Term.isNegation]

theorem forall_mem_leaves_iff {ts : List Term} (h : ∀ t ∈ ts, t.isNegation = false) :
    (∀ c ∈ ts.map Term.leaf, c.holds v = true) ↔ ∀ t ∈ ts, t.holds v.atom = true := by
  rw [List.forall_mem_map]
  exact forall₂_congr fun t ht => by rw [holds_leaf v (h t ht)]

theorem forall_mem_negated_iff {ts : List Term} (hplain : ∀ t ∈ ts, t.isPlain = true)
    (h : ∀ t ∈ ts, t.isNegation = true) :
    (∀ c ∈ ts.map Term.leaf, c.holds v = false) ↔ ∀ t ∈ ts, t.holds v.atom = true := by
  rw [List.forall_mem_map]
  exact forall₂_congr fun t ht => by
    rw [holds_leaf_of_isNegation v (hplain t ht) (h t ht), Bool.not_eq_false']

theorem holds_runItems_iff {run : Place × List Term} (hplace : ∀ t ∈ run.2, t.place = run.1)
    (hplain : ∀ t ∈ run.2, t.isPlain = true) :
    (∀ c ∈ runItems run, c.holds v = true) ↔ ∀ t ∈ run.2, t.holds v.atom = true := by
  obtain ⟨place, ts⟩ := run
  have hother : place ≠ .mustNot → ∀ t ∈ ts, t.isNegation = false := by
    intro hne t ht
    rw [← Bool.not_eq_true, ← place_eq_mustNot_iff, hplace t ht]
    exact hne
  cases place with
  | alone =>
    rw [← forall_mem_leaves_iff v (hother (by simp)), runItems]
    simp [holds_filterLeaf]
  | must =>
    rw [runItems, List.forall_mem_singleton, Clause.holds_ofMust_iff, Slot.toList_listed]
    exact forall_mem_leaves_iff v (hother (by simp))
  | mustNot =>
    rw [runItems, List.forall_mem_singleton, Clause.holds_ofMustNot_iff, Slot.toList_listed]
    exact forall_mem_negated_iff v hplain fun t ht =>
      (place_eq_mustNot_iff t).1 (hplace t ht)

theorem holds_filterItems_iff {ts : List Term} (hplain : ∀ t ∈ ts, t.isPlain = true) :
    (∀ c ∈ filterItems ts, c.holds v = true) ↔ ∀ t ∈ ts, t.holds v.atom = true := by
  calc (∀ c ∈ filterItems ts, c.holds v = true)
      ↔ ∀ run ∈ termRuns ts, ∀ c ∈ runItems run, c.holds v = true := by
        rw [filterItems, List.forall_mem_flatMap]
    _ ↔ ∀ run ∈ termRuns ts, ∀ t ∈ run.2, t.holds v.atom = true :=
        forall₂_congr fun run hrun => holds_runItems_iff v (isRun_of_mem_termRuns run hrun).place
          fun t ht => hplain t (mem_of_mem_termRuns hrun ht)
    _ ↔ ∀ t ∈ (termRuns ts).flatMap Prod.snd, t.holds v.atom = true := by
        rw [List.forall_mem_flatMap]
    _ ↔ ∀ t ∈ ts, t.holds v.atom = true := by rw [flatMap_termRuns]

theorem holds_jointPredicate_iff {ts : List Term} (hplain : ∀ t ∈ ts, t.isPlain = true) :
    (jointPredicate ts).holds v = true ↔ ∀ t ∈ ts, t.holds v.atom = true := by
  obtain ⟨hall, heq⟩ | ⟨hall, heq⟩ | ⟨-, -, heq⟩ := jointPredicate_cases ts
  · rw [heq, Clause.holds_ofMustNot_iff, Slot.toList_listed]
    exact forall_mem_negated_iff v hplain fun t ht => (hall t ht).1
  · rw [heq, Clause.holds_ofMust_iff, Slot.toList_listed]
    exact forall_mem_leaves_iff v fun t ht => (hall t ht).1
  · rw [heq, Clause.holds_ofFilter_iff, Slot.toList_listed, holds_filterItems_iff v hplain]

theorem holds_nestedPredicate_iff {ts : List Term} (hplain : ∀ t ∈ ts, t.isPlain = true) :
    (nestedPredicate ts).2.holds v = true ↔ ∀ t ∈ ts, t.holds v.atom = true := by
  obtain ⟨t, rfl, -, hnegation, heq⟩ | ⟨-, heq⟩ := nestedPredicate_cases ts
  · rw [heq, holds_filterLeaf, holds_leaf v hnegation, List.forall_mem_singleton]
  · rw [heq]
    exact holds_jointPredicate_iff v hplain

/-! ## Terms of a request -/

theorem isNegation_equality (operand : Operand) (field : String) :
    (operand.equality field).isNegation = false := by
  cases operand <;> rfl

theorem kind_equality_ne_near (operand : Operand) (field : String) :
    (operand.equality field).kind ≠ .near := by
  cases operand <;> simp [Operand.equality, Term.kind]

/-- A condition makes a range with intervals, or an equality that may be negated. -/
theorem term_cases {x : Condition} {t : Term} (h : x.term = .ok t) :
    (∃ intervals, intervals ≠ [] ∧ t = .inRange x.field intervals) ∨
      t = .negation (x.operand.equality x.field) ∨ t = x.operand.equality x.field := by
  unfold Condition.term at h
  split at h
  · obtain ⟨intervals, -, h⟩ := bind_eq_ok_iff.1 h
    split at h
    · cases h
    · rename_i hne
      exact Or.inl ⟨intervals.flatten, by simpa using hne, (Except.ok.inj h).symm⟩
  · exact Or.inr (Or.inl (Except.ok.inj h).symm)
  · exact Or.inr (Or.inl (Except.ok.inj h).symm)
  · exact Or.inr (Or.inr (Except.ok.inj h).symm)

/-- Names and autocomplete fields have searches of their own on the document itself. -/
theorem standardTerm_cases {x : Condition} {t : Term} (h : x.standardTerm = .ok t) :
    (∃ pattern, t = .wildcard x.field pattern) ∨ (∃ query, t = .common x.field query) ∨
      x.term = .ok t := by
  unfold Condition.standardTerm at h
  split at h
  · exact Or.inl ⟨_, (Except.ok.inj h).symm⟩
  · exact Or.inr (Or.inl ⟨_, (Except.ok.inj h).symm⟩)
  · exact Or.inr (Or.inr h)

/-- A condition makes no distance, and negates no negation. -/
theorem term_eq_ok {x : Condition} {t : Term} (h : x.term = .ok t) :
    t.isPlain = true ∧ t.kind ≠ .near := by
  obtain ⟨intervals, -, rfl⟩ | rfl | rfl := term_cases h
  · exact ⟨rfl, by simp [Term.kind]⟩
  · exact ⟨by simp [Term.isPlain, isNegation_equality], by simp [Term.kind]⟩
  · refine ⟨?_, kind_equality_ne_near _ _⟩
    cases x.operand <;> rfl

theorem standardTerm_eq_ok {x : Condition} {t : Term} (h : x.standardTerm = .ok t) :
    t.isPlain = true ∧ t.kind ≠ .near := by
  obtain ⟨pattern, rfl⟩ | ⟨query, rfl⟩ | hterm := standardTerm_cases h
  · exact ⟨rfl, by simp [Term.kind]⟩
  · exact ⟨rfl, by simp [Term.kind]⟩
  · exact term_eq_ok hterm

theorem paramSearchTerm_eq_ok {c : Catalog} {flat : Bool} {p : Param} {t : Term}
    (h : p.searchTerm c flat = .ok t) : t.isPlain = true ∧ t.kind ≠ .near := by
  obtain ⟨x, -, h⟩ := bind_eq_ok_iff.1 h
  unfold Condition.searchTerm at h
  split at h
  · exact standardTerm_eq_ok h
  · exact term_eq_ok h

/-- There is a term for the distance iff a distance is given. -/
theorem nearTerm?_eq_ok {c : Catalog} {options : Options} {near : Option Term}
    (h : nearTerm? c options = .ok near) :
    (near.isSome = true ↔ Text.trim (options.distance.getD "") ≠ "") ∧
      ∀ t ∈ near, t.isPlain = true ∧ t.kind = .near := by
  unfold nearTerm? at h
  dsimp only at h
  split at h
  · rename_i hempty
    obtain rfl := Except.ok.inj h
    rw [String.isEmpty_iff] at hempty
    simp [hempty]
  · rename_i hempty
    rw [String.isEmpty_iff] at hempty
    split at h
    · obtain rfl := Except.ok.inj h
      refine ⟨by simp [hempty], ?_⟩
      rintro t ⟨⟩
      exact ⟨rfl, rfl⟩
    · cases h

/-- No plan holds a negation of a negation. -/
theorem isPlain_of_mem_terms {c : Catalog} {settings : PlanSettings} {r : Request} {plan : Plan}
    (h : compile c settings r = .ok plan) : ∀ t ∈ plan.terms, t.isPlain = true := by
  obtain ⟨conditions, classified, hstages⟩ := stages_of_compile h
  obtain ⟨terms, near, hterms, hnear, hperm⟩ := hstages.exists_terms
  intro t ht
  rcases List.mem_append.1 (hperm.mem_iff.1 ht) with ht | ht
  · exact forall_mem_right_of_forall₂ hterms (fun _ _ hp => (paramSearchTerm_eq_ok hp).1) t ht
  · exact ((nearTerm?_eq_ok hnear).2 t (Option.mem_toList.1 ht)).1

/-! ## The plan -/

theorem holds_groupQuery_iff (d : Candidate) (g : NestedGroup)
    (hplain : ∀ t ∈ g.terms, t.isPlain = true) :
    d.valuation.nested g.query = true ↔
      ∃ sub ∈ d.subdocuments g.path, ∀ t ∈ g.terms, t.holds sub = true := by
  have hpredicate : g.query.predicate = (nestedPredicate g.terms).2 := rfl
  simp only [Candidate.valuation, List.any_eq_true, hpredicate,
    holds_nestedPredicate_iff (.ofAtoms _) hplain]
  rfl

/-- What is searched for is what the terms of the request say. Those on one nested path are one
group and have to hold of one and the same subdocument. There is one term for each parameter, and
one for a distance that is given. -/
theorem holds_combinedClause_iff {c : Catalog} {settings : PlanSettings} {r : Request} {plan : Plan}
    (h : compile c settings r = .ok plan) :
    (∀ d : Candidate, plan.combinedClause.holds d.valuation = true ↔
      (∀ t ∈ plan.standardTerms, t.holds d.atom = true) ∧
        ∀ g ∈ plan.groups, ∃ sub ∈ d.subdocuments g.path, ∀ t ∈ g.terms, t.holds sub = true) ∧
    (plan.groups.map NestedGroup.path).Nodup ∧
    ∃ terms near, plan.terms.Perm (terms ++ near.toList) ∧
      List.Forall₂ (fun p t => p.searchTerm c r.options.allPrograms = .ok t) r.params terms ∧
      nearTerm? c r.options = .ok near ∧
      (near.isSome = true ↔ Text.trim (r.options.distance.getD "") ≠ "") ∧
      (∀ t ∈ terms, t.kind ≠ .near) ∧ ∀ t ∈ near, t.kind = .near := by
  have hplain := isPlain_of_mem_terms h
  obtain ⟨conditions, classified, hstages⟩ := stages_of_compile h
  obtain ⟨terms, near, hterms, hnear, hperm⟩ := hstages.exists_terms
  refine ⟨?_, hstages.nodup_paths, ?_⟩
  · intro d
    have hstandard : ∀ t ∈ plan.standardTerms, t.isPlain = true :=
      fun t ht => hplain t (List.mem_append_left _ ht)
    have hgroup : ∀ g ∈ plan.groups, ∀ t ∈ g.terms, t.isPlain = true :=
      fun g hg t ht => hplain t (List.mem_append_right _ (List.mem_flatMap.2 ⟨g, hg, ht⟩))
    rw [Plan.combinedClause, Clause.holds_combine_iff, Plan.standardClause,
      holds_ofTerms_iff _ hstandard, Plan.nestedQueries, List.forall_mem_map]
    exact and_congr Iff.rfl (forall₂_congr fun g hg => holds_groupQuery_iff d g (hgroup g hg))
  · refine ⟨terms, near, hperm, hterms, hnear, (nearTerm?_eq_ok hnear).1, ?_, ?_⟩
    · exact forall_mem_right_of_forall₂ hterms fun _ _ hp => (paramSearchTerm_eq_ok hp).2
    · exact fun t ht => ((nearTerm?_eq_ok hnear).2 t ht).2

/-- Two conditions on programs, of which one is a negation, ask for one program that meets both. -/
theorem holds_clause_of_programs :
    ∃ plan, compile { nested := ⟨["programs"], List.pairwise_singleton _ _⟩ } {}
        { params := [⟨"programs.code__not", .single "13"⟩, ⟨"state", .single "NY"⟩,
          ⟨"programs.size__range", .single "5.."⟩] } = .ok plan ∧
      ∀ d : Candidate, plan.combinedClause.holds d.valuation = true ↔
        d.atom (.equals "state" (.str "NY")) = true ∧ ∃ sub ∈ d.subdocuments "programs",
          sub (.equals "programs.code" (.str "13")) = false ∧
            sub (.inRange "programs.size" ⟨some (.int 5), none⟩) = true := by
  have h : compile { nested := ⟨["programs"], List.pairwise_singleton _ _⟩ } {}
      { params := [⟨"programs.code__not", .single "13"⟩, ⟨"state", .single "NY"⟩,
        ⟨"programs.size__range", .single "5.."⟩] } =
      .ok ⟨[.equals "state" (.str "NY")], [⟨"programs", [.negation (.equals "programs.code"
        (.str "13")), .inRange "programs.size" [⟨some (.int 5), none⟩]]⟩], _, _, _, _, _⟩ := rfl
  refine ⟨_, h, fun d => ((holds_combinedClause_iff h).1 d).trans ?_⟩
  simp [Term.holds]

end FlatQuery
