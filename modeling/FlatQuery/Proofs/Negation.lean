import FlatQuery.Proofs.ParamTerms

/-!
# Negated parameters

On a field of the document itself, a parameter with a negation is accepted where the parameter
without it is, and asks for just the documents that the other one leaves out (`holds_negated`).
Fields that are searched by their words make the exception: their searches come before any
operator, so the negation is not taken into account.
-/

namespace FlatQuery

variable {c : Catalog} {flat : Bool} {field : String} {value : ParamValue} {op : Operator}

/-! ## Terms -/

theorem readOperand_negated_eq_ok_iff (hop : op.isNegation = true) {operand : Operand} :
    readOperand (field ++ "__" ++ op.word) (c.kind field) (some op) value = .ok operand ↔
      readOperand field (c.kind field) none value = .ok operand :=
  readOperand_eq_ok_iff (Operator.ne_range_of_isNegation hop) (by simp)

theorem searchTerm_negated_eq_ok_iff (hfield : field ≠ "")
    (hsplit : Operator.split field = (field, none)) (hop : op.isNegation = true)
    (hkind : (c.kind field).isWorded = false) {t : Term} :
    Param.searchTerm c flat ⟨field ++ "__" ++ op.word, value⟩ = .ok t ↔
      ∃ inner, Param.searchTerm c flat ⟨field, value⟩ = .ok inner ∧ t = .negation inner := by
  rw [searchTerm_of_negation (Operator.split_append_word hfield op) hop hkind,
    searchTerm_of_equality hsplit hkind]
  simp only [map_eq_ok_iff, readOperand_negated_eq_ok_iff hop]
  constructor
  · rintro ⟨operand, hoperand, rfl⟩
    exact ⟨_, ⟨operand, hoperand, rfl⟩, rfl⟩
  · rintro ⟨-, ⟨operand, hoperand, rfl⟩, rfl⟩
    exact ⟨operand, hoperand, rfl⟩

/-- The words of a field of the document are searched with a negation as without it. -/
theorem searchTerm_worded_eq_ok_iff (hfield : field ≠ "")
    (hsplit : Operator.split field = (field, none)) (hop : op.isNegation = true)
    (howner : c.nestedPath? field = none) (hkind : (c.kind field).isWorded = true) {t : Term} :
    Param.searchTerm c flat ⟨field ++ "__" ++ op.word, value⟩ = .ok t ↔
      Param.searchTerm c flat ⟨field, value⟩ = .ok t := by
  rw [searchTerm_eq_bind (Operator.split_append_word hfield op), searchTerm_eq_bind hsplit]
  simp only [bind_eq_ok_iff, readOperand_negated_eq_ok_iff hop, howner, ite_self,
    Condition.searchTerm, Option.isNone_none, if_true]
  refine exists_congr fun operand => and_congr_right fun _ => ?_
  unfold Condition.standardTerm
  cases hfound : c.kind field <;> simp_all [FieldKind.isWorded]

/-! ## Plans -/

variable {settings : PlanSettings} {o : Options}

/-- The plan of a parameter on a field of the document asks for its term and nothing else. -/
theorem exists_combinedClause_sole {path : String} {plan : Plan} (hdistance : o.distance = none)
    (howner : c.nestedPath? (baseField path) = none)
    (h : compile c settings (.sole path value o) = .ok plan) :
    ∃ t, Param.searchTerm c o.allPrograms ⟨path, value⟩ = .ok t ∧
      plan.combinedClause = .ofTerms [t] := by
  obtain ⟨conditions, classified, hstages⟩ := stages_of_compile h
  obtain ⟨x, rest, hx, hnil, rfl⟩ := List.forall₂_cons_left_iff.1 hstages.read
  obtain rfl := List.forall₂_nil_left_iff.1 hnil
  have hpath : x.nestedPath = none := by
    rw [nestedPath_eq_owner? hx, Param.owner?, howner, ite_self]
  have hstandard : classified.standard = [x] := by
    rw [hstages.partitions.standard, List.filter_singleton, hpath]
    rfl
  have hgroups : plan.groups = [] := by
    have hpaths := hstages.groups_path
    rw [hstages.partitions.paths, List.filterMap_cons, hpath] at hpaths
    exact List.map_eq_nil_iff.1 hpaths
  obtain ⟨terms, near, hterms, hnear, heq⟩ := hstages.exists_standardTerms
  obtain ⟨t, rest, ht, hrest, rfl⟩ := List.forall₂_cons_left_iff.1 (hstandard ▸ hterms)
  obtain rfl := List.forall₂_nil_left_iff.1 hrest
  have hnone : near = none :=
    Except.ok.inj (hnear.symm.trans (nearTerm?_of_distance_none hdistance))
  refine ⟨t, bind_eq_ok_iff.2 ⟨x, hx, ht⟩, ?_⟩
  rw [Plan.combinedClause, Plan.standardClause, heq, hnone, Plan.nestedQueries, hgroups]
  rfl

theorem holds_ofTerms_singleton {t : Term} (hplain : t.isPlain = true) (v : Valuation) :
    (Clause.ofTerms [t]).holds v = t.holds v.atom := by
  rw [Bool.eq_iff_iff, holds_ofTerms_iff v (by simpa using hplain), List.forall_mem_singleton]

/-- A parameter with a negation is accepted iff it is accepted without the negation. -/
theorem exists_compile_negated_iff (hfield : field ≠ "")
    (hsplit : Operator.split field = (field, none)) (howner : c.nestedPath? field = none)
    (hop : op.isNegation = true) :
    (∃ plan, compile c settings (.sole (field ++ "__" ++ op.word) value o) = .ok plan) ↔
      ∃ plan, compile c settings (.sole field value o) = .ok plan := by
  rw [exists_compile_iff, exists_compile_iff, Request.sole, Request.sole,
    List.forall_mem_singleton, List.forall_mem_singleton]
  refine and_congr_left fun _ => ?_
  cases hkind : (c.kind field).isWorded with
  | true => simp only [searchTerm_worded_eq_ok_iff hfield hsplit hop howner hkind]
  | false =>
    simp only [searchTerm_negated_eq_ok_iff hfield hsplit hop hkind]
    constructor
    · rintro ⟨t, inner, hinner, -⟩
      exact ⟨inner, hinner⟩
    · rintro ⟨inner, hinner⟩
      exact ⟨_, inner, hinner, rfl⟩

/-- On a field of the document itself, a parameter with a negation is accepted iff it is accepted
without the negation, and then the two ask for opposite documents. On a field that is searched by
its words they ask for the same. -/
theorem holds_negated (hfield : field ≠ "") (hsplit : Operator.split field = (field, none))
    (howner : c.nestedPath? field = none) (hop : op.isNegation = true)
    (hdistance : o.distance = none) :
    ((∃ plan, compile c settings (.sole (field ++ "__" ++ op.word) value o) = .ok plan) ↔
      ∃ plan, compile c settings (.sole field value o) = .ok plan) ∧
    ∀ plan negated, compile c settings (.sole field value o) = .ok plan →
      compile c settings (.sole (field ++ "__" ++ op.word) value o) = .ok negated →
      (c.kind field ≠ .name → c.kind field ≠ .autocomplete → ∀ v : Valuation,
        negated.combinedClause.holds v = !plan.combinedClause.holds v) ∧
      (c.kind field = .name ∨ c.kind field = .autocomplete →
        negated.combinedClause = plan.combinedClause) := by
  refine ⟨exists_compile_negated_iff hfield hsplit howner hop, fun plan negated hplan hneg => ?_⟩
  have hplain : baseField field = field := by rw [← Operator.split_fst, hsplit]
  have hbase : baseField (field ++ "__" ++ op.word) = field := by
    rw [← Operator.split_fst, Operator.split_append_word hfield]
  obtain ⟨t, ht, hclause⟩ := exists_combinedClause_sole hdistance (hplain.symm ▸ howner) hplan
  obtain ⟨t', ht', hclause'⟩ := exists_combinedClause_sole hdistance (hbase.symm ▸ howner) hneg
  rw [hclause, hclause']
  refine ⟨fun hname hautocomplete v => ?_, fun hworded => ?_⟩
  · have hkind := FieldKind.isWorded_eq_false_iff.2 ⟨hname, hautocomplete⟩
    obtain ⟨inner, hinner, rfl⟩ := (searchTerm_negated_eq_ok_iff hfield hsplit hop hkind).1 ht'
    obtain rfl := Except.ok.inj (ht.symm.trans hinner)
    rw [holds_ofTerms_singleton (paramSearchTerm_eq_ok ht').1,
      holds_ofTerms_singleton (paramSearchTerm_eq_ok ht).1, Term.holds]
  · have hkind : (c.kind field).isWorded = true := by
      rcases hworded with hkind | hkind <;> rw [hkind] <;> rfl
    have hsame := (searchTerm_worded_eq_ok_iff hfield hsplit hop howner hkind).1 ht'
    rw [Except.ok.inj (ht.symm.trans hsame)]

/-- A list of integers, and all that is not in it. -/
theorem holds_negated_integers :
    ∃ plan negated,
      compile { kinds := [("id", .integer)] } {} (.sole "id" (.single "1,2") {}) = .ok plan ∧
      compile { kinds := [("id", .integer)] } {} (.sole "id__not" (.single "1,2") {}) =
        .ok negated ∧
      ∀ v : Valuation, negated.combinedClause.holds v = !plan.combinedClause.holds v := by
  have hfield : "id" ≠ "" := by decide
  have hsplit : Operator.split "id" = ("id", none) := by decide
  have hpath : "id__not" = "id" ++ "__" ++ Operator.not.word := by decide
  have hplan : compile { kinds := [("id", .integer)] } {} (.sole "id" (.single "1,2") {}) =
      .ok ⟨[.oneOf "id" [.num (.int 1), .num (.int 2)]], [], _, _, _, _, _⟩ := rfl
  have hnegated : compile { kinds := [("id", .integer)] } {} (.sole "id__not" (.single "1,2") {}) =
      .ok ⟨[.negation (.oneOf "id" [.num (.int 1), .num (.int 2)])], [], _, _, _, _, _⟩ := rfl
  refine ⟨_, _, hplan, hnegated, ?_⟩
  rw [hpath] at hnegated
  exact ((holds_negated hfield hsplit rfl rfl rfl).2 _ _ hplan hnegated).1 (by decide) (by decide)

/-- Neither on a name nor on a field without a name is the negation the opposite. -/
theorem not_opposite_name :
    (∃ plan negated,
      compile { kinds := [("school.name", .name)] } {}
        (.sole "school.name" (.single "harvard") {}) = .ok plan ∧
      compile { kinds := [("school.name", .name)] } {}
        (.sole "school.name__not" (.single "harvard") {}) = .ok negated ∧
      ¬∀ v : Valuation, negated.combinedClause.holds v = !plan.combinedClause.holds v) ∧
    ∃ plan negated, compile {} {} (.sole "" (.single "harvard") {}) = .ok plan ∧
      compile {} {} (.sole "__not" (.single "harvard") {}) = .ok negated ∧
      ¬∀ v : Valuation, negated.combinedClause.holds v = !plan.combinedClause.holds v := by
  have hname : compile { kinds := [("school.name", .name)] } {}
      (.sole "school.name" (.single "harvard") {}) =
      .ok ⟨[.wildcard "school.name" (Condition.wordPattern "harvard")], [], _, _, _, _, _⟩ := rfl
  have hnegatedName : compile { kinds := [("school.name", .name)] } {}
      (.sole "school.name__not" (.single "harvard") {}) =
      .ok ⟨[.wildcard "school.name" (Condition.wordPattern "harvard")], [], _, _, _, _, _⟩ := rfl
  have hempty : compile {} {} (.sole "" (.single "harvard") {}) =
      .ok ⟨[.equals "" (.str "harvard")], [], _, _, _, _, _⟩ := rfl
  have hword : compile {} {} (.sole "__not" (.single "harvard") {}) =
      .ok ⟨[.equals "__not" (.str "harvard")], [], _, _, _, _, _⟩ := rfl
  refine ⟨⟨_, _, hname, hnegatedName, fun h => ?_⟩, _, _, hempty, hword, fun h => ?_⟩
  · have hall := h ⟨fun _ => true, fun _ => true⟩
    simp [Plan.combinedClause, Plan.standardClause, Plan.nestedQueries, Clause.combine] at hall
  · have hall := h ⟨fun _ => true, fun _ => true⟩
    simp [Plan.combinedClause, Plan.standardClause, Plan.nestedQueries, Clause.combine,
      Clause.ofTerms, Term.leaf, Clause.holds] at hall

end FlatQuery
