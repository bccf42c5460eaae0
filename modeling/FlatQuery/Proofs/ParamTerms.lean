import FlatQuery.Proofs.Classification
import FlatQuery.Proofs.Rejections
import FlatQuery.Proofs.Splitting
import FlatQuery.Proofs.Suffixes

/-!
# Requests with one parameter

A request with one parameter makes the term of that parameter, or is rejected as the parameter is
(`map_terms_compile_sole`). What the term is depends on the operator: an equality, the negation of
one, or a range (`searchTerm_of_equality`, `searchTerm_of_negation`, `searchTerm_of_range`), apart
from the kinds of fields that are searched by their words. A value is read alike whether or not it
is negated (`readOperand_eq_ok_iff`), and joined texts are read like a list of them
(`readOperand_intercalate`).
-/

namespace FlatQuery

/-! ## Operators -/

/-- A field with an operator after it is taken apart into the two. -/
theorem Operator.split_append_word {field : String} (hfield : field ≠ "") (op : Operator) :
    Operator.split (field ++ "__" ++ op.word) = (field, some op) :=
  split_of_suffixed ⟨hfield, rfl⟩

theorem Operator.ne_range_of_isNegation {op : Operator} (h : op.isNegation = true) :
    some op ≠ some .range := by
  cases op with
  | range => cases h
  | not => simp
  | ne => simp

/-! ## Terms of parameters -/

/-- Fields of these kinds are searched by their words, where they belong to the document itself. -/
def FieldKind.isWorded : FieldKind → Bool
  | name | autocomplete => true
  | _ => false

theorem FieldKind.isWorded_eq_false_iff {kind : FieldKind} :
    kind.isWorded = false ↔ kind ≠ .name ∧ kind ≠ .autocomplete := by
  cases kind <;> simp [FieldKind.isWorded]

theorem Condition.searchTerm_eq_term {x : Condition} (h : x.kind.isWorded = false) :
    x.searchTerm = x.term := by
  have hstandard : x.standardTerm = x.term := by
    unfold Condition.standardTerm
    dsimp only
    split <;> simp_all [FieldKind.isWorded]
  rw [Condition.searchTerm, hstandard, ite_self]

variable {c : Catalog} {flat : Bool} {path field : String} {value : ParamValue}

section

variable {op : Option Operator}

theorem searchTerm_eq_bind (hsplit : Operator.split path = (field, op)) :
    Param.searchTerm c flat ⟨path, value⟩ =
      readOperand path (c.kind field) op value >>= fun operand => Condition.searchTerm
        { path, field, operator := op, kind := c.kind field
          nestedPath := if flat then none else c.nestedPath? field, operand } := by
  rw [Param.searchTerm, ofParam_eq, Param.operand, Param.owner?, ← Operator.split_fst]
  dsimp only
  rw [hsplit]
  cases readOperand path (c.kind field) op value <;> rfl

theorem searchTerm_eq_bind_term (hsplit : Operator.split path = (field, op))
    (hkind : (c.kind field).isWorded = false) :
    Param.searchTerm c flat ⟨path, value⟩ =
      readOperand path (c.kind field) op value >>= fun operand => Condition.term
        { path, field, operator := op, kind := c.kind field
          nestedPath := if flat then none else c.nestedPath? field, operand } := by
  rw [searchTerm_eq_bind hsplit]
  congr 1
  funext operand
  exact Condition.searchTerm_eq_term hkind

end

theorem searchTerm_of_equality (hsplit : Operator.split path = (field, none))
    (hkind : (c.kind field).isWorded = false) :
    Param.searchTerm c flat ⟨path, value⟩ =
      (readOperand path (c.kind field) none value).map (Operand.equality field) := by
  rw [searchTerm_eq_bind_term hsplit hkind]
  cases readOperand path (c.kind field) none value <;> rfl

theorem searchTerm_of_negation {op : Operator} (hsplit : Operator.split path = (field, some op))
    (hop : op.isNegation = true) (hkind : (c.kind field).isWorded = false) :
    Param.searchTerm c flat ⟨path, value⟩ =
      (readOperand path (c.kind field) (some op) value).map fun operand =>
        .negation (operand.equality field) := by
  rw [searchTerm_eq_bind_term hsplit hkind]
  cases op with
  | range => cases hop
  | not => cases readOperand path (c.kind field) (some .not) value <;> rfl
  | ne => cases readOperand path (c.kind field) (some .ne) value <;> rfl

theorem searchTerm_of_range (hsplit : Operator.split path = (field, some .range))
    (hkind : (c.kind field).isWorded = false) :
    Param.searchTerm c flat ⟨path, value⟩ =
      readOperand path (c.kind field) (some .range) value >>= fun operand =>
        operand.texts.mapM (intervalsOf path) >>= fun intervals =>
          if intervals.flatten.isEmpty then .error (.emptyRange path)
          else .ok (.inRange field intervals.flatten) := by
  rw [searchTerm_eq_bind_term hsplit hkind]
  rfl

theorem failsOnly_searchTerm (p : Param) :
    FailsOnly (Rejection.IsBadValue p.path) (p.searchTerm c flat) := by
  refine (failsOnly_ofParam c flat p).bind fun x hx => ?_
  rw [ofParam_eq] at hx
  obtain ⟨operand, -, rfl⟩ := map_eq_ok_iff.1 hx
  unfold Condition.searchTerm
  split
  · exact failsOnly_standardTerm _
  · exact failsOnly_term _

/-! ## Values -/

section

variable {path path' : String} {kind : FieldKind} {op op' : Option Operator}

theorem readElement_eq_ok_iff (hop : op ≠ some .range) (hop' : op' ≠ some .range) {text : String}
    {element : Json} :
    readElement path kind op text = .ok element ↔
      readElement path' kind op' text = .ok element := by
  unfold readElement
  simp only [ne_eq, hop, hop', not_false_eq_true, and_true]
  split
  · split <;> simp
  · rfl

/-- A value is read alike under any name, with a negation or without one. -/
theorem readOperand_eq_ok_iff (hop : op ≠ some .range) (hop' : op' ≠ some .range)
    {operand : Operand} :
    readOperand path kind op value = .ok operand ↔
      readOperand path' kind op' value = .ok operand := by
  have helements : ∀ texts : List String,
      (texts.mapM (readElement path kind op)).map Operand.list = .ok operand ↔
        (texts.mapM (readElement path' kind op')).map Operand.list = .ok operand := by
    intro texts
    have helement : ∀ text element, readElement path kind op text = .ok element ↔
        readElement path' kind op' text = .ok element := fun _ _ => readElement_eq_ok_iff hop hop'
    simp only [map_eq_ok_iff, mapM_eq_ok_iff, helement]
  unfold readOperand
  split
  · split
    · exact helements _
    · rfl
  · exact helements _

/-- On a field of a listed kind, texts joined by commas are read as the list of these texts. -/
theorem readOperand_intercalate {texts : List String} (hkind : kind.isListed = true)
    (hcomma : ',' ∈ (",".intercalate texts).toList) (hfree : ∀ text ∈ texts, ',' ∉ text.toList) :
    readOperand path kind op (.single (",".intercalate texts)) =
      readOperand path kind op (.list texts) := by
  have hne : texts ≠ [] := by
    rintro rfl
    simp at hcomma
  rw [readOperand, if_pos ⟨hkind, List.contains_iff_mem.2 hcomma⟩,
    Text.splitOn_intercalate rfl hne hfree, readOperand]

end

/-! ## One parameter -/

/-- The request with one parameter. -/
def Request.sole (path : String) (value : ParamValue) (o : Options) : Request :=
  { params := [⟨path, value⟩], options := o }

variable {settings : PlanSettings} {o : Options}

theorem nearTerm?_of_distance_none (h : o.distance = none) : nearTerm? c o = .ok none := by
  rw [nearTerm?, h]
  rfl

theorem classify_singleton (p : Param) :
    classify c flat [p] = (Condition.ofParam c flat p).map Classified.empty.add := by
  rw [classify, List.mapM_cons]
  cases Condition.ofParam c flat p <;> rfl

theorem Classified.empty_add_of_none {x : Condition} (h : x.nestedPath = none) :
    Classified.empty.add x = ⟨[x], []⟩ := by
  rw [add, h]
  rfl

theorem Classified.empty_add_of_some {x : Condition} {owner : String}
    (h : x.nestedPath = some owner) : Classified.empty.add x = ⟨[], [(owner, [x])]⟩ := by
  rw [add, h]
  rfl

theorem standardTerms_nil (hnear : nearTerm? c o = .ok none) : standardTerms c o [] = .ok [] := by
  rw [standardTerms, hnear]
  rfl

theorem standardTerms_singleton (hnear : nearTerm? c o = .ok none) (x : Condition) :
    standardTerms c o [x] = x.standardTerm.map fun t => [t] := by
  rw [standardTerms, hnear, List.mapM_cons]
  cases x.standardTerm <;> rfl

theorem ofConditions_singleton {x : Condition} (howner : c.nestedPath? x.field = some path) :
    NestedGroup.ofConditions c path [x] = x.term.map fun t => ⟨path, [t]⟩ := by
  rw [NestedGroup.ofConditions, List.foldlM_cons, NestedGroup.add_of_owner howner]
  cases x.term <;> rfl

/-- Without a distance and an order, the plan of a parameter has its term only. -/
theorem map_terms_compile_sole (hdistance : o.distance = none) (hsort : o.sort = none) :
    (compile c settings (.sole path value o)).map Plan.terms =
      (Param.searchTerm c o.allPrograms ⟨path, value⟩).map fun t => [t] := by
  have hnear : nearTerm? c o = .ok none := nearTerm?_of_distance_none hdistance
  have horder : ∀ queries, o.compileSort c settings queries = .ok [] := by
    intro queries
    rw [Options.compileSort, hsort]
  rw [compile, Request.sole, Param.searchTerm]
  dsimp only
  rw [classify_singleton]
  cases hread : Condition.ofParam c o.allPrograms ⟨path, value⟩ with
  | error e => rfl
  | ok x =>
    rw [Except.map, ok_bind, ok_bind]
    cases hpath : x.nestedPath with
    | none =>
      rw [Classified.empty_add_of_none hpath, standardTerms_singleton hnear,
        searchTerm_of_nestedPath_none hpath]
      cases x.standardTerm with
      | error e => rfl
      | ok t => simp [horder, Except.map, ok_bind, Plan.terms, pure, Except.pure]
    | some owner =>
      have howner : c.nestedPath? x.field = some owner :=
        nestedPath?_of_mem_read (.cons hread .nil) List.mem_cons_self hpath
      rw [Classified.empty_add_of_some hpath, searchTerm_of_nestedPath_some hpath,
        standardTerms_nil hnear, ok_bind, List.mapM_cons, ofConditions_singleton howner]
      cases x.term with
      | error e => rfl
      | ok t => simp [horder, Except.map, ok_bind, Plan.terms, pure, Except.pure]

theorem map_terms_compile_of_ok (hdistance : o.distance = none) (hsort : o.sort = none) {t : Term}
    (h : Param.searchTerm c o.allPrograms ⟨path, value⟩ = .ok t) :
    (compile c settings (.sole path value o)).map Plan.terms = .ok [t] := by
  rw [map_terms_compile_sole hdistance hsort, h]
  rfl

end FlatQuery
