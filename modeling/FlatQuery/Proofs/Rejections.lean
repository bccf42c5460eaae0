import FlatQuery.Proofs.Acceptance
import FlatQuery.Proofs.Meaning

/-!
# Why requests are rejected

A request is rejected for what it says itself: the value of one of its parameters, the place of its
distance, or its order (`failsOnly_compile`). That a field belongs to another path than its group
(`Rejection.foreignField`) is no such reason. Parameters are put into the groups of the paths that
own them, so only conditions that are put together by hand can be refused for it; which of them are
says `foreignField_iff`.
-/

namespace FlatQuery

/-! ## Conditions -/

/-- The value of the parameter `path` is at fault. -/
def Rejection.IsBadValue (path : String) (e : Rejection) : Prop :=
  e.code = "SEARCH_INVALID_PARAMETER" ∧ e.field? = some path

theorem failsOnly_readOperand (path : String) (kind : FieldKind) (operator : Option Operator)
    (value : ParamValue) :
    FailsOnly (Rejection.IsBadValue path) (readOperand path kind operator value) := by
  have helement : ∀ text,
      FailsOnly (Rejection.IsBadValue path) (readElement path kind operator text) := by
    intro text
    unfold readElement
    dsimp only
    split
    · split
      · exact failsOnly_ok _
      · exact failsOnly_error ⟨rfl, rfl⟩
    · exact failsOnly_ok _
  have helements : ∀ texts : List String, FailsOnly (Rejection.IsBadValue path)
      ((texts.mapM (readElement path kind operator)).map Operand.list) := fun texts =>
    (FailsOnly.mapM fun text _ => helement text).map _
  unfold readOperand
  split
  · split
    · exact helements _
    · exact failsOnly_ok _
  · exact helements _

theorem failsOnly_ofParam (c : Catalog) (flat : Bool) (p : Param) :
    FailsOnly (Rejection.IsBadValue p.path) (Condition.ofParam c flat p) :=
  (failsOnly_readOperand _ _ _ _).bind fun _ _ => failsOnly_ok _

theorem failsOnly_readInterval (path text : String) :
    FailsOnly (Rejection.IsBadValue path) (Interval.read path text) := by
  have hend : ∀ text, FailsOnly (Rejection.IsBadValue path) (Interval.readEnd path text) := by
    intro text
    unfold Interval.readEnd
    split
    · exact failsOnly_ok _
    · dsimp only
      split
      · exact failsOnly_ok _
      · exact failsOnly_error ⟨rfl, rfl⟩
  refine (hend _).bind fun least _ => (hend _).bind fun greatest _ => ?_
  split
  · exact failsOnly_error ⟨rfl, rfl⟩
  · exact failsOnly_ok _

theorem failsOnly_term (x : Condition) : FailsOnly (Rejection.IsBadValue x.path) x.term := by
  unfold Condition.term
  split
  · refine (FailsOnly.mapM fun text _ => ?_).bind fun intervals _ => ?_
    · exact FailsOnly.mapM fun piece _ => failsOnly_readInterval x.path piece
    · split
      · exact failsOnly_error ⟨rfl, rfl⟩
      · exact failsOnly_ok _
  all_goals exact failsOnly_ok _

theorem failsOnly_standardTerm (x : Condition) :
    FailsOnly (Rejection.IsBadValue x.path) x.standardTerm := by
  unfold Condition.standardTerm
  dsimp only
  split
  · exact failsOnly_ok _
  · exact failsOnly_ok _
  · exact failsOnly_term x

/-! ## Options -/

theorem failsOnly_nearTerm? (c : Catalog) (options : Options) :
    FailsOnly (fun e => e.code = "SEARCH_UNKNOWN_LOCATION") (nearTerm? c options) := by
  unfold nearTerm?
  dsimp only
  split
  · exact failsOnly_ok _
  · split
    · exact failsOnly_ok _
    · split <;> exact failsOnly_error rfl

theorem failsOnly_readSortKey (spec token : String) :
    FailsOnly (fun e => e.code = "SEARCH_INVALID_SORT") (readSortKey spec token) := by
  unfold readSortKey
  split
  · exact failsOnly_error rfl
  · refine FailsOnly.map ?_ _
    unfold readDirection
    split
    · exact failsOnly_ok _
    · split
      · exact failsOnly_ok _
      · exact failsOnly_ok _
      · exact failsOnly_error rfl

theorem failsOnly_readSortKeys (spec : String) :
    FailsOnly (fun e => e.code = "SEARCH_INVALID_SORT") (readSortKeys spec) := by
  unfold readSortKeys
  dsimp only
  split
  · exact failsOnly_ok _
  · exact FailsOnly.mapM fun token _ => failsOnly_readSortKey _ _

theorem failsOnly_compileSort (c : Catalog) (settings : PlanSettings) (options : Options)
    (queries : List NestedQuery) :
    FailsOnly (fun e => e.code = "SEARCH_INVALID_SORT")
      (options.compileSort c settings queries) := by
  rw [Options.compileSort_eq]
  refine FailsOnly.map ?_ _
  unfold Options.sortKeys
  split
  · exact failsOnly_ok _
  · exact failsOnly_readSortKeys _

/-! ## Groups -/

theorem field_of_term {x : Condition} {t : Term} (h : x.term = .ok t) : t.field = x.field := by
  have hequality : (x.operand.equality x.field).field = x.field := by
    cases x.operand <;> rfl
  obtain ⟨intervals, -, rfl⟩ | rfl | rfl := term_cases h
  · rfl
  · exact hequality
  · exact hequality

variable {c : Catalog} {path : String} {conditions : List Condition}

theorem failsOnly_add {g : NestedGroup} {x : Condition}
    (howner : c.nestedPath? x.field = some g.path) :
    FailsOnly (Rejection.IsBadValue x.path) (g.add c x) := by
  rw [NestedGroup.add_of_owner howner]
  exact (failsOnly_term x).map _

/-- A group whose path owns all of its conditions is refused for one of their values only. -/
theorem failsOnly_ofConditions (howner : ∀ x ∈ conditions, c.nestedPath? x.field = some path) :
    FailsOnly (fun e => ∃ x ∈ conditions, e.IsBadValue x.path)
      (NestedGroup.ofConditions c path conditions) := by
  intro e h
  obtain ⟨before, x, after, g, rfl, hbefore, hx⟩ := foldlM_eq_error_iff.1 h
  have hmem : x ∈ before ++ x :: after := by simp
  obtain rfl : g.path = path := (ofConditions_eq_ok hbefore).1
  exact ⟨x, hmem, failsOnly_add (howner x hmem) e hx⟩

/-- Where the path has a name, having no owner is not the same as being owned by it. -/
theorem getD_owner_eq_iff (hpath : path ≠ "") {owner : Option String} :
    owner.getD "" = path ↔ owner = some path := by
  cases owner with
  | none => simp [hpath.symm]
  | some owner => simp

theorem owner_of_add {g g' : NestedGroup} (hpath : g.path ≠ "") {x : Condition}
    (h : g.add c x = .ok g') :
    (∃ t, x.term = .ok t) ∧ c.nestedPath? x.field = some g.path ∧ g'.path = g.path := by
  obtain ⟨t, ht, hpush⟩ := bind_eq_ok_iff.1 h
  obtain ⟨howner, rfl⟩ := NestedGroup.push_eq_ok hpush
  exact ⟨⟨t, ht⟩, (getD_owner_eq_iff hpath).1 howner, rfl⟩

theorem owner_of_foldlM_add {g g' : NestedGroup} (hpath : g.path ≠ "")
    (h : conditions.foldlM (NestedGroup.add c) g = .ok g') :
    ∀ x ∈ conditions, (∃ t, x.term = .ok t) ∧ c.nestedPath? x.field = some g.path := by
  induction conditions generalizing g with
  | nil => simp
  | cons x conditions ih =>
    rw [List.foldlM_cons] at h
    obtain ⟨g₁, hadd, h⟩ := bind_eq_ok_iff.1 h
    obtain ⟨hterm, howner, hg₁⟩ := owner_of_add hpath hadd
    rw [← hg₁] at hpath howner ⊢
    exact List.forall_mem_cons.2 ⟨⟨hterm, howner⟩, ih hpath h⟩

/-- A group can be built iff each of its conditions makes a term and is owned by its path. -/
theorem exists_ofConditions_iff (hpath : path ≠ "") :
    (∃ g, NestedGroup.ofConditions c path conditions = .ok g) ↔
      ∀ x ∈ conditions, (∃ t, x.term = .ok t) ∧ c.nestedPath? x.field = some path := by
  constructor
  · rintro ⟨g, hg⟩
    exact owner_of_foldlM_add (g := { path }) hpath hg
  · intro h
    exact exists_ofConditions (fun x hx => (h x hx).2) fun x hx => (h x hx).1

theorem not_isBadValue_foreignField {field expected found : String} :
    ¬(Rejection.foreignField field expected found).IsBadValue path := by
  simp [Rejection.IsBadValue, Rejection.code]

/-- A term on a field that the path of the group does not own is refused. -/
theorem add_of_foreign {g : NestedGroup} (hpath : g.path ≠ "") {x : Condition} {t : Term}
    (hterm : x.term = .ok t) (howner : c.nestedPath? x.field ≠ some g.path) :
    g.add c x =
      .error (.foreignField x.field g.path ((c.nestedPath? x.field).getD "")) := by
  rw [NestedGroup.add, hterm, ok_bind, NestedGroup.push, field_of_term hterm,
    if_neg (mt (getD_owner_eq_iff hpath).1 howner)]

theorem add_eq_foreignField_iff {g : NestedGroup} (hpath : g.path ≠ "") {x : Condition}
    {field expected found : String} :
    g.add c x = .error (.foreignField field expected found) ↔
      (∃ t, x.term = .ok t) ∧ c.nestedPath? x.field ≠ some g.path ∧ field = x.field ∧
        expected = g.path ∧ found = (c.nestedPath? x.field).getD "" := by
  constructor
  · intro h
    have howner : c.nestedPath? x.field ≠ some g.path := fun howner =>
      not_isBadValue_foreignField (failsOnly_add howner _ h)
    cases hterm : x.term with
    | error e =>
      rw [NestedGroup.add, hterm, error_bind] at h
      obtain rfl := Except.error.inj h
      exact absurd (failsOnly_term x _ hterm) not_isBadValue_foreignField
    | ok t =>
      rw [add_of_foreign hpath hterm howner] at h
      obtain ⟨rfl, rfl, rfl⟩ := Rejection.foreignField.inj (Except.error.inj h)
      exact ⟨⟨t, rfl⟩, howner, rfl, rfl, rfl⟩
  · rintro ⟨⟨t, hterm⟩, howner, rfl, rfl, rfl⟩
    exact add_of_foreign hpath hterm howner

/-- A group is refused for a foreign field iff the first condition that cannot join it makes a term,
and the path does not own its field. -/
theorem ofConditions_eq_foreignField_iff (hpath : path ≠ "") {field expected found : String} :
    NestedGroup.ofConditions c path conditions = .error (.foreignField field expected found) ↔
      ∃ before x after, conditions = before ++ x :: after ∧
        (∀ y ∈ before, (∃ t, y.term = .ok t) ∧ c.nestedPath? y.field = some path) ∧
        (∃ t, x.term = .ok t) ∧ c.nestedPath? x.field ≠ some path ∧
        field = x.field ∧ expected = path ∧ found = (c.nestedPath? x.field).getD "" := by
  rw [NestedGroup.ofConditions, foldlM_eq_error_iff]
  constructor
  · rintro ⟨before, x, after, g, hsplit, hbefore, hx⟩
    obtain rfl : g.path = path := (ofConditions_eq_ok hbefore).1
    exact ⟨before, x, after, hsplit, (exists_ofConditions_iff hpath).1 ⟨g, hbefore⟩,
      (add_eq_foreignField_iff hpath).1 hx⟩
  · rintro ⟨before, x, after, hsplit, hbefore, hx⟩
    obtain ⟨g, hg⟩ := (exists_ofConditions_iff hpath).2 hbefore
    obtain rfl : g.path = path := (ofConditions_eq_ok hg).1
    exact ⟨before, x, after, g, hsplit, hg, (add_eq_foreignField_iff hpath).2 hx⟩

/-! ## Requests -/

/-- What a request is rejected for: the value of a parameter, the place of the distance, or the
order. -/
def Rejection.IsFaultOf (r : Request) (e : Rejection) : Prop :=
  (∃ p ∈ r.params, e.IsBadValue p.path) ∨ e.code = "SEARCH_UNKNOWN_LOCATION" ∨
    e.code = "SEARCH_INVALID_SORT"

/-- A condition is at fault under the name of its parameter. -/
theorem Rejection.IsBadValue.isFaultOf {r : Request} {flat : Bool} {conditions : List Condition}
    (hread : List.Forall₂ (fun p x => Condition.ofParam c flat p = .ok x) r.params conditions)
    {x : Condition} (hx : x ∈ conditions) {e : Rejection} (he : e.IsBadValue x.path) :
    e.IsFaultOf r := by
  obtain ⟨p, hp, hpx⟩ := (mem_iff_of_forall₂_ok hread).1 hx
  obtain ⟨operand, -, h⟩ := bind_eq_ok_iff.1 hpx
  obtain rfl := Except.ok.inj h
  exact Or.inl ⟨p, hp, he⟩

/-- A request is rejected only for what it says itself. -/
theorem failsOnly_compile (c : Catalog) (settings : PlanSettings) (r : Request) :
    FailsOnly (Rejection.IsFaultOf r) (compile c settings r) := by
  refine FailsOnly.bind ?_ fun classified hclass => ?_
  · refine FailsOnly.map (FailsOnly.mapM fun p hp => ?_) _
    exact (failsOnly_ofParam c _ p).mono fun e he => Or.inl ⟨p, hp, he⟩
  · obtain ⟨conditions, hread, hparts⟩ := classify_eq_ok hclass
    have hread := mapM_eq_ok_iff.1 hread
    refine FailsOnly.bind ?_ fun terms _ => ?_
    · refine FailsOnly.bind (FailsOnly.mapM fun x hx => ?_) fun terms _ => ?_
      · exact (failsOnly_standardTerm x).mono fun e he =>
          he.isFaultOf hread (hparts.mem_standard_iff.1 hx).1
      · refine FailsOnly.bind ?_ fun near _ => failsOnly_ok _
        exact (failsOnly_nearTerm? c r.options).mono fun e he => Or.inr (Or.inl he)
    · refine FailsOnly.bind (FailsOnly.mapM fun group hgroup => ?_) fun groups _ => ?_
      · have hmem : ∀ x ∈ group.2, x ∈ conditions ∧ c.nestedPath? x.field = some group.1 := by
          intro x hx
          obtain ⟨hx, hpath⟩ := (hparts.mem_group_iff hgroup).1 hx
          exact ⟨hx, nestedPath?_of_mem_read hread hx hpath⟩
        refine (failsOnly_ofConditions fun x hx => (hmem x hx).2).mono ?_
        rintro e ⟨x, hx, he⟩
        exact he.isFaultOf hread (hmem x hx).1
      · refine FailsOnly.bind ?_ fun sort _ => failsOnly_ok _
        exact (failsOnly_compileSort c settings r.options _).mono fun e he => Or.inr (Or.inr he)

/-- No request is rejected for a foreign field. Conditions that are put together otherwise are
refused for it iff the first of them that cannot join the group makes a term, and its field is not
the path's; it is named then, with the path that owns it. -/
theorem foreignField_iff :
    (∀ (c : Catalog) (settings : PlanSettings) (r : Request) (field expected found : String),
      compile c settings r ≠ .error (.foreignField field expected found)) ∧
    ∀ (c : Catalog) (path : String) (conditions : List Condition) (field expected found : String),
      path ≠ "" →
      (NestedGroup.ofConditions c path conditions = .error (.foreignField field expected found) ↔
        ∃ before x after, conditions = before ++ x :: after ∧
          (∀ y ∈ before, (∃ t, y.term = .ok t) ∧ c.nestedPath? y.field = some path) ∧
          (∃ t, x.term = .ok t) ∧ c.nestedPath? x.field ≠ some path ∧
          field = x.field ∧ expected = path ∧ found = (c.nestedPath? x.field).getD "") := by
  constructor
  · intro c settings r field expected found h
    obtain ⟨p, -, hvalue⟩ | hcode | hcode := failsOnly_compile c settings r _ h
    · exact not_isBadValue_foreignField hvalue
    · simp [Rejection.code] at hcode
    · simp [Rejection.code] at hcode
  · intro c path conditions field expected found hpath
    exact ofConditions_eq_foreignField_iff hpath

/-- A condition on programs, and one on owners that was put beside it. -/
theorem foreignField_of_owners :
    NestedGroup.ofConditions { nested := ⟨["owners", "programs"], by decide⟩ } "programs"
        [⟨"programs.code", "programs.code", none, .string, some "programs", .scalar (.str "13")⟩,
          ⟨"owners.kind__not", "owners.kind", some .not, .string, some "owners",
            .scalar (.str "public")⟩] =
      .error (.foreignField "owners.kind" "programs" "owners") := by
  refine (foreignField_iff.2 _ _ _ _ _ _ (by decide)).2
    ⟨[_], _, [], rfl, ?_, ⟨_, rfl⟩, ?_, rfl, rfl, ?_⟩
  · exact List.forall_mem_singleton.2 ⟨⟨_, rfl⟩, rfl⟩
  · decide
  · rfl

end FlatQuery
