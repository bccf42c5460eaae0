import FlatQuery.Proofs.Grouping

/-!
# Classified parameters

Classifying reads each parameter by itself and puts it in one place. It fails with the error of the
first parameter whose value cannot be read. Otherwise the parameters without a nested path and those
of each nested path stand in lists of their own, in the order of the request, and the paths in the
order of their first parameters (`classify_arranges`).
-/

namespace FlatQuery

/-! ## Parameters by themselves -/

/-- The nested path that a parameter belongs to; none where nested paths are left out of account. -/
def Param.owner? (c : Catalog) (flat : Bool) (p : Param) : Option String :=
  if flat then none else c.nestedPath? (baseField p.path)

/-- The value of a parameter as the kind of its field has it read. -/
def Param.operand (c : Catalog) (p : Param) : Except Rejection Operand :=
  readOperand p.path (c.kind (baseField p.path)) (Operator.split p.path).2 p.value

variable {c : Catalog} {flat : Bool}

theorem ofParam_eq (p : Param) :
    Condition.ofParam c flat p = (p.operand c).map fun operand =>
      { path := p.path
        field := baseField p.path
        operator := (Operator.split p.path).2
        kind := c.kind (baseField p.path)
        nestedPath := p.owner? c flat
        operand } := by
  cases h : p.operand c with
  | error e => exact congrArg (· >>= _) h
  | ok operand => exact congrArg (· >>= _) h

theorem exists_ofParam_iff {p : Param} :
    (∃ x, Condition.ofParam c flat p = .ok x) ↔ ∃ operand, p.operand c = .ok operand := by
  rw [ofParam_eq, exists_map_eq_ok_iff]

theorem ofParam_eq_error_iff {p : Param} {e : Rejection} :
    Condition.ofParam c flat p = .error e ↔ p.operand c = .error e := by
  rw [ofParam_eq, map_eq_error_iff]

theorem nestedPath_eq_owner? {p : Param} {x : Condition} (h : Condition.ofParam c flat p = .ok x) :
    x.nestedPath = p.owner? c flat := by
  rw [ofParam_eq] at h
  obtain ⟨operand, -, rfl⟩ := map_eq_ok_iff.1 h
  rfl

/-! ## Places of the parameters -/

/-- What classifying makes of a list of parameters. -/
structure Classified.Arranges (classified : Classified) (c : Catalog) (flat : Bool)
    (params : List Param) : Prop where
  /-- Parameters without a nested path are in one list. -/
  standard : List.Forall₂ (fun p x => Condition.ofParam c flat p = .ok x)
    (params.filter fun p => p.owner? c flat = none) classified.standard
  /-- A group holds the parameters that its path owns. -/
  members : ∀ group ∈ classified.groups,
    List.Forall₂ (fun p x => Condition.ofParam c flat p = .ok x)
      (params.filter fun p => p.owner? c flat = some group.1) group.2
  nonempty : ∀ group ∈ classified.groups, group.2 ≠ []
  distinct : (classified.groups.map Prod.fst).Nodup
  /-- The groups stand in the order of their first parameters. -/
  ordered : (classified.groups.map Prod.fst).Pairwise fun path other =>
    firstPlace (Param.owner? c flat) params path < firstPlace (Param.owner? c flat) params other
  /-- The places together hold each parameter once. -/
  once : ∃ conditions, List.Forall₂ (fun p x => Condition.ofParam c flat p = .ok x)
      params conditions ∧
    (classified.standard ++ classified.groups.flatMap Prod.snd).Perm conditions

section

variable {params : List Param} {conditions : List Condition}

/-- The parameters of some place are read to the conditions in that place. -/
theorem forall₂_filter_owner
    (h : List.Forall₂ (fun p x => Condition.ofParam c flat p = .ok x) params conditions)
    (owner : Option String) :
    List.Forall₂ (fun p x => Condition.ofParam c flat p = .ok x)
      (params.filter fun p => p.owner? c flat = owner)
      (conditions.filter fun x => x.nestedPath = owner) := by
  refine List.rel_filter (fun p x hread => ?_) h
  simp only [decide_eq_true_eq, nestedPath_eq_owner? hread]

theorem filterMap_nestedPath
    (h : List.Forall₂ (fun p x => Condition.ofParam c flat p = .ok x) params conditions) :
    conditions.filterMap Condition.nestedPath = params.filterMap (Param.owner? c flat) := by
  induction h with
  | nil => rfl
  | cons hread _ ih => rw [List.filterMap_cons, List.filterMap_cons, nestedPath_eq_owner? hread, ih]

theorem arranges_of_partitions {classified : Classified}
    (hread : List.Forall₂ (fun p x => Condition.ofParam c flat p = .ok x) params conditions)
    (h : classified.Partitions conditions) : classified.Arranges c flat params where
  standard := by
    rw [h.standard]
    exact forall₂_filter_owner hread none
  members group hgroup := by
    rw [h.members group hgroup]
    exact forall₂_filter_owner hread (some group.1)
  nonempty group hgroup := by
    obtain ⟨x, hx, hpath⟩ := h.mem_paths_iff.1 (List.mem_map_of_mem hgroup)
    exact List.ne_nil_of_mem ((h.mem_group_iff hgroup).2 ⟨hx, hpath⟩)
  distinct := h.nodup_paths
  ordered := by
    rw [h.paths, filterMap_nestedPath hread]
    exact pairwise_firstPlace_eraseDups _ params
  once := ⟨conditions, hread, h.perm⟩

end

/-- Classifying succeeds iff each value can be read by itself, and otherwise fails with the error of
the first one that cannot. Each parameter is then in one place: with those without a nested path, or
in the group of its path. All places keep the order of the parameters, and the groups stand in the
order of their first ones. -/
theorem classify_arranges (c : Catalog) (flat : Bool) (params : List Param) :
    ((∃ classified, classify c flat params = .ok classified) ↔
      ∀ p ∈ params, ∃ operand, p.operand c = .ok operand) ∧
    (∀ e, classify c flat params = .error e ↔ ∃ before p after, params = before ++ p :: after ∧
      (∀ q ∈ before, ∃ operand, q.operand c = .ok operand) ∧ p.operand c = .error e) ∧
    ∀ classified, classify c flat params = .ok classified →
      classified.Arranges c flat params := by
  refine ⟨?_, fun e => ?_, fun classified h => ?_⟩
  · simp only [classify, exists_map_eq_ok_iff, exists_mapM_eq_ok_iff, exists_ofParam_iff]
  · simp only [classify, map_eq_error_iff, mapM_eq_error_iff, exists_ofParam_iff,
      ofParam_eq_error_iff]
  · obtain ⟨conditions, hread, hparts⟩ := classify_eq_ok h
    exact arranges_of_partitions (mapM_eq_ok_iff.1 hread) hparts

/-- Conditions on two nested paths and on the document, one after the other. -/
theorem classify_interleaved :
    ∃ classified, classify { nested := ⟨["owners", "programs"], by decide⟩ } false
        [⟨"programs.code", .single "13,14"⟩, ⟨"state", .single "NY"⟩,
          ⟨"owners.kind__not", .single "public"⟩, ⟨"programs.size__range", .single "5.."⟩] =
        .ok classified ∧
      classified.groups.map (fun group => (group.1, group.2.map Condition.path)) =
        [("programs", ["programs.code", "programs.size__range"]),
          ("owners", ["owners.kind__not"])] ∧
      classified.Arranges { nested := ⟨["owners", "programs"], by decide⟩ } false
        [⟨"programs.code", .single "13,14"⟩, ⟨"state", .single "NY"⟩,
          ⟨"owners.kind__not", .single "public"⟩, ⟨"programs.size__range", .single "5.."⟩] :=
  ⟨_, rfl, rfl, (classify_arranges _ _ _).2.2 _ rfl⟩

end FlatQuery
