import FlatQuery.Plan.Body
import FlatQuery.Proofs.Compile
import FlatQuery.Proofs.Lookup
import FlatQuery.Proofs.NestedNodes

/-!
# Channels of requested fields

A requested field comes back by one of three channels: the list of fields, the source, or the
subdocuments that match the query on its path. `Plan.Reaches` reads them off what the engine is
sent. A field is out of reach iff the request queries nested paths but not the one that owns the
field, and the source is not asked for (`reaches_iff`): the projection only knows that some path is
queried, while subdocuments are read path by path (`not_reaches_unqueried_path`).
-/

namespace FlatQuery

/-! ## What a body asks for -/

/-- The strings in a list. -/
def Json.strings : Json → List String
  | .arr items => items.filterMap str?
  | _ => []

/-- The fields that a body lists. -/
def listedFields (body : Json) : List String :=
  ((body.get? "fields").map Json.strings).getD []

/-- The fields of the source that a body asks for by name. -/
def includedFields (body : Json) : List String :=
  ((body.get? "_source").map Json.strings).getD []

def Source.included : Source → List String
  | only fields => fields
  | _ => []

theorem strings_ofStrings (ss : List String) : (Json.ofStrings ss).strings = ss := by
  rw [Json.ofStrings, Json.strings, List.filterMap_map]
  exact List.filterMap_some

theorem strings_source (source : Source) : source.toJson.strings = source.included := by
  cases source with
  | only fields => exact strings_ofStrings fields
  | _ => rfl

theorem get?_body_source (plan : Plan) :
    plan.body.get? "_source" = some plan.projection.source.toJson := by
  apply get?_ofMembers_of_agree
  · simp
  · intro other h
    simpa [Plan.optionalMembers] using h

theorem get?_body_fields (plan : Plan) :
    plan.body.get? "fields" =
      if plan.projection.retrieved.isEmpty then none
      else some (.ofStrings plan.projection.retrieved) := by
  split
  · rename_i hempty
    apply get?_ofMembers_of_notMem
    simp only [Plan.optionalMembers, hempty, List.forall_mem_append, List.forall_mem_cons]
    refine ⟨by simp, ⟨by simp, ?_⟩, ?_⟩
    · split <;> simp
    · split <;> simp
  · rename_i hempty
    apply get?_ofMembers_of_agree
    · simp [Plan.optionalMembers, hempty]
    · intro other h
      simpa [Plan.optionalMembers, hempty] using h

theorem listedFields_body (plan : Plan) : listedFields plan.body = plan.projection.retrieved := by
  rw [listedFields, get?_body_fields]
  split
  · rename_i hempty
    rw [List.isEmpty_iff.1 hempty]
    rfl
  · exact strings_ofStrings _

theorem includedFields_body (plan : Plan) :
    includedFields plan.body = plan.projection.source.included := by
  rw [includedFields, get?_body_source]
  exact strings_source _

theorem exists_nestedNode_iff (plan : Plan) (path : String) :
    (∃ q ∈ plan.combinedClause.nestedNodes, q.path = path) ↔ plan.queriesPath path = true := by
  rw [nestedNodes_combinedClause]
  simp [Plan.nestedQueries, Plan.queriesPath, NestedGroup.query]

/-! ## What a projection asks for -/

theorem included_sourceFor {requested nested : List String} (h : requested = [] → nested = [])
    (active flatten : Bool) :
    (Projection.sourceFor requested nested active flatten).included =
      if active && !flatten then [] else nested := by
  unfold Projection.sourceFor
  cases active with
  | true =>
    by_cases hempty : nested = []
    · cases flatten <;> simp [hempty, Source.included]
    · cases flatten <;> simp [hempty, Source.included]
  | false =>
    by_cases hnone : requested = []
    · simp [hnone, h hnone, Source.included]
    · by_cases hempty : nested = []
      · simp [hnone, hempty, Source.included]
      · simp [hnone, hempty, Source.included]

theorem mem_included_build {c : Catalog} {requested : List String} {active flatten : Bool}
    {field : String} :
    field ∈ (Projection.build c requested active flatten).source.included ↔
      (field ∈ requested ∧ c.isNested field = true) ∧ (active = true → flatten = true) := by
  have hfilter : requested = [] → requested.filter c.isNested = [] := by
    rintro rfl
    rfl
  rw [Projection.build, included_sourceFor hfilter]
  cases active <;> cases flatten <;> simp

theorem mem_retrieved_build {c : Catalog} {requested : List String} {active flatten : Bool}
    {field : String} :
    field ∈ (Projection.build c requested active flatten).retrieved ↔
      field ∈ requested ∧ c.isNested field = false := by
  simp [Projection.build]

/-! ## Reach -/

/-- A field is reached if it is listed, or included in the source, or if the subdocuments of its
path are asked for and read. -/
def Plan.Reaches (c : Catalog) (plan : Plan) (field : String) : Prop :=
  field ∈ listedFields plan.body ∨ field ∈ includedFields plan.body ∨
    plan.output.flattenNested = false ∧
      ∃ q ∈ plan.combinedClause.nestedNodes, c.nestedPath? field = some q.path

/-- The channels in terms of the parts of the plan. -/
theorem reaches_iff_channels {c : Catalog} {plan : Plan} {field : String} :
    plan.Reaches c field ↔
      field ∈ plan.projection.retrieved ∨ field ∈ plan.projection.source.included ∨
        plan.output.flattenNested = false ∧
          ∃ path, c.nestedPath? field = some path ∧ plan.queriesPath path = true := by
  rw [Plan.Reaches, listedFields_body, includedFields_body]
  refine or_congr Iff.rfl (or_congr Iff.rfl (and_congr Iff.rfl ?_))
  constructor
  · rintro ⟨q, hq, hpath⟩
    exact ⟨q.path, hpath, (exists_nestedNode_iff plan q.path).1 ⟨q, hq, rfl⟩⟩
  · rintro ⟨path, hpath, hqueried⟩
    obtain ⟨q, hq, rfl⟩ := (exists_nestedNode_iff plan path).2 hqueried
    exact ⟨q, hq, hpath⟩

/-- A requested field is reached unless its nested path is not queried while another one is, and
subdocuments are not asked for within the source. -/
theorem reaches_iff {c : Catalog} {settings : PlanSettings} {r : Request} {plan : Plan}
    {field : String} (h : compile c settings r = .ok plan) (hfield : field ∈ r.options.fields) :
    plan.Reaches c field ↔
      ¬(plan.hasNestedQuery = true ∧ r.options.allProgramsNested = false ∧
        ∃ path, c.nestedPath? field = some path ∧ plan.queriesPath path = false) := by
  obtain ⟨conditions, classified, hstages⟩ := stages_of_compile h
  have hflatten : plan.output.flattenNested = r.options.allProgramsNested := by
    rw [hstages.output]
    rfl
  rw [reaches_iff_channels, hstages.projection, mem_retrieved_build, mem_included_build, hflatten]
  cases hpath : c.nestedPath? field with
  | none =>
    have hnested : c.isNested field = false := by rw [Catalog.isNested, hpath]; rfl
    simp [hfield, hnested]
  | some path =>
    have hnested : c.isNested field = true := by rw [Catalog.isNested, hpath]; rfl
    cases hactive : plan.hasNestedQuery with
    | false => simp [hfield, hnested]
    | true => cases r.options.allProgramsNested <;> simp [hfield, hnested]

theorem reaches_queried_path :
    ∃ plan, compile { nested := ⟨["owners", "programs"], by decide⟩ } {}
        { params := [⟨"programs.code", .single "13"⟩]
          options := { fields := ["programs.kind"] } } = .ok plan ∧
      "programs.kind" ∈ ["programs.kind"] ∧
      plan.Reaches { nested := ⟨["owners", "programs"], by decide⟩ } "programs.kind" := by
  have h : compile { nested := ⟨["owners", "programs"], by decide⟩ } {}
      { params := [⟨"programs.code", .single "13"⟩], options := { fields := ["programs.kind"] } } =
        .ok ⟨[], [⟨"programs", [.equals "programs.code" (.str "13")]⟩], _, _, _, _, _⟩ := rfl
  have hfield : "programs.kind" ∈ ["programs.kind"] := List.mem_singleton_self _
  refine ⟨_, h, hfield, (reaches_iff h hfield).2 ?_⟩
  rintro ⟨-, -, path, hpath, hqueried⟩
  obtain rfl : "programs" = path := Option.some.inj hpath
  exact absurd hqueried (by decide)

/-- A query on programs leaves no way for what is asked for of the owners. -/
theorem not_reaches_unqueried_path :
    ¬∀ (c : Catalog) (settings : PlanSettings) (r : Request) (plan : Plan) (field : String),
      compile c settings r = .ok plan → field ∈ r.options.fields → plan.Reaches c field := by
  intro hall
  have h : compile { nested := ⟨["owners", "programs"], by decide⟩ } {}
      { params := [⟨"programs.code", .single "13"⟩], options := { fields := ["owners.kind"] } } =
        .ok ⟨[], [⟨"programs", [.equals "programs.code" (.str "13")]⟩],
          ⟨.disabled, ["owners.kind"], [], [("owners", ["kind"])]⟩, _, _, _, _⟩ := rfl
  rcases reaches_iff_channels.1 (hall _ _ _ _ "owners.kind" h (List.mem_singleton_self _)) with
    hlisted | hincluded | ⟨-, path, hpath, hqueried⟩
  · cases hlisted
  · cases hincluded
  · obtain rfl : "owners" = path := Option.some.inj hpath
    exact absurd hqueried (by decide)

end FlatQuery
