import FlatQuery.Plan.Projection
import FlatQuery.Plan.Sort
import FlatQuery.Query.Combine
import FlatQuery.Query.Nested

/-!
# Plans

A plan is a request made ready against one catalog: the clause to search for, the projection, the
order and the page. The answer of the engine is read with the same plan. `compile` either makes a
plan or rejects the request before anything is searched.
-/

namespace FlatQuery

/-- What a request leaves open. -/
structure PlanSettings where
  defaultPageSize : Nat := 20
  sortMode : SortMode := .byDirection
deriving DecidableEq, Repr

/-- The form in which the answer is wanted. -/
structure Output where
  /-- Keys are nested, not dotted. -/
  keysNested : Bool
  /-- Nested fields are read from the source; subdocuments are left out. -/
  flattenNested : Bool
  /-- Statistics are wanted. -/
  stats : Bool
  /-- The statistics to keep; none named keeps all. -/
  metrics : List String
  /-- Times are wanted. -/
  debug : Bool
deriving DecidableEq, Repr

structure Plan where
  standardTerms : List Term
  groups : List NestedGroup
  projection : Projection
  sort : List SortClause
  paging : Paging
  /-- The fields of which statistics are computed. -/
  aggregations : List String
  output : Output
deriving Repr

namespace Plan

/-- The clause of the document itself. -/
def standardClause (plan : Plan) : Clause :=
  .ofTerms plan.standardTerms

/-- One query for each nested path that the request has conditions on. -/
def nestedQueries (plan : Plan) : List NestedQuery :=
  plan.groups.map NestedGroup.query

def combinedClause (plan : Plan) : Clause :=
  .combine plan.standardClause plan.nestedQueries

def hasNestedQuery (plan : Plan) : Bool :=
  !plan.groups.isEmpty

/-- Whether there is a query on the nested path `path`. -/
def queriesPath (plan : Plan) (path : String) : Bool :=
  plan.groups.any fun group => group.path == path

/-- A request for statistics needs no documents. -/
def countOnly (plan : Plan) : Bool :=
  plan.output.stats

end Plan

/-- The fields whose declared kind is numeric. -/
def numericFields (c : Catalog) (fields : List String) : List String :=
  fields.filter fun field => (c.declaredKind? field).any FieldKind.isNumeric

def Options.wantsStats (options : Options) : Bool :=
  options.command == some .stats

def Options.output (options : Options) : Output :=
  { keysNested := options.keysNested
    flattenNested := options.allProgramsNested
    stats := options.wantsStats
    metrics := options.metrics
    debug := options.debug }

/-- The order that the options ask for. -/
def Options.compileSort (c : Catalog) (settings : PlanSettings) (options : Options)
    (queries : List NestedQuery) : Except Rejection (List SortClause) :=
  match options.sort with
  | none => .ok []
  | some spec => FlatQuery.compileSort c queries (options.nestedSortMode.getD settings.sortMode) spec

/-- The plan of a request. Conditions are read first, then the terms on the document, then those on
nested paths, and the order last; the first fault decides the rejection. -/
def compile (c : Catalog) (settings : PlanSettings) (r : Request) : Except Rejection Plan := do
  let options := r.options
  let classified ← classify c options.allPrograms r.params
  let standardTerms ← standardTerms c options classified.standard
  let groups ← classified.groups.mapM fun group => NestedGroup.ofConditions c group.1 group.2
  let queries := groups.map NestedGroup.query
  let sort ← options.compileSort c settings queries
  .ok {
    standardTerms, groups, sort
    projection :=
      .build c options.fields (!groups.isEmpty) options.allProgramsNested
    paging := options.paging settings.defaultPageSize
    aggregations := if options.wantsStats then numericFields c options.fields else []
    output := options.output }

end FlatQuery
