import FlatQuery.Plan.Basic

/-!
# The search body

What the engine is sent for a plan. Lists of fields, orders and statistics are left out where they
are empty.
-/

namespace FlatQuery.Plan

def aggregationBody (field : String) : Json :=
  .single "extended_stats" (.single "field" (.str field))

/-- The members that are left out where they are empty. -/
def optionalMembers (plan : Plan) : List (String × Json) :=
  (if plan.projection.retrieved.isEmpty then []
    else [("fields", .ofStrings plan.projection.retrieved)]) ++
  (if plan.sort.isEmpty then []
    else [("sort", .arr (plan.sort.map SortClause.toJson))]) ++
  if plan.aggregations.isEmpty then []
    else [("aggs", .ofMembers (plan.aggregations.map fun field => (field, aggregationBody field)))]

def body (plan : Plan) : Json :=
  .ofMembers ([("from", .ofNat plan.paging.start), ("size", .ofNat plan.paging.size),
    ("query", plan.combinedClause.toJson), ("_source", plan.projection.source.toJson)] ++
    plan.optionalMembers)

end FlatQuery.Plan
