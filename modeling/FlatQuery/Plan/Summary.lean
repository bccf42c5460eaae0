import FlatQuery.Plan.Basic

/-!
# Summaries of plans

A summary says in short lines what a request becomes, or why it is rejected. It has a form for
programs, `toJson`, and one for readers, `text`.
-/

namespace FlatQuery

/-- What a summary says about a plan. -/
structure PlanSummary where
  standardTerms : List String
  shape : String
  /-- The terms of each nested path. -/
  groups : List (String × List String)
  source : String
  retrieved : List String
  innerKeys : List String
  sort : List String
  start : Nat
  size : Nat
  aggregations : List String
deriving DecidableEq, Repr

/-- The summary of a request: of its plan, or of its rejection. -/
inductive Summary where
  | accepted (plan : PlanSummary)
  | rejected (r : Rejection)
deriving DecidableEq, Repr

def commas (texts : List String) : String :=
  ", ".intercalate texts

namespace Source

def describe : Source → String
  | exclude patterns => "EXCLUDE " ++ commas patterns
  | only fields => "INCLUDE " ++ commas fields
  | disabled => "DISABLED"

end Source

def describeKeys (path : String) (keys : List String) : String :=
  if keys.isEmpty then path ++ ": *" else path ++ ": " ++ commas keys

namespace SortClause

def describe (s : SortClause) : String :=
  let base := s.field ++ " " ++ s.order
  match s.nested with
  | none => base
  | some nested =>
    let filtered := if nested.filter.isSome then ", filtered" else ""
    s!"{base} (nested {nested.path}, mode {nested.mode.word}{filtered})"

end SortClause

namespace Plan

def summary (plan : Plan) : PlanSummary where
  standardTerms := plan.standardTerms.map Term.describe
  shape := plan.standardClause.shape.word
  groups := plan.groups.map fun group => (group.path, group.terms.map Term.describe)
  source := plan.projection.source.describe
  retrieved := plan.projection.retrieved
  innerKeys := plan.projection.innerKeys.map fun entry => describeKeys entry.1 entry.2
  sort := plan.sort.map SortClause.describe
  start := plan.paging.start
  size := plan.paging.size
  aggregations := plan.aggregations

end Plan

namespace Summary

def ofResult : Except Rejection Plan → Summary
  | .ok plan => accepted plan.summary
  | .error r => rejected r

/-! ## The form for programs -/

def groupJson (group : String × List String) : Json :=
  .arr [.str group.1, .ofStrings group.2]

/-- Every part of a summary is present; what does not apply is empty or null. -/
def members (plan : Option PlanSummary) (r : Option Rejection) : List (String × Json) :=
  let strings (f : PlanSummary → List String) : Json := .ofStrings ((plan.map f).getD [])
  [("accepted", .bool plan.isSome),
    ("standard_terms", strings PlanSummary.standardTerms),
    ("standard_shape", .ofOption (fun p => .str p.shape) plan),
    ("nested_groups", .arr (((plan.map PlanSummary.groups).getD []).map groupJson)),
    ("source", .ofOption (fun p => .str p.source) plan),
    ("retrieval_fields", strings PlanSummary.retrieved),
    ("nested_filters", strings PlanSummary.innerKeys),
    ("sort", strings PlanSummary.sort),
    ("from", .ofOption (fun p => .ofNat p.start) plan),
    ("size", .ofOption (fun p => .ofNat p.size) plan),
    ("aggregations", strings PlanSummary.aggregations),
    ("rejection_reason", .ofOption (fun r => .str r.message) r),
    ("rejection_code", .ofOption (fun r => .str r.code) r)]

def toJson : Summary → Json
  | accepted plan => .ofMembers (members (some plan) none)
  | rejected r => .ofMembers (members none (some r))

/-! ## The form for readers -/

/-- A heading and an item for each text. -/
def itemLines (heading : String) (texts : List String) : List String :=
  heading :: texts.map ("  - " ++ ·)

/-- A line that is left out where there is nothing to list. -/
def listLine (label : String) (texts : List String) : List String :=
  if texts.isEmpty then [] else [label ++ commas texts]

def planLines (plan : PlanSummary) : List String :=
  ["Status: ACCEPTED"] ++
  (if plan.standardTerms.isEmpty then [] else itemLines "Standard Terms:" plan.standardTerms) ++
  [s!"Standard Shape: {plan.shape}"] ++
  (plan.groups.flatMap fun group => itemLines s!"Nested [{group.1}]:" group.2) ++
  [s!"Source: {plan.source}"] ++
  listLine "Fields: " plan.retrieved ++
  plan.innerKeys.map ("Inner Hits Filter: " ++ ·) ++
  plan.sort.map ("Sort: " ++ ·) ++
  [s!"Window: from {plan.start} size {plan.size}"] ++
  listLine "Stats: " plan.aggregations

def lines : Summary → List String
  | accepted plan => planLines plan
  | rejected r => ["Status: REJECTED", s!"Error Code: {r.code}", s!"Reason: {r.message}"]

def text (s : Summary) : String :=
  String.join (("=== EXPLAIN PLAN ===" :: s.lines).map (· ++ "\n"))

end Summary

end FlatQuery
