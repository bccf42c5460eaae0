import FlatQuery.Query.TopLevel

/-!
# Queries on nested paths

The terms on the fields of one nested path make one query, so that a single subdocument has to
satisfy them all. Next to terms that need a filter, equalities and negations are gathered into
boolean clauses of their own, one for each run of terms that belong together.
-/

namespace FlatQuery

/-- The terms on one nested path, in the order of the parameters. -/
structure NestedGroup where
  path : String
  terms : List Term := []
deriving DecidableEq, Repr

namespace NestedGroup

/-- Adds a term on a field that `owner` owns. Terms of another path are refused. -/
def push (g : NestedGroup) (owner : String) (term : Term) : Except Rejection NestedGroup :=
  if owner = g.path then .ok { g with terms := g.terms ++ [term] }
  else .error (.foreignField term.field g.path owner)

/-- Adds the term of a condition. -/
def add (c : Catalog) (g : NestedGroup) (condition : Condition) : Except Rejection NestedGroup := do
  let term ← condition.term
  g.push ((c.nestedPath? condition.field).getD "") term

def ofConditions (c : Catalog) (path : String) (conditions : List Condition) :
    Except Rejection NestedGroup :=
  conditions.foldlM (add c) { path }

end NestedGroup

/-! ## Runs -/

/-- Where a term stands among the items of a filter. -/
inductive Place where
  /-- By itself. -/
  | alone
  | must
  | mustNot
deriving DecidableEq, Repr

def Term.place : Term → Place
  | equals .. => .must
  | negation _ => .mustNot
  | _ => .alone

/-- Puts a term in front of a run of terms of the same place. -/
def consRun (term : Term) : List (Place × List Term) → List (Place × List Term)
  | (place, terms) :: runs =>
    if place = term.place ∧ place ≠ .alone then (place, term :: terms) :: runs
    else (term.place, [term]) :: (place, terms) :: runs
  | [] => [(term.place, [term])]

/-- The terms cut into the longest runs of one place; terms that stand alone are runs of one. -/
def termRuns (terms : List Term) : List (Place × List Term) :=
  terms.foldr consRun []

/-! ## Predicates -/

/-- The clause of a term that stands alone. A range with one interval is no disjunction. -/
def Term.filterLeaf : Term → Clause
  | inRange field intervals =>
    match intervalClauses field intervals with
    | [clause] => clause
    | clauses => .any clauses
  | term => term.leaf

/-- The items of a filter that a run makes. -/
def runItems : Place × List Term → List Clause
  | (.alone, terms) => terms.map Term.filterLeaf
  | (.must, terms) => [.ofMust (.listed (terms.map Term.leaf))]
  | (.mustNot, terms) => [.ofMustNot (.listed (terms.map Term.leaf))]

def filterItems (terms : List Term) : List Clause :=
  (termRuns terms).flatMap runItems

/-- Whether all terms are of one kind. -/
def sameKind (terms : List Term) : Bool :=
  match terms with
  | [] => true
  | term :: terms => terms.all fun other => other.kind = term.kind

/-- The predicate of several terms, or of one that needs no filter. -/
def jointPredicate (terms : List Term) : Clause :=
  let leaves := terms.map Term.leaf
  if terms.all Term.isNegation && !terms.any Term.needsFilter then .ofMustNot (.listed leaves)
  else if terms.any Term.needsFilter || !sameKind terms then .ofFilter (.listed (filterItems terms))
  else .ofMust (.listed leaves)

/-- The predicate on a subdocument and its context. -/
def nestedPredicate (terms : List Term) : Context × Clause :=
  match terms with
  | [term] =>
    if term.needsFilter && !term.isNegation then (.filter, term.filterLeaf)
    else (.query, jointPredicate [term])
  | terms => (.query, jointPredicate terms)

def NestedGroup.query (g : NestedGroup) : NestedQuery :=
  let (context, predicate) := nestedPredicate g.terms
  { path := g.path, context, predicate }

end FlatQuery
