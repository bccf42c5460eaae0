import FlatQuery.Query.Clause
import FlatQuery.Query.Term

/-!
# The clause of a document

`Clause.ofTerms` puts the terms on the document itself into one clause. A single term mostly stays a
leaf; of several terms each goes into the slot for its kind.
-/

namespace FlatQuery

/-- One clause for each interval. -/
def intervalClauses (field : String) (intervals : List Interval) : List Clause :=
  intervals.map (.inRange field)

/-- The clause of a term, leaving out whether it is negated. -/
def Term.leaf : Term → Clause
  | equals field value => .equals field value
  | oneOf field values => .oneOf field values
  | inRange field intervals => .any (intervalClauses field intervals)
  | negation inner => inner.leaf
  | wildcard field pattern => .wildcard ("_" ++ field) pattern
  | common field query => .common field query
  | near field point distance => .near field distance point

/-- The slots of a boolean clause. -/
inductive Occasion where
  | must
  | filter
  | mustNot
deriving DecidableEq, Repr

/-- Texts count for the score, all other terms only filter. -/
def Term.occasion : Term → Occasion
  | wildcard .. | common .. => .must
  | negation _ => .mustNot
  | _ => .filter

namespace Clause

/-- The leaves of the terms of one occasion, in order. -/
def leavesOf (occasion : Occasion) (terms : List Term) : List Clause :=
  (terms.filter fun term => term.occasion = occasion).map Term.leaf

def ofTerms : List Term → Clause
  | [] => matchAll
  | [term] =>
    match term with
    | .negation inner => ofMustNot (.listed [inner.leaf])
    | .near .. => ofFilter (.one term.leaf)
    | term => term.leaf
  | terms =>
    bool (.ofList (leavesOf .must terms)) (.ofList (leavesOf .filter terms))
      (.listed (leavesOf .mustNot terms))

theorem ofTerms_cons_cons (t₁ t₂ : Term) (ts : List Term) :
    ofTerms (t₁ :: t₂ :: ts) =
      bool (.ofList (leavesOf .must (t₁ :: t₂ :: ts)))
        (.ofList (leavesOf .filter (t₁ :: t₂ :: ts)))
        (.listed (leavesOf .mustNot (t₁ :: t₂ :: ts))) := rfl

end Clause

end FlatQuery
