import FlatQuery.Query.Clause

/-!
# Joining the document with its subdocuments

`Clause.combine` joins the clause of a document with the queries on its nested paths: both have to
hold. The queries become filters; where the rest of the clause goes depends on its shape.
-/

namespace FlatQuery

/-- What `combine` asks of a clause. -/
inductive Shape where
  | matchAll
  | bool
  | common
  | any
  | leaf
deriving DecidableEq, Repr

namespace Shape

def word : Shape → String
  | matchAll => "match_all"
  | bool => "bool"
  | common => "common"
  | any => "or"
  | leaf => "leaf"

end Shape

namespace Clause

def shape : Clause → Shape
  | matchAll => .matchAll
  | bool .. => .bool
  | common .. => .common
  | any _ => .any
  | _ => .leaf

/-- A slot as an item of a filter, if it holds anything. -/
def slotItem (wrap : Slot Clause → Clause) (slot : Slot Clause) : List Clause :=
  if slot.isEmpty then [] else [wrap slot]

/-- The clause that holds where `standard` and all of the nested queries hold. -/
def combine (standard : Clause) (queries : List NestedQuery) : Clause :=
  if queries.isEmpty then standard
  else
    let nested := queries.map NestedQuery.clause
    match standard with
    | matchAll => ofFilter (.ofList nested)
    | any _ => ofFilter (.many (standard :: nested))
    | bool must filter mustNot =>
      ofFilter (.many (filter.toList ++ nested ++ slotItem ofMust must ++
        slotItem ofMustNot mustNot))
    | _ => bool (.one standard) (.ofList nested) .empty

end Clause

end FlatQuery
