import FlatQuery.Catalog.Basic
import FlatQuery.Json.Basic
import FlatQuery.Query.Interval

/-!
# Clauses

A clause is a node of the search tree that the engine is asked. A boolean clause has three slots:
what must hold and counts for the score, what must hold as a filter, and what must not hold. A slot
keeps whether it was given one clause or a list, since the two are written differently.
-/

namespace FlatQuery

/-- The clauses of one slot of a boolean clause. -/
inductive Slot (α : Type) where
  | empty
  | one (clause : α)
  | many (clauses : List α)
deriving Repr, DecidableEq

namespace Slot

variable {α : Type}

/-- One clause stands alone. -/
def ofList : List α → Slot α
  | [] => empty
  | [clause] => one clause
  | clauses => many clauses

/-- Even one clause is a list. -/
def listed : List α → Slot α
  | [] => empty
  | clauses => many clauses

def isEmpty : Slot α → Bool
  | empty => true
  | one _ => false
  | many clauses => clauses.isEmpty

def toList : Slot α → List α
  | empty => []
  | one clause => [clause]
  | many clauses => clauses

@[simp] theorem toList_empty : (empty : Slot α).toList = [] := rfl

@[simp] theorem toList_one (clause : α) : (one clause).toList = [clause] := rfl

@[simp] theorem toList_many (clauses : List α) : (many clauses).toList = clauses := rfl

theorem isEmpty_iff_toList (slot : Slot α) : slot.isEmpty = true ↔ slot.toList = [] := by
  cases slot <;> simp [isEmpty, toList]

@[simp] theorem toList_ofList (clauses : List α) : (ofList clauses).toList = clauses := by
  match clauses with
  | [] | [_] | _ :: _ :: _ => rfl

@[simp] theorem toList_listed (clauses : List α) : (listed clauses).toList = clauses := by
  cases clauses <;> rfl

end Slot

/-- How the engine reads the predicate of a nested clause. -/
inductive Context where
  | query
  | filter
deriving DecidableEq, Repr

inductive Clause where
  | matchAll
  | equals (field : String) (value : Json)
  | oneOf (field : String) (values : List Json)
  | inRange (field : String) (interval : Interval)
  /-- At least one of the clauses holds. -/
  | any (clauses : List Clause)
  | wildcard (field pattern : String)
  | common (field query : String)
  | near (field distance : String) (point : GeoPoint)
  /-- Some subdocument of the path satisfies the predicate; at most `size` of them come back. -/
  | nested (path : String) (context : Context) (predicate : Clause) (size : Nat)
  | bool (must filter mustNot : Slot Clause)
deriving Repr, Inhabited

namespace Clause

def ofMust (slot : Slot Clause) : Clause := bool slot .empty .empty

def ofFilter (slot : Slot Clause) : Clause := bool .empty slot .empty

def ofMustNot (slot : Slot Clause) : Clause := bool .empty .empty slot

def isMatchAll : Clause → Bool
  | matchAll => true
  | _ => false

end Clause

/-! ## Nested queries -/

/-- The most subdocuments that come back for a document. -/
def maxInnerHits : Nat := 100

/-- The query on one nested path. -/
structure NestedQuery where
  path : String
  context : Context
  predicate : Clause
  size : Nat := maxInnerHits
deriving Repr

def NestedQuery.clause (q : NestedQuery) : Clause :=
  .nested q.path q.context q.predicate q.size

end FlatQuery
