import FlatQuery.Catalog.Basic
import FlatQuery.Query.Clause.Wire
import FlatQuery.Request.Options
import FlatQuery.Text.WordChar

/-!
# Sorting

A sort specification lists fields between commas, each with an optional direction: `state,size:desc`.
`SortSpec.tokens` reads it, and `compileSort` finds for each field what the engine has to be told.
An order by a nested field uses the subdocuments that the query on its path matches.
-/

namespace FlatQuery

/-- How the subdocuments of a path decide an order. -/
structure NestedSort where
  path : String
  /-- The subdocuments that count, where there is a query on the path. -/
  filter : Option Clause
  mode : SortMode
deriving Repr

structure SortClause where
  field : String
  descending : Bool
  nested : Option NestedSort
deriving Repr

namespace SortClause

def order (s : SortClause) : String :=
  if s.descending then "desc" else "asc"

def nestedMembers : Option NestedSort → List (String × Json)
  | none => []
  | some nested =>
    [("nested_path", .str nested.path), ("mode", .str nested.mode.word)] ++
      (nested.filter.toList.map fun clause => ("nested_filter", clause.toJson))

def toJson (s : SortClause) : Json :=
  .single s.field (.ofMembers (("order", .str s.order) :: nestedMembers s.nested))

end SortClause

/-! ## Specifications -/

/-- Segments of word characters, joined by dots. -/
def isFieldName (cs : List Char) : Bool :=
  (Text.pieces (· == '.') cs).all fun segment => !segment.isEmpty && segment.all Text.isWordChar

/-- A token of a specification: a field, and the word after its colon if it has one. -/
def readSortToken? (token : String) : Option (String × Option String) :=
  match Text.cut ':' token.toList with
  | none => if isFieldName token.toList then some (token, none) else none
  | some (field, word) =>
    if isFieldName field && !word.isEmpty && word.all Text.isWordChar then
      some (String.ofList field, some (String.ofList word))
    else none

/-- Whether a direction is descending; letter case does not count. -/
def readDirection (field : String) : Option String → Except Rejection Bool
  | none => .ok false
  | some word =>
    match Text.asciiLower word with
    | "asc" => .ok false
    | "desc" => .ok true
    | other => .error (.unknownDirection other field)

/-- The field that the engine sorts by. Autocomplete fields have a field of their own for it. -/
def sortField (c : Catalog) (field : String) : String :=
  if c.kind field = .autocomplete then "_" ++ field else field

def nestedSort? (c : Catalog) (queries : List NestedQuery) (mode : SortMode) (descending : Bool)
    (field : String) : Option NestedSort :=
  (c.nestedPath? field).map fun path =>
    { path
      filter := (queries.find? fun q => q.path == path).map NestedQuery.predicate
      mode := mode.resolve descending }

/-- The order that one token of the specification `spec` asks for. -/
def sortClause (c : Catalog) (queries : List NestedQuery) (mode : SortMode) (spec token : String) :
    Except Rejection SortClause :=
  match readSortToken? token with
  | none => .error (.malformedSort token spec)
  | some (field, word) => do
    let descending ← readDirection field word
    .ok {
      field := sortField c field
      descending
      nested := nestedSort? c queries mode descending field }

/-- The orders of a specification, the first one most important. A blank one asks for none. -/
def compileSort (c : Catalog) (queries : List NestedQuery) (mode : SortMode) (spec : String) :
    Except Rejection (List SortClause) :=
  let spec := Text.trim spec
  if spec.isEmpty then .ok []
  else (Text.splitOn spec ',').mapM fun token => sortClause c queries mode spec (Text.trim token)

end FlatQuery
