import FlatQuery.Query.Clause

/-!
# Clauses as JSON

Every clause is written as one JSON object with one member, named for the kind of the clause. Slots
without clauses are not written.
-/

namespace FlatQuery

/-- The share of documents above which a word counts as frequent. -/
def cutoffFrequency : Double :=
  (Double.ofDecimal? false 1 (-3)).getD .zero

namespace GeoPoint

def toJson (point : GeoPoint) : Json :=
  .obj [("lat", .ofDouble point.lat), ("lon", .ofDouble point.lon)]

end GeoPoint

namespace Context

def word : Context → String
  | query => "query"
  | filter => "filter"

end Context

namespace Clause

/-- The object for a condition on one field. -/
def onField (kind field : String) (body : Json) : Json :=
  .single kind (.single field body)

/-- A nested clause names its path, its predicate and how many subdocuments come back. -/
def nestedBody (path : String) (context : Context) (predicate : Json) (size : Nat) : Json :=
  .ofMembers [("path", .str path), (context.word, predicate),
    ("inner_hits", .single "size" (.ofNat size))]

/-- A distance around a point. A field named `distance` takes the place of the distance. -/
def nearBody (field distance : String) (point : GeoPoint) : Json :=
  .ofMembers [("distance", .str distance), (field, point.toJson)]

mutual

def toJson : Clause → Json
  | matchAll => .single "match_all" (.obj [])
  | equals field value => onField "match" field value
  | oneOf field values => onField "terms" field (.arr values)
  | inRange field interval => onField "range" field interval.toJson
  | any clauses => .single "or" (.arr (listToJson clauses))
  | wildcard field pattern => onField "wildcard" field (.single "value" (.str pattern))
  | common field query =>
    onField "common" field (.obj [("cutoff_frequency", .ofDouble cutoffFrequency),
      ("low_freq_operator", .str "and"), ("query", .str query)])
  | near field distance point => .single "geo_distance" (nearBody field distance point)
  | nested path context predicate size =>
    .single "nested" (nestedBody path context predicate.toJson size)
  | bool must filter mustNot =>
    .single "bool" (.obj (slotMember "filter" filter ++ slotMember "must" must ++
      slotMember "must_not" mustNot))
termination_by structural c => c

def listToJson : List Clause → List Json
  | [] => []
  | c :: cs => c.toJson :: listToJson cs
termination_by structural cs => cs

/-- The member of a slot: one clause is an object, a list of clauses an array. -/
def slotMember (key : String) : Slot Clause → List (String × Json)
  | .empty => []
  | .one c => [(key, c.toJson)]
  | .many [] => []
  | .many (c :: cs) => [(key, .arr (c.toJson :: listToJson cs))]
termination_by structural slot => slot

end

end Clause

def NestedQuery.toJson (q : NestedQuery) : Json :=
  q.clause.toJson

end FlatQuery
