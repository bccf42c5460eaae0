import FlatQuery.Json.Dotted
import FlatQuery.Plan.Basic
import FlatQuery.Reply.Basic

/-!
# Documents of an answer

A hit becomes a document by the plan that asked for it. The parts of the hit are merged under dotted
keys: its fields, its source, and for each queried path the matching subdocuments. A list of at most
one value outside the nested paths is that value. Requested fields that are still missing are null.
-/

namespace FlatQuery

/-- What reading an answer has added to its documents. -/
structure DecodeCounts where
  /-- Lists of subdocuments. -/
  innerHitGroups : Nat := 0
  /-- Nulls for missing fields. -/
  nullFields : Nat := 0
deriving DecidableEq, Repr

namespace DecodeCounts

def add (a b : DecodeCounts) : DecodeCounts :=
  ⟨a.innerHitGroups + b.innerHitGroups, a.nullFields + b.nullFields⟩

def sum (counts : List DecodeCounts) : DecodeCounts :=
  counts.foldl add {}

end DecodeCounts

/-! ## Fields and source -/

/-- A list of at most one value is the value, or null. -/
def unwrap : Json → Json
  | .arr [] => .null
  | .arr [v] => v
  | v => v

/-- The fields of a hit under the flat form of its source, if that is an object. -/
def Hit.merged (hit : Hit) : Dict Json :=
  Dict.insertAll (hit.fields.getD []) ((hit.source.map Json.flatten).getD [])

def unwrapStandard (c : Catalog) (d : Dict Json) : Dict Json :=
  d.mapValues fun key v => if c.isNested key then v else unwrap v

/-! ## Subdocuments -/

/-- Keeps the entries under the given keys; `none` keeps all. -/
def keepKeys (kept : Option (List String)) (d : Dict Json) : Dict Json :=
  match kept with
  | none => d
  | some keys => d.filter fun entry => keys.contains entry.1

def innerDocument (kept : Option (List String)) (hit : Hit) : Json :=
  .obj (keepKeys kept ((hit.source.map Json.flatten).getD []))

/-- The subdocuments of a path that was queried, if its section can be read. -/
def subdocuments? (plan : Plan) (entry : String × Json) : Option (String × Json) :=
  if plan.queriesPath entry.1 then
    (Hits.ofSection? entry.2).map fun hits =>
      (entry.1, .arr (hits.hits.map (innerDocument (plan.projection.keptKeys? entry.1))))
  else none

/-- The matching subdocuments of a hit under their paths. -/
def innerEntries (plan : Plan) (hit : Hit) : List (String × Json) :=
  if plan.output.flattenNested then []
  else (hit.innerHits.getD []).filterMap (subdocuments? plan)

/-! ## Missing fields -/

/-- Whether a requested field is there, by itself or within the nested path that owns it. -/
def isPresent (c : Catalog) (d : Dict Json) (field : String) : Bool :=
  d.contains field || (c.nestedPath? field).any fun path => d.contains path

/-- Adds a null for `field` if it is missing, and counts it. -/
def fillField (c : Catalog) (found : Dict Json × Nat) (field : String) : Dict Json × Nat :=
  if isPresent c found.1 field then found else (found.1.insert field .null, found.2 + 1)

def fillMissing (c : Catalog) (fields : List String) (d : Dict Json) : Dict Json × Nat :=
  fields.foldl (fillField c) (d, 0)

/-! ## Documents -/

/-- The document of a hit, with dotted keys. -/
def decodeFlat (c : Catalog) (plan : Plan) (hit : Hit) : Dict Json × DecodeCounts :=
  let inner := innerEntries plan hit
  let found := (unwrapStandard c hit.merged).insertAll inner
  let (filled, nulls) := fillMissing c plan.projection.requested found
  (filled, { innerHitGroups := inner.length, nullFields := nulls })

def decodeHit (c : Catalog) (plan : Plan) (hit : Hit) : Json × DecodeCounts :=
  let (flat, counts) := decodeFlat c plan hit
  (.obj (if plan.output.keysNested then Json.nest flat else flat), counts)

/-- The document of a hit as it is stored. -/
def wholeDocument (hit : Hit) : Json :=
  hit.source.getD (.obj [])

/-- The documents of a reply, in its order. -/
def decodeHits (c : Catalog) (plan : Plan) (reply : Reply) : List Json × DecodeCounts :=
  if plan.projection.source.isWholeDocument then (reply.hits.hits.map wholeDocument, {})
  else
    let decoded := reply.hits.hits.map (decodeHit c plan)
    (decoded.map Prod.fst, .sum (decoded.map Prod.snd))

end FlatQuery
