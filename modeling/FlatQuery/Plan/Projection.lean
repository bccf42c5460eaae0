import FlatQuery.Catalog.Basic
import FlatQuery.Json.Basic

/-!
# Projections

A projection says by which channel each requested field comes back: in the list of fields, in the
source of the document, or in the matching subdocuments. Subdocuments are reduced to the requested
keys; where none of a path is registered, all keys are kept.
-/

namespace FlatQuery

/-- Which part of the source of a document comes back. -/
inductive Source where
  /-- All of it but the fields of some patterns. -/
  | exclude (patterns : List String)
  | only (fields : List String)
  | disabled
deriving DecidableEq, Repr

namespace Source

def toJson : Source → Json
  | exclude patterns => .single "exclude" (.ofStrings patterns)
  | only fields => .ofStrings fields
  | disabled => .bool false

/-- Whether the documents come back as they are stored. -/
def isWholeDocument : Source → Bool
  | exclude _ => true
  | _ => false

end Source

structure Projection where
  source : Source
  /-- All requested fields, in the order of the request. -/
  requested : List String
  /-- The requested fields that are not nested. -/
  retrieved : List String
  /-- The registered keys of each nested path, relative to it. -/
  innerKeys : Dict (List String)
deriving DecidableEq, Repr

/-- Fields internal to the engine begin with an underscore. -/
def internalFields : String := "_*"

/-- What `field` adds to `path` after a dot. -/
def relativeKey? (path field : String) : Option String :=
  match List.isPrefixOf? path.toList field.toList with
  | some ('.' :: rest) => some (String.ofList rest)
  | _ => none

/-- Registers a requested field under the nested path that owns it. -/
def registerKey (c : Catalog) (keys : Dict (List String)) (field : String) : Dict (List String) :=
  match c.nestedPath? field with
  | none => keys
  | some path =>
    keys.insert path (((keys.find? path).getD []) ++ (relativeKey? path field).toList)

namespace Projection

/-- The source that a request needs. With an active nested query, nested fields come from the
matching subdocuments unless `flatten` asks for the source. -/
def sourceFor (requested nested : List String) (active flatten : Bool) : Source :=
  if active then
    if flatten && !nested.isEmpty then .only nested else .disabled
  else if requested.isEmpty then .exclude [internalFields]
  else if nested.isEmpty then .disabled
  else .only nested

/-- The projection of the requested fields. `active` says whether there is a query on some nested
path. -/
def build (c : Catalog) (requested : List String) (active flatten : Bool) : Projection :=
  let nested := requested.filter c.isNested
  { source := sourceFor requested nested active flatten
    requested
    retrieved := requested.filter fun field => !c.isNested field
    innerKeys := if active && !flatten then nested.foldl (registerKey c) [] else [] }

/-- The keys of subdocuments that are kept; `none` keeps all. -/
def keptKeys? (p : Projection) (path : String) : Option (List String) :=
  (p.innerKeys.find? path).filter fun keys => !keys.isEmpty

end Projection

end FlatQuery
