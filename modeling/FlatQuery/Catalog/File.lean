import FlatQuery.Catalog.Basic
import FlatQuery.Json.Tree

/-!
# Catalog files

A catalog is read from the text of a JSON file. The faults of a file are looked for in a fixed
order: its shape first, then the kinds of the fields, then the nested paths.
-/

namespace FlatQuery.Catalog

/-- What a catalog file says, before it is checked. -/
structure File where
  kinds : Dict String
  nested : List String
  locations : Dict GeoPoint
  locationField : Option String
deriving DecidableEq, Repr

def readPoint? (t : Json.Tree) : Option GeoPoint := do
  match ← t.record? ["lat", "lon"] with
  | [some lat, some lon] => some ⟨← lat.double?, ← lon.double?⟩
  | _ => none

/-- Every part of a catalog file may be left out. -/
def readFile? (t : Json.Tree) : Option File := do
  match ← t.record? ["field_types", "nested", "locations", "location_field"] with
  | [kinds, nested, locations, locationField] =>
    some {
      kinds := ← Json.Tree.orDefault? [] (·.dict? Json.Tree.text?) kinds
      nested := ← Json.Tree.orDefault? [] (·.list? Json.Tree.text?) nested
      locations := ← Json.Tree.orDefault? [] (·.dict? readPoint?) locations
      locationField := ← Json.Tree.orDefault? none (·.optional? Json.Tree.text?) locationField }
  | _ => none

/-- What the text of a catalog file says. -/
def File.ofText? (text : String) : Option File :=
  let (tree, rest) := Json.Tree.ofText text
  if rest.isEmpty then readFile? tree else none

/-- The kinds for the words of a file. -/
def readKinds : Dict String → Except CatalogError (Dict FieldKind)
  | [] => .ok []
  | (field, word) :: rest =>
    match FieldKind.ofWord? word with
    | none => .error (.unknownKind field word)
    | some kind => (readKinds rest).map ((field, kind) :: ·)

def ofFile (file : File) : Except CatalogError Catalog := do
  let kinds ← readKinds file.kinds
  let nested ← NestedPaths.ofList? file.nested
  .ok {
    kinds, nested
    locations := file.locations
    locationField := file.locationField.getD "location" }

/-- The catalog in the text of the file `name`. -/
def ofText (name text : String) : Except CatalogError Catalog :=
  match File.ofText? text with
  | none => .error (.malformed name)
  | some file => ofFile file

end FlatQuery.Catalog
