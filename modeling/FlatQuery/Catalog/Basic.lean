import FlatQuery.Catalog.NestedPaths
import FlatQuery.Dict
import FlatQuery.Field.Kind
import FlatQuery.Field.Operator
import FlatQuery.Number.Double
import FlatQuery.Text.Blank

/-!
# Catalogs

A catalog describes what is searched: the kinds of fields, the nested paths, and the places that zip
codes stand for. Questions about a field may carry an operator, which is left out of account.
-/

namespace FlatQuery

structure GeoPoint where
  lat : Double
  lon : Double
deriving DecidableEq, Repr

structure Catalog where
  kinds : Dict FieldKind := []
  nested : NestedPaths := .empty
  locations : Dict GeoPoint := []
  /-- The field that distances are measured from. -/
  locationField : String := "location"
deriving DecidableEq, Repr, Inhabited

namespace Catalog

/-- The kind that the catalog declares for a field. -/
def declaredKind? (c : Catalog) (field : String) : Option FieldKind :=
  Dict.find? c.kinds (baseField field)

/-- A field that is not declared is a string. -/
def kind (c : Catalog) (field : String) : FieldKind :=
  (c.declaredKind? field).getD .string

/-- The nested path that owns a field. -/
def nestedPath? (c : Catalog) (field : String) : Option String :=
  c.nested.resolve? (baseField field)

def isNested (c : Catalog) (field : String) : Bool :=
  (c.nestedPath? field).isSome

/-- The place of a zip code; blank characters around it do not count. -/
def location? (c : Catalog) (zip : String) : Option GeoPoint :=
  Dict.find? c.locations (Text.trim zip)

/-- The number of declared fields. -/
def size (c : Catalog) : Nat :=
  c.kinds.length

end Catalog

end FlatQuery
