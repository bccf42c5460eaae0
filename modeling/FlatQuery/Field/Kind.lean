/-!
# Kinds of fields

The kind of a field decides how a request parameter on it is read and which query it becomes.
-/

namespace FlatQuery

inductive FieldKind where
  | string
  | integer
  | float
  | boolean
  | literal
  | name
  | autocomplete
  | latLon
deriving DecidableEq, Repr, Inhabited

namespace FieldKind

def all : List FieldKind :=
  [string, integer, float, boolean, literal, name, autocomplete, latLon]

/-- The word for the kind in a catalog. -/
def word : FieldKind → String
  | string => "string"
  | integer => "integer"
  | float => "float"
  | boolean => "boolean"
  | literal => "literal"
  | name => "name"
  | autocomplete => "autocomplete"
  | latLon => "lat_lon"

def ofWord? (s : String) : Option FieldKind :=
  all.find? fun kind => kind.word == s

/-- Numeric fields can be aggregated. -/
def isNumeric : FieldKind → Bool
  | integer | float => true
  | _ => false

/-- A text with commas on a field of such a kind is a list of values. -/
def isListed : FieldKind → Bool
  | string | integer => true
  | _ => false

theorem ofWord?_word (kind : FieldKind) : ofWord? kind.word = some kind := by
  cases kind <;> decide +kernel

end FieldKind

end FlatQuery
