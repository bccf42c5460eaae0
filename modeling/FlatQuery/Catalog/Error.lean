/-!
# Errors of catalogs

Why a catalog cannot be used. The message names the file, the field or the path at fault.
-/

namespace FlatQuery

inductive CatalogError where
  /-- The file could not be read. -/
  | unreadable (file reason : String)
  /-- The text is not JSON or does not have the shape of a catalog. -/
  | malformed (file : String)
  | unknownKind (field kind : String)
  | badNestedPath (path : String)
  | repeatedNestedPath (path : String)
deriving DecidableEq, Repr

namespace CatalogError

def message : CatalogError → String
  | unreadable file reason => s!"Failed to read catalog {file}: {reason}"
  | malformed file => s!"Malformed catalog {file}: Invalid JSON: not a catalog"
  | unknownKind field kind => s!"Unknown field type '{kind}' for field '{field}'"
  | badNestedPath path => s!"Invalid nested path '{path}'"
  | repeatedNestedPath path => s!"Duplicate nested path '{path}'"

end CatalogError

end FlatQuery
