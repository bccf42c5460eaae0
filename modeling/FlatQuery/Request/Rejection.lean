/-!
# Rejections

Why a request is rejected before anything is searched. Each cause has its own constructor; the code,
the message and the field that it names follow from the cause.
-/

namespace FlatQuery

inductive Rejection where
  /-- A value of a list on an integer field is no integer. -/
  | notInteger (path text : String)
  /-- A range parameter without an interval. -/
  | emptyRange (path : String)
  /-- An interval open at both ends. -/
  | noBoundaries (path text : String)
  /-- An end of an interval that is no number. -/
  | notNumeric (path text : String)
  | notCount (option text : String)
  | notFlag (option text : String)
  | unknownCommand (word : String)
  | unknownSortMode (word : String)
  /-- A field put into the group of a nested path that does not own it. -/
  | foreignField (field expected found : String)
  | malformedSort (token spec : String)
  | unknownDirection (word field : String)
  /-- A distance without a zip code. -/
  | missingZip
  | unknownZip (zip : String)
deriving DecidableEq, Repr

namespace Rejection

/-- The stable name of the cause. -/
def code : Rejection → String
  | foreignField .. => "SEARCH_AMBIGUOUS_NESTED_PATH"
  | malformedSort .. | unknownDirection .. => "SEARCH_INVALID_SORT"
  | missingZip | unknownZip _ => "SEARCH_UNKNOWN_LOCATION"
  | _ => "SEARCH_INVALID_PARAMETER"

/-- The field at fault, where one is. -/
def field? : Rejection → Option String
  | notInteger path _ | emptyRange path | noBoundaries path _ | notNumeric path _ => some path
  | foreignField field _ _ => some field
  | missingZip | unknownZip _ => some "zip"
  | _ => none

def valueMessage (path reason : String) : String :=
  s!"Invalid value for '{path}': {reason}"

def optionMessage (option reason : String) : String :=
  s!"Invalid option '{option}': {reason}"

def message : Rejection → String
  | notInteger path text => valueMessage path s!"'{text}' is not an integer"
  | emptyRange path => valueMessage path "empty range"
  | noBoundaries path text => valueMessage path s!"range '{text}' has no boundaries"
  | notNumeric path text => valueMessage path s!"boundary '{text}' is not numeric"
  | notCount option text => optionMessage option s!"'{text}' is not a non-negative integer"
  | notFlag option text => optionMessage option s!"'{text}' is not a boolean"
  | unknownCommand word => optionMessage "command" s!"unknown command '{word}'"
  | unknownSortMode word => optionMessage "nested_sort_mode" s!"unknown mode '{word}'"
  | foreignField field expected found =>
    s!"Field '{field}' belongs to nested path '{found}', not '{expected}'"
  | malformedSort token spec => s!"Malformed sort token '{token}' in '{spec}'"
  | unknownDirection word field => s!"Unknown sort direction '{word}' for '{field}'"
  | missingZip => "Distance filter requires a zip code"
  | unknownZip zip => s!"Unknown zip code '{zip}'"

/-- The message with its code. -/
def display (r : Rejection) : String :=
  s!"[REJECT] {r.code}: {r.message}"

end Rejection

end FlatQuery
