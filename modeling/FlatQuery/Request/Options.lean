import FlatQuery.Request.Rejection

/-!
# Options of a request

The parts of a request that are no conditions on fields: which page, which fields, in which order,
and in which form the answer is wanted.
-/

namespace FlatQuery

/-- What else than documents a request can ask for. -/
inductive Command where
  /-- Statistics of numeric fields. -/
  | stats
deriving DecidableEq, Repr

namespace Command

def word : Command → String
  | stats => "stats"

def read (s : String) : Except Rejection Command :=
  if s = "stats" then .ok stats else .error (.unknownCommand s)

end Command

/-- Which of the values in the subdocuments of a document decides its place in the order. -/
inductive SortMode where
  /-- The least value in an ascending order, the greatest in a descending one. -/
  | byDirection
  | min
  | max
  | avg
  | sum
  | median
deriving DecidableEq, Repr, Inhabited

namespace SortMode

def word : SortMode → String
  | byDirection => "direction"
  | min => "min"
  | max => "max"
  | avg => "avg"
  | sum => "sum"
  | median => "median"

def read (s : String) : Except Rejection SortMode :=
  match [byDirection, min, max, avg, sum, median].find? fun mode => mode.word == s with
  | some mode => .ok mode
  | none => .error (.unknownSortMode s)

/-- The mode once the direction is known. -/
def resolve (mode : SortMode) (descending : Bool) : SortMode :=
  match mode with
  | byDirection => if descending then max else min
  | mode => mode

end SortMode

structure Options where
  page : Nat := 0
  perPage : Option Nat := none
  fields : List String := []
  sort : Option String := none
  command : Option Command := none
  /-- The statistics to keep; none named keeps all. -/
  metrics : List String := []
  zip : Option String := none
  distance : Option String := none
  /-- Conditions on nested fields are put on the whole document. -/
  allPrograms : Bool := false
  /-- Nested fields come back within the document, not as matching subdocuments. -/
  allProgramsNested : Bool := false
  /-- Keys of the answer are nested, not dotted. -/
  keysNested : Bool := false
  debug : Bool := false
  nestedSortMode : Option SortMode := none
deriving DecidableEq, Repr, Inhabited

/-! ## Pages -/

/-- The window of the result list that a page is. -/
structure Paging where
  page : Nat
  size : Nat
  /-- The number of results before the window. -/
  start : Nat
deriving DecidableEq, Repr

/-- The most results on one page. -/
def maxPageSize : Nat := 100

/-- Counts are words of 64 bits, and products of them stop at the greatest. -/
def maxCount : Nat := 0xFFFFFFFFFFFFFFFF

def Options.paging (options : Options) (defaultSize : Nat) : Paging :=
  let size := min (options.perPage.getD defaultSize) maxPageSize
  { page := options.page, size, start := min (options.page * size) maxCount }

end FlatQuery
