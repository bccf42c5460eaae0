import FlatQuery.Query.Condition
import FlatQuery.Query.Interval
import FlatQuery.Text.Lowercase

/-!
# Terms

A term is one condition in the form in which it is searched. `Condition.term` builds it for a field
of a subdocument, `Condition.standardTerm` for a field of the document itself, where names and
autocomplete fields have searches of their own. A distance makes one more term.
-/

namespace FlatQuery

inductive Term where
  | equals (field : String) (value : Json)
  | oneOf (field : String) (values : List Json)
  /-- A number in one of the intervals. -/
  | inRange (field : String) (intervals : List Interval)
  | negation (inner : Term)
  /-- A name with words that begin as the words of the pattern. -/
  | wildcard (field pattern : String)
  /-- A text with the words of the query. -/
  | common (field query : String)
  | near (field : String) (point : GeoPoint) (distance : String)
deriving DecidableEq, Repr

namespace Term

def field : Term → String
  | equals field _ | oneOf field _ | inRange field _ | wildcard field _ | common field _
  | near field _ _ => field
  | negation inner => inner.field

inductive Kind where
  | equals
  | oneOf
  | inRange
  | negation
  | wildcard
  | common
  | near
deriving DecidableEq, Repr

def kind : Term → Kind
  | equals .. => .equals
  | oneOf .. => .oneOf
  | inRange .. => .inRange
  | negation _ => .negation
  | wildcard .. => .wildcard
  | common .. => .common
  | near .. => .near

def isNegation : Term → Bool
  | negation _ => true
  | _ => false

/-- Within a subdocument, ranges and lists, negated lists too, need a filter. -/
def needsFilter : Term → Bool
  | oneOf .. | inRange .. | negation (oneOf ..) => true
  | _ => false

/-- The term in one line. -/
def describe : Term → String
  | equals field value => s!"{field} = {value.text}"
  | oneOf field values => s!"{field} IN {(Json.arr values).text}"
  | inRange field intervals =>
    field ++ " IN RANGE " ++ " OR ".intercalate (intervals.map Interval.text)
  | negation inner => s!"NOT ({inner.describe})"
  | wildcard field pattern => s!"_{field} LIKE '{pattern}'"
  | common field query => s!"{field} ~ '{query}'"
  | near field point distance =>
    let lat := point.lat.text Double.coordinate
    let lon := point.lon.text Double.coordinate
    s!"{field} WITHIN {distance} OF ({lat}, {lon})"

end Term

/-! ## Terms of conditions -/

/-- The intervals of a text, between its commas. -/
def intervalsOf (path text : String) : Except Rejection (List Interval) :=
  ((Text.splitOn text ',').filter fun piece => !(Text.trim piece).isEmpty).mapM
    (Interval.read path)

def Operand.equality (field : String) : Operand → Term
  | scalar value => .equals field value
  | list values => .oneOf field values

namespace Condition

def term (condition : Condition) : Except Rejection Term :=
  match condition.operator with
  | some .range => do
    let intervals ← condition.operand.texts.mapM (intervalsOf condition.path)
    if intervals.flatten.isEmpty then .error (.emptyRange condition.path)
    else .ok (.inRange condition.field intervals.flatten)
  | some .not | some .ne => .ok (.negation (condition.operand.equality condition.field))
  | none => .ok (condition.operand.equality condition.field)

/-- The words of a text in lower case, each open at its end. -/
def wordPattern (text : String) : String :=
  Text.lowercase (" ".intercalate ((Text.words text).map (· ++ "*")))

def standardTerm (condition : Condition) : Except Rejection Term :=
  let text := " ".intercalate condition.operand.texts
  match condition.kind with
  | .name => .ok (.wildcard condition.field (wordPattern text))
  | .autocomplete => .ok (.common condition.field text)
  | _ => condition.term

end Condition

/-! ## Distances -/

/-- A distance without a unit counts miles. -/
def withUnit (distance : String) : String :=
  if distance.endsWith "km" || distance.endsWith "mi" then distance else distance ++ "mi"

/-- The term for the distance of a request, if it has one. -/
def nearTerm? (c : Catalog) (options : Options) : Except Rejection (Option Term) :=
  let distance := Text.trim (options.distance.getD "")
  if distance.isEmpty then .ok none
  else
    let zip := Text.trim (options.zip.getD "")
    match c.location? zip with
    | some point => .ok (some (.near c.locationField point (withUnit distance)))
    | none => .error (if zip.isEmpty then .missingZip else .unknownZip zip)

/-- The terms for the conditions on the document itself, the distance last. -/
def standardTerms (c : Catalog) (options : Options) (conditions : List Condition) :
    Except Rejection (List Term) := do
  let terms ← conditions.mapM Condition.standardTerm
  let near ← nearTerm? c options
  .ok (terms ++ near.toList)

end FlatQuery
