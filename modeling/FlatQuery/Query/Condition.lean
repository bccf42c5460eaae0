import FlatQuery.Catalog.Basic
import FlatQuery.Json.Printer
import FlatQuery.Request.Basic

/-!
# Conditions

A condition is a parameter seen in the light of a catalog: its operator is split off, the kind and
the nested path of its field are known, and its value is read. `classify` puts the conditions on
nested fields into groups, one for each nested path, and leaves the others in one list. Both keep
the order of the parameters, and the groups stand in the order of their first conditions.
-/

namespace FlatQuery

/-- A value, or a list of values of which any will do. -/
inductive Operand where
  | scalar (value : Json)
  | list (values : List Json)
deriving DecidableEq, Repr

/-- A value in a text: a string is itself, anything else its JSON text. -/
def plainText : Json → String
  | .str s => s
  | value => value.text

def Operand.texts : Operand → List String
  | scalar value => [plainText value]
  | list values => values.map plainText

structure Condition where
  /-- The field as the parameter names it, with its operator. -/
  path : String
  field : String
  operator : Option Operator
  kind : FieldKind
  nestedPath : Option String
  operand : Operand
deriving DecidableEq, Repr

/-! ## Values -/

/-- Brackets and blank characters around the elements of a list do not count. -/
def trimElement (text : String) : String :=
  Text.stripString (fun c => c == '[' || c == ']' || Text.isBlank c) text

def readElement (path : String) (kind : FieldKind) (operator : Option Operator) (text : String) :
    Except Rejection Json :=
  let element := if kind.isListed then trimElement text else text
  if kind = .integer ∧ operator ≠ some .range then
    match Number.readInt? element with
    | some n => .ok (.num (.int n))
    | none => .error (.notInteger path element)
  else .ok (.str element)

/-- A text with commas on a string or integer field is a list, as is a field given several times.
The elements of a list on an integer field are integers, unless it is a list of ranges. -/
def readOperand (path : String) (kind : FieldKind) (operator : Option Operator) :
    ParamValue → Except Rejection Operand
  | .single text =>
    if kind.isListed ∧ text.toList.contains ',' then
      ((Text.splitOn text ',').mapM (readElement path kind operator)).map .list
    else .ok (.scalar (.str text))
  | .list texts => (texts.mapM (readElement path kind operator)).map .list

/-- The condition of a parameter. Where `flat` is set, nested paths are left out of account. -/
def Condition.ofParam (c : Catalog) (flat : Bool) (p : Param) : Except Rejection Condition := do
  let (field, operator) := Operator.split p.path
  let kind := c.kind field
  let operand ← readOperand p.path kind operator p.value
  .ok {
    path := p.path
    field, operator, kind, operand
    nestedPath := if flat then none else c.nestedPath? field }

/-! ## Groups -/

/-- The conditions of a request by their place. -/
structure Classified where
  standard : List Condition
  groups : List (String × List Condition)
deriving DecidableEq, Repr

/-- Adds a condition to the group of `path`, a new last group if there is none. -/
def addToGroup (path : String) (condition : Condition) :
    List (String × List Condition) → List (String × List Condition)
  | [] => [(path, [condition])]
  | (p, conditions) :: groups =>
    if p = path then (p, conditions ++ [condition]) :: groups
    else (p, conditions) :: addToGroup path condition groups

namespace Classified

def empty : Classified := ⟨[], []⟩

def add (classified : Classified) (condition : Condition) : Classified :=
  match condition.nestedPath with
  | none => { classified with standard := classified.standard ++ [condition] }
  | some path => { classified with groups := addToGroup path condition classified.groups }

/-- The number of conditions in groups. -/
def nestedCount (classified : Classified) : Nat :=
  (classified.groups.flatMap Prod.snd).length

end Classified

/-- The conditions of all parameters, or the rejection of the first one that cannot be read. -/
def classify (c : Catalog) (flat : Bool) (params : List Param) : Except Rejection Classified :=
  (params.mapM (Condition.ofParam c flat)).map fun conditions =>
    conditions.foldl Classified.add .empty

end FlatQuery
