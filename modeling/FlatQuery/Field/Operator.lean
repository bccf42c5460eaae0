import FlatQuery.Text.Split
import FlatQuery.Text.Utf8

/-!
# Operators on fields

A parameter names a field and may add an operator to it, after two underscores: `size__range`.
`baseField` leaves the operator out, and `Operator.split` takes the two apart: the operator is what
stands two bytes after the field.
-/

namespace FlatQuery

inductive Operator where
  | range
  | not
  | ne
deriving DecidableEq, Repr

namespace Operator

def all : List Operator :=
  [range, not, ne]

def word : Operator → String
  | range => "range"
  | not => "not"
  | ne => "ne"

def ofWord? (s : String) : Option Operator :=
  all.find? fun op => op.word == s

/-- Both words for inequality mean the same. -/
def isNegation : Operator → Bool
  | not | ne => true
  | range => false

/-- The words that may follow a field. -/
def words : List String :=
  ["range", "not", "ne"]

end Operator

/-- The field that a parameter names, without its operator. What follows the last two underscores is
an operator if it is one of their words and a field is left before it. -/
def baseField (path : String) : String :=
  match Text.cutLastPair '_' path.toList with
  | some (field, word) =>
    if Operator.words.contains (String.ofList word) && !field.isEmpty then String.ofList field
    else path
  | none => path

/-- The field and the operator that a parameter names. -/
def Operator.split (path : String) : String × Option Operator :=
  let field := baseField path
  let word := Text.Utf8.dropBytes? ((Text.Utf8.encode field.toList).length + 2) path.toList
  (field, word.bind fun word => ofWord? (String.ofList word))

theorem Operator.split_fst (path : String) : (split path).1 = baseField path := rfl

end FlatQuery
