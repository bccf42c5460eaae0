import FlatQuery.Json.Basic
import FlatQuery.Number.Literal
import FlatQuery.Request.Rejection
import FlatQuery.Text.Blank

/-!
# Intervals

An interval of numbers is written `a..b`, `a..`, `..b`, or `a` for all numbers from `a` on. An end
with a point in it is a decimal fraction, any other end an integer.
-/

namespace FlatQuery

/-- The numbers between two ends, both included. An end that is absent bounds nothing. -/
structure Interval where
  least : Option Number
  greatest : Option Number
deriving DecidableEq, Repr

namespace Interval

/-- An end of an interval, absent where the text is empty. Errors name the parameter `path`. -/
def readEnd (path text : String) : Except Rejection (Option Number) :=
  if text.isEmpty then .ok none
  else
    let value :=
      if text.toList.contains '.' then (Number.readDecimal? text).map .double
      else (Number.readInt? text).map .int
    match value with
    | some n => .ok (some n)
    | none => .error (.notNumeric path text)

/-- The texts of the two ends. -/
def ends (text : String) : String × String :=
  match Text.cutPair '.' text.toList with
  | some (a, b) => (Text.trim (String.ofList a), Text.trim (String.ofList b))
  | none => (Text.trim text, "")

def read (path text : String) : Except Rejection Interval := do
  let (a, b) := ends text
  let least ← readEnd path a
  let greatest ← readEnd path b
  if least.isNone && greatest.isNone then .error (.noBoundaries path text)
  else .ok { least, greatest }

def members (key : String) : Option Number → List (String × Json)
  | none => []
  | some n => [(key, .num n)]

def toJson (i : Interval) : Json :=
  .obj (members "gte" i.least ++ members "lte" i.greatest)

def endText (bound : Option Number) : String :=
  (bound.map Number.text).getD ""

def text (i : Interval) : String :=
  endText i.least ++ ".." ++ endText i.greatest

end Interval

end FlatQuery
