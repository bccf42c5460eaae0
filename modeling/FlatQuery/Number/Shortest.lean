import FlatQuery.Number.Double

/-!
# Shortest decimal text

The text of a double has the fewest decimal digits that read back as the same double, and of those
the digits nearest to it. How the digits are laid out is a choice of the format.
-/

namespace FlatQuery.Double

/-- The `e` with `10 ^ (e - 1) ≤ num / den < 10 ^ e`, for a positive quotient. -/
def decimalExponent (num den : Nat) : Int :=
  if den ≤ num then (Nat.toDigits 10 (num / den)).length
  else 1 - (Nat.toDigits 10 ((den - 1) / num)).length

/-- The nearest decimal with `count` digits that reads back as the magnitude of `d`, as digits and
the power of ten that they count. The two neighbours of `d` on the grid of such decimals are tried,
the nearer first and on a tie the even one. -/
def withDigits? (d : Double) (count : Nat) : Option (Nat × Int) :=
  let k := decimalExponent d.numerator d.denominator - count
  let (n, m) := scaleDown 10 d.numerator d.denominator k
  let low := n / m
  let near := nearest n m
  let far := if near = low then low + 1 else low
  [near, far].findSome? fun digits =>
    if ofDecimal? false digits k = some d.abs then some (digits, k) else none

/-- The fewest digits that read back as the magnitude of `d`; seventeen always do. -/
def shortest (d : Double) : Nat × Int :=
  ((List.range 17).findSome? fun i => withDigits? d (i + 1)).getD (0, 0)

/-- How the digits of a double are laid out. -/
structure Format where
  /-- Whether a number whose leading digit counts `10 ^ e` is written without an exponent. -/
  positional : Int → Bool
  /-- What follows a whole number that is written without an exponent. -/
  wholeMark : String

/-- Digits without trailing zeros, and the place of the decimal point counted from the first
digit. -/
def layout (digits : Nat) (k : Int) : List Char × Int :=
  let cs := Nat.toDigits 10 digits
  ((cs.reverse.dropWhile (· == '0')).reverse, cs.length + k)

def positionalText (format : Format) (cs : List Char) (point : Int) : String :=
  if point ≤ 0 then "0." ++ String.ofList (List.replicate (-point).toNat '0' ++ cs)
  else if (cs.length : Int) ≤ point then
    String.ofList (cs ++ List.replicate (point.toNat - cs.length) '0') ++ format.wholeMark
  else String.ofList (cs.take point.toNat) ++ "." ++ String.ofList (cs.drop point.toNat)

/-- Scientific notation, with a sign on every exponent. -/
def scientificText (cs : List Char) (point : Int) : String :=
  let fraction := if cs.length ≤ 1 then "" else "." ++ String.ofList (cs.drop 1)
  let e := point - 1
  String.ofList (cs.take 1) ++ fraction ++ "e" ++ (if e < 0 then "-" else "+") ++
    Nat.repr e.natAbs

def text (format : Format) (d : Double) : String :=
  let sign := if d.negative then "-" else ""
  if d.rank = 0 then sign ++ "0" ++ format.wholeMark
  else
    let (digits, k) := shortest d
    let (cs, point) := layout digits k
    sign ++
      (if format.positional (point - 1) then positionalText format cs point
       else scientificText cs point)

/-- Coordinates in running text are never written with an exponent. -/
def coordinate : Format := { positional := fun _ => true, wholeMark := "" }

end FlatQuery.Double
