import FlatQuery.Number.Basic

/-!
# Number literals

Two readers of numbers in text. `readInt?`, `readCount?` and `readDecimal?` read the numbers of
request parameters, each exactly. `Literal` is the number literal of a JSON text; its value is found
in two roundings, of its leading digits and of their product with a power of ten.
-/

namespace FlatQuery.Number

/-! ## Digits -/

def digitValue (c : Char) : Nat := c.toNat - 48

def ofDigits (cs : List Char) : Nat :=
  cs.foldl (fun n c => n * 10 + digitValue c) 0

/-- The value of a non-empty list of ASCII digits. -/
def readDigits? (cs : List Char) : Option Nat :=
  if !cs.isEmpty && cs.all Char.isDigit then some (ofDigits cs) else none

/-- Takes one plus or minus off the front; `true` is a minus. -/
def takeSign : List Char → Bool × List Char
  | '-' :: cs => (true, cs)
  | '+' :: cs => (false, cs)
  | cs => (false, cs)

/-! ## Numbers in parameters -/

/-- A signed integer of 64 bits: an optional sign and digits. -/
def readInt? (text : String) : Option Int := do
  let (negative, cs) := takeSign text.toList
  let n ← readDigits? cs
  let n : Int := if negative then -n else n
  if FitsSigned n then some n else none

/-- An unsigned integer of 64 bits: an optional plus and digits. -/
def readCount? (text : String) : Option Nat := do
  let (negative, cs) := takeSign text.toList
  let n ← if negative then none else readDigits? cs
  if FitsUnsigned n then some n else none

/-- An exponent part: empty, or `e`, an optional sign and digits. -/
def readExponent? : List Char → Option Int
  | [] => some 0
  | c :: cs => do
    guard (c = 'e' ∨ c = 'E')
    let (negative, ds) := takeSign cs
    let n ← readDigits? ds
    some (if negative then -n else n)

/-- The finite double nearest to a decimal fraction: an optional sign, digits with a point among,
before or after them, and an optional exponent. -/
def readDecimal? (text : String) : Option Double := do
  let (negative, cs) := takeSign text.toList
  let whole := cs.takeWhile Char.isDigit
  match cs.dropWhile Char.isDigit with
  | '.' :: rest =>
    let fraction := rest.takeWhile Char.isDigit
    guard (!(whole ++ fraction).isEmpty)
    let e ← readExponent? (rest.dropWhile Char.isDigit)
    Double.ofDecimal? negative (ofDigits (whole ++ fraction)) (e - fraction.length)
  | _ => none

/-! ## Literals of JSON texts -/

/-- A number as a JSON text spells it. The fraction and the exponent are absent, not empty, where
the text has none. -/
structure Literal where
  negative : Bool
  whole : List Char
  fraction : Option (List Char)
  exponent : Option Int
deriving DecidableEq, Repr

namespace Literal

/-- Takes digits into `significand` as long as it fits 64 bits; the rest is left. -/
def gather : Nat → List Char → Nat × List Char
  | significand, [] => (significand, [])
  | significand, c :: cs =>
    let next := significand * 10 + digitValue c
    if next < 0x10000000000000000 then gather next cs else (significand, c :: cs)

/-- The largest power of ten used in one step of scaling. -/
abbrev maxPower : Nat := 308

def power (k : Nat) : Double :=
  (Double.ofDecimal? false 1 k).getD Double.zero

/-- `d * 10 ^ e`, rounded once for each power of ten that it takes; `none` if it is too large. -/
def scale (d : Double) (e : Int) : (fuel : Nat) → Option Double
  | 0 => some Double.zero
  | fuel + 1 =>
    if e.natAbs ≤ maxPower then
      if 0 ≤ e then d.times? (power e.natAbs) else d.over? (power e.natAbs)
    else if d.rank = 0 then some d
    else if 0 ≤ e then none
    else (d.over? (power maxPower)).bind fun d => scale d (e + maxPower) fuel

/-- The double that a significand and a power of ten make. After three steps of scaling down
nothing is left of any significand of 64 bits. -/
def compose (negative : Bool) (significand : Nat) (e : Int) : Option Double :=
  (scale (Double.ofInt significand) e 4).map fun d => if negative then d.neg else d

/-- The number that a literal stands for; `none` if it is too large. An integer literal that fits
64 bits is an integer, except `-0`. -/
def value? (lit : Literal) : Option Number :=
  let (leading, skipped) := gather 0 lit.whole
  match lit.fraction, lit.exponent with
  | none, none =>
    if skipped.isEmpty then
      let n : Int := if lit.negative then -leading else leading
      if (lit.negative ∧ leading = 0) ∨ n < -0x8000000000000000 then
        (compose lit.negative leading 0).map .double
      else some (.int n)
    else (compose lit.negative leading skipped.length).map .double
  | fraction, exponent =>
    let digits := fraction.getD []
    let (significand, unread) := gather leading digits
    let places : Int := digits.length - unread.length
    let e : Int := skipped.length - places + exponent.getD 0
    (compose lit.negative significand e).map .double

end Literal

end FlatQuery.Number
