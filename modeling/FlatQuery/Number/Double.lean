/-!
# Finite doubles

A finite IEEE 754 number of 64 bits, kept as its sign and its rank among the magnitudes. All
arithmetic on it is exact arithmetic on natural numbers with one rounding at the end, to the nearest
double and on a tie to the even one.
-/

namespace FlatQuery

/-- The number of magnitudes in a binade, 2^52. -/
abbrev Double.steps : Nat := 0x10000000000000

/-- The number of finite magnitudes, in 2047 binades. -/
abbrev Double.ranks : Nat := 2047 * Double.steps

/-- A finite double. Its magnitude is the one with `rank` smaller magnitudes below it. -/
structure Double where
  negative : Bool
  rank : Nat
  rank_lt : rank < Double.ranks := by decide
deriving DecidableEq, Repr

namespace Double

def zero : Double := { negative := false, rank := 0 }

instance : Inhabited Double := ⟨zero⟩

/-- The magnitude is `mantissa * 2 ^ exponent`. -/
def mantissa (d : Double) : Nat :=
  if d.rank < steps then d.rank else d.rank % steps + steps

def exponent (d : Double) : Int :=
  if d.rank < steps then -1074 else (d.rank / steps : Nat) - 1075

/-- The magnitude as a quotient. -/
def numerator (d : Double) : Nat :=
  d.mantissa * Nat.pow 2 d.exponent.toNat

def denominator (d : Double) : Nat :=
  Nat.pow 2 (-d.exponent).toNat

def neg (d : Double) : Double :=
  { d with negative := !d.negative }

def abs (d : Double) : Double :=
  { d with negative := false }

/-! ## Rounding -/

/-- The natural number nearest to `num / den`, on a tie the even one. -/
def nearest (num den : Nat) : Nat :=
  let q := num / den
  let twice := 2 * (num % den)
  if twice < den then q
  else if den < twice then q + 1
  else q + q % 2

/-- `num / den / base ^ k` as a quotient. -/
def scaleDown (base num den : Nat) (k : Int) : Nat × Nat :=
  (num * base.pow (-k).toNat, den * base.pow k.toNat)

/-- The exponent of the binade that holds `num / den`, at least that of the smallest doubles. -/
def binade (num den : Nat) : Int :=
  let guess : Int := num.log2 - den.log2 - 52
  let (n, d) := scaleDown 2 num den guess
  max (-1074) (if n < steps * d then guess - 1 else guess)

/-- The double nearest to `num / den`, with the given sign; `none` if that is beyond the largest
finite one. -/
def ofQuotient? (negative : Bool) (num den : Nat) : Option Double :=
  if num = 0 then some { zero with negative }
  else
    let e := binade num den
    let (n, d) := scaleDown 2 num den e
    let rank := (e + 1074).toNat * steps + nearest n d
    if h : rank < ranks then some ⟨negative, rank, h⟩ else none

/-- The double nearest to `digits * 10 ^ k`. Exponents far outside the range of doubles are settled
without computing the power. -/
def ofDecimal? (negative : Bool) (digits : Nat) (k : Int) : Option Double :=
  let size : Int := (Nat.toDigits 10 digits).length + k
  if digits = 0 ∨ size < -400 then some { zero with negative }
  else if 400 < size then none
  else
    let (n, d) := scaleDown 10 digits 1 (-k)
    ofQuotient? negative n d

/-- The double nearest to an integer; integers beyond the doubles do not occur here. -/
def ofInt (n : Int) : Double :=
  (ofQuotient? (n < 0) n.natAbs 1).getD zero

def times? (a b : Double) : Option Double :=
  ofQuotient? (a.negative != b.negative) (a.numerator * b.numerator) (a.denominator * b.denominator)

/-- The nearest double to `a / b`, for `b` other than zero. -/
def over? (a b : Double) : Option Double :=
  ofQuotient? (a.negative != b.negative) (a.numerator * b.denominator) (a.denominator * b.numerator)

end Double

end FlatQuery
