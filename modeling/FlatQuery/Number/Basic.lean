import FlatQuery.Number.Shortest

/-!
# Numbers

A number is an integer of 64 bits, signed or unsigned, or a finite double. The two kinds are told
apart: `1` and `1.0` are different numbers.
-/

namespace FlatQuery

inductive Number where
  | int (n : Int)
  | double (d : Double)
deriving DecidableEq, Repr, Inhabited

namespace Number

/-- Integers that a signed word of 64 bits holds. -/
def FitsSigned (n : Int) : Prop := -0x8000000000000000 ≤ n ∧ n < 0x8000000000000000

/-- Natural numbers that an unsigned word of 64 bits holds. -/
def FitsUnsigned (n : Int) : Prop := 0 ≤ n ∧ n < 0x10000000000000000

instance (n : Int) : Decidable (FitsSigned n) := inferInstanceAs (Decidable (_ ∧ _))

instance (n : Int) : Decidable (FitsUnsigned n) := inferInstanceAs (Decidable (_ ∧ _))

/-- Doubles from 10^-5 up to 10^16 are written without an exponent, and whole ones end in `.0`. -/
def doubleFormat : Double.Format :=
  { positional := fun e => -5 ≤ e && e < 16, wholeMark := ".0" }

def text : Number → String
  | int n => toString n
  | double d => d.text doubleFormat

/-- The number as a double; a large integer is rounded. -/
def toDouble : Number → Double
  | int n => Double.ofInt n
  | double d => d

/-- The number as a count, if it is an integer and not negative. -/
def toNat? : Number → Option Nat
  | int n => if FitsUnsigned n then some n.toNat else none
  | double _ => none

end Number

end FlatQuery
