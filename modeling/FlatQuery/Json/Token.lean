import FlatQuery.Number.Literal

/-!
# Tokens of a JSON text

A text is first cut into tokens. Where it cannot be, it ends in the token `bad`. A string whose
escapes hold an unpaired surrogate is a token without a value: it may be passed over but not read.
-/

namespace FlatQuery.Json

inductive Token where
  | openObject
  | closeObject
  | openArray
  | closeArray
  | colon
  | comma
  | null
  | bool (b : Bool)
  | num (literal : Number.Literal)
  | str (value : Option String)
  | bad
deriving DecidableEq, Repr

namespace Token

/-! ## Strings -/

def hexValue? (c : Char) : Option Nat :=
  if c.isDigit then some (c.toNat - 48)
  else if 'a' ≤ c ∧ c ≤ 'f' then some (c.toNat - 87)
  else if 'A' ≤ c ∧ c ≤ 'F' then some (c.toNat - 55)
  else none

def hexUnit? (a b c d : Char) : Option Nat := do
  some ((((← hexValue? a) * 16 + (← hexValue? b)) * 16 + (← hexValue? c)) * 16 + (← hexValue? d))

/-- The character that a backslash and a letter stand for. -/
def escaped? (c : Char) : Option Nat :=
  match c with
  | '"' | '\\' | '/' => some c.toNat
  | 'b' => some 8
  | 'f' => some 12
  | 'n' => some 10
  | 'r' => some 13
  | 't' => some 9
  | _ => none

/-- Reads up to the closing quote: the code points and surrogates of the string, and the rest. -/
def scanString : List Char → Option (List Nat × List Char)
  | [] => none
  | '"' :: cs => some ([], cs)
  | '\\' :: 'u' :: a :: b :: c :: d :: cs => do
    let n ← hexUnit? a b c d
    let (units, rest) ← scanString cs
    some (n :: units, rest)
  | '\\' :: e :: cs => do
    let n ← escaped? e
    let (units, rest) ← scanString cs
    some (n :: units, rest)
  | c :: cs => do
    guard (0x20 ≤ c.toNat ∧ c ≠ '\\')
    let (units, rest) ← scanString cs
    some (c.toNat :: units, rest)

/-- Joins the pairs of surrogates; `none` if one stands alone. -/
def joinSurrogates? : List Nat → Option (List Char)
  | [] => some []
  | n :: units =>
    if n < 0xD800 ∨ 0xDFFF < n then (joinSurrogates? units).map (Char.ofNat n :: ·)
    else if 0xDC00 ≤ n then none
    else
      match units with
      | low :: units =>
        if 0xDC00 ≤ low ∧ low ≤ 0xDFFF then
          (joinSurrogates? units).map
            (Char.ofNat (0x10000 + (n - 0xD800) * 0x400 + (low - 0xDC00)) :: ·)
        else none
      | [] => none

/-! ## Numbers -/

/-- Takes the digits off the front; there has to be one. -/
def takeDigits? (cs : List Char) : Option (List Char × List Char) :=
  let digits := cs.takeWhile Char.isDigit
  if digits.isEmpty then none else some (digits, cs.dropWhile Char.isDigit)

def scanFraction? : List Char → Option (Option (List Char) × List Char)
  | '.' :: cs => do
    let (digits, rest) ← takeDigits? cs
    some (some digits, rest)
  | cs => some (none, cs)

def scanExponent? : List Char → Option (Option Int × List Char)
  | c :: cs =>
    if c = 'e' ∨ c = 'E' then do
      let (negative, cs) := Number.takeSign cs
      let (digits, rest) ← takeDigits? cs
      let n : Int := Number.ofDigits digits
      some (some (if negative then -n else n), rest)
    else some (none, c :: cs)
  | [] => some (none, [])

/-- A number; its whole part has no leading zero. -/
def scanNumber? (negative : Bool) (cs : List Char) : Option (Number.Literal × List Char) := do
  let (whole, cs) ← takeDigits? cs
  guard (whole.head? ≠ some '0' ∨ whole.length = 1)
  let (fraction, cs) ← scanFraction? cs
  let (exponent, cs) ← scanExponent? cs
  some (⟨negative, whole, fraction, exponent⟩, cs)

/-! ## Texts -/

def isSpace (c : Char) : Bool :=
  c = ' ' || c = '\t' || c = '\n' || c = '\r'

/-- The token at the front of a text that does not begin with a space. -/
def next : List Char → Token × List Char
  | '\x7b' :: cs => (.openObject, cs)
  | '\x7d' :: cs => (.closeObject, cs)
  | '[' :: cs => (.openArray, cs)
  | ']' :: cs => (.closeArray, cs)
  | ':' :: cs => (.colon, cs)
  | ',' :: cs => (.comma, cs)
  | 'n' :: 'u' :: 'l' :: 'l' :: cs => (.null, cs)
  | 't' :: 'r' :: 'u' :: 'e' :: cs => (.bool true, cs)
  | 'f' :: 'a' :: 'l' :: 's' :: 'e' :: cs => (.bool false, cs)
  | '"' :: cs =>
    match scanString cs with
    | some (units, rest) => (.str ((joinSurrogates? units).map String.ofList), rest)
    | none => (.bad, [])
  | '-' :: cs =>
    match scanNumber? true cs with
    | some (literal, rest) => (.num literal, rest)
    | none => (.bad, [])
  | cs =>
    match scanNumber? false cs with
    | some (literal, rest) => (.num literal, rest)
    | none => (.bad, [])

/-- The tokens of a text. A token takes at least one character, so the length bounds the steps. -/
def scan : (fuel : Nat) → List Char → List Token
  | 0, _ => []
  | fuel + 1, cs =>
    match cs.dropWhile isSpace with
    | [] => []
    | c :: cs =>
      let (token, rest) := next (c :: cs)
      token :: scan fuel rest

def ofText (text : String) : List Token :=
  scan text.length text.toList

end Token

end FlatQuery.Json
