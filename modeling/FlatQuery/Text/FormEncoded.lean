import FlatQuery.Text.Utf8

/-!
# Form-encoded query strings

A query string is a sequence of `name=value` parts joined by `&`. In names and values a plus stands
for a space and `%` with two hexadecimal digits for a byte; the bytes are read as UTF-8. Empty parts
are skipped, and a part without `=` is a name with the empty value.
-/

namespace FlatQuery.Text.FormEncoded

def hexValue? (b : UInt8) : Option UInt8 :=
  if 48 ≤ b ∧ b ≤ 57 then some (b - 48)
  else if 97 ≤ b ∧ b ≤ 102 then some (b - 87)
  else if 65 ≤ b ∧ b ≤ 70 then some (b - 55)
  else none

def plusToSpace (bytes : List UInt8) : List UInt8 :=
  bytes.map fun b => if b = 43 then 32 else b

/-- Replaces `%` and two hexadecimal digits by their byte; any other `%` stays. -/
def percentDecode : List UInt8 → List UInt8
  | 37 :: a :: b :: rest =>
    match hexValue? a, hexValue? b with
    | some x, some y => (x * 16 + y) :: percentDecode rest
    | _, _ => 37 :: percentDecode (a :: b :: rest)
  | b :: rest => b :: percentDecode rest
  | [] => []

def decodeText (bytes : List UInt8) : String :=
  Utf8.decode (percentDecode (plusToSpace bytes))

/-- The parts between the ampersands. -/
def parts : List UInt8 → List (List UInt8)
  | [] => [[]]
  | b :: bs =>
    let rest := parts bs
    if b = 38 then [] :: rest else (b :: rest.headD []) :: rest.tail

/-- Name and value of one part, cut at the first equals sign. -/
def pair (part : List UInt8) : String × String :=
  (decodeText (part.takeWhile (· != 61)), decodeText ((part.dropWhile (· != 61)).drop 1))

/-- The pairs of a query string, in order. -/
def pairs (query : String) : List (String × String) :=
  ((parts (Utf8.encode query.toList)).filter (!·.isEmpty)).map pair

end FlatQuery.Text.FormEncoded
