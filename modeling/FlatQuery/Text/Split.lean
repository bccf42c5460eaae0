/-!
# Splitting text

Text is taken apart as a list of characters. `pieces` cuts at every character of a class, `cut` at
the first occurrence of a character, `cutPair` and `cutLastPair` at the first and the last place
where a character stands twice in a row. The functions on `String` wrap these.
-/

namespace FlatQuery.Text

/-- The stretches between the characters of the class `p`; there is always at least one. -/
def pieces (p : Char → Bool) : List Char → List (List Char)
  | [] => [[]]
  | c :: cs =>
    let rest := pieces p cs
    if p c then [] :: rest else (c :: rest.headD []) :: rest.tail

/-- What stands before and after the first `sep`. -/
def cut (sep : Char) : List Char → Option (List Char × List Char)
  | [] => none
  | c :: cs => if c = sep then some ([], cs) else (cut sep cs).map fun (a, b) => (c :: a, b)

/-- What stands before and after the first `sep sep`. -/
def cutPair (sep : Char) : List Char → Option (List Char × List Char)
  | [] => none
  | c :: cs =>
    if c = sep ∧ cs.head? = some sep then some ([], cs.tail)
    else (cutPair sep cs).map fun (a, b) => (c :: a, b)

/-- What stands before and after the last `sep sep`. -/
def cutLastPair (sep : Char) (cs : List Char) : Option (List Char × List Char) :=
  (cutPair sep cs.reverse).map fun (a, b) => (b.reverse, a.reverse)

/-- Drops the characters of the class `p` from both ends. -/
def strip (p : Char → Bool) (cs : List Char) : List Char :=
  ((cs.dropWhile p).reverse.dropWhile p).reverse

/-- The pieces of `s` between the occurrences of `sep`; there is always at least one. -/
def splitOn (s : String) (sep : Char) : List String :=
  (pieces (· == sep) s.toList).map String.ofList

def stripString (p : Char → Bool) (s : String) : String :=
  String.ofList (strip p s.toList)

/-- ASCII letters in lower case, all else unchanged. -/
def asciiLower (s : String) : String :=
  String.ofList (s.toList.map Char.toLower)

theorem pieces_ne_nil (p : Char → Bool) (cs : List Char) : pieces p cs ≠ [] := by
  cases cs with
  | nil => simp [pieces]
  | cons c cs => unfold pieces; split <;> simp

end FlatQuery.Text
