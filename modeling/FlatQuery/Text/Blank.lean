import FlatQuery.Text.Split

/-!
# Blank characters

A character is blank if Unicode gives it the property White_Space. Texts are trimmed and cut into
words at blank characters.
-/

namespace FlatQuery.Text

def isBlank (c : Char) : Bool :=
  let n := c.toNat
  (0x09 ≤ n && n ≤ 0x0D) || n == 0x20 || n == 0x85 || n == 0xA0 || n == 0x1680 ||
    (0x2000 ≤ n && n ≤ 0x200A) || n == 0x2028 || n == 0x2029 || n == 0x202F || n == 0x205F ||
    n == 0x3000

/-- `s` without the blank characters at its ends. -/
def trim (s : String) : String :=
  stripString isBlank s

/-- The longest stretches of `s` without a blank character. -/
def words (s : String) : List String :=
  ((pieces isBlank s.toList).filter (!·.isEmpty)).map String.ofList

end FlatQuery.Text
