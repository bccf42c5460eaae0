import FlatQuery.Text.CaseTable
import FlatQuery.Text.WordChar

/-!
# Lower case

The full lower-case mapping of Unicode. Two characters need more than a table: capital I with a dot
becomes two characters, and a capital sigma becomes a final sigma at the end of a word.
-/

namespace FlatQuery.Text

/-- Whether the first character that case rules do not look through is cased. -/
def meetsCased (cs : List Char) : Bool :=
  match cs.dropWhile fun c => inRanges CaseTable.ignorable c.toNat with
  | [] => false
  | c :: _ => inRanges CaseTable.cased c.toNat

def lowerChar (c : Char) : Char :=
  if c.toNat < 0x80 then c.toLower
  else ((CaseTable.runs.findSome? fun run => run.lower? c.toNat).map Char.ofNat).getD c

/-- The lower-case form of a list of characters; `before` are those already passed, nearest first. -/
def lowerFrom (before : List Char) : List Char → List Char
  | [] => []
  | c :: cs =>
    let image :=
      if c = 'Σ' then (if meetsCased before && !meetsCased cs then ['ς'] else ['σ'])
      else if c = 'İ' then ['i', Char.ofNat 0x307]
      else [lowerChar c]
    image ++ lowerFrom (c :: before) cs

def lowercase (s : String) : String :=
  String.ofList (lowerFrom [] s.toList)

end FlatQuery.Text
