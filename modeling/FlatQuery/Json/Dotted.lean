import FlatQuery.Json.Basic
import FlatQuery.Text.Split

/-!
# Dotted keys

An object has two forms: a hierarchy of objects, and one flat dictionary in which a key is the path
to a value, `a.b.c`. `flatten` makes the flat form and leaves arrays as they are, `nest` makes the
hierarchy, in arrays too. A value whose path is taken by another keeps its whole key at the top.
-/

namespace FlatQuery.Json

/-! ## The flat form -/

mutual

/-- The values below `path`, each with its whole path. Empty objects are values. -/
def flattenAt (path : String) : Json → List (String × Json)
  | .obj [] => [(path, .obj [])]
  | .obj (m :: ms) => flattenMembers path (m :: ms)
  | .null => [(path, .null)]
  | .bool b => [(path, .bool b)]
  | .num n => [(path, .num n)]
  | .str s => [(path, .str s)]
  | .arr items => [(path, .arr items)]
termination_by structural v => v

def flattenMembers (path : String) : List (String × Json) → List (String × Json)
  | [] => []
  | (key, v) :: ms => flattenAt (path ++ "." ++ key) v ++ flattenMembers path ms
termination_by structural ms => ms

end

/-- The flat form of an object; anything else has no keys. -/
def flatten : Json → Dict Json
  | .obj members => Dict.ofList (members.flatMap fun m => flattenAt m.1 m.2)
  | _ => []

/-! ## The hierarchy -/

/-- Puts a value at the end of a path. Where no object stands on the way an empty one is made first.
If the path or its end is taken the value is handed back, beside the object as it is then. -/
def putAt (value : Json) : List String → Dict Json → Dict Json × Option Json
  | [], d => (d, some value)
  | [key], d => if d.contains key then (d, some value) else (d.insert key value, none)
  | head :: rest, d =>
    let opened := if d.contains head then d else d.insert head (.obj [])
    match opened.find? head with
    | some (.obj members) =>
      let (child, back) := putAt value rest members
      (opened.insert head (.obj child), back)
    | _ => (opened, some value)

/-- Puts a value at the path that its key spells. If the path is taken the key stays whole; a key
without a dot has no other place, so its value is lost. -/
def placeEntry (d : Dict Json) (entry : String × Json) : Dict Json :=
  match putAt entry.2 (Text.splitOn entry.1 '.') d with
  | (placed, none) => placed
  | (left, some value) => if entry.1.toList.contains '.' then left.insert entry.1 value else left

def placeAll (entries : List (String × Json)) : Dict Json :=
  entries.foldl placeEntry []

mutual

/-- Nests the objects in a value. -/
def nestValue : Json → Json
  | .obj members => .obj (placeAll (nestMembers members))
  | .arr items => .arr (nestItems items)
  | .null => .null
  | .bool b => .bool b
  | .num n => .num n
  | .str s => .str s
termination_by structural v => v

def nestItems : List Json → List Json
  | [] => []
  | v :: vs => nestValue v :: nestItems vs
termination_by structural vs => vs

def nestMembers : List (String × Json) → List (String × Json)
  | [] => []
  | (key, v) :: ms => (key, nestValue v) :: nestMembers ms
termination_by structural ms => ms

end

/-- The hierarchy of a flat dictionary. -/
def nest (flat : Dict Json) : Dict Json :=
  placeAll (nestMembers flat)

end FlatQuery.Json
