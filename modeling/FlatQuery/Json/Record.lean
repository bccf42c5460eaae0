import FlatQuery.Json.Basic

/-!
# Records in JSON values

A record is written as an object, whose other keys are passed over, or as an array of its fields in
order, of which trailing ones may be left out.
-/

namespace FlatQuery.Json

/-- The fields of a record with the given names, each present or absent. -/
def record? (names : List String) : Json → Option (List (Option Json))
  | .obj members => some (names.map fun name => Dict.find? members name)
  | .arr items =>
    if items.length ≤ names.length then
      some (items.map some ++ List.replicate (names.length - items.length) none)
    else none
  | _ => none

/-- A field that may be null or absent. -/
def optional? {α : Type} (f : Json → Option α) : Option Json → Option (Option α)
  | none | some .null => some none
  | some v => (f v).map some

/-- A field that has a value when it is absent; it may not be null. -/
def orDefault? {α : Type} (value : α) (f : Json → Option α) : Option Json → Option α
  | none => some value
  | some v => f v

def count? : Json → Option Nat
  | .num n => n.toNat?
  | _ => none

def list? {α : Type} (f : Json → Option α) : Json → Option (List α)
  | .arr items => items.mapM f
  | _ => none

def members? : Json → Option (Dict Json)
  | .obj members => some members
  | _ => none

end FlatQuery.Json
