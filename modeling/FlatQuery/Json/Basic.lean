import FlatQuery.Dict
import FlatQuery.Number.Basic

/-!
# JSON values

Members of an object are a dictionary: they stand in ascending order of keys. Equality of values is
decidable, so statements about concrete values can be evaluated.
-/

namespace FlatQuery

inductive Json where
  | null
  | bool (b : Bool)
  | num (n : Number)
  | str (s : String)
  | arr (items : List Json)
  | obj (members : List (String × Json))
deriving Repr, Inhabited

namespace Json

/-- The object with the given members; of equal keys the last one stays. -/
def ofMembers (members : List (String × Json)) : Json :=
  .obj (Dict.ofList members)

/-- The object with one member. -/
def single (key : String) (value : Json) : Json :=
  .obj [(key, value)]

def ofNat (n : Nat) : Json :=
  .num (.int n)

def ofDouble (d : Double) : Json :=
  .num (.double d)

def ofStrings (ss : List String) : Json :=
  .arr (ss.map .str)

/-- A value that may be absent; an absent one is null. -/
def ofOption {α : Type} (f : α → Json) : Option α → Json
  | none => .null
  | some a => f a

/-- The value of a member of an object. -/
def get? : Json → String → Option Json
  | .obj members, key => Dict.find? members key
  | _, _ => none

def str? : Json → Option String
  | .str s => some s
  | _ => none

/-! ## Objects in key order -/

mutual

/-- Every object in the value has its members in ascending order of keys. -/
def Ordered : Json → Prop
  | .arr items => OrderedItems items
  | .obj members => Dict.Ascending members ∧ OrderedMembers members
  | _ => True
termination_by structural v => v

def OrderedItems : List Json → Prop
  | [] => True
  | v :: vs => v.Ordered ∧ OrderedItems vs
termination_by structural vs => vs

def OrderedMembers : List (String × Json) → Prop
  | [] => True
  | (_, v) :: ms => v.Ordered ∧ OrderedMembers ms
termination_by structural ms => ms

end

/-! ## Equality -/

mutual

protected def decEq : (a b : Json) → Decidable (a = b)
  | .null, .null => isTrue rfl
  | .bool a, .bool b => decidable_of_iff (a = b) (by simp)
  | .num a, .num b => decidable_of_iff (a = b) (by simp)
  | .str a, .str b => decidable_of_iff (a = b) (by simp)
  | .arr a, .arr b => @decidable_of_iff _ (a = b) (by simp) (Json.decEqItems a b)
  | .obj a, .obj b => @decidable_of_iff _ (a = b) (by simp) (Json.decEqMembers a b)
  | .null, .bool _ | .null, .num _ | .null, .str _ | .null, .arr _ | .null, .obj _
  | .bool _, .null | .bool _, .num _ | .bool _, .str _ | .bool _, .arr _ | .bool _, .obj _
  | .num _, .null | .num _, .bool _ | .num _, .str _ | .num _, .arr _ | .num _, .obj _
  | .str _, .null | .str _, .bool _ | .str _, .num _ | .str _, .arr _ | .str _, .obj _
  | .arr _, .null | .arr _, .bool _ | .arr _, .num _ | .arr _, .str _ | .arr _, .obj _
  | .obj _, .null | .obj _, .bool _ | .obj _, .num _ | .obj _, .str _ | .obj _, .arr _ =>
    isFalse (by simp)
termination_by structural a => a

protected def decEqItems : (a b : List Json) → Decidable (a = b)
  | [], [] => isTrue rfl
  | x :: xs, y :: ys =>
    match Json.decEq x y, Json.decEqItems xs ys with
    | isTrue h, isTrue h' => isTrue (by rw [h, h'])
    | isFalse h, _ => isFalse (by simp [h])
    | _, isFalse h => isFalse (by simp [h])
  | [], _ :: _ | _ :: _, [] => isFalse (by simp)
termination_by structural a => a

protected def decEqMembers : (a b : List (String × Json)) → Decidable (a = b)
  | [], [] => isTrue rfl
  | (k, x) :: xs, (l, y) :: ys =>
    match instDecidableEqString k l, Json.decEq x y, Json.decEqMembers xs ys with
    | isTrue h, isTrue h', isTrue h'' => isTrue (by rw [h, h', h''])
    | isFalse h, _, _ => isFalse (by simp [h])
    | _, isFalse h, _ => isFalse (by simp [h])
    | _, _, isFalse h => isFalse (by simp [h])
  | [], _ :: _ | _ :: _, [] => isFalse (by simp)
termination_by structural a => a

end

instance : DecidableEq Json := Json.decEq

end Json

end FlatQuery
