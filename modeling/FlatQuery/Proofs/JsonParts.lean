import FlatQuery.Json.Dotted
import FlatQuery.Json.Record
import FlatQuery.Proofs.KeyOrder

/-!
# Values within a value

`Json.parts` lists a value and all values in it, through objects and arrays. The scalars among them
are what the value says apart from its shape; order of keys, keys without dots and the absence of
objects are conditions on the objects among them. A property of values is proved by
`Json.inductionOn`, with one case for scalars and one for each way of holding other values.
-/

namespace FlatQuery.Json

/-- Null, booleans, numbers and texts hold no other values. -/
def isScalar : Json → Bool
  | .arr _ | .obj _ => false
  | _ => true

/-- Induction over a value, with the items of its arrays and the members of its objects. -/
theorem inductionOn {motive : Json → Prop} (v : Json)
    (scalar : ∀ v : Json, v.isScalar = true → motive v)
    (arr : ∀ items, (∀ v ∈ items, motive v) → motive (.arr items))
    (obj : ∀ members, (∀ m ∈ members, motive m.2) → motive (.obj members)) : motive v := by
  refine @Json.rec motive (fun items => ∀ v ∈ items, motive v)
    (fun members => ∀ m ∈ members, motive m.2)
    (fun m => motive m.2) ?null ?bool ?num ?str arr obj ?noItem ?item ?noMember ?member ?pair v
  case null => exact scalar _ rfl
  case bool => exact fun _ => scalar _ rfl
  case num => exact fun _ => scalar _ rfl
  case str => exact fun _ => scalar _ rfl
  case noItem => simp
  case item => exact fun v vs hv hvs => List.forall_mem_cons.2 ⟨hv, hvs⟩
  case noMember => simp
  case member => exact fun m ms hm hms => List.forall_mem_cons.2 ⟨hm, hms⟩
  case pair => exact fun _ v hv => hv

/-! ## Parts -/

mutual

/-- The value and all values in it. -/
def parts : Json → List Json
  | .arr items => .arr items :: itemParts items
  | .obj members => .obj members :: memberParts members
  | .null => [.null]
  | .bool b => [.bool b]
  | .num n => [.num n]
  | .str s => [.str s]
termination_by structural v => v

def itemParts : List Json → List Json
  | [] => []
  | v :: vs => parts v ++ itemParts vs
termination_by structural vs => vs

def memberParts : List (String × Json) → List Json
  | [] => []
  | (_, v) :: ms => parts v ++ memberParts ms
termination_by structural ms => ms

end

theorem parts_of_isScalar {v : Json} (h : v.isScalar = true) : v.parts = [v] := by
  cases v with
  | arr | obj => cases h
  | _ => rfl

theorem parts_arr (items : List Json) : (arr items).parts = arr items :: items.flatMap parts := by
  have hitems : itemParts items = items.flatMap parts := by
    induction items with
    | nil => rfl
    | cons v items ih => rw [itemParts, ih, List.flatMap_cons]
  rw [parts, hitems]

theorem parts_obj (members : List (String × Json)) :
    (obj members).parts = obj members :: members.flatMap fun m => parts m.2 := by
  have hmembers : memberParts members = members.flatMap fun m => parts m.2 := by
    induction members with
    | nil => rfl
    | cons m members ih => rw [memberParts, ih, List.flatMap_cons]
  rw [parts, hmembers]

/-! ### Scalars -/

/-- The scalars of a value, at any depth. -/
def scalars (v : Json) : List Json :=
  v.parts.filter isScalar

theorem scalars_arr (items : List Json) : (arr items).scalars = items.flatMap scalars := by
  rw [scalars, parts_arr, List.filter_cons_of_neg (by simp [isScalar]), List.filter_flatMap]
  rfl

theorem scalars_obj (members : List (String × Json)) :
    (obj members).scalars = members.flatMap fun m => m.2.scalars := by
  rw [scalars, parts_obj, List.filter_cons_of_neg (by simp [isScalar]), List.filter_flatMap]
  rfl

/-! ### Objects -/

/-- The objects in a value, at any depth and itself included, each by its members. -/
def objects (v : Json) : List (Dict Json) :=
  v.parts.filterMap members?

theorem objects_of_isScalar {v : Json} (h : v.isScalar = true) : v.objects = [] := by
  rw [objects, parts_of_isScalar h]
  cases v with
  | arr | obj => cases h
  | _ => rfl

theorem objects_arr (items : List Json) : (arr items).objects = items.flatMap objects := by
  rw [objects, parts_arr, List.filterMap_cons, List.filterMap_flatMap]
  rfl

theorem objects_obj (members : List (String × Json)) :
    (obj members).objects = members :: members.flatMap fun m => m.2.objects := by
  rw [objects, parts_obj, List.filterMap_cons, List.filterMap_flatMap]
  rfl

theorem forall_mem_objects_arr {p : Dict Json → Prop} {items : List Json} :
    (∀ d ∈ (arr items).objects, p d) ↔ ∀ v ∈ items, ∀ d ∈ v.objects, p d := by
  rw [objects_arr]
  exact List.forall_mem_flatMap

theorem forall_mem_objects_obj {p : Dict Json → Prop} {members : List (String × Json)} :
    (∀ d ∈ (obj members).objects, p d) ↔
      p members ∧ ∀ m ∈ members, ∀ d ∈ m.2.objects, p d := by
  rw [objects_obj, List.forall_mem_cons]
  exact and_congr_right fun _ => List.forall_mem_flatMap

/-! ## Conditions on the objects in a value -/

theorem ordered_arr {items : List Json} : (arr items).Ordered ↔ ∀ v ∈ items, v.Ordered := by
  show OrderedItems items ↔ _
  induction items with
  | nil => simp [OrderedItems]
  | cons v items ih => rw [OrderedItems, ih, List.forall_mem_cons]

theorem ordered_obj {members : List (String × Json)} :
    (obj members).Ordered ↔ Dict.Ascending members ∧ ∀ m ∈ members, m.2.Ordered := by
  have hmembers : OrderedMembers members ↔ ∀ m ∈ members, m.2.Ordered := by
    induction members with
    | nil => simp [OrderedMembers]
    | cons m members ih => rw [OrderedMembers, ih, List.forall_mem_cons]
  rw [← hmembers]
  rfl

/-- A value is in order if every object in it is. -/
theorem ordered_iff {v : Json} : v.Ordered ↔ ∀ d ∈ v.objects, Dict.Ascending d := by
  induction v using inductionOn with
  | scalar v h =>
    rw [objects_of_isScalar h]
    cases v with
    | arr | obj => cases h
    | _ => exact iff_of_true trivial (by simp)
  | arr items ih =>
    rw [ordered_arr, forall_mem_objects_arr]
    exact forall₂_congr ih
  | obj members ih =>
    rw [ordered_obj, forall_mem_objects_obj]
    exact and_congr_right fun _ => forall₂_congr ih

instance (v : Json) : Decidable v.Ordered :=
  decidable_of_iff _ ordered_iff.symm

/-- No key has a dot, at any depth. -/
def DotFree (v : Json) : Prop :=
  ∀ d ∈ v.objects, ∀ m ∈ d, '.' ∉ m.1.toList

instance (v : Json) : Decidable v.DotFree :=
  inferInstanceAs (Decidable (∀ d ∈ v.objects, ∀ m ∈ d, '.' ∉ m.1.toList))

theorem dotFree_arr {items : List Json} : (arr items).DotFree ↔ ∀ v ∈ items, v.DotFree :=
  forall_mem_objects_arr

theorem dotFree_obj {members : List (String × Json)} :
    (obj members).DotFree ↔ (∀ m ∈ members, '.' ∉ m.1.toList) ∧ ∀ m ∈ members, m.2.DotFree :=
  forall_mem_objects_obj

/-! ## Nesting -/

theorem nestItems_eq_map (items : List Json) : nestItems items = items.map nestValue := by
  induction items with
  | nil => rfl
  | cons v items ih => rw [nestItems, ih, List.map_cons]

theorem nestMembers_eq_map (members : List (String × Json)) :
    nestMembers members = members.map fun m => (m.1, nestValue m.2) := by
  induction members with
  | nil => rfl
  | cons m members ih => rw [nestMembers, ih, List.map_cons]

theorem nestValue_of_isScalar {v : Json} (h : v.isScalar = true) : nestValue v = v := by
  cases v with
  | arr | obj => cases h
  | _ => rfl

theorem nestValue_arr (items : List Json) : nestValue (arr items) = arr (items.map nestValue) := by
  rw [nestValue, nestItems_eq_map]

theorem nestValue_obj (members : List (String × Json)) :
    nestValue (obj members) = obj (nest members) := by
  rw [nestValue, nest]

theorem ascending_nestMembers {members : List (String × Json)} (h : Dict.Ascending members) :
    Dict.Ascending (nestMembers members) := by
  rw [nestMembers_eq_map]
  exact List.pairwise_map.2 h

end FlatQuery.Json
