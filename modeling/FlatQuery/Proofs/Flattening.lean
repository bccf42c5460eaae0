import FlatQuery.Json.Dotted
import FlatQuery.Proofs.Lookup

/-!
# Leaves of an object

`Json.leaves` lists the values that are left when the objects in a value are taken apart, each with
the path of keys that leads to it. The flat form of an object has its leaves under their dotted
paths (`flatten_obj`), and nothing else (`mem_flatten_obj`, `contains_flatten_obj`).
-/

namespace FlatQuery.Json

/-- A path in one text. -/
def dotted (path : List String) : String :=
  ".".intercalate path

mutual

/-- The values at the ends of the paths through objects. Empty objects are ends, and so are arrays
with all they hold. -/
def leaves : Json → List (List String × Json)
  | .obj [] => [([], .obj [])]
  | .obj (m :: ms) => memberLeaves (m :: ms)
  | .null => [([], .null)]
  | .bool b => [([], .bool b)]
  | .num n => [([], .num n)]
  | .str s => [([], .str s)]
  | .arr items => [([], .arr items)]
termination_by structural v => v

def memberLeaves : List (String × Json) → List (List String × Json)
  | [] => []
  | (key, v) :: ms => (leaves v).map (fun leaf => (key :: leaf.1, leaf.2)) ++ memberLeaves ms
termination_by structural ms => ms

end

theorem dotted_singleton (key : String) : dotted [key] = key :=
  String.intercalate_singleton

theorem dotted_cons_cons (path key : String) (rest : List String) :
    dotted (path :: key :: rest) = path ++ "." ++ dotted (key :: rest) :=
  String.intercalate_cons_cons

/-- Two steps are taken as one whose key is dotted. -/
theorem dotted_append_cons (path key : String) (rest : List String) :
    dotted ((path ++ "." ++ key) :: rest) = dotted (path :: key :: rest) := by
  rw [dotted_cons_cons]
  exact String.intercalate_cons_append

mutual

theorem flattenAt_eq_map (path : String) : ∀ v : Json,
    flattenAt path v = (leaves v).map fun leaf => (dotted (path :: leaf.1), leaf.2)
  | .obj (m :: ms) => by
    rw [flattenAt, leaves]
    exact flattenMembers_eq_map path (m :: ms)
  | .obj [] | .null | .bool _ | .num _ | .str _ | .arr _ => by
    simp [flattenAt, leaves, dotted_singleton]
termination_by structural v => v

theorem flattenMembers_eq_map (path : String) : ∀ ms : List (String × Json),
    flattenMembers path ms = (memberLeaves ms).map fun leaf => (dotted (path :: leaf.1), leaf.2)
  | [] => rfl
  | (key, v) :: ms => by
    rw [flattenMembers, memberLeaves, List.map_append, List.map_map, flattenMembers_eq_map path ms,
      flattenAt_eq_map (path ++ "." ++ key) v]
    simp only [dotted_append_cons]
    rfl
termination_by structural ms => ms

end

theorem flatMap_flattenAt (members : List (String × Json)) :
    (members.flatMap fun m => flattenAt m.1 m.2) =
      (memberLeaves members).map fun leaf => (dotted leaf.1, leaf.2) := by
  induction members with
  | nil => rfl
  | cons m members ih =>
    obtain ⟨key, v⟩ := m
    rw [List.flatMap_cons, ih, flattenAt_eq_map, memberLeaves, List.map_append, List.map_map]
    rfl

/-- The flat form of an object holds its leaves under their dotted paths. -/
theorem flatten_obj (members : List (String × Json)) :
    flatten (.obj members) =
      Dict.ofList ((memberLeaves members).map fun leaf => (dotted leaf.1, leaf.2)) := by
  rw [flatten, flatMap_flattenAt]

theorem mem_flatten_obj {members : List (String × Json)} {key : String} {v : Json}
    (h : (key, v) ∈ flatten (.obj members)) :
    ∃ leaf ∈ memberLeaves members, dotted leaf.1 = key ∧ leaf.2 = v := by
  rw [flatten_obj] at h
  rcases Dict.mem_insertAll h with h | h
  · obtain ⟨leaf, hleaf, heq⟩ := List.mem_map.1 h
    exact ⟨leaf, hleaf, congrArg Prod.fst heq, congrArg Prod.snd heq⟩
  · cases h

theorem contains_flatten_obj (members : List (String × Json)) (key : String) :
    Dict.contains (flatten (.obj members)) key = true ↔
      ∃ leaf ∈ memberLeaves members, dotted leaf.1 = key := by
  rw [flatten_obj, Dict.ofList, Dict.contains_insertAll]
  constructor
  · rintro (⟨entry, hentry, rfl⟩ | h)
    · obtain ⟨leaf, hleaf, rfl⟩ := List.mem_map.1 hentry
      exact ⟨leaf, hleaf, rfl⟩
    · cases h
  · rintro ⟨leaf, hleaf, rfl⟩
    exact Or.inl ⟨_, List.mem_map.2 ⟨leaf, hleaf, rfl⟩, rfl⟩

end FlatQuery.Json
