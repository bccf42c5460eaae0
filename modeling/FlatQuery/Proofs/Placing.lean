import FlatQuery.Proofs.DottedPaths
import FlatQuery.Proofs.JsonParts
import FlatQuery.Proofs.JsonPath

/-!
# Leaves after placing

Placing a value at a path adds its leaves there to the leaves of an object (`adds_place`); the only
leaves that can go are empty objects on the way, which are filled. There is room for a value where
no leaf stands on its path and its path does not end above one (`exists_place`).
-/

namespace FlatQuery.Json

/-! ## Leaves of an object -/

/-- A leaf of the value at the end of `path`. -/
def under (path : List String) (leaf : List String × Json) : List String × Json :=
  (path ++ leaf.1, leaf.2)

theorem map_under_cons (key : String) (rest : List String) (found : List (List String × Json)) :
    (found.map (under rest)).map (under [key]) = found.map (under (key :: rest)) := by
  rw [List.map_map]
  rfl

theorem memberLeaves_eq_flatMap (members : List (String × Json)) :
    memberLeaves members = members.flatMap fun m => (leaves m.2).map (under [m.1]) := by
  induction members with
  | nil => rfl
  | cons m members ih =>
    rw [memberLeaves, ih]
    rfl

theorem memberLeaves_cons (m : String × Json) (members : List (String × Json)) :
    memberLeaves (m :: members) = (leaves m.2).map (under [m.1]) ++ memberLeaves members := rfl

theorem memberLeaves_perm {members others : List (String × Json)} (h : members.Perm others) :
    (memberLeaves members).Perm (memberLeaves others) := by
  rw [memberLeaves_eq_flatMap, memberLeaves_eq_flatMap]
  exact h.flatMap_right _

theorem leaves_obj {members : List (String × Json)} (h : members ≠ []) :
    leaves (obj members) = memberLeaves members := by
  cases members with
  | nil => exact absurd rfl h
  | cons m members => rw [leaves]

theorem leaves_of_not_obj {v : Json} (h : ∀ members, v ≠ obj members) : leaves v = [([], v)] := by
  cases v with
  | obj members => exact absurd rfl (h members)
  | _ => rfl

theorem leaves_of_isScalar {v : Json} (h : v.isScalar = true) : leaves v = [([], v)] := by
  apply leaves_of_not_obj
  rintro members rfl
  cases h

theorem leaves_cases (v : Json) :
    leaves v = [([], v)] ∨ ∃ members, members ≠ [] ∧ v = obj members := by
  by_cases h : ∃ members, members ≠ [] ∧ v = obj members
  · exact Or.inr h
  · left
    match v with
    | .obj [] => rfl
    | .obj (m :: members) => exact absurd ⟨_, List.cons_ne_nil _ _, rfl⟩ h
    | .null | .bool _ | .num _ | .str _ | .arr _ => rfl

theorem leaves_ne_nil (v : Json) : leaves v ≠ [] := by
  induction v using inductionOn with
  | scalar v hscalar =>
    rw [leaves_of_isScalar hscalar]
    exact List.cons_ne_nil _ _
  | arr items => exact List.cons_ne_nil _ _
  | obj members ih =>
    cases members with
    | nil => exact List.cons_ne_nil _ _
    | cons m members =>
      rw [leaves_obj (List.cons_ne_nil _ _), memberLeaves_cons]
      have hfirst : (leaves m.2).map (under [m.1]) ≠ [] := by
        simpa using ih m List.mem_cons_self
      exact List.append_ne_nil_of_left_ne_nil hfirst _

theorem mem_memberLeaves {members : List (String × Json)} {leaf : List String × Json} :
    leaf ∈ memberLeaves members ↔ ∃ m ∈ members, ∃ below ∈ leaves m.2, under [m.1] below = leaf := by
  rw [memberLeaves_eq_flatMap, List.mem_flatMap]
  simp only [List.mem_map]

theorem under_mem_memberLeaves {d : Dict Json} {key : String} {v : Json}
    (h : d.find? key = some v) {below : List String × Json} (hbelow : below ∈ leaves v) :
    under [key] below ∈ memberLeaves d :=
  mem_memberLeaves.2 ⟨_, Dict.mem_of_find?_eq_some h, below, hbelow, rfl⟩

/-! ## Placing -/

theorem ordered_insert {d : Dict Json} (hd : (obj d).Ordered) {v : Json} (hv : v.Ordered)
    (key : String) : (obj (d.insert key v)).Ordered := by
  obtain ⟨hasc, hvalues⟩ := ordered_obj.1 hd
  refine ordered_obj.2 ⟨hasc.insert key v, fun m hm => ?_⟩
  obtain rfl | hm := Dict.mem_insert hm
  · exact hv
  · exact hvalues m hm

theorem ordered_of_find? {d : Dict Json} (hd : (obj d).Ordered) {key : String} {v : Json}
    (h : d.find? key = some v) : v.Ordered :=
  (ordered_obj.1 hd).2 _ (Dict.mem_of_find?_eq_some h)

theorem ordered_empty : (obj []).Ordered :=
  ordered_obj.2 ⟨List.Pairwise.nil, by simp⟩

theorem ordered_place {value : Json} (hvalue : value.Ordered) {segments : List String}
    {d placed : Dict Json} (hd : (obj d).Ordered) (h : place value segments d = some placed) :
    (obj placed).Ordered := by
  induction segments generalizing d placed with
  | nil => cases h
  | cons key rest ih =>
    obtain ⟨v, rfl, ⟨-, -, rfl⟩ | ⟨members, child, -, rfl, hchild, hthere⟩⟩ :=
      place_cons_eq_some h
    · exact ordered_insert hd hvalue key
    · have hmembers : (obj members).Ordered := by
        obtain ⟨-, rfl⟩ | hthere := hthere
        · exact ordered_empty
        · exact ordered_of_find? hd hthere
      exact ordered_insert hd (ih hmembers hchild) key

/-- `later` are the leaves once those of `value` have been added to `former` at `path`. Empty objects
on the path are leaves no more. -/
def Adds (path : List String) (value : Json) (former later : List (List String × Json)) : Prop :=
  ∃ hollow kept, former.Perm (hollow ++ kept) ∧
    later.Perm ((leaves value).map (under path) ++ kept) ∧
    ∀ leaf ∈ hollow, leaf.2 = obj [] ∧ leaf.1 <+: path

theorem Adds.perm {path : List String} {value : Json} {former later : List (List String × Json)}
    (h : Adds path value former later)
    (hroom : ∀ leaf ∈ former, leaf.2 = obj [] → ¬leaf.1 <+: path) :
    later.Perm ((leaves value).map (under path) ++ former) := by
  obtain ⟨hollow, kept, hformer, hlater, hhollow⟩ := h
  have hnone : hollow = [] := by
    refine List.eq_nil_iff_forall_not_mem.2 fun leaf hleaf => ?_
    obtain ⟨hempty, hpath⟩ := hhollow leaf hleaf
    exact hroom leaf (hformer.mem_iff.2 (List.mem_append_left _ hleaf)) hempty hpath
  rw [hnone, List.nil_append] at hformer
  exact hlater.trans (hformer.symm.append_left _)

/-- A value under a key that is free adds its leaves. -/
theorem adds_insert {d : Dict Json} {key : String} (h : d.contains key = false) (value : Json) :
    Adds [key] value (memberLeaves d) (memberLeaves (d.insert key value)) :=
  ⟨[], memberLeaves d, List.Perm.refl _, memberLeaves_perm (Dict.insert_perm_cons h value),
    by simp⟩

/-- What is added to an object is added to the object around it, which holds it under `key`. -/
theorem Adds.beneath {key : String} {rest : List String} {value : Json} {d others : Dict Json}
    {members child : Dict Json} (hd : d.Perm ((key, obj members) :: others)) (hchild : child ≠ [])
    (h : Adds rest value (memberLeaves members) (memberLeaves child)) :
    Adds (key :: rest) value (memberLeaves d) (memberLeaves ((key, obj child) :: others)) := by
  obtain ⟨hollow, kept, hformer, hlater, hhollow⟩ := h
  have hd := memberLeaves_perm hd
  have hplaced : (memberLeaves ((key, obj child) :: others)).Perm
      ((leaves value).map (under (key :: rest)) ++
        (kept.map (under [key]) ++ memberLeaves others)) := by
    rw [memberLeaves_cons, leaves_obj hchild, ← map_under_cons key rest, ← List.append_assoc,
      ← List.map_append]
    exact (hlater.map _).append_right _
  rw [memberLeaves_cons] at hd
  by_cases hempty : members = []
  · -- an empty object is filled
    subst hempty
    obtain ⟨rfl, rfl⟩ := List.append_eq_nil_iff.1 (List.nil_perm.1 hformer)
    refine ⟨[([key], obj [])], memberLeaves others, hd, hplaced, ?_⟩
    rw [List.forall_mem_singleton]
    exact ⟨rfl, List.prefix_append [key] rest⟩
  · rw [leaves_obj hempty] at hd
    refine ⟨hollow.map (under [key]), _, ?_, hplaced, ?_⟩
    · rw [← List.append_assoc, ← List.map_append]
      exact hd.trans ((hformer.map _).append_right _)
    · rw [List.forall_mem_map]
      intro leaf hleaf
      obtain ⟨hobj, hbegins⟩ := hhollow leaf hleaf
      exact ⟨hobj, List.cons_prefix_cons.2 ⟨rfl, hbegins⟩⟩

/-- An object under a new key has only the leaves that were added to it. -/
theorem Adds.beneath_new {key : String} {rest : List String} {value : Json} {d : Dict Json}
    {child : Dict Json} (hchild : child ≠ [])
    (h : Adds rest value (memberLeaves []) (memberLeaves child)) :
    Adds (key :: rest) value (memberLeaves d) (memberLeaves ((key, obj child) :: d)) := by
  obtain ⟨hollow, kept, hformer, hlater, -⟩ := h
  obtain ⟨rfl, rfl⟩ := List.append_eq_nil_iff.1 (List.nil_perm.1 hformer)
  refine ⟨[], memberLeaves d, List.Perm.refl _, ?_, by simp⟩
  rw [List.append_nil] at hlater
  rw [memberLeaves_cons, leaves_obj hchild, ← map_under_cons key rest]
  exact (hlater.map _).append_right _

theorem Adds.congr {path : List String} {value : Json}
    {former later others : List (List String × Json)} (h : Adds path value former later)
    (hperm : others.Perm later) : Adds path value former others := by
  obtain ⟨hollow, kept, hformer, hlater, hhollow⟩ := h
  exact ⟨hollow, kept, hformer, hperm.trans hlater, hhollow⟩

theorem ne_nil_of_place {value : Json} {segments : List String} {d placed : Dict Json}
    (h : place value segments d = some placed) : placed ≠ [] := by
  rintro rfl
  cases segments with
  | nil => cases h
  | cons key rest =>
    obtain ⟨v, heq, -⟩ := place_cons_eq_some h
    have hfound := Dict.find?_insert_self d key v
    rw [← heq] at hfound
    cases hfound

theorem adds_place {value : Json} {segments : List String} {d placed : Dict Json}
    (hd : (obj d).Ordered) (h : place value segments d = some placed) :
    Adds segments value (memberLeaves d) (memberLeaves placed) := by
  induction segments generalizing d placed with
  | nil => cases h
  | cons key rest ih =>
    obtain ⟨v, rfl, ⟨rfl, hfree, rfl⟩ | ⟨members, child, -, rfl, hchild, hthere⟩⟩ :=
      place_cons_eq_some h
    · exact adds_insert (Dict.contains_eq_false_iff.2 hfree) v
    · have hne : child ≠ [] := ne_nil_of_place hchild
      obtain ⟨hfree, rfl⟩ | hthere := hthere
      · have hinsert := Dict.insert_perm_cons (Dict.contains_eq_false_iff.2 hfree) (obj child)
        exact (Adds.beneath_new hne (ih ordered_empty hchild)).congr (memberLeaves_perm hinsert)
      · obtain ⟨others, hold, hnew⟩ :=
          (ordered_obj.1 hd).1.exists_insert_perm hthere (obj child)
        exact (Adds.beneath hold hne (ih (ordered_of_find? hd hthere) hchild)).congr
          (memberLeaves_perm hnew)

/-! ## Room for a value -/

/-- Neither path runs through the end of the other. -/
def Apart (path other : List String) : Prop :=
  ¬path <+: other ∧ ¬other <+: path

theorem not_apart_nil (path : List String) : ¬Apart [] path :=
  fun h => h.1 List.nil_prefix

theorem apart_cons_iff {key : String} {path other : List String} :
    Apart (key :: path) (key :: other) ↔ Apart path other := by
  simp [Apart, List.cons_prefix_cons]

/-- A way that has more steps goes on in a new object under a key that is free. -/
theorem place_of_free (value : Json) {key : String} {rest : List String} (hrest : rest ≠ [])
    {d : Dict Json} (h : d.find? key = none) : place value (key :: rest) d =
      (place value rest []).map fun child => d.insert key (obj child) := by
  cases rest with
  | nil => exact absurd rfl hrest
  | cons next rest =>
    rw [place, h]
    simp

/-- A way that has more steps goes on in the object under the key. -/
theorem place_of_obj (value : Json) {key : String} {rest : List String} (hrest : rest ≠ [])
    {d members : Dict Json} (h : d.find? key = some (obj members)) : place value (key :: rest) d =
      (place value rest members).map fun child => d.insert key (obj child) := by
  cases rest with
  | nil => exact absurd rfl hrest
  | cons next rest =>
    rw [place, h]
    simp

theorem place_of_value (value : Json) {key : String} {rest : List String} (hrest : rest ≠ [])
    {d : Dict Json} {v : Json} (h : d.find? key = some v) (hv : ∀ members, v ≠ obj members) :
    place value (key :: rest) d = none := by
  cases rest with
  | nil => exact absurd rfl hrest
  | cons next rest =>
    rw [place, h]
    · cases v with
      | obj members => exact absurd rfl (hv members)
      | _ => rfl
    · simp

theorem exists_place (value : Json) {path : List String} (hne : path ≠ []) {d : Dict Json}
    (hroom : ∀ leaf ∈ memberLeaves d, Apart leaf.1 path) :
    ∃ placed, place value path d = some placed := by
  induction path generalizing d with
  | nil => exact absurd rfl hne
  | cons key rest ih =>
    -- the leaves beneath the key leave room for what remains of the path
    have hbelow : ∀ v, d.find? key = some v → ∀ below ∈ leaves v, Apart below.1 rest := by
      intro v hv below hmem
      exact apart_cons_iff.1 (hroom _ (under_mem_memberLeaves hv hmem))
    by_cases hrest : rest = []
    · subst hrest
      have hfree : d.contains key = false := by
        rw [Dict.contains_eq_false_iff, Option.eq_none_iff_forall_ne_some]
        intro v hv
        obtain ⟨below, hmem⟩ := List.exists_mem_of_ne_nil _ (leaves_ne_nil v)
        exact (hbelow v hv below hmem).2 List.nil_prefix
      rw [place, hfree]
      exact ⟨_, rfl⟩
    · cases hfound : d.find? key with
      | none =>
        obtain ⟨child, hchild⟩ := ih hrest (d := []) (by simp [memberLeaves])
        rw [place_of_free value hrest hfound, hchild]
        exact ⟨_, rfl⟩
      | some v =>
        rcases leaves_cases v with hend | ⟨members, hmembers, rfl⟩
        · have hapart := hbelow v hfound ([], v) (by rw [hend]; exact List.mem_singleton_self _)
          exact absurd hapart (not_apart_nil rest)
        · have hthere := hbelow _ hfound
          rw [leaves_obj hmembers] at hthere
          obtain ⟨child, hchild⟩ := ih hrest hthere
          rw [place_of_obj value hrest hfound, hchild]
          exact ⟨_, rfl⟩

/-- A new object has room for any path. -/
theorem exists_place_nil (value : Json) {path : List String} (hne : path ≠ []) :
    ∃ placed, place value path [] = some placed :=
  exists_place value hne (by simp [memberLeaves])

/-! ## Putting a value into an object -/

section

variable (value : Json) {head : String} {rest : List String} (hrest : rest ≠ []) {d : Dict Json}
include hrest

/-- Where nothing stands under the first key the value goes into a new object. -/
theorem putAt_of_free (h : d.find? head = none) : putAt value (head :: rest) d =
    (d.insert head (obj (putAt value rest []).1), (putAt value rest []).2) := by
  rw [putAt, Dict.contains_eq_false_iff.2 h]
  · simp only [Bool.false_eq_true, if_false, Dict.find?_insert_self, Dict.insert_insert_self]
  · exact hrest

theorem putAt_of_obj {members : Dict Json} (h : d.find? head = some (obj members)) :
    putAt value (head :: rest) d =
      (d.insert head (obj (putAt value rest members).1), (putAt value rest members).2) := by
  rw [putAt, Dict.contains_of_find?_eq_some h]
  · simp only [if_true, h]
  · exact hrest

/-- There is no way through a value that is not an object. -/
theorem putAt_of_value {v : Json} (h : d.find? head = some v) (hv : ∀ members, v ≠ obj members) :
    putAt value (head :: rest) d = (d, some value) := by
  rw [putAt, Dict.contains_of_find?_eq_some h]
  · simp only [if_true, h]
    split
    · rename_i members heq
      exact absurd (Option.some.inj heq) (hv members)
    · rfl
  · exact hrest

end

/-- A new key is the first of the path. -/
theorem contains_putAt {value : Json} {head key : String} {rest : List String} {d : Dict Json}
    (h : (putAt value (head :: rest) d).1.contains key = true) :
    key = head ∨ d.contains key = true := by
  by_cases hrest : rest = []
  · subst hrest
    rw [putAt] at h
    split at h
    · exact Or.inr h
    · exact (Dict.contains_insert _ _ _ _).1 h
  · cases hfound : d.find? head with
    | none =>
      rw [putAt_of_free value hrest hfound] at h
      exact (Dict.contains_insert _ _ _ _).1 h
    | some v =>
      by_cases hv : ∃ members, v = obj members
      · obtain ⟨members, rfl⟩ := hv
        rw [putAt_of_obj value hrest hfound] at h
        exact (Dict.contains_insert _ _ _ _).1 h
      · rw [putAt_of_value value hrest hfound (not_exists.1 hv)] at h
        exact Or.inr h

/-- Either the value is placed, or the object is left as it was: an object that is made on the way
has room for the rest of the path, so none is left behind. -/
theorem putAt_eq (value : Json) (segments : List String) {d : Dict Json} (hd : (obj d).Ordered) :
    putAt value segments d = match place value segments d with
      | some placed => (placed, none)
      | none => (d, some value) := by
  induction segments generalizing d with
  | nil => rfl
  | cons head rest ih =>
    by_cases hrest : rest = []
    · subst hrest
      rw [putAt, place]
      split <;> rfl
    · cases hfound : d.find? head with
      | none =>
        obtain ⟨child, hchild⟩ := exists_place_nil value hrest
        rw [putAt_of_free value hrest hfound, place_of_free value hrest hfound, ih ordered_empty,
          hchild]
        rfl
      | some v =>
        by_cases hv : ∃ members, v = obj members
        · obtain ⟨members, rfl⟩ := hv
          rw [putAt_of_obj value hrest hfound, place_of_obj value hrest hfound,
            ih (ordered_of_find? hd hfound)]
          cases place value rest members with
          | some child => rfl
          | none =>
            -- what was there is put back
            have hsame := (ordered_obj.1 hd).1.insert_eq_self hfound
            simp only [Option.map_none, hsame]
        · rw [putAt_of_value value hrest hfound (not_exists.1 hv),
            place_of_value value hrest hfound (not_exists.1 hv)]

end FlatQuery.Json
