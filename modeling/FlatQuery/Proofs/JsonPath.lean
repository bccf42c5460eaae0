import FlatQuery.Json.Dotted
import FlatQuery.Proofs.Lookup

/-!
# Paths through objects

`Json.at?` follows a path of keys through the objects in a value. `Json.place` is what `putAt` makes
of an object where it finds room for the value. A value that has been placed is
found at the end of its path (`at?_place`); what another path found is still found there, except
that an object the path of the new value runs through has changed (`at?_place_of_at?`).
-/

namespace FlatQuery.Json

/-- The value at the end of a path of keys. -/
def at? : List String → Json → Option Json
  | [], v => some v
  | key :: rest, v => (v.get? key).bind (at? rest)

theorem at?_nil (v : Json) : at? [] v = some v := rfl

theorem at?_cons (key : String) (rest : List String) (v : Json) :
    at? (key :: rest) v = (v.get? key).bind (at? rest) := rfl

theorem get?_obj (d : Dict Json) (key : String) : (Json.obj d).get? key = d.find? key := rfl

theorem at?_singleton (key : String) (d : Dict Json) : at? [key] (.obj d) = d.find? key := by
  rw [at?_cons, get?_obj]
  cases d.find? key <;> rfl

theorem isSome_at?_singleton (key : String) (d : Dict Json) :
    (at? [key] (.obj d)).isSome = d.contains key := by
  rw [at?_singleton, Dict.contains]

theorem at?_insert_of_ne {key other : String} (h : other ≠ key) (v : Json) (rest : List String)
    (d : Dict Json) :
    at? (other :: rest) (.obj (d.insert key v)) = at? (other :: rest) (.obj d) := by
  rw [at?_cons, at?_cons, get?_obj, get?_obj, Dict.find?_insert_of_ne d v h]

theorem at?_insert_self (key : String) (v : Json) (rest : List String) (d : Dict Json) :
    at? (key :: rest) (.obj (d.insert key v)) = at? rest v := by
  rw [at?_cons, get?_obj, Dict.find?_insert_self, Option.bind_some]

/-! ## Placing -/

/-- Puts a value at the end of a path; `none` if the path or its end is taken. -/
def place (value : Json) : List String → Dict Json → Option (Dict Json)
  | [], _ => none
  | [key], d => if d.contains key then none else some (d.insert key value)
  | head :: rest, d =>
    match d.find? head with
    | none => (place value rest []).map fun child => d.insert head (.obj child)
    | some (.obj members) => (place value rest members).map fun child => d.insert head (.obj child)
    | some _ => none

/-- The ways in which a value can be placed: under a key that is free, in a new object, or in an
object that is there. -/
theorem place_cons_eq_some {value : Json} {key : String} {rest : List String} {d placed : Dict Json}
    (h : place value (key :: rest) d = some placed) :
    ∃ v, placed = d.insert key v ∧
      ((rest = [] ∧ d.find? key = none ∧ v = value) ∨
        ∃ members child, rest ≠ [] ∧ v = .obj child ∧ place value rest members = some child ∧
          (d.find? key = none ∧ members = [] ∨ d.find? key = some (.obj members))) := by
  cases rest with
  | nil =>
    rw [place] at h
    split at h
    · cases h
    · rename_i hfree
      refine ⟨value, (Option.some.inj h).symm, Or.inl ⟨rfl, ?_, rfl⟩⟩
      simpa [Dict.contains] using hfree
  | cons next rest =>
    rw [place] at h
    · split at h
      · rename_i hfree
        obtain ⟨child, hchild, rfl⟩ := Option.map_eq_some_iff.1 h
        exact ⟨_, rfl, Or.inr ⟨[], child, by simp, rfl, hchild, Or.inl ⟨hfree, rfl⟩⟩⟩
      · rename_i members hthere
        obtain ⟨child, hchild, rfl⟩ := Option.map_eq_some_iff.1 h
        exact ⟨_, rfl, Or.inr ⟨members, child, by simp, rfl, hchild, Or.inr hthere⟩⟩
      · cases h
    · simp

/-- A placed value is found at the end of its path. -/
theorem at?_place {value : Json} {segments : List String} {d placed : Dict Json}
    (h : place value segments d = some placed) : at? segments (.obj placed) = some value := by
  induction segments generalizing d placed with
  | nil => cases h
  | cons key rest ih =>
    obtain ⟨v, rfl, ⟨rfl, -, rfl⟩ | ⟨members, child, -, rfl, hchild, -⟩⟩ := place_cons_eq_some h
    · rw [at?_insert_self, at?_nil]
    · rw [at?_insert_self, ih hchild]

/-- What a path found it still finds, unless the path of the placed value continues it; then it
finds an object. -/
theorem at?_place_of_at? {value : Json} {segments : List String} {d placed : Dict Json}
    (h : place value segments d = some placed) {path : List String} {found : Json}
    (hfound : at? path (.obj d) = some found) :
    at? path (.obj placed) = some found ∨
      path <+: segments ∧ ∃ members, at? path (.obj placed) = some (.obj members) := by
  induction segments generalizing d placed path with
  | nil => cases h
  | cons key rest ih =>
    cases path with
    | nil => exact Or.inr ⟨List.nil_prefix, placed, rfl⟩
    | cons step path =>
      by_cases hstep : step = key
      · subst hstep
        rw [at?_cons, get?_obj] at hfound
        obtain ⟨v, rfl, ⟨-, hfree, -⟩ | ⟨members, child, -, rfl, hchild, hthere⟩⟩ :=
          place_cons_eq_some h
        · simp [hfree] at hfound
        · obtain ⟨hfree, -⟩ | hthere := hthere
          · simp [hfree] at hfound
          · rw [hthere, Option.bind_some] at hfound
            rw [at?_insert_self, List.cons_prefix_cons]
            exact (ih hchild hfound).imp id fun h => ⟨⟨rfl, h.1⟩, h.2⟩
      · obtain ⟨v, rfl, -⟩ := place_cons_eq_some h
        rw [at?_insert_of_ne hstep]
        exact Or.inl hfound

theorem isSome_at?_place {value : Json} {segments : List String} {d placed : Dict Json}
    (h : place value segments d = some placed) {path : List String}
    (hsome : (at? path (.obj d)).isSome = true) : (at? path (.obj placed)).isSome = true := by
  obtain ⟨found, hfound⟩ := Option.isSome_iff_exists.1 hsome
  rcases at?_place_of_at? h hfound with hsame | ⟨-, members, hobj⟩
  · rw [hsame, Option.isSome_some]
  · rw [hobj, Option.isSome_some]

theorem contains_place {value : Json} {segments : List String} {d placed : Dict Json}
    (h : place value segments d = some placed) {key : String} (hkey : d.contains key = true) :
    placed.contains key = true := by
  rw [← isSome_at?_singleton] at hkey ⊢
  exact isSome_at?_place h hkey

end FlatQuery.Json
