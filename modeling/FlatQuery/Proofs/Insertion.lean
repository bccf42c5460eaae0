import FlatQuery.Proofs.Placing

/-!
# Insertion at a path

A value is put into an object whole or not at all (`putAt_atomic`). It is handed back exactly if
something stands at the end of its path, or on the way something that is not an object
(`place_eq_none_iff`). Then the object is as it was, also where objects would have been made on the
way. Otherwise the value is found at the end of its path, and where paths that do not run into one
another lead is what it was (`at?_place_of_apart`).
-/

namespace FlatQuery.Json

/-- Something stands at the end of the path, or a value without members on the way. -/
def Blocked (d : Dict Json) (segments : List String) : Prop :=
  ∃ path v, path ≠ [] ∧ path <+: segments ∧ at? path (obj d) = some v ∧
    (path = segments ∨ ∀ members, v ≠ obj members)

/-! ## Where a value is handed back -/

theorem blocked_singleton_iff {d : Dict Json} {key : String} :
    Blocked d [key] ↔ d.contains key = true := by
  rw [← isSome_at?_singleton, Option.isSome_iff_exists]
  constructor
  · rintro ⟨path, v, hne, hbegins, hthere, -⟩
    cases path with
    | nil => exact absurd rfl hne
    | cons step path =>
      obtain ⟨rfl, hnil⟩ := List.cons_prefix_cons.1 hbegins
      obtain rfl := List.prefix_nil.1 hnil
      exact ⟨v, hthere⟩
  · rintro ⟨v, hthere⟩
    exact ⟨[key], v, List.cons_ne_nil _ _, List.prefix_rfl, hthere, Or.inl rfl⟩

/-- What blocks the way beyond the first key stands in the object that is there. -/
theorem blocked_cons_iff {d : Dict Json} {head : String} {rest : List String} (hrest : rest ≠ []) :
    Blocked d (head :: rest) ↔ ∃ v, d.find? head = some v ∧
      ∀ members, v = obj members → Blocked members rest := by
  constructor
  · rintro ⟨path, found, hne, hbegins, hthere, hend⟩
    cases path with
    | nil => exact absurd rfl hne
    | cons step path =>
      obtain ⟨rfl, hrestBegins⟩ := List.cons_prefix_cons.1 hbegins
      rw [at?_cons, get?_obj] at hthere
      obtain ⟨v, hv, hthere⟩ := Option.bind_eq_some_iff.1 hthere
      refine ⟨v, hv, ?_⟩
      rintro members rfl
      cases path with
      | nil =>
        obtain rfl := Option.some.inj hthere
        rcases hend with heq | hend
        · exact absurd (List.cons.inj heq).2.symm hrest
        · exact absurd rfl (hend members)
      | cons next path =>
        exact ⟨_, found, List.cons_ne_nil _ _, hrestBegins, hthere,
          hend.imp (fun heq => (List.cons.inj heq).2) id⟩
  · rintro ⟨v, hv, hbelow⟩
    by_cases hobj : ∃ members, v = obj members
    · obtain ⟨members, rfl⟩ := hobj
      obtain ⟨path, found, hne, hbegins, hthere, hend⟩ := hbelow members rfl
      refine ⟨head :: path, found, List.cons_ne_nil _ _, List.cons_prefix_cons.2 ⟨rfl, hbegins⟩, ?_,
        hend.imp (fun heq => by rw [heq]) id⟩
      rw [at?_cons, get?_obj, hv, Option.bind_some, hthere]
    · refine ⟨[head], v, List.cons_ne_nil _ _, List.prefix_append [head] rest, ?_,
        Or.inr (not_exists.1 hobj)⟩
      rw [at?_singleton, hv]

/-- There is no place for a value exactly if its path is blocked. -/
theorem place_eq_none_iff (value : Json) {segments : List String} (hne : segments ≠ [])
    {d : Dict Json} : place value segments d = none ↔ Blocked d segments := by
  induction segments generalizing d with
  | nil => exact absurd rfl hne
  | cons head rest ih =>
    by_cases hrest : rest = []
    · subst hrest
      rw [blocked_singleton_iff, place]
      split <;> simp_all
    · rw [blocked_cons_iff hrest]
      cases hfound : d.find? head with
      | none =>
        obtain ⟨child, hchild⟩ := exists_place_nil value hrest
        rw [place_of_free value hrest hfound, hchild]
        simp
      | some v =>
        by_cases hobj : ∃ members, v = obj members
        · obtain ⟨members, rfl⟩ := hobj
          rw [place_of_obj value hrest hfound, Option.map_eq_none_iff, ih hrest]
          simp
        · rw [place_of_value value hrest hfound (not_exists.1 hobj)]
          simpa using fun members heq => absurd ⟨members, heq⟩ hobj

/-! ## What is left as it was -/

/-- Paths that do not run into that of the placed value lead where they led. -/
theorem at?_place_of_apart {value : Json} {segments : List String} {d placed : Dict Json}
    (h : place value segments d = some placed) {path : List String} (hapart : Apart path segments) :
    at? path (obj placed) = at? path (obj d) := by
  induction segments generalizing d placed path with
  | nil => cases h
  | cons key rest ih =>
    cases path with
    | nil => exact absurd hapart (not_apart_nil _)
    | cons step path =>
      obtain ⟨v, rfl, hplaced⟩ := place_cons_eq_some h
      by_cases hstep : step = key
      · subst hstep
        obtain ⟨rfl, -, -⟩ | ⟨members, child, -, rfl, hchild, hthere⟩ := hplaced
        · exact absurd (List.prefix_append [step] path) hapart.2
        · have hbelow : Apart path rest := apart_cons_iff.1 hapart
          rw [at?_insert_self, ih hchild hbelow, at?_cons, get?_obj]
          obtain ⟨hfree, rfl⟩ | hthere := hthere
          · rw [hfree, Option.bind_none]
            cases path with
            | nil => exact absurd hbelow (not_apart_nil _)
            | cons next path => rfl
          · rw [hthere, Option.bind_some]
      · exact at?_insert_of_ne hstep v path d

/-- Either the path of the key is blocked, and the value is handed back and the object left exactly
as it was; or the value is found at the end of the path, every value that another path led to is
still there unless the path of the key continues that path, and nothing is new elsewhere. -/
theorem putAt_atomic {d : Dict Json} (hd : (obj d).Ordered) (key : String) (value : Json) :
    (Blocked d (Text.splitOn key '.') ∧
      putAt value (Text.splitOn key '.') d = (d, some value)) ∨
    (¬Blocked d (Text.splitOn key '.') ∧ ∃ placed : Dict Json,
      putAt value (Text.splitOn key '.') d = (placed, none) ∧
      at? (Text.splitOn key '.') (obj placed) = some value ∧
      (∀ path found, at? path (obj d) = some found → ¬path <+: Text.splitOn key '.' →
        at? path (obj placed) = some found) ∧
      ∀ path, Apart path (Text.splitOn key '.') → at? path (obj placed) = at? path (obj d)) := by
  rw [← place_eq_none_iff value (splitOn_ne_nil key), putAt_eq value _ hd]
  cases hplaced : place value (Text.splitOn key '.') d with
  | none => exact Or.inl ⟨rfl, rfl⟩
  | some placed =>
    refine Or.inr ⟨by simp, placed, rfl, at?_place hplaced, ?_, fun _ => at?_place_of_apart hplaced⟩
    intro path found hfound hnot
    rcases at?_place_of_at? hplaced hfound with hsame | ⟨hbegins, -⟩
    · exact hsame
    · exact absurd hbegins hnot

def addressed : Dict Json :=
  [("school", obj [("address", .str "A")])]

/-- A way that ends at a value after an object, and one that goes on in new objects. -/
theorem putAt_atomic_addressed :
    (obj addressed).Ordered ∧
      putAt .null ["school", "address", "city", "zip"] addressed = (addressed, some .null) ∧
      ∃ placed : Dict Json, putAt .null ["school", "", "zip"] addressed = (placed, none) ∧
        at? ["school", "", "zip"] (obj placed) = some .null ∧
        at? ["school", "address"] (obj placed) = some (.str "A") := by
  have hordered : (obj addressed).Ordered := by decide
  refine ⟨hordered, ?_, ?_⟩
  · rcases putAt_atomic hordered "school.address.city.zip" .null with ⟨-, hback⟩ | ⟨-, _, hput, -⟩
    · exact hback
    · have hnone : (putAt .null ["school", "address", "city", "zip"] addressed).2 = none :=
        congrArg Prod.snd hput
      exact absurd hnone (by decide)
  · rcases putAt_atomic hordered "school..zip" .null with
      ⟨-, hback⟩ | ⟨-, placed, hput, hthere, hkept, -⟩
    · have hsome : (putAt .null ["school", "", "zip"] addressed).2 = some .null :=
        congrArg Prod.snd hback
      exact absurd hsome (by decide)
    · exact ⟨placed, hput, hthere, hkept _ _ rfl (by decide)⟩

end FlatQuery.Json
