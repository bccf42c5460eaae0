import FlatQuery.Proofs.Compile
import FlatQuery.Proofs.Lookup
import FlatQuery.Reply.Answer

/-!
# From a reply to documents

A reply that can be read always makes an answer, with one document for each hit (`decode_of_read`).
Filling in nulls leaves every field that is present (`find?_fillMissing_of_isPresent`), adds nothing
but nulls under requested fields (`find?_fillMissing_eq_or`), and makes every requested field
present (`isPresent_fillMissing`).
-/

namespace FlatQuery

/-! ## Answers -/

theorem decode_of_read {raw : Json} {reply : Reply} (h : Reply.read raw = .ok reply) (c : Catalog)
    (plan : Plan) (searchTime : Option Double) :
    decode c plan raw searchTime =
      .ok (.ofDocuments plan reply (decodeHits c plan reply).1 searchTime,
        (decodeHits c plan reply).2) := by
  rw [decode, h]
  rfl

theorem documents_of_whole {plan : Plan} (h : plan.projection.source.isWholeDocument = true)
    (c : Catalog) (reply : Reply) :
    (decodeHits c plan reply).1 = reply.hits.hits.map wholeDocument := by
  rw [decodeHits, if_pos h]

theorem documents_of_not_whole {plan : Plan}
    (h : plan.projection.source.isWholeDocument = false) (c : Catalog) (reply : Reply) :
    (decodeHits c plan reply).1 = reply.hits.hits.map fun hit => (decodeHit c plan hit).1 := by
  rw [decodeHits, if_neg (by simp [h])]
  exact List.map_map

theorem length_documents (c : Catalog) (plan : Plan) (reply : Reply) :
    (decodeHits c plan reply).1.length = reply.hits.hits.length := by
  cases h : plan.projection.source.isWholeDocument with
  | true => rw [documents_of_whole h, List.length_map]
  | false => rw [documents_of_not_whole h, List.length_map]

/-- Documents come back as they are stored only if no field is asked for. -/
theorem isWholeDocument_build_eq_false {c : Catalog} {requested : List String}
    (h : requested ≠ []) (active flatten : Bool) :
    (Projection.build c requested active flatten).source.isWholeDocument = false := by
  rw [Projection.build, Projection.sourceFor]
  cases active with
  | true =>
    rw [if_pos rfl]
    split <;> rfl
  | false =>
    rw [if_neg Bool.false_ne_true, if_neg (by simpa using h)]
    split <;> rfl

/-! ## Missing fields -/

section Missing

variable (c : Catalog)

theorem isPresent_of_contains {d : Dict Json} {field : String} (h : d.contains field = true) :
    isPresent c d field = true := by
  rw [isPresent, h, Bool.true_or]

theorem isPresent_iff {d : Dict Json} {field : String} :
    isPresent c d field = true ↔
      ∃ key, (key = field ∨ c.nestedPath? field = some key) ∧ d.contains key = true := by
  rw [isPresent, Bool.or_eq_true, Option.any_eq_true]
  constructor
  · rintro (h | ⟨path, hpath, h⟩)
    · exact ⟨field, Or.inl rfl, h⟩
    · exact ⟨path, Or.inr hpath, h⟩
  · rintro ⟨key, rfl | hpath, h⟩
    · exact Or.inl h
    · exact Or.inr ⟨key, hpath, h⟩

theorem fillField_of_isPresent {found : Dict Json × Nat} {field : String}
    (h : isPresent c found.1 field = true) : fillField c found field = found := by
  rw [fillField, if_pos h]

theorem fillField_of_missing {found : Dict Json × Nat} {field : String}
    (h : isPresent c found.1 field = false) :
    fillField c found field = (found.1.insert field .null, found.2 + 1) := by
  rw [fillField, if_neg (by simp [h])]

/-- Nothing happens to a field that is present, and a missing one becomes null. -/
theorem fillField_cases (found : Dict Json × Nat) (field : String) :
    (isPresent c found.1 field = true ∧ fillField c found field = found) ∨
      isPresent c found.1 field = false ∧
        fillField c found field = (found.1.insert field .null, found.2 + 1) := by
  cases h : isPresent c found.1 field with
  | true => exact Or.inl ⟨rfl, fillField_of_isPresent c h⟩
  | false => exact Or.inr ⟨rfl, fillField_of_missing c h⟩

/-- A field that is present is not filled, and other fields do not touch it. -/
theorem find?_fillField_of_isPresent {found : Dict Json × Nat} {key : String}
    (h : isPresent c found.1 key = true) (field : String) :
    (fillField c found field).1.find? key = found.1.find? key := by
  obtain ⟨-, hfill⟩ | ⟨hmissing, hfill⟩ := fillField_cases c found field
  · rw [hfill]
  · have hne : key ≠ field := by
      rintro rfl
      rw [h] at hmissing
      cases hmissing
    rw [hfill, Dict.find?_insert_of_ne _ _ hne]

theorem find?_fillField_eq_or (found : Dict Json × Nat) (field key : String) :
    (fillField c found field).1.find? key = found.1.find? key ∨
      key = field ∧ (fillField c found field).1.find? key = some .null := by
  obtain ⟨-, hfill⟩ | ⟨-, hfill⟩ := fillField_cases c found field
  · exact Or.inl (by rw [hfill])
  · rw [hfill, Dict.find?_insert]
    by_cases h : key = field
    · exact Or.inr ⟨h, if_pos h⟩
    · exact Or.inl (if_neg h)

theorem isPresent_fillField (found : Dict Json × Nat) (field : String) :
    isPresent c (fillField c found field).1 field = true := by
  obtain ⟨hpresent, hfill⟩ | ⟨-, hfill⟩ := fillField_cases c found field
  · rw [hfill, hpresent]
  · rw [hfill]
    exact isPresent_of_contains c (Dict.contains_insert_self _ _ _)

theorem isPresent_fillField_of_isPresent {found : Dict Json × Nat} {field : String}
    (h : isPresent c found.1 field = true) (other : String) :
    isPresent c (fillField c found other).1 field = true := by
  obtain ⟨key, hkey, hcontains⟩ := (isPresent_iff c).1 h
  refine (isPresent_iff c).2 ⟨key, hkey, ?_⟩
  rw [Dict.contains, find?_fillField_of_isPresent c (isPresent_of_contains c hcontains)]
  exact hcontains

theorem isPresent_foldl_fillField_of_isPresent (fields : List String) {found : Dict Json × Nat}
    {field : String} (h : isPresent c found.1 field = true) :
    isPresent c (fields.foldl (fillField c) found).1 field = true := by
  induction fields generalizing found with
  | nil => exact h
  | cons other fields ih => exact ih (isPresent_fillField_of_isPresent c h other)

/-- A run of `fillField` leaves what is present as it is. -/
theorem find?_foldl_fillField_of_isPresent (fields : List String) {found : Dict Json × Nat}
    {key : String} (h : isPresent c found.1 key = true) :
    (fields.foldl (fillField c) found).1.find? key = found.1.find? key := by
  induction fields generalizing found with
  | nil => rfl
  | cons field fields ih =>
    rw [List.foldl_cons, ih (isPresent_fillField_of_isPresent c h field),
      find?_fillField_of_isPresent c h]

theorem isPresent_foldl_fillField (fields : List String) (found : Dict Json × Nat) :
    ∀ field ∈ fields, isPresent c (fields.foldl (fillField c) found).1 field = true := by
  induction fields generalizing found with
  | nil => simp
  | cons field fields ih =>
    rw [List.foldl_cons, List.forall_mem_cons]
    exact ⟨isPresent_foldl_fillField_of_isPresent c fields (isPresent_fillField c found field),
      ih (fillField c found field)⟩

theorem find?_foldl_fillField_eq_or (fields : List String) (found : Dict Json × Nat)
    (key : String) :
    (fields.foldl (fillField c) found).1.find? key = found.1.find? key ∨
      key ∈ fields ∧ (fields.foldl (fillField c) found).1.find? key = some .null := by
  induction fields generalizing found with
  | nil => exact Or.inl rfl
  | cons field fields ih =>
    rw [List.foldl_cons, List.mem_cons]
    obtain hsame | ⟨hmem, hnull⟩ := ih (fillField c found field)
    · rw [hsame]
      exact (find?_fillField_eq_or c found field key).imp id fun h => ⟨Or.inl h.1, h.2⟩
    · exact Or.inr ⟨Or.inr hmem, hnull⟩

theorem find?_fillMissing_of_isPresent (fields : List String) {d : Dict Json} {key : String}
    (h : isPresent c d key = true) : (fillMissing c fields d).1.find? key = d.find? key :=
  find?_foldl_fillField_of_isPresent c fields h

theorem find?_fillMissing_of_find? (fields : List String) {d : Dict Json} {key : String} {v : Json}
    (h : d.find? key = some v) : (fillMissing c fields d).1.find? key = some v := by
  have hpresent := isPresent_of_contains c (Dict.contains_of_find?_eq_some h)
  rw [find?_fillMissing_of_isPresent c fields hpresent, h]

theorem find?_fillMissing_eq_or (fields : List String) (d : Dict Json) (key : String) :
    (fillMissing c fields d).1.find? key = d.find? key ∨
      key ∈ fields ∧ (fillMissing c fields d).1.find? key = some .null :=
  find?_foldl_fillField_eq_or c fields (d, 0) key

/-- What has been added is a null for a requested field. -/
theorem find?_fillMissing_of_added (fields : List String) {d : Dict Json} {key : String}
    (h : d.contains key = false)
    (hadded : (fillMissing c fields d).1.contains key = true) :
    key ∈ fields ∧ (fillMissing c fields d).1.find? key = some .null := by
  obtain hsame | hnull := find?_fillMissing_eq_or c fields d key
  · rw [Dict.contains, hsame, ← Dict.contains, h] at hadded
    cases hadded
  · exact hnull

theorem isPresent_fillMissing (fields : List String) (d : Dict Json) :
    ∀ field ∈ fields, isPresent c (fillMissing c fields d).1 field = true :=
  isPresent_foldl_fillField c fields (d, 0)

end Missing

/-! ## Documents -/

/-- The parts of a hit put together, before missing fields are filled in. -/
def gathered (c : Catalog) (plan : Plan) (hit : Hit) : Dict Json :=
  (unwrapStandard c hit.merged).insertAll (innerEntries plan hit)

theorem decodeFlat_eq (c : Catalog) (plan : Plan) (hit : Hit) :
    (decodeFlat c plan hit).1 =
      (fillMissing c plan.projection.requested (gathered c plan hit)).1 := rfl

end FlatQuery
