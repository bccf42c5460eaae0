import FlatQuery.Proofs.Documents
import FlatQuery.Proofs.Hierarchy

/-!
# Requested fields are always there

Every requested field shows in every document of an answer, by itself or by the nested path that
owns it (`requested_shown`). Null filling puts it into the flat form; what remains is that nesting
loses no key (`shows_nest`): an entry shows once it has been placed, and entries that are placed
later do not hide it.
-/

namespace FlatQuery

namespace Json

/-- A key shows in an object if it stands there whole or spells a path to a value. -/
def Shows (d : Dict Json) (key : String) : Prop :=
  d.contains key = true ∨ (at? (Text.splitOn key '.') (.obj d)).isSome = true

/-! ## Nesting keeps keys -/

/-- An entry whose key stays whole does not disturb paths, the steps of which have no dots. -/
theorem isSome_at?_insert_dotted {key other : String} (h : '.' ∈ key.toList) (value : Json)
    {d : Dict Json} (hshown : (at? (Text.splitOn other '.') (.obj d)).isSome = true) :
    (at? (Text.splitOn other '.') (.obj (d.insert key value))).isSome = true := by
  cases hsteps : Text.splitOn other '.' with
  | nil => rfl
  | cons step rest =>
    have hne : step ≠ key := by
      rintro rfl
      exact Text.notMem_of_mem_splitOn (hsteps ▸ List.mem_cons_self) h
    rw [at?_insert_of_ne hne, ← hsteps]
    exact hshown

/-- What shows still shows after one more entry. -/
theorem shows_placeEntry_of_shows {d : Dict Json} (hd : (obj d).Ordered) {key : String}
    (h : Shows d key) (entry : String × Json) : Shows (placeEntry d entry) key := by
  rw [placeEntry_eq hd]
  split
  · rename_i placed hplaced
    exact h.imp (contains_place hplaced) (isSome_at?_place hplaced)
  · split
    · rename_i hdot
      rw [List.contains_iff_mem] at hdot
      exact h.imp (fun h => Dict.contains_insert_of_contains h _ _)
        (isSome_at?_insert_dotted hdot _)
    · exact h

/-- An entry shows once it has been placed. One that is left out was there before. -/
theorem shows_placeEntry {d : Dict Json} (hd : (obj d).Ordered) (entry : String × Json) :
    Shows (placeEntry d entry) entry.1 := by
  rw [placeEntry_eq hd]
  split
  · rename_i placed hplaced
    right
    rw [at?_place hplaced, Option.isSome_some]
  · rename_i hfull
    split
    · exact Or.inl (Dict.contains_insert_self _ _ _)
    · rename_i hdot
      rw [List.contains_iff_mem] at hdot
      left
      rw [Text.splitOn_of_notMem hdot, place] at hfull
      by_contra hfree
      rw [if_neg hfree] at hfull
      cases hfull

theorem shows_foldl_placeEntry_of_shows {entries : List (String × Json)}
    (hentries : ∀ entry ∈ entries, entry.2.Ordered) {d : Dict Json} (hd : (obj d).Ordered)
    {key : String} (h : Shows d key) : Shows (entries.foldl placeEntry d) key := by
  induction entries generalizing d with
  | nil => exact h
  | cons entry entries ih =>
    rw [List.forall_mem_cons] at hentries
    exact ih hentries.2 (ordered_placeEntry hd hentries.1) (shows_placeEntry_of_shows hd h entry)

theorem shows_foldl_placeEntry {entries : List (String × Json)}
    (hentries : ∀ entry ∈ entries, entry.2.Ordered) {d : Dict Json} (hd : (obj d).Ordered) :
    ∀ entry ∈ entries, Shows (entries.foldl placeEntry d) entry.1 := by
  induction entries generalizing d with
  | nil => simp
  | cons entry entries ih =>
    rw [List.forall_mem_cons] at hentries
    have hplaced := ordered_placeEntry hd hentries.1
    rw [List.foldl_cons, List.forall_mem_cons]
    exact ⟨shows_foldl_placeEntry_of_shows hentries.2 hplaced (shows_placeEntry hd entry),
      ih hentries.2 hplaced⟩

/-- Every key of the flat form shows in the hierarchy. -/
theorem shows_nest {flat : Dict Json} {key : String} (h : flat.contains key = true) :
    Shows (nest flat) key := by
  obtain ⟨value, hmem⟩ := Dict.contains_iff_exists_mem.1 h
  refine shows_foldl_placeEntry (ordered_nestMembers flat) ordered_empty (key, nestValue value) ?_
  rw [nestMembers_eq_map]
  exact List.mem_map.2 ⟨_, hmem, rfl⟩

end Json

/-! ## Documents -/

theorem isPresent_decodeFlat (c : Catalog) (plan : Plan) (hit : Hit) :
    ∀ field ∈ plan.projection.requested,
      isPresent c (decodeFlat c plan hit).1 field = true :=
  isPresent_fillMissing c plan.projection.requested _

/-- A requested field is never omitted: it or the nested path that owns it is a key of the document,
or with nested keys spells a path in it. -/
theorem requested_shown {c : Catalog} {settings : PlanSettings} {r : Request} {plan : Plan}
    {raw : Json} {reply : Reply} (h : compile c settings r = .ok plan)
    (hread : Reply.read raw = .ok reply) (searchTime : Option Double) :
    ∃ answer counts, decode c plan raw searchTime = .ok (answer, counts) ∧
      answer.documents.length = reply.hits.hits.length ∧
      ∀ document ∈ answer.documents, ∀ field ∈ r.options.fields,
        ∃ members key, document = .obj members ∧
          (key = field ∨ c.nestedPath? field = some key) ∧
          if r.options.keysNested then Json.Shows members key
          else Dict.contains members key = true := by
  refine ⟨_, _, decode_of_read hread c plan searchTime, length_documents c plan reply, ?_⟩
  obtain ⟨conditions, classified, hstages⟩ := stages_of_compile h
  have hkeys : plan.output.keysNested = r.options.keysNested := by
    rw [hstages.output]
    rfl
  intro document hdocument field hfield
  have hrequested : field ∈ plan.projection.requested := by
    rw [hstages.projection]
    exact hfield
  have hprojected : plan.projection.source.isWholeDocument = false := by
    rw [hstages.projection]
    exact isWholeDocument_build_eq_false (List.ne_nil_of_mem hfield) _ _
  rw [Answer.ofDocuments, documents_of_not_whole hprojected] at hdocument
  obtain ⟨hit, -, rfl⟩ := List.mem_map.1 hdocument
  obtain ⟨key, hkey, hcontains⟩ :=
    (isPresent_iff c).1 (isPresent_decodeFlat c plan hit field hrequested)
  refine ⟨_, key, rfl, hkey, ?_⟩
  rw [hkeys]
  cases r.options.keysNested with
  | true => exact Json.shows_nest hcontains
  | false => exact hcontains

/-- A field beneath another requested field shows although there is no object to put it in. -/
theorem requested_shown_beneath_value :
    ∃ plan answer counts,
      compile {} {} { options := { fields := ["a.b", "a"], keysNested := true } } = .ok plan ∧
      decode {} plan (.single "hits" (.single "hits" (.arr [.single "fields"
        (.single "a" (.arr [.bool true]))]))) none = .ok (answer, counts) ∧
      answer.documents.length = 1 ∧
      ∀ document ∈ answer.documents, ∃ members, document = .obj members ∧
        Json.Shows members "a.b" := by
  have h : compile {} {} { options := { fields := ["a.b", "a"], keysNested := true } } =
      .ok _ := rfl
  have hread : Reply.read (.single "hits" (.single "hits" (.arr [.single "fields"
      (.single "a" (.arr [.bool true]))]))) =
        .ok { hits := { hits := [{ fields := some [("a", .arr [.bool true])] }] } } := rfl
  obtain ⟨answer, counts, hdecode, hlength, hshown⟩ := requested_shown h hread none
  refine ⟨_, answer, counts, h, hdecode, hlength, fun document hdocument => ?_⟩
  obtain ⟨members, key, hobj, hkey, hshows⟩ := hshown document hdocument "a.b" (by simp)
  refine ⟨members, hobj, ?_⟩
  obtain rfl | hpath := hkey
  · exact hshows
  · cases hpath

end FlatQuery
