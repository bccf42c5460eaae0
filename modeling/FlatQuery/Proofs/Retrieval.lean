import FlatQuery.Proofs.Channels
import FlatQuery.Proofs.Flattening
import FlatQuery.Proofs.InnerKeys
import FlatQuery.Reply.Document

/-!
# What an engine returns

An engine that is sent the body of a plan returns a hit for each document that it finds.
`Retrieval.Returns` says what is in the hit: the values of the listed fields, of the source the
lists at nested paths reduced to the included keys, and for each nested query the subdocuments that
match. `Retrieval.Decoded` says what a document of the answer should then be. How an engine
matches, orders and reduces subdocuments is left open.
-/

namespace FlatQuery

/-! ## Stored documents -/

/-- A document as an engine keeps it. -/
structure StoredDocument where
  /-- The scalar values of each field. -/
  values : String → List Json
  /-- The list of subdocuments at each nested path, if there is one. -/
  subdocuments : String → Option (List Json)

/-- The value of a field: the scalar itself if there is one, a list of several, or null. -/
def StoredDocument.value (doc : StoredDocument) (field : String) : Json :=
  match doc.values field with
  | [] => .null
  | [v] => v
  | vs => .arr vs

/-- What differs from engine to engine. -/
structure Retrieval where
  /-- The subdocuments that match a nested query, in the order in which they come back. -/
  matching : StoredDocument → NestedQuery → List Json
  /-- What is left of a subdocument of which only some keys are asked for. -/
  reduce : List String → Json → Json

/-! ## Hits -/

/-- The leaves of the source of a hit. -/
def Hit.sourceLeaves (hit : Hit) : List (List String × Json) :=
  Json.memberLeaves ((hit.source.bind Json.members?).getD [])

/-- The keys that fields add to a path. -/
def keysBeneath (path : String) (fields : List String) : List String :=
  fields.filterMap (relativeKey? path)

/-- What the hit of a document holds. A path may be spelled in the source by objects within objects
or by a key with dots. -/
structure Retrieval.Returns (engine : Retrieval) (c : Catalog) (plan : Plan)
    (doc : StoredDocument) (hit : Hit) : Prop where
  /-- Each listed field that has values comes back as the list of them. -/
  fields : ∀ field, Dict.find? (hit.fields.getD []) field =
    if field ∈ listedFields plan.body ∧ doc.values field ≠ [] then some (.arr (doc.values field))
    else none
  /-- The source holds lists of subdocuments, reduced to the included keys, and nothing else. -/
  source : ∀ leaf ∈ hit.sourceLeaves, ∃ path ∈ c.nested.paths, ∃ subs,
    Json.dotted leaf.1 = path ∧ keysBeneath path (includedFields plan.body) ≠ [] ∧
      doc.subdocuments path = some subs ∧
      leaf.2 = .arr (subs.map (engine.reduce (keysBeneath path (includedFields plan.body))))
  /-- Each list with included keys is there. -/
  source_complete : ∀ path ∈ c.nested.paths, keysBeneath path (includedFields plan.body) ≠ [] →
    ∀ subs, doc.subdocuments path = some subs →
      ∃ leaf ∈ hit.sourceLeaves, Json.dotted leaf.1 = path
  /-- The sections are those of the nested queries, each with the sources of what matches. -/
  inner : ∀ entry ∈ hit.innerHits.getD [], ∃ q ∈ plan.combinedClause.nestedNodes,
    entry.1 = q.path ∧ ∃ found, Hits.ofSection? entry.2 = some found ∧
      found.hits.map Hit.source = (engine.matching doc q).map some
  /-- Each nested query has a section. -/
  inner_complete : ∀ q ∈ plan.combinedClause.nestedNodes,
    ∃ entry ∈ hit.innerHits.getD [], entry.1 = q.path

/-! ## Documents of an answer -/

/-- Whether a field is a nested path or belongs to one. -/
def Catalog.OnNestedPath (c : Catalog) (field : String) : Prop :=
  field ∈ c.nested.paths ∨ c.isNested field = true

/-- The entries under one of the keys or beneath it; without keys, all entries. -/
def keepBeneath (keys : List String) (d : Dict Json) : Dict Json :=
  if keys.isEmpty then d
  else d.filter fun entry =>
    keys.any fun key => entry.1 == key || (relativeKey? key entry.1).isSome

/-- What a document of the answer says about a stored document. -/
structure Retrieval.Decoded (engine : Retrieval) (c : Catalog) (plan : Plan)
    (fields : List String) (doc : StoredDocument) (d : Dict Json) : Prop where
  /-- Fields that are not nested have their values. -/
  standard : ∀ field ∈ fields, ¬c.OnNestedPath field → d.find? field = some (doc.value field)
  /-- Each queried path has the subdocuments that match, in the order of the engine, in dotted form
  and reduced to the requested keys. -/
  matched : ∀ q ∈ plan.combinedClause.nestedNodes, d.find? q.path =
    some (.arr ((engine.matching doc q).map fun sub =>
      .obj (keepBeneath (requestedKeys c fields q.path) sub.flatten)))
  /-- Without a nested query, a path with requested keys has its list, reduced to them. A path whose
  name ends in an operator does not own itself, and is not meant. -/
  stored : plan.hasNestedQuery = false → ∀ path, requestedKeys c fields path ≠ [] →
    c.isNested path = true → ∀ subs, doc.subdocuments path = some subs →
      d.find? path = some (.arr (subs.map (engine.reduce (requestedKeys c fields path))))
  /-- Where there is no such list, its requested fields are null. -/
  absent : plan.hasNestedQuery = false → ∀ field ∈ fields, ∀ path,
    c.nestedPath? field = some path → doc.subdocuments path = none → d.find? field = some .null
  /-- There is nothing else. -/
  only : ∀ key, d.contains key = true →
    key ∈ fields ∧ (plan.hasNestedQuery = true → ¬c.OnNestedPath key) ∨
      (∃ q ∈ plan.combinedClause.nestedNodes, q.path = key) ∨
      plan.hasNestedQuery = false ∧ requestedKeys c fields key ≠ []

/-! ## Sources in flat form -/

/-- The source of a hit in flat form. -/
def Hit.flatSource (hit : Hit) : Dict Json :=
  (hit.source.map Json.flatten).getD []

theorem mem_flatSource {hit : Hit} {key : String} {v : Json} (h : (key, v) ∈ hit.flatSource) :
    ∃ leaf ∈ hit.sourceLeaves, Json.dotted leaf.1 = key ∧ leaf.2 = v := by
  unfold Hit.flatSource at h
  unfold Hit.sourceLeaves
  cases hsource : hit.source with
  | none => simp [hsource] at h
  | some source =>
    rw [hsource] at h
    cases source with
    | obj members => exact Json.mem_flatten_obj h
    | _ => cases h

theorem contains_flatSource (hit : Hit) (key : String) :
    hit.flatSource.contains key = true ↔
      ∃ leaf ∈ hit.sourceLeaves, Json.dotted leaf.1 = key := by
  unfold Hit.flatSource Hit.sourceLeaves
  cases hit.source with
  | none => simp [Dict.contains, Json.memberLeaves]
  | some source =>
    cases source with
    | obj members => exact Json.contains_flatten_obj members key
    | _ => simp [Dict.contains, Json.memberLeaves, Json.flatten, Json.members?]

/-! ## Subdocuments -/

/-- A key that names a value of a subdocument, not an object with values beneath. -/
def Json.IsLeafKey (sub : Json) (key : String) : Prop :=
  ∀ entry ∈ sub.flatten, relativeKey? key entry.1 = none

/-- Where the kept keys are those of leaves, nothing is lost beneath them. -/
theorem keepKeys_eq_keepBeneath {keys : List String} {sub : Json}
    (h : ∀ key ∈ keys, sub.IsLeafKey key) :
    keepKeys (if keys.isEmpty then none else some keys) sub.flatten =
      keepBeneath keys sub.flatten := by
  unfold keepBeneath
  split
  · rfl
  · rw [keepKeys]
    refine List.filter_congr fun entry hentry => ?_
    rw [Bool.eq_iff_iff, List.contains_iff_mem, List.any_eq_true]
    constructor
    · intro hmem
      exact ⟨entry.1, hmem, by simp⟩
    · rintro ⟨key, hkey, heq⟩
      rw [h key hkey entry hentry, Option.isSome_none, Bool.or_false, beq_iff_eq] at heq
      rw [heq]
      exact hkey

/-- Inner documents are made of the sources of a section. -/
theorem map_innerDocument {hits : List Hit} {subs : List Json}
    (h : hits.map Hit.source = subs.map some) (kept : Option (List String)) :
    hits.map (innerDocument kept) = subs.map fun sub => .obj (keepKeys kept sub.flatten) := by
  have hsource : ∀ hit : Hit, innerDocument kept hit =
      Json.obj (keepKeys kept ((hit.source.map Json.flatten).getD [])) := fun _ => rfl
  calc hits.map (innerDocument kept)
      = (hits.map Hit.source).map fun source =>
          Json.obj (keepKeys kept ((source.map Json.flatten).getD [])) := by
        rw [List.map_map]
        exact List.map_congr_left fun hit _ => hsource hit
    _ = subs.map fun sub => .obj (keepKeys kept sub.flatten) := by
        rw [h, List.map_map]
        rfl

end FlatQuery
