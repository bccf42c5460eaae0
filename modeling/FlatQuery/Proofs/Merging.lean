import FlatQuery.Proofs.Documents
import FlatQuery.Proofs.InnerKeys
import FlatQuery.Proofs.Replies
import FlatQuery.Proofs.Retrieval
import Mathlib.Algebra.GroupWithZero.Nat

/-!
# What is merged into a document

`Merged` says of each key of a document where its value comes from: the matching subdocuments of a
queried path, then the source of the hit, then its fields, and null for what is left of the requested
fields. The documents of a reply are merged so from its hits, and the counts say how many lists of
subdocuments and how many nulls there are (`decodeHits_merged`).
-/

namespace FlatQuery

/-! ## Parts of a hit -/

/-- The value under a key of the flat form of the source, if that is an object, or else of a field. -/
def Hit.value? (hit : Hit) (key : String) : Option Json :=
  match hit.source with
  | some (.obj members) =>
    (Dict.find? (Json.flatten (.obj members)) key).or (Dict.find? (hit.fields.getD []) key)
  | _ => Dict.find? (hit.fields.getD []) key

namespace Plan

variable (plan : Plan)

/-- The matching subdocuments of a path, if the plan has a nested query on it and its section can be
read. There are none where nested fields come from the source. -/
def matched? (hit : Hit) (path : String) : Option (List Hit) :=
  if plan.output.flattenNested = false ∧ ∃ q ∈ plan.nestedQueries, q.path = path then
    ((Dict.find? (hit.innerHits.getD []) path).bind Hits.ofSection?).map Hits.hits
  else none

/-- The keys that the projection has registered for a path. -/
def registeredKeys (path : String) : List String :=
  (plan.projection.innerKeys.find? path).getD []

/-- A subdocument in flat form, reduced to the registered keys of its path if there are any. -/
def subdocument (path : String) (sub : Hit) : Json :=
  .obj (sub.flatSource.filter fun entry =>
    plan.registeredKeys path = [] ∨ entry.1 ∈ plan.registeredKeys path)

/-- The paths whose subdocuments are in the document of a hit. -/
def matchedPaths (hit : Hit) : List String :=
  (Dict.keys (hit.innerHits.getD [])).filter fun path => (plan.matched? hit path).isSome

/-- The keys of a document that its hit says nothing about. -/
def addedKeys (hit : Hit) (d : Dict Json) : List String :=
  d.keys.filter fun key => (plan.matched? hit key).isNone && (hit.value? key).isNone

end Plan

/-- The keys of the document `d` of a hit and what is under them. -/
structure Merged (c : Catalog) (plan : Plan) (hit : Hit) (d : Dict Json) : Prop where
  ascending : Dict.Ascending d
  matched : ∀ path subs, plan.matched? hit path = some subs →
    d.find? path = some (.arr (subs.map (plan.subdocument path)))
  /-- A value stays as it is under a nested key, or if it is no list or a list of several. -/
  kept : ∀ key v, plan.matched? hit key = none → hit.value? key = some v →
    (c.isNested key = true ∨ ∀ items, v = .arr items → 1 < items.length) → d.find? key = some v
  single : ∀ key v, plan.matched? hit key = none → hit.value? key = some (.arr [v]) →
    c.isNested key = false → d.find? key = some v
  empty : ∀ key, plan.matched? hit key = none → hit.value? key = some (.arr []) →
    c.isNested key = false → d.find? key = some .null
  added : ∀ key ∈ plan.addedKeys hit d,
    key ∈ plan.projection.requested ∧ d.find? key = some .null
  /-- A requested field is there, or the nested path that owns it. -/
  present : ∀ field ∈ plan.projection.requested,
    ∃ key, (key = field ∨ c.nestedPath? field = some key) ∧ d.contains key = true

/-! ## Look-up in the parts -/

theorem find?_merged (hit : Hit) (key : String) : hit.merged.find? key = hit.value? key := by
  unfold Hit.merged Hit.value?
  cases hit.source with
  | none => rfl
  | some source =>
    cases source with
    | obj members => exact Dict.find?_insertAll_of_ascending (Dict.ascending_ofList _) _ key
    | _ => rfl

section Subdocuments

variable (plan : Plan)

theorem queriesPath_iff_exists_query {path : String} :
    plan.queriesPath path = true ↔ ∃ q ∈ plan.nestedQueries, q.path = path := by
  rw [Plan.queriesPath_iff_exists_group, Plan.nestedQueries]
  constructor
  · rintro ⟨g, hg, rfl⟩
    exact ⟨g.query, List.mem_map_of_mem hg, rfl⟩
  · rintro ⟨q, hq, rfl⟩
    obtain ⟨g, hg, rfl⟩ := List.mem_map.1 hq
    exact ⟨g, hg, rfl⟩

theorem innerDocument_keptKeys? (path : String) (sub : Hit) :
    innerDocument (plan.projection.keptKeys? path) sub = plan.subdocument path sub := by
  rw [innerDocument, Plan.subdocument, Projection.keptKeys?, filter_eq_getD]
  congr 1
  show keepKeys (if (plan.registeredKeys path).isEmpty then none
    else some (plan.registeredKeys path)) sub.flatSource = _
  cases hkeys : plan.registeredKeys path with
  | nil => simp [keepKeys]
  | cons key keys =>
    refine List.filter_congr fun entry _ => ?_
    simp

theorem fst_of_subdocuments? (entry other : String × Json)
    (h : subdocuments? plan entry = some other) : other.1 = entry.1 := by
  unfold subdocuments? at h
  split at h
  · obtain ⟨hits, -, rfl⟩ := Option.map_eq_some_iff.1 h
    rfl
  · cases h

theorem subdocuments?_of_queried {path : String} (h : ∃ q ∈ plan.nestedQueries, q.path = path)
    (found : Json) :
    subdocuments? plan (path, found) = (Hits.ofSection? found).map fun hits =>
      (path, .arr (hits.hits.map (plan.subdocument path))) := by
  have hsub : innerDocument (plan.projection.keptKeys? path) = plan.subdocument path :=
    funext (innerDocument_keptKeys? plan path)
  rw [subdocuments?, if_pos ((queriesPath_iff_exists_query plan).2 h), hsub]

theorem subdocuments?_of_not_queried {path : String}
    (h : ¬∃ q ∈ plan.nestedQueries, q.path = path) (found : Json) :
    subdocuments? plan (path, found) = none := by
  rw [subdocuments?, if_neg fun hqueried => h ((queriesPath_iff_exists_query plan).1 hqueried)]

variable {hit : Hit} (h : hit.Ordered)
include h

theorem ascending_innerEntries : Dict.Ascending (innerEntries plan hit) := by
  unfold innerEntries
  split
  · exact List.Pairwise.nil
  · exact h.innerHits.filterMap (fst_of_subdocuments? plan)

theorem find?_innerEntries (path : String) :
    Dict.find? (innerEntries plan hit) path =
      (plan.matched? hit path).map fun subs => .arr (subs.map (plan.subdocument path)) := by
  unfold innerEntries Plan.matched?
  by_cases hflat : plan.output.flattenNested = true
  · rw [if_pos hflat, if_neg (by simp [hflat])]
    rfl
  · rw [if_neg hflat, Dict.find?_filterMap h.innerHits (fst_of_subdocuments? plan)]
    rw [Bool.not_eq_true] at hflat
    by_cases hquery : ∃ q ∈ plan.nestedQueries, q.path = path
    · rw [if_pos ⟨hflat, hquery⟩]
      cases Dict.find? (hit.innerHits.getD []) path with
      | none => rfl
      | some found =>
        rw [Option.bind_some, Option.bind_some, subdocuments?_of_queried plan hquery,
          Option.map_map, Option.map_map]
        rfl
    · rw [if_neg fun hboth => hquery hboth.2]
      cases Dict.find? (hit.innerHits.getD []) path with
      | none => rfl
      | some found =>
        rw [Option.bind_some, subdocuments?_of_not_queried plan hquery]
        rfl

/-- There is one list of subdocuments for each path that has them. -/
theorem keys_innerEntries : Dict.keys (innerEntries plan hit) = plan.matchedPaths hit := by
  have hcontains : ∀ path, Dict.contains (innerEntries plan hit) path =
      (plan.matched? hit path).isSome := by
    intro path
    rw [Dict.contains, find?_innerEntries plan h, Option.isSome_map]
  unfold Plan.matchedPaths
  rw [← funext hcontains]
  unfold innerEntries
  split
  · symm
    exact List.filter_eq_nil_iff.2 fun path _ => Bool.false_ne_true
  · exact Dict.keys_filterMap h.innerHits (fst_of_subdocuments? plan)

end Subdocuments

/-! ## Lists of at most one value -/

theorem unwrap_of_long {v : Json} (h : ∀ items, v = .arr items → 1 < items.length) :
    unwrap v = v := by
  cases v with
  | arr items =>
    have hlong : 1 < items.length := h items rfl
    match items with
    | first :: second :: rest => rfl
  | _ => rfl

/-! ## What is gathered -/

section Gathered

variable (c : Catalog) (plan : Plan) {hit : Hit} (h : hit.Ordered)
include h

theorem ascending_gathered : Dict.Ascending (gathered c plan hit) :=
  ((h.fields.insertAll _).mapValues _).insertAll _

theorem find?_gathered (key : String) : (gathered c plan hit).find? key =
    ((plan.matched? hit key).map fun subs => Json.arr (subs.map (plan.subdocument key))).or
      ((hit.value? key).map fun v => if c.isNested key then v else unwrap v) := by
  rw [gathered, Dict.find?_insertAll_of_ascending (ascending_innerEntries plan h),
    find?_innerEntries plan h, unwrapStandard, Dict.find?_mapValues, find?_merged]

theorem find?_gathered_of_matched {path : String} {subs : List Hit}
    (hmatched : plan.matched? hit path = some subs) :
    (gathered c plan hit).find? path = some (.arr (subs.map (plan.subdocument path))) := by
  rw [find?_gathered c plan h, hmatched, Option.map_some, Option.some_or]

theorem find?_gathered_of_value {key : String} {v : Json}
    (hmatched : plan.matched? hit key = none) (hvalue : hit.value? key = some v) :
    (gathered c plan hit).find? key = some (if c.isNested key then v else unwrap v) := by
  rw [find?_gathered c plan h, hmatched, hvalue, Option.map_none, Option.none_or, Option.map_some]

theorem contains_gathered (key : String) : (gathered c plan hit).contains key =
    !((plan.matched? hit key).isNone && (hit.value? key).isNone) := by
  rw [Dict.contains, find?_gathered c plan h]
  cases plan.matched? hit key with
  | some subs => rfl
  | none => cases hit.value? key <;> rfl

end Gathered

/-! ## Filling in nulls -/

section Filling

variable (c : Catalog)

theorem ascending_fillMissing {d : Dict Json} (h : d.Ascending) (fields : List String) :
    (fillMissing c fields d).1.Ascending := by
  unfold fillMissing
  refine List.foldlRecOn (motive := fun found : Dict Json × Nat => found.1.Ascending)
    fields (fillField c) h ?_
  intro found hfound field _
  obtain ⟨-, hfill⟩ | ⟨-, hfill⟩ := fillField_cases c found field
  · rw [hfill]
    exact hfound
  · rw [hfill]
    exact hfound.insert field .null

/-- The keys of `e` that are not in `d`. -/
def newKeys (d e : Dict Json) : List String :=
  e.keys.filter fun key => !d.contains key

/-- `found` has come from `d` by additions, and counts them. -/
structure CountsNew (d : Dict Json) (found : Dict Json × Nat) : Prop where
  kept : ∀ key, d.contains key = true → found.1.contains key = true
  count : found.2 = (newKeys d found.1).length

theorem CountsNew.fillField {d : Dict Json} {found : Dict Json × Nat} (h : CountsNew d found)
    (field : String) : CountsNew d (fillField c found field) := by
  obtain ⟨-, hfill⟩ | ⟨hmissing, hfill⟩ := fillField_cases c found field
  · rw [hfill]
    exact h
  · have hnew : found.1.contains field = false := by
      rw [isPresent, Bool.or_eq_false_iff] at hmissing
      exact hmissing.1
    have hnewer : (!d.contains field) = true := by
      rw [Bool.not_eq_true', ← Bool.not_eq_true]
      intro hcontains
      rw [h.kept field hcontains] at hnew
      cases hnew
    rw [hfill]
    refine ⟨fun key hkey => Dict.contains_insert_of_contains (h.kept key hkey) _ _, ?_⟩
    have hkeys : (found.1.insert field .null).keys.Perm (field :: found.1.keys) :=
      (Dict.insert_perm_cons hnew .null).map Prod.fst
    calc found.2 + 1 = ((newKeys d found.1).length + 1) := by rw [h.count]
      _ = ((field :: found.1.keys).filter fun key => !d.contains key).length := by
        rw [List.filter_cons, if_pos hnewer, List.length_cons, newKeys]
      _ = (newKeys d (found.1.insert field .null)).length := ((hkeys.filter _).length_eq).symm

theorem countsNew_fillMissing (d : Dict Json) (fields : List String) :
    CountsNew d (fillMissing c fields d) := by
  have hnone : newKeys d d = [] := by
    refine List.filter_eq_nil_iff.2 fun key hkey => ?_
    obtain ⟨entry, hentry, rfl⟩ := List.mem_map.1 hkey
    rw [Dict.contains_iff_exists_mem.2 ⟨entry.2, hentry⟩]
    decide
  have hstart : CountsNew d (d, 0) := ⟨fun _ => id, by rw [hnone]; rfl⟩
  exact List.foldlRecOn (motive := CountsNew d) fields (FlatQuery.fillField c) hstart
    fun found hfound field _ => hfound.fillField c field

end Filling

/-! ## Documents -/

section Document

variable {c : Catalog} {plan : Plan} {hit : Hit} (h : hit.Ordered)
include h

/-- The keys that a document has beyond what is gathered are those its hit says nothing about. -/
theorem newKeys_gathered (d : Dict Json) :
    newKeys (gathered c plan hit) d = plan.addedKeys hit d := by
  refine List.filter_congr fun key _ => ?_
  rw [contains_gathered c plan h, Bool.not_not]

theorem merged_decodeFlat : Merged c plan hit (decodeFlat c plan hit).1 := by
  rw [decodeFlat_eq]
  have hfound : ∀ key v, plan.matched? hit key = none → hit.value? key = some v →
      (fillMissing c plan.projection.requested (gathered c plan hit)).1.find? key =
        some (if c.isNested key then v else unwrap v) := by
    intro key v hmatched hvalue
    exact find?_fillMissing_of_find? c _ (find?_gathered_of_value c plan h hmatched hvalue)
  constructor
  case ascending => exact ascending_fillMissing c (ascending_gathered c plan h) _
  case matched =>
    intro path subs hmatched
    exact find?_fillMissing_of_find? c _ (find?_gathered_of_matched c plan h hmatched)
  case kept =>
    intro key v hmatched hvalue hlong
    rw [hfound key v hmatched hvalue]
    by_cases hnested : c.isNested key = true
    · rw [if_pos hnested]
    · rw [if_neg hnested, unwrap_of_long (hlong.resolve_left hnested)]
  case single =>
    intro key v hmatched hvalue hnested
    rw [hfound key _ hmatched hvalue, if_neg (by simp [hnested])]
    rfl
  case empty =>
    intro key hmatched hvalue hnested
    rw [hfound key _ hmatched hvalue, if_neg (by simp [hnested])]
    rfl
  case added =>
    intro key hkey
    rw [← newKeys_gathered h, newKeys, List.mem_filter, Bool.not_eq_true'] at hkey
    obtain ⟨entry, hentry, rfl⟩ := List.mem_map.1 hkey.1
    exact find?_fillMissing_of_added c _ hkey.2
      (Dict.contains_iff_exists_mem.2 ⟨entry.2, hentry⟩)
  case present =>
    intro field hfield
    exact (isPresent_iff c).1 (isPresent_fillMissing c _ _ field hfield)

theorem innerHitGroups_decodeFlat :
    (decodeFlat c plan hit).2.innerHitGroups = (plan.matchedPaths hit).length := by
  rw [← keys_innerEntries plan h, Dict.keys, List.length_map]
  rfl

theorem nullFields_decodeFlat : (decodeFlat c plan hit).2.nullFields =
    (plan.addedKeys hit (decodeFlat c plan hit).1).length := by
  rw [← newKeys_gathered h (c := c)]
  exact (countsNew_fillMissing c (gathered c plan hit) plan.projection.requested).count

end Document

/-! ## Replies -/

namespace DecodeCounts

theorem foldl_add (counts : List DecodeCounts) (start : DecodeCounts) :
    counts.foldl add start =
      ⟨start.innerHitGroups + (counts.map innerHitGroups).sum,
        start.nullFields + (counts.map nullFields).sum⟩ := by
  induction counts generalizing start with
  | nil => rfl
  | cons first counts ih =>
    rw [List.foldl_cons, ih, List.map_cons, List.map_cons, List.sum_cons, List.sum_cons,
      ← Nat.add_assoc, ← Nat.add_assoc]
    rfl

theorem sum_eq (counts : List DecodeCounts) :
    sum counts = ⟨(counts.map innerHitGroups).sum, (counts.map nullFields).sum⟩ := by
  rw [sum, foldl_add, Nat.zero_add, Nat.zero_add]

end DecodeCounts

/-- Where keys stay dotted and documents are not wanted as they are stored, each document is merged
from its hit, and the counts are those of the merged lists of subdocuments and of the keys added. -/
theorem decodeHits_merged {c : Catalog} {plan : Plan}
    (hparts : plan.projection.source.isWholeDocument = false)
    (hdotted : plan.output.keysNested = false) {reply : Reply}
    (hordered : ∀ hit ∈ reply.hits.hits, hit.Ordered) :
    ∃ docs : List (Dict Json), (decodeHits c plan reply).1 = docs.map Json.obj ∧
      List.Forall₂ (Merged c plan) reply.hits.hits docs ∧
      (decodeHits c plan reply).2.innerHitGroups =
        (reply.hits.hits.map fun hit => (plan.matchedPaths hit).length).sum ∧
      (decodeHits c plan reply).2.nullFields =
        (List.zipWith (fun hit d => (plan.addedKeys hit d).length) reply.hits.hits docs).sum := by
  have hdecode : ∀ hit, decodeHit c plan hit =
      (.obj (decodeFlat c plan hit).1, (decodeFlat c plan hit).2) := by
    intro hit
    rw [decodeHit, hdotted]
    rfl
  have hcounts : (decodeHits c plan reply).2 =
      .sum (reply.hits.hits.map fun hit => (decodeFlat c plan hit).2) := by
    rw [decodeHits, if_neg (by simp [hparts]), funext hdecode]
    exact congrArg DecodeCounts.sum List.map_map
  refine ⟨reply.hits.hits.map fun hit => (decodeFlat c plan hit).1, ?_, ?_, ?_, ?_⟩
  · rw [documents_of_not_whole hparts, List.map_map, funext hdecode]
    rfl
  · rw [List.forall₂_map_right_iff, List.forall₂_same]
    exact fun hit hhit => merged_decodeFlat (hordered hit hhit)
  · rw [hcounts, DecodeCounts.sum_eq, List.map_map]
    exact congrArg List.sum (List.map_congr_left fun hit hhit =>
      innerHitGroups_decodeFlat (hordered hit hhit))
  · rw [hcounts, DecodeCounts.sum_eq, List.zipWith_map_right, List.zipWith_self]
    show ((reply.hits.hits.map _).map DecodeCounts.nullFields).sum = _
    rw [List.map_map]
    exact congrArg List.sum (List.map_congr_left fun hit hhit =>
      nullFields_decodeFlat (hordered hit hhit))

/-- A catalog with two nested paths, for a plan that queries one of them. -/
def campusCatalog : Catalog :=
  { nested := ⟨["courses", "staff"], by decide⟩ }

def campusPlan : Plan where
  standardTerms := []
  groups := [⟨"courses", [.equals "courses.code" (.str "13")]⟩]
  projection := .build campusCatalog ["city", "courses.kind", "name", "phone", "state"] true false
  sort := []
  paging := ⟨0, 20, 0⟩
  aggregations := []
  output := ⟨false, false, false, [], false⟩

/-- A hit whose source has another name than its fields. -/
def campusHit : Hit where
  source := some (.obj [("name", .arr [.str "North"]), ("staff", .single "id" (.arr [.bool true]))])
  fields := some [("city", .arr [.str "A", .str "B"]), ("name", .arr [.str "South"]),
    ("phone", .arr [])]
  innerHits := some [("courses", .single "hits" (.single "hits"
    (.arr [.single "_source" (.obj [("code", .str "13"), ("kind", .str "law")])]))),
    ("staff", .obj [])]

def campusDocument : Dict Json :=
  [("city", .arr [.str "A", .str "B"]), ("courses", .arr [.single "kind" (.str "law")]),
    ("name", .str "North"), ("phone", .null), ("staff.id", .arr [.bool true]), ("state", .null)]

def campusReply : Reply :=
  { hits := { hits := [campusHit] } }

/-- The source gives the name, the nested list stays a list, and only the state is added. -/
theorem decodeHits_merged_campusReply :
    campusPlan.projection.source.isWholeDocument = false ∧ campusPlan.output.keysNested = false ∧
      (∀ hit ∈ campusReply.hits.hits, hit.Ordered) ∧
      Merged campusCatalog campusPlan campusHit campusDocument ∧
      (decodeHits campusCatalog campusPlan campusReply).2.innerHitGroups = 1 ∧
      (decodeHits campusCatalog campusPlan campusReply).2.nullFields = 1 := by
  have hparts : campusPlan.projection.source.isWholeDocument = false := rfl
  have hdotted : campusPlan.output.keysNested = false := rfl
  have hordered : ∀ hit ∈ campusReply.hits.hits, hit.Ordered := by decide
  obtain ⟨docs, hdocs, hmerged, hgroups, hnulls⟩ :=
    decodeHits_merged (c := campusCatalog) hparts hdotted hordered
  have hread : docs.map Json.obj = [campusDocument].map Json.obj := hdocs.symm.trans rfl
  obtain rfl := List.map_injective_iff.2 (fun _ _ => Json.obj.inj) hread
  have hgroup : (campusReply.hits.hits.map fun hit =>
      (campusPlan.matchedPaths hit).length).sum = 1 := by decide
  have hadded : (List.zipWith (fun hit d => (campusPlan.addedKeys hit d).length)
      campusReply.hits.hits [campusDocument]).sum = 1 := by decide
  exact ⟨hparts, hdotted, hordered, (List.forall₂_cons.1 hmerged).1, hgroups.trans hgroup,
    hnulls.trans hadded⟩

end FlatQuery
