import FlatQuery.Proofs.Merging
import FlatQuery.Proofs.Ownership

/-!
# What is kept of subdocuments

With an active query, what is kept of the subdocuments of a path is decided by the keys that
requested fields add to it: all entries if there is no such key, and otherwise those that stand under
exactly these keys. A path that is requested itself adds no key, so beside a field that continues it
the request for the whole has no effect (`keepsWhole_iff`). A key that names an object within the
subdocuments is no key of their flat form, so what lies beneath it is left out unless it is
requested too (`find?_beneath_iff`).
-/

namespace FlatQuery

/-! ## Entries that are kept -/

/-- The keys registered for a path by a projection with an active query. -/
theorem registeredKeys_of_build {c : Catalog} {fields : List String} {plan : Plan}
    (h : plan.projection = .build c fields true false) (path : String) :
    plan.registeredKeys path = requestedKeys c fields path := by
  rw [Plan.registeredKeys, h, innerKeys_build]

theorem Hit.ascending_flatSource (hit : Hit) : Dict.Ascending hit.flatSource := by
  unfold Hit.flatSource
  cases hit.source with
  | none => exact List.Pairwise.nil
  | some source =>
    cases source with
    | obj members => exact Dict.ascending_ofList _
    | _ => exact List.Pairwise.nil

/-- A subdocument in flat form, with the entries under the given keys; without keys, all of it. -/
def keptEntries (keys : List String) (sub : Hit) : Dict Json :=
  sub.flatSource.filter fun entry => keys = [] ∨ entry.1 ∈ keys

theorem keptEntries_nil (sub : Hit) : keptEntries [] sub = sub.flatSource := by
  simp [keptEntries]

theorem find?_keptEntries_iff {keys : List String} {sub : Hit} {key : String} {v : Json}
    (h : sub.flatSource.find? key = some v) :
    (keptEntries keys sub).find? key = some v ↔ keys = [] ∨ key ∈ keys := by
  rw [keptEntries, sub.ascending_flatSource.find?_filter_eq_some_iff]
  simp [h]

/-- The subdocuments of a path in a document, where a projection with an active query made it. -/
theorem find?_decodeFlat_of_matched {c : Catalog} {fields : List String} {plan : Plan}
    (hprojection : plan.projection = .build c fields true false) {hit : Hit}
    (hordered : hit.Ordered) {path : String} {subs : List Hit}
    (hmatched : plan.matched? hit path = some subs) :
    (decodeFlat c plan hit).1.find? path =
      some (.arr (subs.map fun sub => .obj (keptEntries (requestedKeys c fields path) sub))) := by
  rw [← registeredKeys_of_build hprojection]
  exact (merged_decodeFlat hordered).matched path subs hmatched

/-! ## The whole of a path -/

/-- All keys of the subdocuments of a path are kept, and documents show all that is in them, just if
no requested field adds a key to the path. Whether the path itself is requested does not matter. -/
theorem keepsWhole_iff (c : Catalog) (fields : List String) (path : String) :
    ((Projection.build c fields true false).keptKeys? path = none ↔
        ∀ key, path ++ "." ++ key ∈ fields → c.nestedPath? (path ++ "." ++ key) ≠ some path) ∧
      ∀ (plan : Plan) (hit : Hit) (subs : List Hit),
        plan.projection = .build c fields true false → plan.projection.keptKeys? path = none →
        hit.Ordered → plan.matched? hit path = some subs →
          (decodeFlat c plan hit).1.find? path =
            some (.arr (subs.map fun sub => .obj sub.flatSource)) := by
  have hkept : (Projection.build c fields true false).keptKeys? path = none ↔
      requestedKeys c fields path = [] := by
    rw [keptKeys?_build]
    cases requestedKeys c fields path <;> simp
  constructor
  · rw [hkept, requestedKeys_eq_nil_iff]
  · intro plan hit subs hprojection hnone hordered hmatched
    rw [hprojection, hkept] at hnone
    rw [find?_decodeFlat_of_matched hprojection hordered hmatched, hnone]
    simp only [keptEntries_nil]

/-- A plan that asks for the courses as a whole. -/
def coursesPlan : Plan :=
  { campusPlan with projection := .build campusCatalog ["city", "courses"] true false }

theorem keepsWhole_courses :
    coursesPlan.projection.keptKeys? "courses" = none ∧
      (decodeFlat campusCatalog coursesPlan campusHit).1.find? "courses" =
        some (.arr [.obj [("code", .str "13"), ("kind", .str "law")]]) := by
  obtain ⟨hkept, hwhole⟩ := keepsWhole_iff campusCatalog ["city", "courses"] "courses"
  have hnone : coursesPlan.projection.keptKeys? "courses" = none := by
    refine hkept.2 fun key hkey => ?_
    simp [← String.toList_inj] at hkey
  have hmatched : coursesPlan.matched? campusHit "courses" =
      some [{ source := some (.obj [("code", .str "13"), ("kind", .str "law")]) }] := by decide
  exact ⟨hnone, hwhole coursesPlan campusHit _ rfl hnone (by decide) hmatched⟩

/-- Beside a field that continues it, a path asked for as a whole is reduced to that field. -/
theorem not_keepsWhole_of_requested :
    ¬∀ (c : Catalog) (fields : List String) (path : String), path ∈ c.nested.paths →
      path ∈ fields → (Projection.build c fields true false).keptKeys? path = none := by
  intro hall
  have hnone := hall campusCatalog ["courses", "courses.code"] "courses" (by decide) (by decide)
  have hsome : (Projection.build campusCatalog ["courses", "courses.code"] true false).keptKeys?
      "courses" = some ["code"] := rfl
  rw [hsome] at hnone
  cases hnone

/-! ## What lies beneath a key -/

/-- Where a path owns a requested field, the entries of its subdocuments under the key of that field
and beneath it are kept just if they are requested by their own names. -/
theorem find?_beneath_iff {c : Catalog} {settings : PlanSettings} {r : Request} {plan : Plan}
    (h : compile c settings r = .ok plan) (hflatten : r.options.allProgramsNested = false)
    {path k : String} (hqueried : plan.queriesPath path = true)
    (hfield : path ++ "." ++ k ∈ r.options.fields)
    (howner : c.nestedPath? (path ++ "." ++ k) = some path) {hit : Hit} (hordered : hit.Ordered)
    {value : Json} (hvalue : Dict.find? (hit.innerHits.getD []) path = some value)
    {found : Hits} (hread : Hits.ofSection? value = some found) :
    ∃ docs : List (Dict Json),
      (decodeFlat c plan hit).1.find? path = some (.arr (docs.map Json.obj)) ∧
      List.Forall₂ (fun sub d => ∀ key v, InScope k key → Dict.find? sub.flatSource key = some v →
          (d.find? key = some v ↔ path ++ "." ++ key ∈ r.options.fields ∧
            c.nestedPath? (path ++ "." ++ key) = some path)) found.hits docs := by
  obtain ⟨conditions, classified, hstages⟩ := stages_of_compile h
  have houtput : plan.output.flattenNested = false := by
    rw [hstages.output]
    exact hflatten
  have hprojection : plan.projection = .build c r.options.fields true false := by
    rw [hstages.projection, hasNestedQuery_iff.2 ⟨path, hqueried⟩, hflatten]
  have hmatched : plan.matched? hit path = some found.hits := by
    rw [Plan.matched?, if_pos ⟨houtput, (queriesPath_iff_exists_query plan).1 hqueried⟩, hvalue,
      Option.bind_some, hread, Option.map_some]
  have hkeys : requestedKeys c r.options.fields path ≠ [] :=
    List.ne_nil_of_mem (mem_requestedKeys_iff.2 ⟨hfield, howner⟩)
  refine ⟨found.hits.map (keptEntries (requestedKeys c r.options.fields path)), ?_, ?_⟩
  · rw [find?_decodeFlat_of_matched hprojection hordered hmatched, List.map_map]
    rfl
  · rw [List.forall₂_map_right_iff, List.forall₂_same]
    intro sub _ key v _ hv
    rw [find?_keptEntries_iff hv, or_iff_right hkeys, mem_requestedKeys_iff]

/-- A request for courses with some code. -/
def levelRequest (fields : List String) : Request :=
  { params := [⟨"courses.code", .single "13"⟩], options := { fields } }

/-- A section with one course, the level of which is an object. -/
def levelSection : Json :=
  .single "hits" (.single "hits" (.arr [.single "_source" (.single "level"
    (.obj [("name", .str "BA"), ("years", .bool true)]))]))

def levelHit : Hit where
  innerHits := some [("courses", levelSection)]

/-- The course of the section. -/
def levelCourse : Hit where
  source := some (.single "level" (.obj [("name", .str "BA"), ("years", .bool true)]))

/-- Of a level only the name is left, which is requested beside it. -/
theorem find?_beneath_level :
    ∃ plan d, compile campusCatalog {} (levelRequest ["courses.level", "courses.level.name"]) =
        .ok plan ∧
      (decodeFlat campusCatalog plan levelHit).1.find? "courses" = some (.arr [.obj d]) ∧
      Dict.find? d "level.name" = some (.str "BA") ∧
      ¬Dict.find? d "level.years" = some (.bool true) := by
  have h : compile campusCatalog {} (levelRequest ["courses.level", "courses.level.name"]) =
      .ok _ := rfl
  have hvalue : Dict.find? (levelHit.innerHits.getD []) "courses" = some levelSection := rfl
  have hread : Hits.ofSection? levelSection = some { hits := [levelCourse] } := rfl
  obtain ⟨docs, hdocs, hkept⟩ := find?_beneath_iff (k := "level") h rfl
    (by decide) (by decide) (by decide) (by decide) hvalue hread
  obtain ⟨d, rest, hcourse, hrest, rfl⟩ := List.forall₂_cons_left_iff.1 hkept
  obtain rfl := List.forall₂_nil_left_iff.1 hrest
  refine ⟨_, d, h, hdocs, ?_, ?_⟩
  · exact (hcourse "level.name" _ (by decide) (by decide)).2 (by decide)
  · rw [hcourse "level.years" _ (by decide) (by decide)]
    decide

/-- A requested key that names an object keeps nothing of it. -/
theorem not_kept_beneath :
    ¬∀ (c : Catalog) (settings : PlanSettings) (r : Request) (plan : Plan) (path k : String)
        (hit : Hit) (value : Json) (found : Hits),
      compile c settings r = .ok plan → r.options.allProgramsNested = false →
      plan.queriesPath path = true → path ++ "." ++ k ∈ r.options.fields →
      c.nestedPath? (path ++ "." ++ k) = some path → hit.Ordered →
      Dict.find? (hit.innerHits.getD []) path = some value → Hits.ofSection? value = some found →
      ∃ docs : List (Dict Json),
        (decodeFlat c plan hit).1.find? path = some (.arr (docs.map Json.obj)) ∧
        List.Forall₂ (fun sub d => ∀ key v, InScope k key → Dict.find? sub.flatSource key = some v →
          d.find? key = some v) found.hits docs := by
  intro hall
  have h : compile campusCatalog {} (levelRequest ["courses.level"]) = .ok _ := rfl
  have hread : Hits.ofSection? levelSection = some { hits := [levelCourse] } := rfl
  obtain ⟨docs, hdocs, hkept⟩ := hall _ _ _ _ "courses" "level" levelHit levelSection _ h rfl
    (by decide) (by decide) (by decide) (by decide) rfl hread
  obtain ⟨d, rest, hcourse, hrest, rfl⟩ := List.forall₂_cons_left_iff.1 hkept
  obtain rfl := List.forall₂_nil_left_iff.1 hrest
  have hempty : some (Json.arr [.obj []]) = some (Json.arr [.obj d]) := hdocs
  simp only [Option.some.injEq, Json.arr.injEq, List.cons.injEq, Json.obj.injEq, and_true] at hempty
  subst hempty
  cases hcourse "level.years" (.bool true) (by decide) (by decide)

end FlatQuery
