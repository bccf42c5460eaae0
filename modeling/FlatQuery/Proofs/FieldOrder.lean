import FlatQuery.Proofs.Documents
import FlatQuery.Proofs.InnerKeys

/-!
# The order of the requested fields

Nulls are filled in field by field, and a null that has just been filled in counts as present. So
the order of the requested fields matters where a nested path is requested beside a field that it
owns and both are missing (`OwnerMissing`): with the path first the field is taken to be within it
and left out, with the field first both become null (`decode_depends_on_field_order`). Nowhere else
does the order matter (`decode_perm_iff`): steps of filling commute, and the keys kept of
subdocuments are only asked for membership.
-/

namespace FlatQuery

/-! ## Filling -/

/-- A field and the nested path that owns it are both requested and both missing. -/
def OwnerMissing (c : Catalog) (fields : List String) (d : Dict Json) : Prop :=
  ∃ field ∈ fields, ∃ path ∈ fields, field ≠ path ∧ c.nestedPath? field = some path ∧
    isPresent c d field = false ∧ isPresent c d path = false

instance (c : Catalog) (fields : List String) (d : Dict Json) :
    Decidable (OwnerMissing c fields d) :=
  inferInstanceAs (Decidable (∃ field ∈ fields, ∃ path ∈ fields, field ≠ path ∧
    c.nestedPath? field = some path ∧ isPresent c d field = false ∧ isPresent c d path = false))

section Filling

variable (c : Catalog)

/-- A new entry makes no other field present but those that its key owns. -/
theorem isPresent_insert_eq {field key : String} (hne : field ≠ key)
    (howner : c.nestedPath? field ≠ some key) (v : Json) (d : Dict Json) :
    isPresent c (d.insert key v) field = isPresent c d field := by
  rw [Bool.eq_iff_iff, isPresent_iff, isPresent_iff]
  refine exists_congr fun other => and_congr_right fun hother => ?_
  have hkey : other ≠ key := by
    rintro rfl
    exact hother.elim (fun h => hne h.symm) howner
  rw [Dict.contains_insert, or_iff_right hkey]

/-- Two fields can be filled in in either order, unless one owns the other. -/
theorem fillField_comm {field other : String} (hfield : c.nestedPath? field ≠ some other)
    (hother : c.nestedPath? other ≠ some field) (found : Dict Json × Nat) :
    fillField c (fillField c found field) other = fillField c (fillField c found other) field := by
  by_cases heq : field = other
  · rw [heq]
  have hkeep := isPresent_insert_eq c heq hfield .null found.1
  have hkeepOther := isPresent_insert_eq c (Ne.symm heq) hother .null found.1
  cases hf : isPresent c found.1 field with
  | true =>
    rw [fillField_of_isPresent c hf]
    cases ho : isPresent c found.1 other with
    | true => rw [fillField_of_isPresent c ho, fillField_of_isPresent c hf]
    | false =>
      rw [fillField_of_missing c ho, fillField_of_isPresent c (hkeep.trans hf)]
  | false =>
    rw [fillField_of_missing c hf]
    cases ho : isPresent c found.1 other with
    | true =>
      rw [fillField_of_isPresent c ho, fillField_of_isPresent c (hkeepOther.trans ho),
        fillField_of_missing c hf]
    | false =>
      rw [fillField_of_missing c ho, fillField_of_missing c (hkeepOther.trans ho),
        fillField_of_missing c (hkeep.trans hf), Dict.insert_comm (Ne.symm heq)]

/-- What is present at the start need not be asked for. -/
theorem foldl_fillField_filter (d : Dict Json) (fields : List String) {found : Dict Json × Nat}
    (h : ∀ field, isPresent c d field = true → isPresent c found.1 field = true) :
    fields.foldl (fillField c) found =
      (fields.filter fun field => !isPresent c d field).foldl (fillField c) found := by
  induction fields generalizing found with
  | nil => rfl
  | cons field fields ih =>
    rw [List.foldl_cons]
    cases hfield : isPresent c d field with
    | true =>
      rw [fillField_of_isPresent c (h field hfield), List.filter_cons_of_neg (by simp [hfield]),
        ih h]
    | false =>
      rw [List.filter_cons_of_pos (by simp [hfield]), List.foldl_cons]
      exact ih fun other hother => isPresent_fillField_of_isPresent c (h other hother) field

/-- Where no missing field is owned by another one, the order does not matter. -/
theorem fillMissing_perm {fields other : List String} (hperm : fields.Perm other) {d : Dict Json}
    (h : ¬OwnerMissing c fields d) : fillMissing c other d = fillMissing c fields d := by
  have hfree : ∀ x ∈ fields.filter fun field => !isPresent c d field,
      ∀ y ∈ fields.filter fun field => !isPresent c d field,
      x ≠ y → c.nestedPath? x ≠ some y := by
    intro x hx y hy hne howner
    simp only [List.mem_filter, Bool.not_eq_true'] at hx hy
    exact h ⟨x, hx.1, y, hy.1, hne, howner, hx.2, hy.2⟩
  -- steps commute among missing fields only, so those that are present are dropped first
  unfold fillMissing
  rw [foldl_fillField_filter c d other fun _ => id, foldl_fillField_filter c d fields fun _ => id]
  refine ((hperm.filter _).foldl_eq' (fun x hx y hy found => ?_) _).symm
  by_cases heq : x = y
  · rw [heq]
  · exact fillField_comm c (hfree x hx y hy heq) (hfree y hy x hx (Ne.symm heq)) found

theorem find?_eq_none_of_missing {d : Dict Json} {field : String}
    (h : isPresent c d field = false) : d.find? field = none := by
  cases hfound : d.find? field with
  | none => rfl
  | some v =>
    rw [isPresent_of_contains c (Dict.contains_of_find?_eq_some hfound)] at h
    cases h

/-- A missing field that comes first becomes null. -/
theorem find?_fillMissing_cons {d : Dict Json} {field : String} (h : isPresent c d field = false)
    (fields : List String) :
    (fillMissing c (field :: fields) d).1.find? field = some .null := by
  have hpresent := isPresent_fillField c (d, 0) field
  rw [fillMissing, List.foldl_cons, find?_foldl_fillField_of_isPresent c fields hpresent,
    fillField_of_missing c h, Dict.find?_insert_self]

/-- A missing field that comes after a missing path that owns it is left out. -/
theorem find?_fillMissing_cons_owner {d : Dict Json} {field path : String} (hne : field ≠ path)
    (howner : c.nestedPath? field = some path) (h : isPresent c d field = false)
    (hpath : isPresent c d path = false) (fields : List String) :
    (fillMissing c (path :: fields) d).1.find? field = none := by
  have hfilled : fillField c (d, 0) path = (d.insert path .null, 1) :=
    fillField_of_missing c hpath
  have hpresent : isPresent c (fillField c (d, 0) path).1 field = true := by
    rw [hfilled]
    exact (isPresent_iff c).2 ⟨path, Or.inr howner, Dict.contains_insert_self _ _ _⟩
  rw [fillMissing, List.foldl_cons, find?_foldl_fillField_of_isPresent c fields hpresent, hfilled,
    Dict.find?_insert_of_ne _ _ hne, find?_eq_none_of_missing c h]

/-- The order of the fields does not matter iff no missing field is owned by another one. -/
theorem fillMissing_perm_iff {fields : List String} {d : Dict Json} :
    (∀ other, fields.Perm other → fillMissing c other d = fillMissing c fields d) ↔
      ¬OwnerMissing c fields d := by
  refine ⟨?_, fun h other hperm => fillMissing_perm c hperm h⟩
  rintro hsame ⟨field, hfield, path, hpath, hne, howner, hmissing, hpathMissing⟩
  -- the two orders that begin with the field and with the path disagree on the field
  have hfieldFirst := hsame _ (List.perm_cons_erase hfield)
  have hpathFirst := hsame _ (List.perm_cons_erase hpath)
  have hnull := find?_fillMissing_cons c hmissing (fields.erase field)
  have hnone := find?_fillMissing_cons_owner c hne howner hmissing hpathMissing (fields.erase path)
  rw [hfieldFirst] at hnull
  rw [hpathFirst, hnull] at hnone
  cases hnone

end Filling

/-! ## Subdocuments -/

theorem keepKeys_perm {keys other : List String} (h : keys.Perm other) (d : Dict Json) :
    keepKeys (some other) d = keepKeys (some keys) d := by
  refine List.filter_congr fun entry _ => ?_
  rw [Bool.eq_iff_iff, List.contains_iff_mem, List.contains_iff_mem, h.mem_iff]

theorem keptKeys?_build_of_inactive {active flatten : Bool} (h : (active && !flatten) = false)
    (c : Catalog) (fields : List String) (path : String) :
    (Projection.build c fields active flatten).keptKeys? path = none := by
  rw [Projection.keptKeys?, Projection.build, h]
  rfl

/-- The order of the requested fields does not matter to subdocuments. -/
theorem innerDocument_perm {fields other : List String} (h : fields.Perm other) (c : Catalog)
    (active flatten : Bool) (path : String) :
    innerDocument ((Projection.build c other active flatten).keptKeys? path) =
      innerDocument ((Projection.build c fields active flatten).keptKeys? path) := by
  cases hactive : active && !flatten with
  | false =>
    rw [keptKeys?_build_of_inactive hactive, keptKeys?_build_of_inactive hactive]
  | true =>
    obtain ⟨rfl, hflatten⟩ := Bool.and_eq_true_iff.1 hactive
    obtain rfl : flatten = false := by simpa using hflatten
    have hkeys : (requestedKeys c fields path).Perm (requestedKeys c other path) := h.filterMap _
    rw [keptKeys?_build, keptKeys?_build]
    by_cases hempty : requestedKeys c fields path = []
    · rw [hempty] at hkeys
      rw [hempty, hkeys.nil_eq.symm]
    · have hother : requestedKeys c other path ≠ [] := fun hnil => by
        rw [hnil] at hkeys
        exact hempty hkeys.eq_nil
      rw [if_neg (by simpa using hother), if_neg (by simpa using hempty)]
      funext hit
      rw [innerDocument, innerDocument, keepKeys_perm hkeys]

/-! ## Plans -/

/-- The request with other requested fields. -/
def Request.withFields (r : Request) (fields : List String) : Request :=
  { r with options := { r.options with fields } }

/-- The plan for other requested fields. -/
def Plan.withFields (c : Catalog) (plan : Plan) (fields : List String) : Plan :=
  { plan with
    projection := .build c fields plan.hasNestedQuery plan.output.flattenNested
    aggregations := if plan.output.stats then numericFields c fields else [] }

variable {c : Catalog} {settings : PlanSettings} {r : Request} {plan : Plan}

/-- Nothing but the projection and the statistics depends on the requested fields. -/
theorem compile_withFields (h : compile c settings r = .ok plan) (fields : List String) :
    compile c settings (r.withFields fields) = .ok (plan.withFields c fields) := by
  unfold compile at h ⊢
  simp only [bind_eq_ok_iff] at h ⊢
  obtain ⟨classified, hclass, terms, hterms, groups, hgroups, sort, hsort, h⟩ := h
  obtain rfl := Except.ok.inj h
  exact ⟨classified, hclass, terms, hterms, groups, hgroups, sort, hsort, rfl⟩

theorem isWholeDocument_build (c : Catalog) (fields : List String) (active flatten : Bool) :
    (Projection.build c fields active flatten).source.isWholeDocument =
      (!active && fields.isEmpty) := by
  cases fields with
  | nil => cases active <;> cases flatten <;> rfl
  | cons field fields =>
    rw [isWholeDocument_build_eq_false (List.cons_ne_nil _ _), List.isEmpty_cons, Bool.and_false]

section

variable {conditions : List Condition} {classified : Classified} {fields : List String}
  (hstages : plan.Stages c settings r conditions classified)
  (hperm : r.options.fields.Perm fields)

include hstages in
theorem projection_eq_build : plan.projection =
    .build c r.options.fields plan.hasNestedQuery plan.output.flattenNested := by
  rw [hstages.projection, hstages.output]
  rfl

include hstages hperm

theorem innerEntries_withFields (hit : Hit) :
    innerEntries (plan.withFields c fields) hit = innerEntries plan hit := by
  have hsub : subdocuments? (plan.withFields c fields) = subdocuments? plan := by
    funext entry
    unfold subdocuments?
    rw [projection_eq_build hstages, ← innerDocument_perm hperm]
    rfl
  unfold innerEntries
  rw [hsub]
  rfl

theorem gathered_withFields (hit : Hit) :
    gathered c (plan.withFields c fields) hit = gathered c plan hit := by
  rw [gathered, gathered, innerEntries_withFields hstages hperm]

/-- A hit is read alike iff filling does not depend on the order. -/
theorem decodeFlat_withFields_iff (hit : Hit) :
    decodeFlat c (plan.withFields c fields) hit = decodeFlat c plan hit ↔
      fillMissing c fields (gathered c plan hit) =
        fillMissing c r.options.fields (gathered c plan hit) := by
  have hrequested : plan.projection.requested = r.options.fields := by
    rw [hstages.projection]
    rfl
  have hother : (plan.withFields c fields).projection.requested = fields := rfl
  have hpair : ∀ plan : Plan, decodeFlat c plan hit =
      ((fillMissing c plan.projection.requested (gathered c plan hit)).1,
        ⟨(innerEntries plan hit).length,
          (fillMissing c plan.projection.requested (gathered c plan hit)).2⟩) := fun _ => rfl
  rw [hpair, hpair, gathered_withFields hstages hperm, innerEntries_withFields hstages hperm,
    hrequested, hother]
  simp only [Prod.ext_iff, DecodeCounts.mk.injEq, true_and]

/-- Where each hit is read alike, the whole reply is. -/
theorem decode_withFields {raw : Json} {reply : Reply} (hread : Reply.read raw = .ok reply)
    (h : ∀ hit ∈ reply.hits.hits, ¬OwnerMissing c r.options.fields (gathered c plan hit))
    (searchTime : Option Double) :
    decode c (plan.withFields c fields) raw searchTime = decode c plan raw searchTime := by
  have hempty : fields.isEmpty = r.options.fields.isEmpty := by
    rw [Bool.eq_iff_iff, List.isEmpty_iff_length_eq_zero, List.isEmpty_iff_length_eq_zero,
      hperm.length_eq]
  have hwhole : (plan.withFields c fields).projection.source.isWholeDocument =
      plan.projection.source.isWholeDocument := by
    rw [hstages.projection, Plan.withFields, isWholeDocument_build, isWholeDocument_build, hempty]
  have hhits : reply.hits.hits.map (decodeHit c (plan.withFields c fields)) =
      reply.hits.hits.map (decodeHit c plan) := by
    refine List.map_congr_left fun hit hhit => ?_
    have hflat := (decodeFlat_withFields_iff hstages hperm hit).2
      (fillMissing_perm c hperm (h hit hhit))
    rw [decodeHit, decodeHit, hflat]
    rfl
  have hdecoded : decodeHits c (plan.withFields c fields) reply = decodeHits c plan reply := by
    rw [decodeHits, decodeHits, hwhole, hhits]
  rw [decode_of_read hread, decode_of_read hread, hdecoded]
  rfl

end

/-- The order of the requested fields changes nothing in any answer, whichever way it is written,
iff in no hit a missing field is owned by another one. -/
theorem decode_perm_iff (h : compile c settings r = .ok plan) {raw : Json} {reply : Reply}
    (hread : Reply.read raw = .ok reply) :
    (∀ fields, r.options.fields.Perm fields →
      ∃ other, compile c settings (r.withFields fields) = .ok other ∧
        reply.hits.hits.map (decodeFlat c other) = reply.hits.hits.map (decodeFlat c plan) ∧
        ∀ searchTime, decode c other raw searchTime = decode c plan raw searchTime) ↔
      ∀ hit ∈ reply.hits.hits, ¬OwnerMissing c r.options.fields (gathered c plan hit) := by
  obtain ⟨conditions, classified, hstages⟩ := stages_of_compile h
  constructor
  · intro hsame hit hhit
    refine (fillMissing_perm_iff c).1 fun fields hperm => ?_
    obtain ⟨other, hother, hflat, -⟩ := hsame fields hperm
    obtain rfl := Except.ok.inj ((compile_withFields h fields).symm.trans hother)
    exact (decodeFlat_withFields_iff hstages hperm hit).1 (List.map_inj_left.1 hflat hit hhit)
  · intro hfree fields hperm
    refine ⟨_, compile_withFields h fields, List.map_congr_left fun hit hhit => ?_,
      decode_withFields hstages hperm hread hfree⟩
    exact (decodeFlat_withFields_iff hstages hperm hit).2
      (fillMissing_perm c hperm (hfree hit hhit))

def programCatalog : Catalog :=
  { nested := ⟨["owners", "programs"], by decide⟩ }

/-- Three fields of a search for programs, one of which owns another. -/
def ownedRequest : Request :=
  { params := [⟨"programs.code", .single "13"⟩]
    options := { fields := ["state", "programs", "programs.kind"] } }

def ownedPlan : Plan where
  standardTerms := []
  groups := [⟨"programs", [.equals "programs.code" (.str "13")]⟩]
  projection := .build programCatalog ["state", "programs", "programs.kind"] true false
  sort := []
  paging := ⟨0, 20, 0⟩
  aggregations := []
  output := ⟨false, false, false, [], false⟩

/-- A hit with one program. -/
def ownedHit : Hit where
  innerHits := some [("programs", .single "hits" (.single "hits"
    (.arr [.single "_source" (.single "kind" (.str "law"))])))]

def ownedReply : Json :=
  .single "hits" (.single "hits" (.arr [.single "inner_hits" (.obj (ownedHit.innerHits.getD []))]))

/-- The program has come back, so that reversed fields give the same answer, with one null. -/
theorem decode_reversed_fields :
    ∃ other answer, compile programCatalog {} ownedRequest = .ok ownedPlan ∧
      compile programCatalog {} (ownedRequest.withFields ["programs.kind", "programs", "state"]) =
        .ok other ∧
      decode programCatalog other ownedReply none = .ok (answer, ⟨1, 1⟩) ∧
      answer.documents =
        [.obj [("programs", .arr [.single "kind" (.str "law")]), ("state", .null)]] := by
  have h : compile programCatalog {} ownedRequest = .ok ownedPlan := rfl
  have hread : Reply.read ownedReply = .ok { hits := { hits := [ownedHit] } } := rfl
  have hfree : ¬OwnerMissing programCatalog ownedRequest.options.fields
      (gathered programCatalog ownedPlan ownedHit) := by
    decide
  obtain ⟨other, hother, -, hsame⟩ := (decode_perm_iff h hread).2
    (List.forall_mem_singleton.2 hfree) ["programs.kind", "programs", "state"]
    (List.reverse_perm _).symm
  exact ⟨other, _, h, hother, (hsame none).trans rfl, rfl⟩

/-- With a missing path before a missing field in it, the field is left out. -/
theorem decode_depends_on_field_order :
    ¬∀ (c : Catalog) (settings : PlanSettings) (r : Request) (plan : Plan) (fields : List String)
        (other : Plan) (raw : Json) (reply : Reply), compile c settings r = .ok plan →
      r.options.fields.Perm fields → compile c settings (r.withFields fields) = .ok other →
      Reply.read raw = .ok reply → decode c other raw none = decode c plan raw none := by
  intro hsame
  have hdecode := hsame programCatalog {}
    { options := { fields := ["programs", "programs.code"] } } _ ["programs.code", "programs"] _
    (.single "hits" (.single "hits" (.arr [.obj []]))) { hits := { hits := [{}] } } rfl
    (List.Perm.swap ..) rfl rfl
  revert hdecode
  decide

end FlatQuery
