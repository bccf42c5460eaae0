import FlatQuery.Proofs.Documents
import FlatQuery.Proofs.Retrieval
import FlatQuery.Proofs.Truth

/-!
# Compiling and decoding agree through the engine

The plan of a request decides by which channel each field comes back, and the same plan reads the
hits. Whatever documents an engine finds, as long as its hits hold what the body asks for, the
answer tells of each document what was requested (`decode_of_returns`): the values of standard
fields, the matching subdocuments of queried paths, and without a nested query the lists at the
paths with requested keys. The argument follows a hit through the parts of its document: fields,
source, subdocuments, and nulls for what is missing.
-/

namespace FlatQuery

/-- A hit for a stored document, with what the request of its plan keeps to: fields on nested paths
name keys of subdocuments, nested paths do not continue each other, and with an active query the
keys are leaves of subdocuments on queried paths. -/
structure Exchange (engine : Retrieval) (c : Catalog) (plan : Plan) (fields : List String)
    (doc : StoredDocument) (hit : Hit) : Prop where
  projection : plan.projection = .build c fields plan.hasNestedQuery false
  notFlattened : plan.output.flattenNested = false
  nodup : (plan.groups.map NestedGroup.path).Nodup
  queried : ∀ path, plan.queriesPath path = true → path ∈ c.nested.paths
  apart : ∀ path ∈ c.nested.paths, ∀ other ∈ c.nested.paths, relativeKey? path other = none
  named : ∀ field ∈ fields, c.OnNestedPath field →
    ∃ path key, c.nestedPath? field = some path ∧ relativeKey? path field = some key
  active : plan.hasNestedQuery = true → ∀ field ∈ fields, ∀ path,
    c.nestedPath? field = some path → plan.queriesPath path = true
  leafKeys : ∀ q ∈ plan.combinedClause.nestedNodes, ∀ sub ∈ engine.matching doc q,
    ∀ key ∈ requestedKeys c fields q.path, sub.IsLeafKey key
  returns : engine.Returns c plan doc hit

theorem mem_paths_of_requestedKeys {c : Catalog} {fields : List String} {path : String}
    (h : requestedKeys c fields path ≠ []) : path ∈ c.nested.paths := by
  obtain ⟨key, hkey⟩ := List.exists_mem_of_ne_nil _ h
  obtain ⟨field, -, hown⟩ := List.mem_filterMap.1 hkey
  unfold ownKey? at hown
  split at hown
  · rename_i howner
    exact mem_paths_of_nestedPath? howner
  · cases hown

/-- The subdocuments that match a nested query, in dotted form and reduced to the requested keys. -/
def Retrieval.matched (engine : Retrieval) (c : Catalog) (fields : List String)
    (doc : StoredDocument) (q : NestedQuery) : Json :=
  .arr ((engine.matching doc q).map fun sub =>
    .obj (keepBeneath (requestedKeys c fields q.path) sub.flatten))

namespace Exchange

variable {engine : Retrieval} {c : Catalog} {plan : Plan} {fields : List String}
  {doc : StoredDocument} {hit : Hit}

/-! ## Nested queries of the plan -/

section

variable (h : Exchange engine c plan fields doc hit)

include h

theorem path_mem {q : NestedQuery} (hq : q ∈ plan.combinedClause.nestedNodes) :
    q.path ∈ c.nested.paths :=
  h.queried q.path ((exists_nestedNode_iff plan q.path).1 ⟨q, hq, rfl⟩)

theorem eq_of_path_eq {q other : NestedQuery} (hq : q ∈ plan.combinedClause.nestedNodes)
    (hother : other ∈ plan.combinedClause.nestedNodes) (hpath : q.path = other.path) :
    q = other := by
  have hnodup : (plan.combinedClause.nestedNodes.map NestedQuery.path).Nodup := by
    rw [nestedNodes_combinedClause, Plan.map_path_nestedQueries]
    exact h.nodup
  exact List.inj_on_of_nodup_map hnodup hq hother hpath

omit h in
theorem hasNestedQuery_of_mem {q : NestedQuery} (hq : q ∈ plan.combinedClause.nestedNodes) :
    plan.hasNestedQuery = true := by
  rw [nestedNodes_combinedClause] at hq
  obtain ⟨g, hg, -⟩ := List.mem_map.1 hq
  simpa [Plan.hasNestedQuery] using List.ne_nil_of_mem hg

/-! ## Fields -/

/-- A listed field is on no nested path. -/
theorem standard_of_contains_fields {field : String}
    (hfield : Dict.contains (hit.fields.getD []) field = true) :
    field ∈ fields ∧ ¬c.OnNestedPath field := by
  rw [Dict.contains, h.returns.fields] at hfield
  split at hfield
  · rename_i hlisted
    rw [listedFields_body, h.projection, mem_retrieved_build] at hlisted
    refine ⟨hlisted.1.1, fun hon => ?_⟩
    obtain ⟨path, key, hpath, -⟩ := h.named field hlisted.1.1 hon
    have hnested := isNested_iff.2 ⟨path, hpath⟩
    rw [hlisted.1.2] at hnested
    cases hnested
  · cases hfield

theorem find?_fields_of_standard {field : String} (hfield : field ∈ fields)
    (hstandard : ¬c.OnNestedPath field) :
    Dict.find? (hit.fields.getD []) field =
      if doc.values field ≠ [] then some (.arr (doc.values field)) else none := by
  have hnested : c.isNested field = false := by
    rw [← Bool.not_eq_true]
    exact fun hnested => hstandard (Or.inr hnested)
  have hlisted : field ∈ listedFields plan.body := by
    rw [listedFields_body, h.projection, mem_retrieved_build]
    exact ⟨hfield, hnested⟩
  rw [h.returns.fields]
  simp only [hlisted, true_and]

/-! ## Source -/

/-- What an included field adds to a path it adds as a field that the path owns. -/
theorem relativeKey?_eq_ownKey? {path field : String} (hpath : path ∈ c.nested.paths)
    (hfield : field ∈ fields) (hnested : c.isNested field = true) :
    relativeKey? path field = ownKey? c path field := by
  obtain ⟨owner, key, howner, hkey⟩ := h.named field hfield (Or.inr hnested)
  unfold ownKey?
  rw [howner]
  split
  · rfl
  · rename_i hne
    cases hrelative : relativeKey? path field with
    | none => rfl
    | some other =>
      have hmem := mem_paths_of_nestedPath? howner
      have heq := eq_of_relativeKey? hkey hrelative (h.apart owner hmem path hpath)
        (h.apart path hpath owner hmem)
      exact absurd (congrArg some heq) hne

theorem keysBeneath_included {path : String} (hpath : path ∈ c.nested.paths) :
    keysBeneath path (includedFields plan.body) =
      if plan.hasNestedQuery then [] else requestedKeys c fields path := by
  have hnone : fields = [] → fields.filter c.isNested = [] := by
    rintro rfl
    rfl
  rw [includedFields_body, h.projection, Projection.build, included_sourceFor hnone]
  cases plan.hasNestedQuery with
  | true => rfl
  | false =>
    change (fields.filter c.isNested).filterMap (relativeKey? path) = requestedKeys c fields path
    rw [← requestedKeys_filter_isNested, requestedKeys]
    refine List.filterMap_congr fun field hfield => ?_
    rw [List.mem_filter] at hfield
    exact h.relativeKey?_eq_ownKey? hpath hfield.1 hfield.2

/-- The source holds lists at paths with requested keys, and only without a nested query. -/
theorem of_mem_flatSource {key : String} {v : Json} (hmem : (key, v) ∈ hit.flatSource) :
    key ∈ c.nested.paths ∧ plan.hasNestedQuery = false ∧ requestedKeys c fields key ≠ [] ∧
      ∃ subs, doc.subdocuments key = some subs ∧
        v = .arr (subs.map (engine.reduce (requestedKeys c fields key))) := by
  obtain ⟨leaf, hleaf, rfl, rfl⟩ := mem_flatSource hmem
  obtain ⟨path, hpath, subs, rfl, hkeys, hsubs, hvalue⟩ := h.returns.source leaf hleaf
  rw [h.keysBeneath_included hpath] at hkeys hvalue
  cases hactive : plan.hasNestedQuery with
  | true => simp [hactive] at hkeys
  | false =>
    rw [hactive] at hkeys hvalue
    exact ⟨hpath, rfl, hkeys, subs, hsubs, hvalue⟩

theorem contains_flatSource_of_list {path : String} (hactive : plan.hasNestedQuery = false)
    (hkeys : requestedKeys c fields path ≠ []) {subs : List Json}
    (hsubs : doc.subdocuments path = some subs) : hit.flatSource.contains path = true := by
  have hpath := mem_paths_of_requestedKeys hkeys
  refine (contains_flatSource hit path).2 (h.returns.source_complete path hpath ?_ subs hsubs)
  rw [h.keysBeneath_included hpath, hactive]
  exact hkeys

omit h in
theorem find?_merged_of_not_contains {key : String} (hkey : hit.flatSource.contains key = false) :
    hit.merged.find? key = Dict.find? (hit.fields.getD []) key := by
  refine Dict.find?_insertAll_of_notMem (fun entry hentry heq => ?_) _
  have hcontains : hit.flatSource.contains entry.1 = true :=
    Dict.contains_iff_exists_mem.2 ⟨entry.2, hentry⟩
  rw [heq, hkey] at hcontains
  cases hcontains

theorem find?_merged_of_list {path : String} (hactive : plan.hasNestedQuery = false)
    (hkeys : requestedKeys c fields path ≠ []) {subs : List Json}
    (hsubs : doc.subdocuments path = some subs) :
    hit.merged.find? path =
      some (.arr (subs.map (engine.reduce (requestedKeys c fields path)))) := by
  have hagree : ∀ other, (path, other) ∈ hit.flatSource →
      other = .arr (subs.map (engine.reduce (requestedKeys c fields path))) := by
    intro other hother
    obtain ⟨-, -, -, others, hothers, rfl⟩ := h.of_mem_flatSource hother
    rw [hsubs] at hothers
    rw [Option.some.inj hothers]
  obtain ⟨v, hv⟩ :=
    Dict.contains_iff_exists_mem.1 (h.contains_flatSource_of_list hactive hkeys hsubs)
  exact Dict.find?_insertAll_of_agree (hagree v hv ▸ hv) hagree _

/-! ## Subdocuments -/

theorem keptKeys?_eq {q : NestedQuery} (hq : q ∈ plan.combinedClause.nestedNodes) :
    plan.projection.keptKeys? q.path =
      if (requestedKeys c fields q.path).isEmpty then none
      else some (requestedKeys c fields q.path) := by
  rw [h.projection, hasNestedQuery_of_mem hq]
  exact keptKeys?_build c fields q.path

/-- Every section is read as the subdocuments that match the query on its path. -/
theorem subdocuments?_eq {entry : String × Json} (hentry : entry ∈ hit.innerHits.getD []) :
    ∃ q ∈ plan.combinedClause.nestedNodes, entry.1 = q.path ∧
      subdocuments? plan entry = some (q.path, engine.matched c fields doc q) := by
  obtain ⟨q, hq, hpath, found, hfound, hsources⟩ := h.returns.inner entry hentry
  refine ⟨q, hq, hpath, ?_⟩
  have hqueried := (exists_nestedNode_iff plan q.path).1 ⟨q, hq, rfl⟩
  have hkept : ∀ sub ∈ engine.matching doc q, Json.obj (keepKeys
      (plan.projection.keptKeys? q.path) sub.flatten) =
        .obj (keepBeneath (requestedKeys c fields q.path) sub.flatten) := by
    intro sub hsub
    rw [h.keptKeys?_eq hq, keepKeys_eq_keepBeneath (h.leafKeys q hq sub hsub)]
  rw [subdocuments?, hpath, if_pos hqueried, hfound, Option.map_some, map_innerDocument hsources,
    List.map_congr_left hkept]
  rfl

theorem of_mem_innerEntries {entry : String × Json} (hentry : entry ∈ innerEntries plan hit) :
    ∃ q ∈ plan.combinedClause.nestedNodes, entry = (q.path, engine.matched c fields doc q) := by
  rw [innerEntries, h.notFlattened, if_neg Bool.false_ne_true] at hentry
  obtain ⟨found, hfound, heq⟩ := List.mem_filterMap.1 hentry
  obtain ⟨q, hq, -, hsome⟩ := h.subdocuments?_eq hfound
  rw [hsome] at heq
  exact ⟨q, hq, (Option.some.inj heq).symm⟩

theorem mem_innerEntries {q : NestedQuery} (hq : q ∈ plan.combinedClause.nestedNodes) :
    (q.path, engine.matched c fields doc q) ∈ innerEntries plan hit := by
  rw [innerEntries, h.notFlattened, if_neg Bool.false_ne_true]
  obtain ⟨entry, hentry, hpath⟩ := h.returns.inner_complete q hq
  obtain ⟨other, hother, hsame, hsome⟩ := h.subdocuments?_eq hentry
  obtain rfl := h.eq_of_path_eq hother hq (hsame.symm.trans hpath)
  exact List.mem_filterMap.2 ⟨entry, hentry, hsome⟩

/-! ## All that is gathered -/

theorem find?_gathered_of_mem {q : NestedQuery} (hq : q ∈ plan.combinedClause.nestedNodes) :
    (gathered c plan hit).find? q.path = some (engine.matched c fields doc q) := by
  refine Dict.find?_insertAll_of_agree (h.mem_innerEntries hq) (fun other hother => ?_) _
  obtain ⟨found, hfound, heq⟩ := h.of_mem_innerEntries hother
  obtain rfl := h.eq_of_path_eq hq hfound (congrArg Prod.fst heq)
  exact congrArg Prod.snd heq

theorem find?_gathered_of_notMem {key : String}
    (hkey : ∀ q ∈ plan.combinedClause.nestedNodes, q.path ≠ key) :
    (gathered c plan hit).find? key =
      (hit.merged.find? key).map fun v => if c.isNested key then v else unwrap v := by
  have hnone : ∀ entry ∈ innerEntries plan hit, entry.1 ≠ key := by
    intro entry hentry
    obtain ⟨q, hq, rfl⟩ := h.of_mem_innerEntries hentry
    exact hkey q hq
  rw [gathered, Dict.find?_insertAll_of_notMem hnone, unwrapStandard, Dict.find?_mapValues]

theorem find?_gathered_of_standard {field : String} (hfield : field ∈ fields)
    (hstandard : ¬c.OnNestedPath field) :
    (gathered c plan hit).find? field =
      if doc.values field ≠ [] then some (doc.value field) else none := by
  have hpath : field ∉ c.nested.paths := fun hmem => hstandard (Or.inl hmem)
  have hnested : ¬c.isNested field = true := fun hnested => hstandard (Or.inr hnested)
  have hsource : hit.flatSource.contains field = false := by
    rw [← Bool.not_eq_true, Dict.contains_iff_exists_mem]
    rintro ⟨v, hv⟩
    exact hpath (h.of_mem_flatSource hv).1
  have hquery : ∀ q ∈ plan.combinedClause.nestedNodes, q.path ≠ field := by
    rintro q hq rfl
    exact hpath (h.path_mem hq)
  rw [h.find?_gathered_of_notMem hquery, find?_merged_of_not_contains hsource,
    h.find?_fields_of_standard hfield hstandard]
  unfold StoredDocument.value
  match doc.values field with
  | [] => rfl
  | [v] => simp [hnested, unwrap]
  | v :: w :: vs => simp [hnested, unwrap]

/-- Before nulls are filled in there are standard fields, queried paths, and lists at paths with
requested keys. -/
theorem of_contains_gathered {key : String} (hkey : (gathered c plan hit).contains key = true) :
    key ∈ fields ∧ ¬c.OnNestedPath key ∨ (∃ q ∈ plan.combinedClause.nestedNodes, q.path = key) ∨
      plan.hasNestedQuery = false ∧ requestedKeys c fields key ≠ [] ∧
        doc.subdocuments key ≠ none := by
  by_cases hquery : ∃ q ∈ plan.combinedClause.nestedNodes, q.path = key
  · exact Or.inr (Or.inl hquery)
  · rw [Dict.contains, h.find?_gathered_of_notMem fun q hq heq => hquery ⟨q, hq, heq⟩,
      Option.isSome_map] at hkey
    cases hsource : hit.flatSource.contains key with
    | true =>
      obtain ⟨v, hv⟩ := Dict.contains_iff_exists_mem.1 hsource
      obtain ⟨-, hactive, hkeys, subs, hsubs, -⟩ := h.of_mem_flatSource hv
      exact Or.inr (Or.inr ⟨hactive, hkeys, by simp [hsubs]⟩)
    | false =>
      rw [find?_merged_of_not_contains hsource] at hkey
      exact Or.inl (h.standard_of_contains_fields hkey)

/-! ## The document -/

theorem document_eq : (decodeFlat c plan hit).1 =
    (fillMissing c fields (gathered c plan hit)).1 := by
  rw [decodeFlat_eq, h.projection]
  rfl

theorem find?_of_standard {field : String} (hfield : field ∈ fields)
    (hstandard : ¬c.OnNestedPath field) :
    (decodeFlat c plan hit).1.find? field = some (doc.value field) := by
  have hgathered := h.find?_gathered_of_standard hfield hstandard
  rw [h.document_eq]
  by_cases hvalues : doc.values field = []
  · rw [if_neg (not_not_intro hvalues)] at hgathered
    have hmissing : (gathered c plan hit).contains field = false := by
      rw [Dict.contains, hgathered, Option.isSome_none]
    obtain ⟨key, rfl | howner, hcontains⟩ :=
      (isPresent_iff c).1 (isPresent_fillMissing c fields (gathered c plan hit) field hfield)
    · rw [(find?_fillMissing_of_added c fields hmissing hcontains).2, StoredDocument.value, hvalues]
    · exact absurd (Or.inr (isNested_iff.2 ⟨key, howner⟩)) hstandard
  · rw [if_pos hvalues] at hgathered
    exact find?_fillMissing_of_find? c fields hgathered

theorem find?_of_mem {q : NestedQuery} (hq : q ∈ plan.combinedClause.nestedNodes) :
    (decodeFlat c plan hit).1.find? q.path = some (engine.matched c fields doc q) := by
  rw [h.document_eq]
  exact find?_fillMissing_of_find? c fields (h.find?_gathered_of_mem hq)

omit h in
theorem path_ne_of_inactive (hactive : plan.hasNestedQuery = false) (path : String) :
    ∀ q ∈ plan.combinedClause.nestedNodes, q.path ≠ path := by
  intro q hq
  rw [hasNestedQuery_of_mem hq] at hactive
  cases hactive

theorem find?_of_list {path : String} (hactive : plan.hasNestedQuery = false)
    (hkeys : requestedKeys c fields path ≠ []) (hnested : c.isNested path = true)
    {subs : List Json} (hsubs : doc.subdocuments path = some subs) :
    (decodeFlat c plan hit).1.find? path =
      some (.arr (subs.map (engine.reduce (requestedKeys c fields path)))) := by
  have hgathered := h.find?_gathered_of_notMem (path_ne_of_inactive hactive path)
  rw [h.find?_merged_of_list hactive hkeys hsubs, Option.map_some, if_pos hnested] at hgathered
  rw [h.document_eq]
  exact find?_fillMissing_of_find? c fields hgathered

/-- A requested field is no nested path, as no path continues another. -/
theorem notMem_paths {field : String} (hfield : field ∈ fields) : field ∉ c.nested.paths := by
  intro hmem
  obtain ⟨path, key, howner, hkey⟩ := h.named field hfield (Or.inl hmem)
  rw [h.apart path (mem_paths_of_nestedPath? howner) field hmem] at hkey
  cases hkey

theorem find?_of_absent {field path : String} (hactive : plan.hasNestedQuery = false)
    (hfield : field ∈ fields) (howner : c.nestedPath? field = some path)
    (habsent : doc.subdocuments path = none) :
    (decodeFlat c plan hit).1.find? field = some .null := by
  have hmem := mem_paths_of_nestedPath? howner
  have hmissing : (gathered c plan hit).contains field = false := by
    rw [← Bool.not_eq_true]
    intro hcontains
    obtain ⟨-, hstandard⟩ | ⟨q, hq, hpath⟩ | ⟨-, hkeys, -⟩ := h.of_contains_gathered hcontains
    · exact hstandard (Or.inr (isNested_iff.2 ⟨path, howner⟩))
    · exact path_ne_of_inactive hactive field q hq hpath
    · exact h.notMem_paths hfield (mem_paths_of_requestedKeys hkeys)
  have hnolist : (gathered c plan hit).contains path = false := by
    rw [← Bool.not_eq_true]
    intro hcontains
    obtain ⟨-, hstandard⟩ | ⟨q, hq, hpath⟩ | ⟨-, -, hlist⟩ := h.of_contains_gathered hcontains
    · exact hstandard (Or.inl hmem)
    · exact path_ne_of_inactive hactive path q hq hpath
    · exact hlist habsent
  rw [h.document_eq]
  obtain ⟨key, rfl | hkey, hcontains⟩ :=
    (isPresent_iff c).1 (isPresent_fillMissing c fields (gathered c plan hit) field hfield)
  · exact (find?_fillMissing_of_added c fields hmissing hcontains).2
  · obtain rfl := Option.some.inj (howner.symm.trans hkey)
    have hrequested := (find?_fillMissing_of_added c fields hnolist hcontains).1
    exact absurd hmem (h.notMem_paths hrequested)

theorem of_contains {key : String} (hkey : (decodeFlat c plan hit).1.contains key = true) :
    key ∈ fields ∧ (plan.hasNestedQuery = true → ¬c.OnNestedPath key) ∨
      (∃ q ∈ plan.combinedClause.nestedNodes, q.path = key) ∨
      plan.hasNestedQuery = false ∧ requestedKeys c fields key ≠ [] := by
  rw [h.document_eq] at hkey
  cases hthere : (gathered c plan hit).contains key with
  | true =>
    obtain ⟨hfield, hstandard⟩ | hquery | ⟨hactive, hkeys, -⟩ := h.of_contains_gathered hthere
    · exact Or.inl ⟨hfield, fun _ => hstandard⟩
    · exact Or.inr (Or.inl hquery)
    · exact Or.inr (Or.inr ⟨hactive, hkeys⟩)
  | false =>
    have hfield := (find?_fillMissing_of_added c fields hthere hkey).1
    refine Or.inl ⟨hfield, fun hactive hon => ?_⟩
    -- The path that owns the field is queried, so that nothing is filled in for the field.
    obtain ⟨path, -, howner, -⟩ := h.named key hfield hon
    obtain ⟨q, hq, rfl⟩ :=
      (exists_nestedNode_iff plan path).2 (h.active hactive key hfield path howner)
    have hpresent : isPresent c (gathered c plan hit) key = true := by
      exact (isPresent_iff c).2 ⟨q.path, Or.inr howner,
        Dict.contains_of_find?_eq_some (h.find?_gathered_of_mem hq)⟩
    rw [Dict.contains, find?_fillMissing_of_isPresent c fields hpresent, ← Dict.contains,
      hthere] at hkey
    cases hkey

/-- What is decoded from a hit tells what was requested of its stored document. -/
theorem decoded : engine.Decoded c plan fields doc (decodeFlat c plan hit).1 where
  standard := fun _ hfield hstandard => h.find?_of_standard hfield hstandard
  matched := fun _ hq => h.find?_of_mem hq
  stored := fun hactive _ hkeys hnested _ hsubs => h.find?_of_list hactive hkeys hnested hsubs
  absent := fun hactive _ hfield _ howner habsent => h.find?_of_absent hactive hfield howner habsent
  only := fun _ hkey => h.of_contains hkey

end

end Exchange

/-! ## Answers -/

/-- What a request gets back is what it asked for, whatever documents the engine finds. -/
theorem decode_of_returns {engine : Retrieval} {c : Catalog} {settings : PlanSettings}
    {r : Request} {plan : Plan} {raw : Json} {reply : Reply} {docs : List StoredDocument}
    (h : compile c settings r = .ok plan)
    (hapart : ∀ path ∈ c.nested.paths, ∀ other ∈ c.nested.paths, relativeKey? path other = none)
    (hfields : r.options.fields ≠ []) (hkeys : r.options.keysNested = false)
    (hflat : r.options.allProgramsNested = false)
    (hnamed : ∀ field ∈ r.options.fields, c.OnNestedPath field →
      ∃ path key, c.nestedPath? field = some path ∧ relativeKey? path field = some key)
    (hactive : plan.hasNestedQuery = true → ∀ field ∈ r.options.fields, ∀ path,
      c.nestedPath? field = some path → plan.queriesPath path = true)
    (hleaf : ∀ doc ∈ docs, ∀ q ∈ plan.combinedClause.nestedNodes,
      ∀ sub ∈ engine.matching doc q, ∀ key ∈ requestedKeys c r.options.fields q.path,
        sub.IsLeafKey key)
    (hread : Reply.read raw = .ok reply)
    (hreturns : List.Forall₂ (engine.Returns c plan) docs reply.hits.hits)
    (searchTime : Option Double) :
    ∃ answer counts, decode c plan raw searchTime = .ok (answer, counts) ∧
      List.Forall₂ (fun doc document => ∃ d, document = .obj d ∧
        engine.Decoded c plan r.options.fields doc d) docs answer.documents := by
  refine ⟨_, _, decode_of_read hread c plan searchTime, ?_⟩
  obtain ⟨conditions, classified, hstages⟩ := stages_of_compile h
  have hprojection : plan.projection = .build c r.options.fields plan.hasNestedQuery false := by
    rw [hstages.projection, hflat]
  have hwhole : plan.projection.source.isWholeDocument = false := by
    rw [hprojection]
    exact isWholeDocument_build_eq_false hfields _ _
  have hdecoded : ∀ doc hit, (∀ q ∈ plan.combinedClause.nestedNodes,
      ∀ sub ∈ engine.matching doc q, ∀ key ∈ requestedKeys c r.options.fields q.path,
        sub.IsLeafKey key) ∧ engine.Returns c plan doc hit →
      ∃ d, (decodeHit c plan hit).1 = .obj d ∧
        engine.Decoded c plan r.options.fields doc d := by
    rintro doc hit ⟨hleafKeys, hreturn⟩
    have hexchange : Exchange engine c plan r.options.fields doc hit :=
      { projection := hprojection
        notFlattened := by rw [hstages.output]; exact hflat
        nodup := hstages.nodup_paths
        queried := fun _ hqueried => hstages.mem_paths_of_queriesPath hqueried
        apart := hapart
        named := hnamed
        active := hactive
        leafKeys := hleafKeys
        returns := hreturn }
    refine ⟨_, ?_, hexchange.decoded⟩
    have hdotted : plan.output.keysNested = false := by
      rw [hstages.output]
      exact hkeys
    rw [decodeHit, hdotted]
    rfl
  rw [Answer.ofDocuments, documents_of_not_whole hwhole, List.forall₂_map_right_iff]
  exact ((List.forall₂_and_left _ _).2 ⟨hleaf, hreturns⟩).imp hdecoded

/-! ### One search -/

/-- An engine that compares values and knows no other questions. -/
def comparingEngine : Retrieval where
  matching doc q := ((doc.subdocuments q.path).getD []).filter fun sub =>
    q.predicate.holds (.ofAtoms fun atom =>
      match atom with
      | .equals field value =>
        (relativeKey? q.path field).bind (Dict.find? sub.flatten) == some value
      | _ => false)
  reduce keys sub := .obj (keepBeneath keys sub.flatten)

/-- A school with two programs. -/
def school : StoredDocument where
  values field := if field = "name" then [.str "North"] else []
  subdocuments path :=
    if path = "programs" then
      some [.obj [("code", .str "13"), ("title", .str "Law")],
        .obj [("code", .str "14"), ("title", .str "Art")]]
    else none

def schools : Catalog :=
  { nested := ⟨["programs"], List.pairwise_singleton _ _⟩ }

/-- Names and titles of programs, where there is a program with the code 13. -/
def lawRequest : Request :=
  { params := [⟨"programs.code", .single "13"⟩]
    options := { fields := ["name", "programs.title"] } }

def lawPlan : Plan where
  standardTerms := []
  groups := [⟨"programs", [.equals "programs.code" (.str "13")]⟩]
  projection := .build schools ["name", "programs.title"] true false
  sort := []
  paging := ⟨0, 20, 0⟩
  aggregations := []
  output := ⟨false, false, false, [], false⟩

def lawQuery : NestedQuery where
  path := "programs"
  context := .query
  predicate := .ofMust (.listed [.equals "programs.code" (.str "13")])

theorem nestedNodes_lawPlan : lawPlan.combinedClause.nestedNodes = [lawQuery] := rfl

/-- The program that matches. -/
def law : Json :=
  .obj [("code", .str "13"), ("title", .str "Law")]

theorem matching_lawQuery : comparingEngine.matching school lawQuery = [law] := by
  decide

def lawSection : Json :=
  .single "hits" (.single "hits" (.arr [.single "_source" law]))

def lawReply : Json :=
  .single "hits" (.single "hits" (.arr [.obj [
    ("fields", .single "name" (.arr [.str "North"])),
    ("inner_hits", .single "programs" lawSection)]]))

def lawHit : Hit where
  fields := some [("name", .arr [.str "North"])]
  innerHits := some [("programs", lawSection)]

theorem returns_lawHit : comparingEngine.Returns schools lawPlan school lawHit where
  fields field := by
    have hlisted : listedFields lawPlan.body = ["name"] := rfl
    rw [hlisted]
    by_cases hname : field = "name"
    · subst hname
      decide
    · have hmissing : Dict.find? (lawHit.fields.getD []) field = none := by
        simp [lawHit, Dict.find?_cons, Ne.symm hname]
      rw [hmissing, if_neg (by simp [hname])]
  source leaf hleaf := by cases hleaf
  source_complete path _ hkeys := absurd rfl hkeys
  inner entry hentry := by
    obtain rfl := List.mem_singleton.1 hentry
    refine ⟨lawQuery, ?_, rfl, { hits := [{ source := some law }] }, rfl, ?_⟩
    · rw [nestedNodes_lawPlan]
      exact List.mem_singleton_self _
    · rw [matching_lawQuery]
      rfl
  inner_complete q hq := by
    rw [nestedNodes_lawPlan, List.mem_singleton] at hq
    exact ⟨("programs", lawSection), List.mem_singleton_self _, by rw [hq]; rfl⟩

/-- Of two programs the one that matches comes back, with its title alone. -/
theorem decode_lawReply :
    ∃ answer counts, compile schools {} lawRequest = .ok lawPlan ∧
      decode schools lawPlan lawReply none = .ok (answer, counts) ∧
      ∃ d, answer.documents = [.obj d] ∧ Dict.find? d "name" = some (.str "North") ∧
        Dict.find? d "programs" = some (.arr [.obj [("title", .str "Law")]]) := by
  have h : compile schools {} lawRequest = .ok lawPlan := rfl
  have hread : Reply.read lawReply = .ok { hits := { hits := [lawHit] } } := rfl
  have hfields : lawRequest.options.fields = ["name", "programs.title"] := rfl
  have hname : ¬schools.OnNestedPath "name" := by
    rintro (hmem | hnested)
    · exact absurd hmem (by decide)
    · exact absurd hnested (by decide)
  have hnamed : ∀ field ∈ lawRequest.options.fields, schools.OnNestedPath field →
      ∃ path key, schools.nestedPath? field = some path ∧ relativeKey? path field = some key := by
    rw [hfields, List.forall_mem_cons, List.forall_mem_singleton]
    exact ⟨fun hon => absurd hon hname, fun _ => ⟨"programs", "title", rfl, rfl⟩⟩
  have hactive : lawPlan.hasNestedQuery = true → ∀ field ∈ lawRequest.options.fields, ∀ path,
      schools.nestedPath? field = some path → lawPlan.queriesPath path = true := by
    rw [hfields, List.forall_mem_cons, List.forall_mem_singleton]
    refine fun _ => ⟨fun path hpath => ?_, fun path hpath => ?_⟩
    · cases hpath
    · obtain rfl : "programs" = path := Option.some.inj hpath
      decide
  have hleaf : ∀ doc ∈ [school], ∀ q ∈ lawPlan.combinedClause.nestedNodes,
      ∀ sub ∈ comparingEngine.matching doc q,
        ∀ key ∈ requestedKeys schools lawRequest.options.fields q.path, sub.IsLeafKey key := by
    rw [nestedNodes_lawPlan, List.forall_mem_singleton, List.forall_mem_singleton,
      matching_lawQuery, List.forall_mem_singleton]
    unfold Json.IsLeafKey
    decide
  obtain ⟨answer, counts, hdecode, hdocuments⟩ := decode_of_returns h (by decide) (by decide) rfl
    rfl hnamed hactive hleaf hread (.cons returns_lawHit .nil) none
  obtain ⟨document, rest, ⟨d, rfl, hdecoded⟩, hrest, hanswer⟩ :=
    List.forall₂_cons_left_iff.1 hdocuments
  obtain rfl := List.forall₂_nil_left_iff.1 hrest
  refine ⟨answer, counts, h, hdecode, d, hanswer, ?_, ?_⟩
  · exact hdecoded.standard "name" (by decide) hname
  · have hmatched := hdecoded.matched lawQuery (by rw [nestedNodes_lawPlan]; simp)
    rw [matching_lawQuery] at hmatched
    exact hmatched

end FlatQuery
