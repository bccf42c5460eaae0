import FlatQuery.Proofs.Merging

/-!
# Sections that do not count

Of the sections of a hit only those count that a nested query of the plan asked for and that can be
read. `DifferInSections` relates two replies that are the same but for the sections of their hits;
where these differ in sections that do not count, both replies make the same answer or are refused
alike (`decode_eq_of_differInSections`). The argument follows the two replies through each record in
which the sections lie, and then through the documents of their hits.
-/

namespace FlatQuery

/-! ## Records that differ in one field -/

/-- The values are the same, or records with the same fields but for the one at `i`, where `R`
relates them. -/
def Json.SameBut (names : List String) (i : Nat) (R : Option Json → Option Json → Prop)
    (v w : Json) : Prop :=
  v = w ∨ ∃ fields x y, v.record? names = some fields ∧ fields[i]? = some x ∧
    w.record? names = some (fields.set i y) ∧ R x y

/-- Two lists with related items in the same places. -/
def Json.ItemsRelated (R : Json → Json → Prop) (v w : Json) : Prop :=
  ∃ vs ws, v = .arr vs ∧ w = .arr ws ∧ List.Forall₂ R vs ws

/-- The sections in the field of a hit; an absent field and null have none. -/
def sectionsOf? (field : Option Json) : Option (Dict Json) :=
  (Json.optional? Json.members? field).map fun sections => sections.getD []

/-- Two fields of hits with sections that are related. -/
def SectionsRelated (R : Dict Json → Dict Json → Prop) (x y : Option Json) : Prop :=
  ∃ a b, sectionsOf? x = some a ∧ sectionsOf? y = some b ∧ R a b

/-- The replies are the same but for the sections of their hits, which `R` relates hit by hit. -/
def DifferInSections (R : Dict Json → Dict Json → Prop) : Json → Json → Prop :=
  Json.SameBut ["took", "hits", "aggregations", "error"] 1 <| Option.Rel <|
    Json.SameBut ["total", "hits"] 1 <| Option.Rel <| Json.ItemsRelated <|
      Json.SameBut ["_source", "fields", "inner_hits"] 2 (SectionsRelated R)

/-- There are the same sections under each path, unless no nested query of the plan is on the path
or neither section can be read. -/
def Plan.SameSections (plan : Plan) (a b : Dict Json) : Prop :=
  ∀ path, a.find? path = b.find? path ∨ (¬∃ q ∈ plan.nestedQueries, q.path = path) ∨
    (∀ found, a.find? path = some found → Hits.ofSection? found = none) ∧
      ∀ found, b.find? path = some found → Hits.ofSection? found = none

theorem Json.length_of_record? {names : List String} {v : Json} {fields : List (Option Json)}
    (h : v.record? names = some fields) : fields.length = names.length := by
  cases v with
  | obj members =>
    obtain rfl := Option.some.inj h
    rw [List.length_map]
  | arr items =>
    rw [record?] at h
    split at h
    · obtain rfl := Option.some.inj h
      simp
      omega
    · cases h
  | _ => cases h

/-! ## What is read of them -/

/-- Hits that are the same but for their sections. -/
structure Hit.SameBut (R : Dict Json → Dict Json → Prop) (hit other : Hit) : Prop where
  source : hit.source = other.source
  fields : hit.fields = other.fields
  sections : R (hit.innerHits.getD []) (other.innerHits.getD [])

structure Hits.SameBut (R : Dict Json → Dict Json → Prop) (hits other : Hits) : Prop where
  total : hits.total = other.total
  hits : List.Forall₂ (Hit.SameBut R) hits.hits other.hits

structure Reply.SameBut (R : Dict Json → Dict Json → Prop) (reply other : Reply) : Prop where
  took : reply.took = other.took
  hits : Hits.SameBut R reply.hits other.hits
  aggregations : reply.aggregations = other.aggregations

theorem rel_refl {α : Type} {S : α → α → Prop} (hrefl : ∀ a, S a a) (x : Option α) :
    Option.Rel S x x := by
  cases x with
  | none => exact .none
  | some a => exact .some (hrefl a)

theorem rel_bind {α β γ δ : Type} {S : α → β → Prop} {T : γ → δ → Prop} {x : Option α}
    {y : Option β} {f : α → Option γ} {g : β → Option δ} (h : Option.Rel S x y)
    (hfg : ∀ a b, S a b → Option.Rel T (f a) (g b)) : Option.Rel T (x.bind f) (y.bind g) := by
  cases h with
  | none => exact .none
  | some h => exact hfg _ _ h

/-- Items that are read alike make lists that are alike. -/
theorem rel_mapM {α β : Type} {S : β → β → Prop} {f : α → Option β} {vs ws : List α}
    (h : List.Forall₂ (fun v w => Option.Rel S (f v) (f w)) vs ws) :
    Option.Rel (List.Forall₂ S) (vs.mapM f) (ws.mapM f) := by
  induction h with
  | nil => exact .some .nil
  | cons hitem _ ih =>
    rw [List.mapM_cons, List.mapM_cons]
    exact rel_bind hitem fun _ _ hfirst => rel_bind ih fun _ _ hrest => .some (.cons hfirst hrest)

section Reading

variable {R : Dict Json → Dict Json → Prop} (hrefl : ∀ a, R a a)

include hrefl

theorem Hit.SameBut.refl (hit : Hit) : Hit.SameBut R hit hit :=
  ⟨rfl, rfl, hrefl _⟩

theorem Hits.SameBut.refl (hits : Hits) : Hits.SameBut R hits hits :=
  ⟨rfl, List.forall₂_same.2 fun hit _ => Hit.SameBut.refl hrefl hit⟩

theorem Reply.SameBut.refl (reply : Reply) : Reply.SameBut R reply reply :=
  ⟨rfl, Hits.SameBut.refl hrefl _, rfl⟩

theorem Hit.rel_ofJson? {v w : Json}
    (h : Json.SameBut ["_source", "fields", "inner_hits"] 2 (SectionsRelated R) v w) :
    Option.Rel (Hit.SameBut R) (Hit.ofJson? v) (Hit.ofJson? w) := by
  rcases h with rfl | ⟨fields, x, y, hv, hx, hw, a, b, ha, hb, hR⟩
  · exact rel_refl (Hit.SameBut.refl hrefl) _
  · obtain ⟨source, listed, inner, rfl⟩ := List.length_eq_three.1 (Json.length_of_record? hv)
    obtain rfl : inner = x := Option.some.inj hx
    obtain ⟨sections, hsections, rfl⟩ := Option.map_eq_some_iff.1 ha
    obtain ⟨others, hothers, rfl⟩ := Option.map_eq_some_iff.1 hb
    unfold Hit.ofJson?
    -- Both readings are now chains over the same fields that part at the sections.
    simp only [hv, hw, Option.bind_eq_bind, Option.bind_some, List.set_cons_succ,
      List.set_cons_zero]
    refine rel_bind (rel_refl (fun _ => rfl) _) ?_
    rintro _ source? rfl
    refine rel_bind (rel_refl (fun _ => rfl) _) ?_
    rintro _ fields? rfl
    rw [hsections, hothers]
    exact .some ⟨rfl, rfl, hR⟩

theorem Hits.rel_ofJson? {v w : Json}
    (h : Json.SameBut ["total", "hits"] 1 (Option.Rel (Json.ItemsRelated
      (Json.SameBut ["_source", "fields", "inner_hits"] 2 (SectionsRelated R)))) v w) :
    Option.Rel (Hits.SameBut R) (Hits.ofJson? v) (Hits.ofJson? w) := by
  rcases h with rfl | ⟨fields, x, y, hv, hx, hw, hlists⟩
  · exact rel_refl (Hits.SameBut.refl hrefl) _
  · obtain ⟨total, list, rfl⟩ := List.length_eq_two.1 (Json.length_of_record? hv)
    obtain rfl : list = x := Option.some.inj hx
    unfold Hits.ofJson?
    simp only [hv, hw, Option.bind_eq_bind, Option.bind_some, List.set_cons_succ,
      List.set_cons_zero]
    refine rel_bind (rel_refl (fun _ => rfl) _) ?_
    rintro _ total? rfl
    have hread : Option.Rel (List.Forall₂ (Hit.SameBut R))
        (Json.orDefault? [] (Json.list? Hit.ofJson?) list)
        (Json.orDefault? [] (Json.list? Hit.ofJson?) y) := by
      cases hlists with
      | none => exact .some .nil
      | some hlists =>
        obtain ⟨vs, ws, rfl, rfl, hitems⟩ := hlists
        exact rel_mapM (hitems.imp fun _ _ => Hit.rel_ofJson? hrefl)
    exact rel_bind hread fun _ _ hhits => .some ⟨rfl, hhits⟩

/-- Two replies of which only the sections differ are read as such, and report the same error. -/
theorem Reply.rel_ofJson? {v w : Json} (h : DifferInSections R v w) :
    Option.Rel (fun reply other => Reply.SameBut R reply.1 other.1 ∧ reply.2 = other.2)
      (Reply.ofJson? v) (Reply.ofJson? w) := by
  rcases h with rfl | ⟨fields, x, y, hv, hx, hw, hhits⟩
  · exact rel_refl (fun reply => ⟨Reply.SameBut.refl hrefl reply.1, rfl⟩) _
  · obtain ⟨took, hits, aggregations, error, rfl⟩ :=
      List.length_eq_four.1 (Json.length_of_record? hv)
    obtain rfl : hits = x := Option.some.inj hx
    unfold Reply.ofJson?
    simp only [hv, hw, Option.bind_eq_bind, Option.bind_some, List.set_cons_succ,
      List.set_cons_zero]
    refine rel_bind (rel_refl (fun _ => rfl) _) ?_
    rintro _ took? rfl
    have hread : Option.Rel (Hits.SameBut R) (Json.orDefault? {} Hits.ofJson? hits)
        (Json.orDefault? {} Hits.ofJson? y) := by
      cases hhits with
      | none => exact .some (Hits.SameBut.refl hrefl _)
      | some hhits => exact Hits.rel_ofJson? hrefl hhits
    refine rel_bind hread fun hits? others? hsame => ?_
    refine rel_bind (rel_refl (fun _ => rfl) _) ?_
    rintro _ aggregations? rfl
    refine rel_bind (rel_refl (fun _ => rfl) _) ?_
    rintro _ error? rfl
    exact .some ⟨⟨rfl, hsame, rfl⟩, rfl⟩

/-- Both replies are refused with the same error, or both are read. -/
theorem Reply.read_cases {v w : Json} (h : DifferInSections R v w) :
    (∃ e, Reply.read v = .error e ∧ Reply.read w = .error e) ∨
      ∃ reply other, Reply.read v = .ok reply ∧ Reply.read w = .ok other ∧
        Reply.SameBut R reply other := by
  have hrel := Reply.rel_ofJson? hrefl h
  unfold Reply.read
  cases hv : Reply.ofJson? v with
  | none =>
    cases hw : Reply.ofJson? w with
    | none => exact Or.inl ⟨_, rfl, rfl⟩
    | some other => rw [hv, hw] at hrel; cases hrel
  | some reply =>
    cases hw : Reply.ofJson? w with
    | none => rw [hv, hw] at hrel; cases hrel
    | some other =>
      obtain ⟨reply, error⟩ := reply
      obtain ⟨other, error'⟩ := other
      rw [hv, hw] at hrel
      cases hrel with
      | some hsame =>
        obtain ⟨hsame, rfl⟩ := hsame
        cases error with
        | none => exact Or.inr ⟨reply, other, rfl, rfl, hsame⟩
        | some error => exact Or.inl ⟨_, rfl, rfl⟩

end Reading

/-! ## Documents -/

section Documents

variable {R : Dict Json → Dict Json → Prop} {c : Catalog} {plan : Plan}

/-- Sections that do not count match nothing. -/
theorem matched?_eq_of_sameSections {hit other : Hit}
    (h : plan.SameSections (hit.innerHits.getD []) (other.innerHits.getD [])) (path : String) :
    plan.matched? hit path = plan.matched? other path := by
  unfold Plan.matched?
  split
  · rename_i hqueried
    obtain hsame | hnone | ⟨hhit, hother⟩ := h path
    · rw [hsame]
    · exact absurd hqueried.2 hnone
    · rw [Option.bind_eq_none_iff.2 hhit, Option.bind_eq_none_iff.2 hother]
  · rfl

theorem innerEntries_eq_of_sameSections {hit other : Hit} (hhit : hit.Ordered)
    (hother : other.Ordered)
    (h : plan.SameSections (hit.innerHits.getD []) (other.innerHits.getD [])) :
    innerEntries plan hit = innerEntries plan other := by
  refine (ascending_innerEntries plan hhit).ext (ascending_innerEntries plan hother) fun path => ?_
  rw [find?_innerEntries plan hhit, find?_innerEntries plan hother, matched?_eq_of_sameSections h]

/-- A document is made of the source, the fields and the lists of subdocuments. -/
theorem decodeHit_eq {hit other : Hit} (hsame : Hit.SameBut R hit other)
    (hinner : innerEntries plan hit = innerEntries plan other) :
    decodeHit c plan hit = decodeHit c plan other := by
  have hmerged : hit.merged = other.merged := by
    rw [Hit.merged, hsame.source, hsame.fields, ← Hit.merged]
  have hflat : decodeFlat c plan hit = decodeFlat c plan other := by
    unfold decodeFlat
    rw [hmerged, hinner]
  rw [decodeHit, hflat, ← decodeHit]

theorem decodeHits_eq_of_whole {reply other : Reply}
    (hwhole : plan.projection.source.isWholeDocument = true) (hsame : Reply.SameBut R reply other) :
    decodeHits c plan reply = decodeHits c plan other := by
  have hdocuments : reply.hits.hits.map wholeDocument = other.hits.hits.map wholeDocument := by
    rw [← List.forall₂_eq_eq_eq, List.forall₂_map_left_iff, List.forall₂_map_right_iff]
    exact hsame.hits.hits.imp fun hit other hhit => congrArg (Option.getD · _) hhit.source
  rw [decodeHits, if_pos hwhole, hdocuments, decodeHits, if_pos hwhole]

theorem decodeHits_eq_of_decodeHit {reply other : Reply} (hsame : Reply.SameBut R reply other)
    (hhits : List.Forall₂ (fun hit hit' => decodeHit c plan hit = decodeHit c plan hit')
      reply.hits.hits other.hits.hits) :
    decodeHits c plan reply = decodeHits c plan other := by
  by_cases hwhole : plan.projection.source.isWholeDocument = true
  · exact decodeHits_eq_of_whole hwhole hsame
  · have hdocuments : reply.hits.hits.map (decodeHit c plan) =
        other.hits.hits.map (decodeHit c plan) := by
      rwa [← List.forall₂_eq_eq_eq, List.forall₂_map_left_iff, List.forall₂_map_right_iff]
    rw [decodeHits, if_neg hwhole, hdocuments, decodeHits, if_neg hwhole]

/-- With flattened subdocuments or whole documents, sections count for nothing. -/
theorem decodeHits_eq_of_unread {reply other : Reply}
    (hunread : plan.output.flattenNested = true ∨ plan.projection.source.isWholeDocument = true)
    (hsame : Reply.SameBut R reply other) : decodeHits c plan reply = decodeHits c plan other := by
  rcases hunread with hflatten | hwhole
  · refine decodeHits_eq_of_decodeHit hsame (hsame.hits.hits.imp fun hit hit' hhit => ?_)
    refine decodeHit_eq hhit ?_
    rw [innerEntries, if_pos hflatten, innerEntries, if_pos hflatten]
  · exact decodeHits_eq_of_whole hwhole hsame

theorem decodeHits_eq_of_sameSections {reply other : Reply}
    (hsame : Reply.SameBut plan.SameSections reply other)
    (hreply : ∀ hit ∈ reply.hits.hits, hit.Ordered)
    (hother : ∀ hit ∈ other.hits.hits, hit.Ordered) :
    decodeHits c plan reply = decodeHits c plan other := by
  have hright := ((List.forall₂_and_left _ _).2 ⟨hother, hsame.hits.hits.flip⟩).flip
  have hboth := (List.forall₂_and_left _ _).2 ⟨hreply, hright⟩
  refine decodeHits_eq_of_decodeHit hsame (hboth.imp ?_)
  rintro hit hit' ⟨hhit, hhit', hsections⟩
  exact decodeHit_eq hsections (innerEntries_eq_of_sameSections hhit hhit' hsections.sections)

/-- Two replies of which only the sections differ make the same answer if they make the same
documents. -/
theorem decode_eq_of_decodeHits (hrefl : ∀ a, R a a) {raw other : Json}
    (h : DifferInSections R raw other)
    (hdocuments : ∀ reply reply', Reply.read raw = .ok reply → Reply.read other = .ok reply' →
      Reply.SameBut R reply reply' → decodeHits c plan reply = decodeHits c plan reply')
    (searchTime : Option Double) :
    decode c plan raw searchTime = decode c plan other searchTime := by
  obtain ⟨e, hraw, hother⟩ | ⟨reply, reply', hraw, hother, hsame⟩ := Reply.read_cases hrefl h
  · rw [decode, hraw, decode, hother]
  · rw [decode_of_read hraw, decode_of_read hother, hdocuments reply reply' hraw hother hsame]
    unfold Answer.ofDocuments Reply.total
    rw [hsame.took, hsame.hits.total, hsame.aggregations]

end Documents

/-- Replies that differ only in sections that the plan did not ask for, or that cannot be read in
either, are both refused with the same error or both make the same answer with the same counts. With
flattened subdocuments or whole documents all sections may differ. -/
theorem decode_eq_of_differInSections (c : Catalog) (plan : Plan) (raw other : Json)
    (searchTime : Option Double) :
    (raw.Ordered → other.Ordered → DifferInSections plan.SameSections raw other →
        decode c plan raw searchTime = decode c plan other searchTime) ∧
      (plan.output.flattenNested = true ∨ plan.projection.source.isWholeDocument = true →
        DifferInSections (fun _ _ => True) raw other →
          decode c plan raw searchTime = decode c plan other searchTime) := by
  constructor
  · intro hraw hother h
    refine decode_eq_of_decodeHits (fun _ _ => Or.inl rfl) h ?_ searchTime
    intro reply reply' hread hread' hsame
    exact decodeHits_eq_of_sameSections hsame (Reply.ordered_of_read hraw hread)
      (Reply.ordered_of_read hother hread')
  · intro hunread h
    refine decode_eq_of_decodeHits (fun _ => trivial) h ?_ searchTime
    exact fun _ _ _ _ hsame => decodeHits_eq_of_unread hunread hsame

/-- A reply with one hit that has the given sections. -/
def sectionsReply (sections : Dict Json) : Json :=
  .single "hits" (.single "hits" (.arr [.obj [("_source", .single "name" (.str "North")),
    ("inner_hits", .obj sections)]]))

theorem differInSections_sectionsReply {R : Dict Json → Dict Json → Prop} {a b : Dict Json}
    (h : R a b) : DifferInSections R (sectionsReply a) (sectionsReply b) := by
  refine Or.inr ⟨_, _, _, rfl, rfl, rfl, .some (Or.inr ⟨_, _, _, rfl, rfl, rfl, .some ?_⟩)⟩
  exact ⟨_, _, rfl, rfl, .cons (Or.inr ⟨_, _, _, rfl, rfl, rfl, a, b, rfl, rfl, h⟩) .nil⟩

/-- The plan for courses, with nested fields read from the source. -/
def flattenedPlan : Plan :=
  { campusPlan with output := { campusPlan.output with flattenNested := true } }

/-- The sections of the courses cannot be read in either reply, and the staff was not asked for. -/
theorem decode_eq_of_unreadable_courses :
    decode campusCatalog campusPlan
        (sectionsReply [("courses", .bool true), ("staff", .obj [])]) none =
      decode campusCatalog campusPlan (sectionsReply [("courses", .str "none")]) none ∧
    decode campusCatalog flattenedPlan (sectionsReply [("courses", .obj [])]) none =
      decode campusCatalog flattenedPlan (sectionsReply []) none := by
  have hsections : campusPlan.SameSections [("courses", .bool true), ("staff", .obj [])]
      [("courses", .str "none")] := by
    intro path
    by_cases hcourses : path = "courses"
    · subst hcourses
      exact Or.inr (Or.inr ⟨by decide, by decide⟩)
    · by_cases hstaff : path = "staff"
      · subst hstaff
        exact Or.inr (Or.inl (by decide))
      · left
        simp [Dict.find?_cons, Ne.symm hcourses, Ne.symm hstaff]
  constructor
  · exact (decode_eq_of_differInSections _ _ _ _ none).1 (by decide) (by decide)
      (differInSections_sectionsReply hsections)
  · exact (decode_eq_of_differInSections _ _ _ _ none).2 (Or.inl rfl)
      (differInSections_sectionsReply trivial)

end FlatQuery
