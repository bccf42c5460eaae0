import FlatQuery.Proofs.Channels
import FlatQuery.Proofs.SortKeys
import FlatQuery.Proofs.WellFormed
import FlatQuery.Proofs.WireForm

/-!
# Filters of nested orders

An order by a nested field should look at the subdocuments that the search matches, and at no
others. The filter of the order and the predicate of the search are written to the body in two
places. Both are read back from the body here: the nested clauses by going through the written
search (`Json.nestedBodies`), the filters from the written orders. They are the same
(`nestedFilter_eq_predicate`), since a path has one query and joining keeps it as it is.
-/

namespace FlatQuery

/-! ## Reading a body -/

namespace Json

mutual

/-- The bodies of all nested clauses in a written clause, or in a list of written clauses. -/
def nestedBodies : Json → List Json
  | arr items => nestedInItems items
  | obj members => nestedInKinds members
  | null | bool _ | num _ | str _ => []
termination_by structural v => v

def nestedInItems : List Json → List Json
  | [] => []
  | v :: vs => v.nestedBodies ++ nestedInItems vs
termination_by structural vs => vs

/-- A clause has one member, named for its kind. Only three kinds have clauses within. -/
def nestedInKinds : List (String × Json) → List Json
  | [] => []
  | (kind, body) :: members =>
    (if kind = "nested" then body :: body.nestedInSlots
      else if kind = "bool" then body.nestedInSlots
      else if kind = "or" then body.nestedBodies
      else []) ++ nestedInKinds members
termination_by structural members => members

def nestedInSlots : Json → List Json
  | obj members => nestedInMembers members
  | null | bool _ | num _ | str _ | arr _ => []
termination_by structural v => v

def nestedInMembers : List (String × Json) → List Json
  | [] => []
  | (_, v) :: members => v.nestedBodies ++ nestedInMembers members
termination_by structural members => members

end

theorem nestedInMembers_eq_flatMap (members : List (String × Json)) :
    nestedInMembers members = members.flatMap fun member => member.2.nestedBodies := by
  induction members with
  | nil => rfl
  | cons member members ih => rw [nestedInMembers, ih, List.flatMap_cons]

end Json

/-- The bodies of the nested clauses on a path in the search of a body. -/
def nestedOn (path : String) (body : Json) : List Json :=
  (((body.get? "query").map Json.nestedBodies).getD []).filter fun nested =>
    nested.get? "path" = some (.str path)

/-- The predicate in the body of a nested clause. -/
def writtenPredicate? (nested : Json) : Option Json :=
  (nested.get? "query").or (nested.get? "filter")

/-- The orders of a body. -/
def writtenOrders (body : Json) : List Json :=
  match body.get? "sort" with
  | some (.arr orders) => orders
  | _ => []

/-- The filter in a written order, which is one member under the name of the field. -/
def nestedFilter? : Json → Option Json
  | .obj [(_, order)] => order.get? "nested_filter"
  | _ => none

/-! ## Written clauses -/

namespace Clause

theorem nestedInItems_listToJson (cs : List Clause) :
    Json.nestedInItems (listToJson cs) = cs.flatMap fun c => c.toJson.nestedBodies := by
  induction cs with
  | nil => rfl
  | cons c cs ih => rw [listToJson, Json.nestedInItems, ih, List.flatMap_cons]

theorem flatMap_slotMember (key : String) (slot : Slot Clause) :
    ((slotMember key slot).flatMap fun member => member.2.nestedBodies) =
      slot.toList.flatMap fun c => c.toJson.nestedBodies := by
  match slot with
  | .empty => rfl
  | .one c => rw [slotMember, Slot.toList_one, List.flatMap_singleton, List.flatMap_singleton]
  | .many [] => rfl
  | .many (c :: cs) =>
    rw [slotMember, ← listToJson, List.flatMap_singleton, Json.nestedBodies,
      nestedInItems_listToJson, Slot.toList_many]

theorem nestedBodies_any (cs : List Clause) :
    (any cs).toJson.nestedBodies = cs.flatMap fun c => c.toJson.nestedBodies := by
  rw [toJson, Json.single, Json.nestedBodies, Json.nestedInKinds, if_neg (by decide),
    if_neg (by decide), if_pos rfl, Json.nestedBodies, nestedInItems_listToJson,
    Json.nestedInKinds, List.append_nil]

theorem nestedBodies_bool (must filter mustNot : Slot Clause) :
    (bool must filter mustNot).toJson.nestedBodies =
      (filter.toList ++ must.toList ++ mustNot.toList).flatMap fun c => c.toJson.nestedBodies := by
  rw [toJson, Json.single, Json.nestedBodies, Json.nestedInKinds, if_neg (by decide), if_pos rfl,
    Json.nestedInKinds, List.append_nil, Json.nestedInSlots, Json.nestedInMembers_eq_flatMap]
  simp only [List.flatMap_append, flatMap_slotMember]

/-- Apart from the predicate there are no clauses in the body of a nested clause. -/
theorem nestedInSlots_nestedBody (path : String) (context : Context) (predicate : Json)
    (size : Nat) :
    (nestedBody path context predicate size).nestedInSlots = predicate.nestedBodies := by
  have hsize : (Json.single "size" (.ofNat size)).nestedBodies = [] := rfl
  have hpathValue : (Json.str path).nestedBodies = [] := rfl
  -- the members come in the order of their keys, so the predicate is last or first
  have hinner : "inner_hits" < "path" := by decide
  cases context with
  | query =>
    have hpath : "path" < "query" := by decide
    have hbody : nestedBody path .query predicate size = .obj [("inner_hits", .single "size"
        (.ofNat size)), ("path", .str path), ("query", predicate)] := by
      rw [nestedBody, Json.ofMembers, Dict.ofList, Dict.insertAll, List.foldl_cons,
        List.foldl_cons, List.foldl_cons, List.foldl_nil, Context.word, Dict.insert,
        Dict.insert_cons_of_gt hpath, Dict.insert, Dict.insert_cons_of_lt hinner]
    rw [hbody, Json.nestedInSlots, Json.nestedInMembers_eq_flatMap]
    simp [hsize, hpathValue]
  | filter =>
    have hpath : "filter" < "path" := by decide
    have hfilter : "filter" < "inner_hits" := by decide
    have hbody : nestedBody path .filter predicate size = .obj [("filter", predicate),
        ("inner_hits", .single "size" (.ofNat size)), ("path", .str path)] := by
      rw [nestedBody, Json.ofMembers, Dict.ofList, Dict.insertAll, List.foldl_cons,
        List.foldl_cons, List.foldl_cons, List.foldl_nil, Context.word, Dict.insert,
        Dict.insert_cons_of_lt hpath, Dict.insert_cons_of_gt hfilter,
        Dict.insert_cons_of_lt hinner]
    rw [hbody, Json.nestedInSlots, Json.nestedInMembers_eq_flatMap]
    simp [hsize, hpathValue]

theorem Ordinary.nestedBodies {c : Clause} (h : Ordinary c) : c.toJson.nestedBodies = [] := by
  induction h with
  | @atom c h =>
    cases c with
    | matchAll | any | nested | bool => cases h
    | _ => rfl
  | any _ _ ih =>
    rw [nestedBodies_any, List.flatMap_eq_nil_iff]
    exact ih
  | bool _ _ ih =>
    rw [nestedBodies_bool, List.flatMap_eq_nil_iff]
    simp only [List.forall_mem_append] at ih ⊢
    exact ⟨⟨ih.1.2, ih.1.1⟩, ih.2⟩

end Clause

/-! ## Written queries -/

namespace NestedQuery

/-- The body of the nested clause of a query. -/
def body (q : NestedQuery) : Json :=
  Clause.nestedBody q.path q.context q.predicate.toJson q.size

theorem get?_path_body (q : NestedQuery) : q.body.get? "path" = some (.str q.path) :=
  Clause.get?_path_nestedBody _ _ _ _

theorem writtenPredicate?_body (q : NestedQuery) :
    writtenPredicate? q.body = some q.predicate.toJson := by
  have hfound : q.body.get? q.context.word = some q.predicate.toJson :=
    Clause.get?_word_nestedBody _ _ _ _
  cases hcontext : q.context with
  | query =>
    rw [hcontext, Context.word] at hfound
    rw [writtenPredicate?, hfound, Option.some_or]
  | filter =>
    have hnone : q.body.get? Context.query.word = none :=
      Clause.get?_nestedBody_of_ne _ _ _ _ (by simp [hcontext])
    rw [Context.word] at hnone
    rw [hcontext, Context.word] at hfound
    rw [writtenPredicate?, hnone, hfound, Option.none_or]

theorem nestedBodies_clause {q : NestedQuery} (h : Clause.Ordinary q.predicate) :
    q.clause.toJson.nestedBodies = [q.body] := by
  rw [clause, Clause.toJson, Json.single, Json.nestedBodies, Json.nestedInKinds, if_pos rfl,
    Clause.nestedInSlots_nestedBody, h.nestedBodies, Json.nestedInKinds]
  rfl

theorem nestedBodies_clauses {queries : List NestedQuery}
    (h : ∀ q ∈ queries, Clause.Ordinary q.predicate) :
    ((queries.map clause).flatMap fun c => c.toJson.nestedBodies) = queries.map body := by
  rw [List.flatMap_map, List.map_eq_flatMap]
  exact List.flatMap_congr fun q hq => nestedBodies_clause (h q hq)

end NestedQuery

/-- Joining writes each query once. Slots are written in the order of their names. -/
theorem nestedBodies_combine {standard : Clause}
    (h : standard = .matchAll ∨ Clause.Ordinary standard) {queries : List NestedQuery}
    (hqueries : ∀ q ∈ queries, Clause.Ordinary q.predicate) :
    (Clause.combine standard queries).toJson.nestedBodies.Perm (queries.map NestedQuery.body) := by
  by_cases hempty : queries = []
  · subst hempty
    obtain rfl | h := h
    · exact .refl _
    · have hcombine : Clause.combine standard [] = standard := rfl
      rw [hcombine, h.nestedBodies]
      exact .refl _
  · obtain ⟨must, filter, before, after, hcombine, hslots, hordinary⟩ :=
      Clause.exists_combine_eq h hempty
    have hnone : ∀ cs : List Clause, (∀ c ∈ cs, Clause.Ordinary c) →
        (cs.flatMap fun c => c.toJson.nestedBodies) = [] := fun cs hcs =>
      List.flatMap_eq_nil_iff.2 fun c hc => (hcs c hc).nestedBodies
    rw [List.forall_mem_append] at hordinary
    rw [hcombine, Clause.nestedBodies_bool, Slot.toList_empty, List.append_nil]
    -- `filter` is written before `must`
    refine (List.perm_append_comm.flatMap_right _).trans ?_
    rw [hslots, List.flatMap_append, List.flatMap_append, hnone before hordinary.1,
      hnone after hordinary.2, NestedQuery.nestedBodies_clauses hqueries, List.nil_append,
      List.append_nil]

/-! ## Orders -/

theorem get?_body_query (plan : Plan) :
    plan.body.get? "query" = some plan.combinedClause.toJson := by
  apply get?_ofMembers_of_agree
  · simp
  · intro other h
    simpa [Plan.optionalMembers] using h

theorem writtenOrders_body (plan : Plan) :
    writtenOrders plan.body = plan.sort.map SortClause.toJson := by
  by_cases hempty : plan.sort = []
  · have hnone : plan.body.get? "sort" = none := by
      apply get?_ofMembers_of_notMem
      simp only [Plan.optionalMembers, hempty, List.forall_mem_append, List.forall_mem_cons]
      refine ⟨by simp, ⟨?_, by simp⟩, ?_⟩
      · split <;> simp
      · split <;> simp
    rw [writtenOrders, hnone, hempty]
    rfl
  · have hfound : plan.body.get? "sort" = some (.arr (plan.sort.map SortClause.toJson)) := by
      apply get?_ofMembers_of_agree
      · simp [Plan.optionalMembers, hempty]
      · intro other h
        simpa [Plan.optionalMembers, hempty] using h
    rw [writtenOrders, hfound]

theorem nestedFilter?_toJson (s : SortClause) :
    nestedFilter? s.toJson = (s.nested.bind NestedSort.filter).map Clause.toJson := by
  rw [SortClause.toJson, Json.single, nestedFilter?]
  cases hfilter : s.nested.bind NestedSort.filter with
  | none =>
    apply get?_ofMembers_of_notMem
    cases hnested : s.nested with
    | none => simp [SortClause.nestedMembers]
    | some n =>
      have hnone : n.filter = none := by simpa [hnested] using hfilter
      simp [SortClause.nestedMembers, hnone]
  | some filter =>
    obtain ⟨n, hnested, hsome⟩ := Option.bind_eq_some_iff.1 hfilter
    apply get?_ofMembers_of_agree
    · simp [hnested, SortClause.nestedMembers, hsome]
    · simp [hnested, SortClause.nestedMembers, hsome]

/-- Among elements with different keys there is one with the key of a given one. -/
theorem filter_key_eq {α : Type} {key : α → String} {xs : List α} (hnodup : (xs.map key).Nodup)
    {x : α} (hx : x ∈ xs) : (xs.filter fun y => key y = key x) = [x] := by
  induction xs with
  | nil => cases hx
  | cons first xs ih =>
    rw [List.map_cons, List.nodup_cons] at hnodup
    obtain rfl | hx := List.mem_cons.1 hx
    · rw [List.filter_cons_of_pos (by simp), List.filter_eq_nil_iff.2]
      intro y hy heq
      refine hnodup.1 ?_
      rw [← of_decide_eq_true heq]
      exact List.mem_map_of_mem hy
    · have hne : key first ≠ key x := by
        intro heq
        refine hnodup.1 ?_
        rw [heq]
        exact List.mem_map_of_mem hx
      rw [List.filter_cons_of_neg (by simpa using hne), ih hnodup.2 hx]

namespace Plan.Stages

variable {plan : Plan} {c : Catalog} {settings : PlanSettings} {r : Request}
  {conditions : List Condition} {classified : Classified}

/-- A nested order looks for the query on its path. -/
theorem filter_eq_of_mem_sort (h : plan.Stages c settings r conditions classified)
    {s : SortClause} (hs : s ∈ plan.sort) {n : NestedSort} (hn : s.nested = some n) :
    n.filter =
      (plan.nestedQueries.find? fun q => q.path == n.path).map NestedQuery.predicate := by
  obtain ⟨keys, -, hsort⟩ := h.exists_sortKeys
  rw [hsort] at hs
  obtain ⟨key, -, rfl⟩ := List.mem_map.1 hs
  simp only [SortKey.clause, nestedSort?, Option.map_eq_some_iff] at hn
  obtain ⟨path, -, rfl⟩ := hn
  rfl

/-- A path that is queried has one nested clause in the body. -/
theorem nestedOn_body (h : plan.Stages c settings r conditions classified) {q : NestedQuery}
    (hq : q ∈ plan.nestedQueries) : nestedOn q.path plan.body = [q.body] := by
  have hnodup : (plan.nestedQueries.map NestedQuery.path).Nodup := by
    rw [Plan.map_path_nestedQueries]
    exact h.nodup_paths
  have hbodies : plan.combinedClause.toJson.nestedBodies.Perm
      (plan.nestedQueries.map NestedQuery.body) :=
    nestedBodies_combine h.standardClause_ordinary h.ordinary_nestedQueries
  have hpath : ∀ other : NestedQuery,
      (other.body.get? "path" = some (.str q.path)) ↔ other.path = q.path := by
    intro other
    rw [other.get?_path_body, Option.some.injEq, Json.str.injEq]
  have hfound : (plan.nestedQueries.map NestedQuery.body).filter
      (fun nested => nested.get? "path" = some (.str q.path)) = [q.body] := by
    rw [List.filter_map]
    simp only [Function.comp_def, hpath, filter_key_eq hnodup hq, List.map_singleton]
  rw [nestedOn, get?_body_query, Option.map_some, Option.getD_some, ← List.perm_singleton,
    ← hfound]
  exact hbodies.filter _

end Plan.Stages

/-- The filter of a nested order is there iff its path is queried, and is then written as the
predicate of the one nested clause on the path is. -/
theorem nestedFilter_eq_predicate {c : Catalog} {settings : PlanSettings} {r : Request}
    {plan : Plan} (h : compile c settings r = .ok plan) :
    writtenOrders plan.body = plan.sort.map SortClause.toJson ∧
      ∀ s ∈ plan.sort, ∀ n, s.nested = some n →
        ((nestedFilter? s.toJson).isSome = true ↔ n.path ∈ plan.combinedClause.nestedPaths) ∧
        (n.path ∈ plan.combinedClause.nestedPaths →
          ∃ nested predicate, nestedOn n.path plan.body = [nested] ∧
            writtenPredicate? nested = some predicate ∧
            nestedFilter? s.toJson = some predicate) := by
  obtain ⟨conditions, classified, hstages⟩ := stages_of_compile h
  refine ⟨writtenOrders_body plan, fun s hs n hn => ?_⟩
  have hfilter : nestedFilter? s.toJson = ((plan.nestedQueries.find? fun q => q.path == n.path).map
      NestedQuery.predicate).map Clause.toJson := by
    rw [nestedFilter?_toJson, hn, Option.bind_some, hstages.filter_eq_of_mem_sort hs hn]
  rw [hfilter, hstages.nestedPaths_eq, List.mem_map]
  constructor
  · simp
  · rintro ⟨q, hq, hpath⟩
    cases hfind : plan.nestedQueries.find? fun q => q.path == n.path with
    | none => exact absurd (by simpa using hpath) (List.find?_eq_none.1 hfind q hq)
    | some found =>
      have hfound : found.path = n.path := by simpa using List.find?_some hfind
      refine ⟨found.body, found.predicate.toJson, ?_, found.writtenPredicate?_body, rfl⟩
      rw [← hfound]
      exact hstages.nestedOn_body (List.mem_of_find?_eq_some hfind)

/-- Large programs first, then the least shares of owners, where programs are searched. -/
def sizeOrderedRequest : Request :=
  { params := [⟨"programs.size__range", .single "5.."⟩, ⟨"state", .single "NY"⟩]
    options := { sort := some "programs.size:desc,owners.share" } }

def sizeOrderedPlan : Plan where
  standardTerms := [.equals "state" (.str "NY")]
  groups := [⟨"programs", [.inRange "programs.size" [⟨some (.int 5), none⟩]]⟩]
  projection := ⟨.disabled, [], [], []⟩
  sort := [⟨"programs.size", true,
      some ⟨"programs", some (.inRange "programs.size" ⟨some (.int 5), none⟩), .max⟩⟩,
    ⟨"owners.share", false, some ⟨"owners", none, .min⟩⟩]
  paging := ⟨0, 20, 0⟩
  aggregations := []
  output := ⟨false, false, false, [], false⟩

/-- The order by programs has the predicate of the search as its filter, that by owners has none. -/
theorem nestedFilter_sizeOrdered :
    compile { nested := ⟨["owners", "programs"], by decide⟩ } {} sizeOrderedRequest =
        .ok sizeOrderedPlan ∧
      ∃ nested predicate, nestedOn "programs" sizeOrderedPlan.body = [nested] ∧
        writtenPredicate? nested = some predicate ∧
        (writtenOrders sizeOrderedPlan.body).map nestedFilter? = [some predicate, none] := by
  have h : compile { nested := ⟨["owners", "programs"], by decide⟩ } {} sizeOrderedRequest =
      .ok sizeOrderedPlan := rfl
  obtain ⟨horders, hfilters⟩ := nestedFilter_eq_predicate h
  have hprograms := hfilters ⟨"programs.size", true,
    some ⟨"programs", some (.inRange "programs.size" ⟨some (.int 5), none⟩), .max⟩⟩
    (List.mem_cons_self ..) _ rfl
  have hqueried := hprograms.1.1 (by rw [nestedFilter?_toJson]; rfl)
  obtain ⟨nested, predicate, hnested, hpredicate, hfilter⟩ := hprograms.2 hqueried
  refine ⟨h, nested, predicate, hnested, hpredicate, ?_⟩
  rw [horders, sizeOrderedPlan, List.map_cons, List.map_singleton, List.map_cons,
    List.map_singleton, hfilter, nestedFilter?_toJson]
  rfl

end FlatQuery
