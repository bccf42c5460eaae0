import FlatQuery.Proofs.Compile

/-!
# Sort keys

A sort specification is read without a look at the queries of a request: `readSortKeys` finds the
fields and directions, or the fault. The queries only supply the filters of nested orders
(`compileSort_eq`). So the queries never decide whether an order can be compiled, and the orders of
a plan are known from its keys and its nested queries (`exists_sortKeys`).
-/

namespace FlatQuery

/-- What a token of a sort specification asks for. -/
structure SortKey where
  field : String
  descending : Bool
deriving DecidableEq, Repr

def readSortKey (spec token : String) : Except Rejection SortKey :=
  match readSortToken? token with
  | none => .error (.malformedSort token spec)
  | some (field, word) => (readDirection field word).map fun descending => { field, descending }

/-- The keys of a specification, the first one most important. A blank one has none. -/
def readSortKeys (spec : String) : Except Rejection (List SortKey) :=
  let spec := Text.trim spec
  if spec.isEmpty then .ok []
  else (Text.splitOn spec ',').mapM fun token => readSortKey spec (Text.trim token)

/-- The order that a key asks for next to the queries of a request. -/
def SortKey.clause (c : Catalog) (queries : List NestedQuery) (mode : SortMode) (key : SortKey) :
    SortClause :=
  { field := sortField c key.field
    descending := key.descending
    nested := nestedSort? c queries mode key.descending key.field }

section

variable (c : Catalog) (queries : List NestedQuery) (mode : SortMode)

theorem sortClause_eq (spec token : String) :
    sortClause c queries mode spec token =
      (readSortKey spec token).map (SortKey.clause c queries mode) := by
  unfold sortClause readSortKey
  cases readSortToken? token with
  | none => rfl
  | some read =>
    obtain ⟨field, word⟩ := read
    dsimp only
    cases readDirection field word <;> rfl

theorem compileSort_eq (spec : String) :
    compileSort c queries mode spec =
      (readSortKeys spec).map (List.map (SortKey.clause c queries mode)) := by
  have htokens : (fun token => sortClause c queries mode (Text.trim spec) (Text.trim token)) =
      fun token => (readSortKey (Text.trim spec) (Text.trim token)).map
        (SortKey.clause c queries mode) :=
    funext fun token => sortClause_eq c queries mode _ _
  unfold compileSort readSortKeys
  dsimp only
  split
  · rfl
  · rw [htokens, mapM_map_eq]

end

/-! ## The orders of a plan -/

namespace Options

/-- The keys that the options ask for. -/
def sortKeys (options : Options) : Except Rejection (List SortKey) :=
  match options.sort with
  | none => .ok []
  | some spec => readSortKeys spec

/-- How subdocuments decide the orders that the options ask for. -/
def sortMode (settings : PlanSettings) (options : Options) : SortMode :=
  options.nestedSortMode.getD settings.sortMode

theorem compileSort_eq (c : Catalog) (settings : PlanSettings) (options : Options)
    (queries : List NestedQuery) :
    options.compileSort c settings queries =
      options.sortKeys.map (List.map (SortKey.clause c queries (options.sortMode settings))) := by
  unfold Options.compileSort sortKeys
  cases options.sort with
  | none => rfl
  | some spec => exact FlatQuery.compileSort_eq c queries _ spec

end Options

theorem Plan.Stages.exists_sortKeys {plan : Plan} {c : Catalog} {settings : PlanSettings}
    {r : Request} {conditions : List Condition} {classified : Classified}
    (h : plan.Stages c settings r conditions classified) :
    ∃ keys, r.options.sortKeys = .ok keys ∧
      plan.sort =
        keys.map (SortKey.clause c plan.nestedQueries (r.options.sortMode settings)) := by
  have hsort := h.sort
  rw [Options.compileSort_eq] at hsort
  obtain ⟨keys, hkeys, hmap⟩ := map_eq_ok_iff.1 hsort
  exact ⟨keys, hkeys, hmap.symm⟩

end FlatQuery
