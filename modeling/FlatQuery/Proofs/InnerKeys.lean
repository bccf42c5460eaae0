import FlatQuery.Plan.Projection

/-!
# Keys within subdocuments

A field adds a key to a nested path if it continues the path after a dot
(`relativeKey?_eq_some_iff`). Of paths that do not continue each other a field continues at most
one (`eq_of_relativeKey?`). The requested keys of a path are what the requested fields that it owns
add to it (`mem_requestedKeys_iff`). With an active query these are the keys that a projection keeps
of the subdocuments of the path, in their order (`keptKeys?_build`).
-/

namespace FlatQuery

/-! ## Relative keys -/

theorem isPrefixOf?_cons_cons {α : Type} [BEq α] (a b : α) (l₁ l₂ : List α) :
    List.isPrefixOf? (a :: l₁) (b :: l₂) =
      if a == b then List.isPrefixOf? l₁ l₂ else none := rfl

theorem isPrefixOf?_eq_some_iff {α : Type} [BEq α] [LawfulBEq α] {l₁ l₂ rest : List α} :
    List.isPrefixOf? l₁ l₂ = some rest ↔ l₂ = l₁ ++ rest := by
  induction l₁ generalizing l₂ with
  | nil =>
    change some l₂ = some rest ↔ _
    rw [Option.some.injEq, List.nil_append]
  | cons a l₁ ih =>
    cases l₂ with
    | nil =>
      change none = some rest ↔ _
      simp
    | cons b l₂ =>
      rw [isPrefixOf?_cons_cons]
      by_cases h : a = b
      · simp [h, ih]
      · simp [h, Ne.symm h]

theorem relativeKey?_eq_some_iff {path field key : String} :
    relativeKey? path field = some key ↔ field.toList = path.toList ++ '.' :: key.toList := by
  unfold relativeKey?
  constructor
  · intro h
    split at h
    · rename_i rest hrest
      obtain rfl := Option.some.inj h
      rw [String.toList_ofList]
      exact isPrefixOf?_eq_some_iff.1 hrest
    · cases h
  · intro h
    rw [isPrefixOf?_eq_some_iff.2 h]
    simp

theorem relativeKey?_eq_some_iff_eq {path field key : String} :
    relativeKey? path field = some key ↔ field = path ++ "." ++ key := by
  rw [relativeKey?_eq_some_iff, ← String.toList_inj]
  simp

/-- Of two paths that a field continues, one continues the other if they differ. -/
theorem eq_of_relativeKey? {path other field key otherKey : String}
    (h : relativeKey? path field = some key) (hother : relativeKey? other field = some otherKey)
    (hlonger : relativeKey? path other = none) (hshorter : relativeKey? other path = none) :
    path = other := by
  rw [relativeKey?_eq_some_iff] at h hother
  rw [h, List.append_eq_append_iff] at hother
  rcases hother with ⟨more, heq, hmore⟩ | ⟨more, heq, hmore⟩
  · cases more with
    | nil => exact String.toList_inj.1 (by simpa using heq.symm)
    | cons c more =>
      obtain ⟨rfl, -⟩ := List.cons.inj hmore
      have hcontinues : relativeKey? path other = some (String.ofList more) :=
        relativeKey?_eq_some_iff.2 (by rw [heq, String.toList_ofList])
      rw [hlonger] at hcontinues
      cases hcontinues
  · cases more with
    | nil => exact String.toList_inj.1 (by simpa using heq)
    | cons c more =>
      obtain ⟨rfl, -⟩ := List.cons.inj hmore
      have hcontinues : relativeKey? other path = some (String.ofList more) :=
        relativeKey?_eq_some_iff.2 (by rw [heq, String.toList_ofList])
      rw [hshorter] at hcontinues
      cases hcontinues

/-! ## Registered keys -/

/-- The key that a field adds to a path, if the path owns it. -/
def ownKey? (c : Catalog) (path field : String) : Option String :=
  if c.nestedPath? field = some path then relativeKey? path field else none

/-- The keys of subdocuments of `path` among the requested fields. -/
def requestedKeys (c : Catalog) (fields : List String) (path : String) : List String :=
  fields.filterMap (ownKey? c path)

/-- The requested keys of a path are what its fields add to it. -/
theorem mem_requestedKeys_iff {c : Catalog} {fields : List String} {path key : String} :
    key ∈ requestedKeys c fields path ↔
      path ++ "." ++ key ∈ fields ∧ c.nestedPath? (path ++ "." ++ key) = some path := by
  rw [requestedKeys, List.mem_filterMap]
  constructor
  · rintro ⟨field, hfield, hkey⟩
    unfold ownKey? at hkey
    split at hkey
    · rename_i howner
      obtain rfl := relativeKey?_eq_some_iff_eq.1 hkey
      exact ⟨hfield, howner⟩
    · cases hkey
  · rintro ⟨hfield, howner⟩
    refine ⟨_, hfield, ?_⟩
    rw [ownKey?, if_pos howner]
    exact relativeKey?_eq_some_iff_eq.2 rfl

theorem requestedKeys_eq_nil_iff {c : Catalog} {fields : List String} {path : String} :
    requestedKeys c fields path = [] ↔
      ∀ key, path ++ "." ++ key ∈ fields → c.nestedPath? (path ++ "." ++ key) ≠ some path := by
  rw [List.eq_nil_iff_forall_not_mem]
  simp only [mem_requestedKeys_iff, not_and, ne_eq]

theorem requestedKeys_cons (c : Catalog) (field : String) (fields : List String) (path : String) :
    requestedKeys c (field :: fields) path =
      (ownKey? c path field).toList ++ requestedKeys c fields path := by
  unfold requestedKeys
  rw [List.filterMap_cons]
  cases ownKey? c path field <;> rfl

theorem find?_registerKey (c : Catalog) (keys : Dict (List String)) (field path : String) :
    ((registerKey c keys field).find? path).getD [] =
      (keys.find? path).getD [] ++ (ownKey? c path field).toList := by
  unfold registerKey ownKey?
  cases h : c.nestedPath? field with
  | none => simp
  | some owner =>
    by_cases hpath : path = owner
    · rw [if_pos (congrArg some hpath.symm), hpath]
      simp
    · rw [if_neg fun heq => hpath (Option.some.inj heq).symm]
      simp [Dict.find?_insert_of_ne _ _ hpath]

theorem find?_foldl_registerKey (c : Catalog) (fields : List String) (keys : Dict (List String))
    (path : String) :
    ((fields.foldl (registerKey c) keys).find? path).getD [] =
      (keys.find? path).getD [] ++ requestedKeys c fields path := by
  induction fields generalizing keys with
  | nil => simp [requestedKeys]
  | cons field fields ih =>
    rw [List.foldl_cons, ih, find?_registerKey, List.append_assoc, requestedKeys_cons]

theorem requestedKeys_filter_isNested (c : Catalog) (fields : List String) (path : String) :
    requestedKeys c (fields.filter c.isNested) path = requestedKeys c fields path := by
  have hkey : (fun field => if c.isNested field then ownKey? c path field else none) =
      ownKey? c path := by
    funext field
    by_cases h : c.isNested field = true
    · rw [if_pos h]
    · have hnone : c.nestedPath? field = none := by
        simpa [Catalog.isNested] using h
      rw [if_neg h, ownKey?, hnone, if_neg (by simp)]
  rw [requestedKeys, List.filterMap_filter, hkey, requestedKeys]

theorem filter_eq_getD (keys : Option (List String)) :
    (keys.filter fun keys => !keys.isEmpty) =
      if (keys.getD []).isEmpty then none else some (keys.getD []) := by
  cases keys with
  | none => rfl
  | some keys => cases keys <;> rfl

/-- With an active query, the keys registered for a path are its requested keys. -/
theorem innerKeys_build (c : Catalog) (fields : List String) (path : String) :
    ((Projection.build c fields true false).innerKeys.find? path).getD [] =
      requestedKeys c fields path := by
  rw [Projection.build]
  exact (find?_foldl_registerKey c _ [] path).trans (requestedKeys_filter_isNested c fields path)

/-- With an active query the requested keys of a path are kept; where there are none, all are. -/
theorem keptKeys?_build (c : Catalog) (fields : List String) (path : String) :
    (Projection.build c fields true false).keptKeys? path =
      if (requestedKeys c fields path).isEmpty then none
      else some (requestedKeys c fields path) := by
  rw [Projection.keptKeys?, filter_eq_getD, innerKeys_build]

end FlatQuery
