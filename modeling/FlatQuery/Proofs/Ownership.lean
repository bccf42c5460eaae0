import FlatQuery.Catalog.Basic
import FlatQuery.Proofs.Splitting

/-!
# Fields and the paths that own them

A field is in the scope of a nested path if it is the path, or continues it after a dot. A catalog
looks for the owner of a field under its name without an operator, so it is that name that is in
the scope of the owner (`inScope_baseField`). The field itself is in the scope too, unless it is the
path with an operator after it (`inScope_iff_of_nestedPath?`). With an underscore in front of it a
field never is (`not_inScope_underscore`).
-/

namespace FlatQuery

/-- The field is the path, or it continues the path after a dot. -/
def InScope (path field : String) : Prop :=
  field = path ∨ path.toList ++ ['.'] <+: field.toList

instance (path field : String) : Decidable (InScope path field) :=
  inferInstanceAs (Decidable (_ ∨ _))

/-! ## Stems -/

theorem mem_stems_iff {stem cs : List Char} :
    stem ∈ stems cs ↔ cs = stem ∨ stem ++ ['.'] <+: cs := by
  induction cs generalizing stem with
  | nil => cases stem <;> simp [stems]
  | cons c cs ih =>
    cases stem with
    | nil =>
      by_cases h : c = '.'
      · simp [stems, h]
      · simp [stems, h, Ne.symm h]
    | cons a stem =>
      have hmap : a :: stem ∈ (stems cs).map (c :: ·) ↔ c = a ∧ stem ∈ stems cs := by
        rw [List.mem_map]
        constructor
        · rintro ⟨stem, hstem, heq⟩
          obtain ⟨rfl, rfl⟩ := List.cons.inj heq
          exact ⟨rfl, hstem⟩
        · rintro ⟨rfl, hstem⟩
          exact ⟨stem, hstem, rfl⟩
      have hlonger : a :: stem ∈ stems (c :: cs) ↔ c = a ∧ stem ∈ stems cs := by
        rw [← hmap, stems]
        split <;> simp
      rw [hlonger, ih, List.cons.injEq, List.cons_append, List.cons_prefix_cons, eq_comm (a := a),
        and_or_left]

/-- The stems of a field are the paths whose scope it is in. -/
theorem mem_stems_iff_inScope {field stem : String} :
    stem ∈ (stems field.toList).reverse.map String.ofList ↔ InScope stem field := by
  rw [InScope, ← String.toList_inj, ← mem_stems_iff, List.mem_map]
  constructor
  · rintro ⟨cs, hcs, rfl⟩
    rw [String.toList_ofList]
    exact List.mem_reverse.1 hcs
  · intro hstem
    exact ⟨stem.toList, List.mem_reverse.2 hstem, String.ofList_toList⟩

/-- The owner of a field is a stem of its name without an operator. -/
theorem inScope_baseField {c : Catalog} {field path : String}
    (h : c.nestedPath? field = some path) : InScope path (baseField field) :=
  mem_stems_iff_inScope.1 (List.mem_of_find?_eq_some h)

/-! ## Operators -/

/-- What is left of a field without its operator is the field, or stands before two underscores. -/
theorem baseField_cases (field : String) :
    baseField field = field ∨
      ∃ word, field.toList = (baseField field).toList ++ '_' :: '_' :: word := by
  unfold baseField
  split
  · rename_i base word hcut
    split
    · rw [String.toList_ofList]
      exact Or.inr ⟨word, Text.cutLastPair_eq_some hcut⟩
    · exact Or.inl rfl
  · exact Or.inl rfl

/-- A field begins with its name without an operator. -/
theorem starts_baseField (field : String) : (baseField field).toList <+: field.toList := by
  rcases baseField_cases field with h | ⟨word, h⟩
  · exact ⟨[], by rw [h, List.append_nil]⟩
  · exact ⟨_, h.symm⟩

/-! ## Owners -/

/-- A field is in the scope of its owner unless it is the owner with an operator after it. -/
theorem inScope_iff_of_nestedPath? {c : Catalog} {field path : String}
    (h : c.nestedPath? field = some path) :
    InScope path field ↔ (baseField field = path → field = path) := by
  rcases inScope_baseField h with hbase | hstarts
  · constructor
    · intro hscope _
      rcases hscope with heq | hdot
      · exact heq
      · rcases baseField_cases field with heq | ⟨word, hword⟩
        · rw [← heq, hbase]
        · -- the path would be followed by a dot and by an underscore
          rw [hword, hbase, List.prefix_append_right_inj] at hdot
          simp at hdot
    · exact fun heq => Or.inl (heq hbase)
  · have hscope : InScope path field := Or.inr (hstarts.trans (starts_baseField field))
    refine ⟨fun _ heq => ?_, fun _ => hscope⟩
    rw [heq] at hstarts
    have hlength := hstarts.length_le
    rw [List.length_append, List.length_singleton] at hlength
    omega

/-- An underscore before a text that begins with a path takes it out of the scope of the path. -/
theorem not_starts_underscore (path rest : List Char) :
    ¬path ++ ['.'] <+: '_' :: (path ++ rest) := by
  induction path with
  | nil => simp
  | cons a path ih =>
    rw [List.cons_append, List.cons_prefix_cons]
    rintro ⟨rfl, h⟩
    exact ih h

theorem not_inScope_underscore {c : Catalog} {field path : String}
    (h : c.nestedPath? field = some path) : ¬InScope path ("_" ++ field) := by
  have hbegins : path.toList <+: field.toList := by
    refine List.IsPrefix.trans ?_ (starts_baseField field)
    rcases inScope_baseField h with heq | hstarts
    · exact ⟨[], by rw [heq, List.append_nil]⟩
    · exact (List.prefix_append _ _).trans hstarts
  obtain ⟨rest, hrest⟩ := hbegins
  rintro (heq | hstarts)
  · have hlonger : field.toList.length + 1 = path.toList.length := by
      rw [← heq]
      simp
    rw [← hrest, List.length_append] at hlonger
    omega
  · rw [String.toList_append, ← hrest] at hstarts
    exact not_starts_underscore path.toList rest hstarts

end FlatQuery
