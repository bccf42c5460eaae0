import FlatQuery.Catalog.NestedPaths
import FlatQuery.Proofs.Encoding
import FlatQuery.Proofs.Splitting
import Mathlib.Data.List.Duplicate

/-!
# Lists of nested paths

Which lists of paths a catalog may have, and what it makes of them (`ofList?_exact`). Dots at the
ends of a path or next to each other are the same as empty segments (`isWellFormed_iff`). Of sorted
paths, those that stand more than once stand side by side, so the first pair of equal neighbours is
the smallest of them (`firstRepeated?_eq_some_iff`).
-/

namespace FlatQuery

/-! ## Segments -/

namespace Text

theorem cutPair_cons_eq_none_iff {sep c : Char} {cs : List Char} :
    cutPair sep (c :: cs) = none ↔ ¬(c = sep ∧ cs.head? = some sep) ∧ cutPair sep cs = none := by
  rw [cutPair]
  by_cases h : c = sep ∧ cs.head? = some sep <;> simp [h]

/-- All pieces have characters if those after the first do and the text does not begin with a
separator. -/
theorem forall_mem_pieces_iff {sep : Char} {cs : List Char} :
    (∀ piece ∈ pieces (· == sep) cs, piece ≠ []) ↔ cs ≠ [] ∧ cs.head? ≠ some sep ∧
      ∀ piece ∈ (pieces (· == sep) cs).tail, piece ≠ [] := by
  cases cs with
  | nil => simp [pieces]
  | cons c cs =>
    by_cases hc : c = sep
    · simp [pieces, hc]
    · obtain ⟨piece, rest, -, hcons⟩ :=
        pieces_cons_of_false (p := (· == sep)) (by simpa using hc) cs
      rw [hcons]
      simp [hc]

theorem forall_mem_tail_pieces_iff {sep : Char} {cs : List Char} :
    (∀ piece ∈ (pieces (· == sep) cs).tail, piece ≠ []) ↔
      cs.getLast? ≠ some sep ∧ cutPair sep cs = none := by
  induction cs with
  | nil => simp [pieces, cutPair]
  | cons c cs ih =>
    rw [cutPair_cons_eq_none_iff, List.getLast?_cons]
    by_cases hc : c = sep
    · rw [pieces_cons_of_true (p := (· == sep)) (by simpa using hc), List.tail_cons,
        forall_mem_pieces_iff, ih]
      cases cs with
      | nil => simp [hc]
      | cons d cs => simp [hc, List.getLast?_cons, and_left_comm]
    · obtain ⟨piece, rest, hpieces, hcons⟩ :=
        pieces_cons_of_false (p := (· == sep)) (by simpa using hc) cs
      rw [hpieces, List.tail_cons] at ih
      rw [hcons, List.tail_cons, ih]
      cases cs with
      | nil => simp [hc]
      | cons d cs => simp [hc, List.getLast?_cons]

end Text

/-- Between the dots of the path there is always at least one character. -/
def Segmented (path : String) : Prop :=
  ∀ segment ∈ Text.splitOn path '.', segment ≠ ""

instance (path : String) : Decidable (Segmented path) :=
  inferInstanceAs (Decidable (∀ segment ∈ _, segment ≠ ""))

namespace NestedPaths

theorem isWellFormed_iff {path : String} : isWellFormed path = true ↔ Segmented path := by
  have hsegments : Segmented path ↔
      ∀ piece ∈ Text.pieces (· == '.') path.toList, piece ≠ [] := by
    rw [Segmented, Text.splitOn, List.forall_mem_map]
    simp only [ne_eq, String.ofList_eq_empty_iff]
  rw [hsegments, Text.forall_mem_pieces_iff, Text.forall_mem_tail_pieces_iff]
  simp [isWellFormed, and_assoc]

/-! ## Sorting -/

theorem insertSorted_perm (path : String) (ps : List String) :
    (insertSorted path ps).Perm (path :: ps) := by
  induction ps with
  | nil => exact List.Perm.refl _
  | cons p ps ih =>
    unfold insertSorted
    split
    · exact List.Perm.refl _
    · exact (ih.cons p).trans (List.Perm.swap path p ps)

theorem sort_perm (paths : List String) : (sort paths).Perm paths := by
  induction paths with
  | nil => exact List.Perm.refl _
  | cons path paths ih => exact (insertSorted_perm path (sort paths)).trans (ih.cons path)

/-- There is one way to put paths in ascending order. -/
theorem sort_eq_of_perm {paths others : List String} (h : others.Perm paths) :
    sort others = sort paths :=
  List.Perm.eq_of_pairwise (fun _ _ _ _ hab hba => String.le_antisymm hab hba)
    (pairwise_sort others) (pairwise_sort paths)
    ((sort_perm others).trans (h.trans (sort_perm paths).symm))

/-! ## Repetitions -/

theorem duplicate_iff_of_perm {paths others : List String} (h : others.Perm paths)
    {path : String} : List.Duplicate path others ↔ List.Duplicate path paths := by
  rw [List.duplicate_iff_two_le_count, List.duplicate_iff_two_le_count, h.count_eq]

/-- The first pair of equal neighbours is the smallest path that is repeated. -/
theorem firstRepeated?_eq_some_iff {ps : List String} (h : ps.Pairwise (· ≤ ·)) {path : String} :
    firstRepeated? ps = some path ↔
      List.Duplicate path ps ∧ ∀ other, List.Duplicate other ps → path ≤ other := by
  induction ps with
  | nil => simp [firstRepeated?]
  | cons p ps ih =>
    obtain ⟨hfirst, hps⟩ := List.pairwise_cons.1 h
    cases ps with
    | nil => simp [firstRepeated?]
    | cons q ps =>
      rw [firstRepeated?]
      by_cases hpq : p = q
      · subst hpq
        have hdup : List.Duplicate p (p :: p :: ps) := .cons_mem List.mem_cons_self
        have hleast : ∀ other, List.Duplicate other (p :: p :: ps) → p ≤ other := by
          intro other hother
          rcases List.mem_cons.1 hother.mem with rfl | hmem
          · exact String.le_refl _
          · exact hfirst other hmem
        rw [if_pos rfl, Option.some.injEq]
        constructor
        · rintro rfl
          exact ⟨hdup, hleast⟩
        · rintro ⟨hpath, hleast'⟩
          exact String.le_antisymm (hleast path hpath) (hleast' p hdup)
      · -- the first path is less than all others, so it is not repeated
        have hlt : p < q := Std.lt_of_le_of_ne (hfirst q List.mem_cons_self) hpq
        have hnew : p ∉ q :: ps := by
          intro hmem
          rcases List.mem_cons.1 hmem with heq | hmem
          · exact hpq heq
          · exact String.lt_irrefl p (Std.lt_of_lt_of_le hlt ((List.pairwise_cons.1 hps).1 p hmem))
        have hsame : ∀ other, List.Duplicate other (p :: q :: ps) ↔
            List.Duplicate other (q :: ps) := by
          intro other
          rw [List.duplicate_cons_iff]
          constructor
          · rintro (⟨rfl, hmem⟩ | hdup)
            · exact absurd hmem hnew
            · exact hdup
          · exact Or.inr
        rw [if_neg hpq, ih hps]
        simp only [hsame]

theorem firstRepeated?_eq_none_iff {ps : List String} (h : ps.Pairwise (· ≤ ·)) :
    firstRepeated? ps = none ↔ ps.Nodup := by
  constructor
  · intro hnone
    exact (pairwise_lt_of_firstRepeated? h hnone).imp fun hlt => String.ne_of_lt hlt
  · intro hnodup
    rw [Option.eq_none_iff_forall_ne_some]
    intro path hpath
    exact ((firstRepeated?_eq_some_iff h).1 hpath).1.not_nodup hnodup

/-! ## Outcomes -/

theorem find?_not_isWellFormed_eq_some_iff {paths : List String} {path : String} :
    (paths.find? fun path => !isWellFormed path) = some path ↔
      ¬Segmented path ∧ ∃ before after, paths = before ++ path :: after ∧
        ∀ former ∈ before, Segmented former := by
  rw [List.find?_eq_some_iff_append]
  simp only [Bool.not_eq_true', Bool.not_not, isWellFormed_iff, ← Bool.not_eq_true]

theorem find?_not_isWellFormed_eq_none_iff {paths : List String} :
    (paths.find? fun path => !isWellFormed path) = none ↔ ∀ path ∈ paths, Segmented path := by
  simp [isWellFormed_iff]

theorem firstRepeated?_sort_eq_some_iff {paths : List String} {path : String} :
    firstRepeated? (sort paths) = some path ↔ List.Duplicate path paths ∧
      ∀ other, List.Duplicate other paths → path ≤ other := by
  rw [firstRepeated?_eq_some_iff (pairwise_sort paths)]
  simp only [duplicate_iff_of_perm (sort_perm paths)]

theorem firstRepeated?_sort_eq_none_iff {paths : List String} :
    firstRepeated? (sort paths) = none ↔ paths.Nodup := by
  rw [firstRepeated?_eq_none_iff (pairwise_sort paths), (sort_perm paths).nodup_iff]

theorem ofList?_eq_ok_iff {paths : List String} {nested : NestedPaths} :
    ofList? paths = .ok nested ↔
      (∀ path ∈ paths, Segmented path) ∧ paths.Nodup ∧ nested.paths = sort paths := by
  rw [← find?_not_isWellFormed_eq_none_iff, ← firstRepeated?_sort_eq_none_iff]
  unfold ofList?
  split
  · rename_i path hbad
    simp [hbad]
  · rename_i hgood
    split
    · rename_i path hrepeated
      simp [hrepeated]
    · rename_i hnone
      obtain ⟨others, hascending⟩ := nested
      simp [hgood, hnone, eq_comm]

theorem paths_of_ofList? {paths : List String} {nested : NestedPaths}
    (h : ofList? paths = .ok nested) : nested.paths = sort paths :=
  (ofList?_eq_ok_iff.1 h).2.2

/-- The first path with an empty segment is at fault, or else the smallest that is repeated. -/
theorem ofList?_eq_error_iff {paths : List String} {fault : CatalogError} :
    ofList? paths = .error fault ↔
      (∃ path, fault = .badNestedPath path ∧ ¬Segmented path ∧
        ∃ before after, paths = before ++ path :: after ∧ ∀ former ∈ before, Segmented former) ∨
      (∀ path ∈ paths, Segmented path) ∧ ∃ path, fault = .repeatedNestedPath path ∧
        List.Duplicate path paths ∧ ∀ other, List.Duplicate other paths → path ≤ other := by
  simp only [← find?_not_isWellFormed_eq_some_iff, ← firstRepeated?_sort_eq_some_iff]
  rw [← find?_not_isWellFormed_eq_none_iff]
  unfold ofList?
  split
  · rename_i path hbad
    simp [hbad, eq_comm]
  · rename_i hgood
    split
    · rename_i path hrepeated
      simp [hgood, hrepeated, eq_comm]
    · rename_i hnone
      simp [hgood, hnone]

/-- A list of paths is taken exactly if none has an empty segment and none is repeated. What is made
of it holds the same paths in strictly ascending order of bytes, in whatever order they are listed.
Otherwise the first path with an empty segment is reported, or if there is none the smallest of
those that are repeated. -/
theorem ofList?_exact (paths : List String) :
    ((∃ nested, ofList? paths = .ok nested) ↔
        (∀ path ∈ paths, Segmented path) ∧ paths.Nodup) ∧
      (∀ nested, ofList? paths = .ok nested →
        nested.paths.Perm paths ∧
        nested.paths.Pairwise (fun path other => Text.bytes path < Text.bytes other) ∧
        ∀ others : List String, others.Perm paths → ofList? others = .ok nested) ∧
      ∀ fault, ofList? paths = .error fault ↔
        (∃ path, fault = .badNestedPath path ∧ ¬Segmented path ∧
          ∃ before after, paths = before ++ path :: after ∧ ∀ former ∈ before, Segmented former) ∨
        (∀ path ∈ paths, Segmented path) ∧ ∃ path, fault = .repeatedNestedPath path ∧
          List.Duplicate path paths ∧ ∀ other, List.Duplicate other paths →
            path = other ∨ Text.bytes path < Text.bytes other := by
  refine ⟨?_, fun nested h => ?_, fun fault => ?_⟩
  · constructor
    · rintro ⟨nested, h⟩
      obtain ⟨hsegmented, hnodup, -⟩ := ofList?_eq_ok_iff.1 h
      exact ⟨hsegmented, hnodup⟩
    · rintro ⟨hsegmented, hnodup⟩
      have hascending := pairwise_lt_of_firstRepeated? (pairwise_sort paths)
        (firstRepeated?_sort_eq_none_iff.2 hnodup)
      exact ⟨⟨sort paths, hascending⟩, ofList?_eq_ok_iff.2 ⟨hsegmented, hnodup, rfl⟩⟩
  · obtain ⟨hsegmented, hnodup, hpaths⟩ := ofList?_eq_ok_iff.1 h
    refine ⟨hpaths ▸ sort_perm paths, nested.ascending.imp Text.bytes_lt_iff.2, ?_⟩
    intro others hothers
    refine ofList?_eq_ok_iff.2 ⟨fun path hpath => ?_, hothers.nodup_iff.2 hnodup, ?_⟩
    · exact hsegmented path (hothers.mem_iff.1 hpath)
    · rw [hpaths, sort_eq_of_perm hothers]
  · have hle : ∀ path other : String, path ≤ other ↔
        path = other ∨ Text.bytes path < Text.bytes other := by
      intro path other
      rw [Text.bytes_lt_iff, Std.le_iff_lt_or_eq, or_comm]
    rw [ofList?_eq_error_iff]
    simp only [hle]

/-- Listed in two orders, and with an ill-formed path before others that are not well formed or are
repeated. -/
theorem ofList?_exact_programs :
    (∃ nested, ofList? ["programs.été", "programs", "owners"] = .ok nested ∧
      nested.paths.Perm ["programs.été", "programs", "owners"] ∧
      nested.paths.Pairwise (fun path other => Text.bytes path < Text.bytes other) ∧
      ofList? ["owners", "programs.été", "programs"] = .ok nested) ∧
    ofList? ["owners", "programs..été", "owners", "."] =
      .error (.badNestedPath "programs..été") := by
  obtain ⟨haccepted, hindex, -⟩ := ofList?_exact ["programs.été", "programs", "owners"]
  obtain ⟨nested, hnested⟩ := haccepted.2 ⟨by decide, by decide⟩
  obtain ⟨hperm, hascending, hanyOrder⟩ := hindex nested hnested
  refine ⟨⟨nested, hnested, hperm, hascending, hanyOrder _ (by decide)⟩, ?_⟩
  obtain ⟨-, -, hfault⟩ := ofList?_exact ["owners", "programs..été", "owners", "."]
  exact (hfault _).2 (Or.inl ⟨_, rfl, by decide, ["owners"], ["owners", "."], rfl, by decide⟩)

end NestedPaths

end FlatQuery
