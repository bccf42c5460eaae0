import FlatQuery.Proofs.Ownership
import FlatQuery.Proofs.PathLists

/-!
# The longest path

Of the nested paths in whose scope a field is, the longest owns it, and a field in the scope of none
has no owner (`resolve?_of_ofList?`). The candidates are the stems of the field, longest first, so
the first that is a nested path is the longest: no two stems have the same length.
-/

namespace FlatQuery

/-! ## The first of descending candidates -/

/-- Where sizes descend, what is found first is what is greatest. -/
theorem find?_eq_some_iff_of_descending {α : Type} {size : α → Nat} {p : α → Bool} {xs : List α}
    (h : xs.Pairwise fun a b => size b < size a) {x : α} :
    xs.find? p = some x ↔ x ∈ xs ∧ p x = true ∧ ∀ y ∈ xs, p y = true → size y ≤ size x := by
  induction xs with
  | nil => simp
  | cons first rest ih =>
    obtain ⟨hfirst, hrest⟩ := List.pairwise_cons.1 h
    by_cases hp : p first = true
    · rw [List.find?_cons_of_pos hp, Option.some.injEq]
      constructor
      · rintro rfl
        refine ⟨List.mem_cons_self, hp, List.forall_mem_cons.2 ⟨fun _ => Nat.le_refl _, ?_⟩⟩
        exact fun y hy _ => Nat.le_of_lt (hfirst y hy)
      · rintro ⟨hx, -, hgreatest⟩
        rcases List.mem_cons.1 hx with rfl | hx
        · rfl
        · have hless := hfirst x hx
          have hleast := hgreatest first List.mem_cons_self hp
          omega
    · rw [List.find?_cons_of_neg hp, ih hrest, List.forall_mem_cons, List.mem_cons]
      constructor
      · rintro ⟨hx, hpx, hgreatest⟩
        exact ⟨Or.inr hx, hpx, fun hpf => absurd hpf hp, hgreatest⟩
      · rintro ⟨rfl | hx, hpx, -, hgreatest⟩
        · exact absurd hpx hp
        · exact ⟨hx, hpx, hgreatest⟩

theorem pairwise_length_stems (cs : List Char) :
    (stems cs).Pairwise fun a b => a.length < b.length := by
  induction cs with
  | nil => simp [stems]
  | cons c cs ih =>
    have hlonger : ((stems cs).map (c :: ·)).Pairwise fun a b => a.length < b.length :=
      List.pairwise_map.2 (ih.imp fun hlt => by simpa using hlt)
    unfold stems
    split
    · refine List.pairwise_cons.2 ⟨fun stem hstem => ?_, hlonger⟩
      obtain ⟨rest, -, rfl⟩ := List.mem_map.1 hstem
      simp
    · exact hlonger

/-! ## Owners -/

namespace NestedPaths

theorem resolve?_eq_some_iff {nested : NestedPaths} {field path : String} :
    nested.resolve? field = some path ↔ path ∈ nested.paths ∧ InScope path field ∧
      ∀ other ∈ nested.paths, InScope other field → other.length ≤ path.length := by
  have hdescending : ((stems field.toList).reverse.map String.ofList).Pairwise
      fun a b => b.length < a.length := by
    rw [List.pairwise_map, List.pairwise_reverse]
    exact (pairwise_length_stems field.toList).imp fun hlt => by simpa using hlt
  rw [resolve?, find?_eq_some_iff_of_descending hdescending, mem_stems_iff_inScope, contains_iff]
  constructor
  · rintro ⟨hscope, hpath, hlongest⟩
    refine ⟨hpath, hscope, fun other hother hin => ?_⟩
    exact hlongest other (mem_stems_iff_inScope.2 hin) (contains_iff.2 hother)
  · rintro ⟨hpath, hscope, hlongest⟩
    refine ⟨hscope, hpath, fun other hstem hother => ?_⟩
    exact hlongest other (contains_iff.1 hother) (mem_stems_iff_inScope.1 hstem)

theorem resolve?_eq_none_iff {nested : NestedPaths} {field : String} :
    nested.resolve? field = none ↔ ∀ path ∈ nested.paths, ¬InScope path field := by
  rw [resolve?, List.find?_eq_none]
  constructor
  · intro h path hpath hscope
    exact h path (mem_stems_iff_inScope.2 hscope) (contains_iff.2 hpath)
  · intro h stem hstem hcontains
    exact h stem (contains_iff.1 hcontains) (mem_stems_iff_inScope.1 hstem)

end NestedPaths

/-- A field belongs to the longest of the listed paths that it equals or continues after a dot, and
to none if there is no such path. Characters in common are not enough. -/
theorem resolve?_of_ofList? {paths : List String} {nested : NestedPaths}
    (h : NestedPaths.ofList? paths = .ok nested) (field : String) :
    (∀ path, nested.resolve? field = some path ↔ path ∈ paths ∧ InScope path field ∧
        ∀ other ∈ paths, InScope other field → other.length ≤ path.length) ∧
      (nested.resolve? field = none ↔ ∀ path ∈ paths, ¬InScope path field) := by
  have hmem : ∀ path, path ∈ nested.paths ↔ path ∈ paths := by
    intro path
    rw [NestedPaths.paths_of_ofList? h, NestedPaths.mem_sort]
  constructor
  · intro path
    rw [NestedPaths.resolve?_eq_some_iff]
    simp only [hmem]
  · rw [NestedPaths.resolve?_eq_none_iff]
    simp only [hmem]

/-- The field begins with three paths: one ends within a piece and one is not the longest. -/
theorem resolve?_of_ofList?_credential :
    ∃ nested,
      NestedPaths.ofList? ["programs.credential", "programs", "programs.cred"] = .ok nested ∧
      nested.resolve? "programs.credential..level" = some "programs.credential" ∧
      nested.resolve? "programs_credential" = none := by
  have h : NestedPaths.ofList? ["programs.credential", "programs", "programs.cred"] =
      .ok ⟨["programs", "programs.cred", "programs.credential"], by decide⟩ := rfl
  obtain ⟨hsome, -⟩ := resolve?_of_ofList? h "programs.credential..level"
  obtain ⟨-, hnone⟩ := resolve?_of_ofList? h "programs_credential"
  exact ⟨_, h, (hsome _).2 (by decide), hnone.2 (by decide)⟩

end FlatQuery
