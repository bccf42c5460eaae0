import FlatQuery.Catalog.Error
import FlatQuery.Text.Split

/-!
# Nested paths

A nested path names a list of subdocuments. A field belongs to the longest nested path that equals
it or that it continues after a dot: `programs` owns `programs.code` but not `programs_count`.
`resolve?` finds that path among the stems of the field, each of which is looked for in the
ascending paths by halving (`search`).
-/

namespace FlatQuery

/-- The stretches of a dotted text before each of its dots, shortest first, and the whole text. -/
def stems : List Char → List (List Char)
  | [] => [[]]
  | c :: cs =>
    let longer := (stems cs).map (c :: ·)
    if c = '.' then [] :: longer else longer

/-- The nested paths of a catalog, in ascending order and without repetitions. -/
structure NestedPaths where
  paths : List String
  ascending : paths.Pairwise (· < ·)
deriving DecidableEq, Repr

namespace NestedPaths

def empty : NestedPaths := ⟨[], .nil⟩

instance : Inhabited NestedPaths := ⟨empty⟩

/-- A path has characters, and no dot stands at its ends or next to another. -/
def isWellFormed (path : String) : Bool :=
  let cs := path.toList
  !(cs.isEmpty || cs.head? == some '.' || cs.getLast? == some '.' ||
    (Text.cutPair '.' cs).isSome)

/-- Puts `path` before the first path that is greater. -/
def insertSorted (path : String) : List String → List String
  | [] => [path]
  | p :: ps => if path ≤ p then path :: p :: ps else p :: insertSorted path ps

def sort (paths : List String) : List String :=
  paths.foldr insertSorted []

/-- The first path that stands twice in a row. -/
def firstRepeated? : List String → Option String
  | p :: q :: ps => if p = q then some p else firstRepeated? (q :: ps)
  | _ => none

theorem mem_insertSorted {path p : String} {ps : List String} :
    p ∈ insertSorted path ps ↔ p = path ∨ p ∈ ps := by
  induction ps with
  | nil => simp [insertSorted]
  | cons q ps ih =>
    unfold insertSorted
    split
    · simp
    · simp only [List.mem_cons, ih]
      exact or_left_comm

theorem mem_sort {p : String} {paths : List String} : p ∈ sort paths ↔ p ∈ paths := by
  induction paths with
  | nil => rfl
  | cons q paths ih => rw [sort, List.foldr_cons, mem_insertSorted, ← sort, ih, List.mem_cons]

theorem pairwise_insertSorted {path : String} {ps : List String}
    (h : ps.Pairwise (· ≤ ·)) : (insertSorted path ps).Pairwise (· ≤ ·) := by
  induction ps with
  | nil => simp [insertSorted]
  | cons p ps ih =>
    have hp := List.pairwise_cons.1 h
    unfold insertSorted
    split
    · rename_i hle
      refine List.pairwise_cons.2 ⟨fun q hq => ?_, h⟩
      rcases List.mem_cons.1 hq with rfl | hq
      · exact hle
      · exact String.le_trans hle (hp.1 q hq)
    · rename_i hle
      refine List.pairwise_cons.2 ⟨fun q hq => ?_, ih hp.2⟩
      rcases mem_insertSorted.1 hq with rfl | hq
      · exact (String.le_total p q).resolve_right hle
      · exact hp.1 q hq

theorem pairwise_sort (paths : List String) : (sort paths).Pairwise (· ≤ ·) := by
  induction paths with
  | nil => exact .nil
  | cons p ps ih => exact pairwise_insertSorted ih

/-- Where no path stands twice in a row, sorted paths are strictly ascending. -/
theorem pairwise_lt_of_firstRepeated? {ps : List String} (h : ps.Pairwise (· ≤ ·))
    (hr : firstRepeated? ps = none) : ps.Pairwise (· < ·) := by
  induction ps with
  | nil => exact .nil
  | cons p ps ih =>
    have hp := List.pairwise_cons.1 h
    cases ps with
    | nil => simp
    | cons q ps =>
      unfold firstRepeated? at hr
      split at hr
      · simp at hr
      · rename_i hne
        have hq := List.pairwise_cons.1 hp.2
        have hpq : p < q := Std.lt_of_le_of_ne (hp.1 q (by simp)) hne
        refine List.pairwise_cons.2 ⟨fun r hm => ?_, ih hp.2 hr⟩
        rcases List.mem_cons.1 hm with rfl | hm
        · exact hpq
        · exact Std.lt_of_lt_of_le hpq (hq.1 r hm)

/-- The nested paths of a list in any order. -/
def ofList? (paths : List String) : Except CatalogError NestedPaths :=
  match paths.find? fun path => !isWellFormed path with
  | some path => .error (.badNestedPath path)
  | none =>
    match h : firstRepeated? (sort paths) with
    | some path => .error (.repeatedNestedPath path)
    | none => .ok ⟨sort paths, pairwise_lt_of_firstRepeated? (pairwise_sort paths) h⟩

/-- Looks for `path` by halving. Of ascending paths the middle one says in which half to go on; the
halves of a list of `n` paths have less than `n`. -/
def search (path : String) : Nat → List String → Bool
  | 0, _ => false
  | n + 1, paths =>
    match paths.drop (paths.length / 2) with
    | [] => false
    | middle :: later =>
      if path = middle then true
      else if path < middle then search path n (paths.take (paths.length / 2))
      else search path n later

def contains (nested : NestedPaths) (path : String) : Bool :=
  search path nested.paths.length nested.paths

/-- The nested path that owns `field`: of its stems, the longest that is a nested path. -/
def resolve? (nested : NestedPaths) (field : String) : Option String :=
  ((stems field.toList).reverse.map String.ofList).find? nested.contains

/-- Halving finds a path wherever it stands, as the half that is left out cannot hold it. -/
theorem search_iff {path : String} {n : Nat} {paths : List String} (hlength : paths.length ≤ n)
    (h : paths.Pairwise (· < ·)) : search path n paths = true ↔ path ∈ paths := by
  induction n generalizing paths with
  | zero =>
    obtain rfl := List.length_eq_zero_iff.1 (Nat.le_zero.1 hlength)
    simp [search]
  | succ n ih =>
    unfold search
    split
    · rename_i hdrop
      have hhalf := List.drop_eq_nil_iff.1 hdrop
      obtain rfl : paths = [] := List.length_eq_zero_iff.1 (by omega)
      simp
    · rename_i middle later hdrop
      have hhalves := List.take_append_drop (paths.length / 2) paths
      rw [hdrop] at hhalves
      clear hdrop
      generalize paths.take (paths.length / 2) = earlier at hhalves ⊢
      subst hhalves
      rw [List.length_append, List.length_cons] at hlength
      rw [List.pairwise_append, List.pairwise_cons] at h
      obtain ⟨hearlier, ⟨hmiddle, hlater⟩, hbelow⟩ := h
      rw [List.mem_append, List.mem_cons]
      split
      · rename_i heq
        simp [heq]
      · rename_i hne
        split
        · rename_i hlt
          have hnotLater : path ∉ later := fun hmem => String.lt_asymm hlt (hmiddle path hmem)
          rw [ih (by omega) hearlier]
          simp [hne, hnotLater]
        · rename_i hge
          have hnotEarlier : path ∉ earlier := fun hmem =>
            hge (hbelow path hmem middle List.mem_cons_self)
          rw [ih (by omega) hlater]
          simp [hne, hnotEarlier]

@[simp] theorem contains_iff {nested : NestedPaths} {path : String} :
    nested.contains path = true ↔ path ∈ nested.paths :=
  search_iff (Nat.le_refl _) nested.ascending

end NestedPaths

end FlatQuery
