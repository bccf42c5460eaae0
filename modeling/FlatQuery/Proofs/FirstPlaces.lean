import Mathlib.Data.List.Induction
import Mathlib.Data.List.Nodup

/-!
# Lists without repetition

Of equal elements `List.eraseDups` keeps the first (`eraseDups_append_singleton`,
`eraseDups_append_cons_filter`), so what is left stands in the order of the first places
(`pairwise_firstPlace_eraseDups`).
-/

namespace FlatQuery

variable {α β : Type}

theorem eraseDups_append_singleton [DecidableEq α] (xs : List α) (x : α) :
    (xs ++ [x]).eraseDups = xs.eraseDups ++ if x ∈ xs then [] else [x] := by
  rw [List.eraseDups_append, List.removeAll]
  split
  · rename_i h
    rw [List.filter_cons_of_neg (by simpa using h), List.filter_nil, List.eraseDups_nil]
  · rename_i h
    rw [List.filter_cons_of_pos (by simpa using h), List.filter_nil]
    rfl

theorem nodup_eraseDups [DecidableEq α] (xs : List α) : xs.eraseDups.Nodup := by
  induction xs using List.reverseRecOn with
  | nil => exact List.nodup_nil
  | append_singleton xs x ih =>
    rw [eraseDups_append_singleton]
    split
    · rwa [List.append_nil]
    · rename_i hx
      rw [← List.concat_eq_append]
      exact ih.concat (mt List.mem_eraseDups.1 hx)

/-- An element that stands before may be left out. -/
theorem eraseDups_append_cons_filter [DecidableEq α] (xs ys : List α) (x : α) :
    (xs ++ x :: ys.filter fun y => y ≠ x).eraseDups = (xs ++ x :: ys).eraseDups := by
  induction ys using List.reverseRecOn with
  | nil => rfl
  | append_singleton ys y ih =>
    rw [List.filter_append, ← List.cons_append, ← List.append_assoc, ← List.cons_append,
      ← List.append_assoc, eraseDups_append_singleton _ y, ← ih]
    by_cases hy : y = x
    · simp [hy]
    · have hkept : [y].filter (fun y => y ≠ x) = [y] := List.filter_cons_of_pos (by simpa using hy)
      have hmem : y ∈ xs ++ x :: ys.filter (fun y => y ≠ x) ↔ y ∈ xs ++ x :: ys := by simp [hy]
      rw [hkept, eraseDups_append_singleton]
      simp only [hmem]

variable [DecidableEq β] (f : α → Option β)

/-- The place in the list where `f` takes the value `b` first; the length of the list if it never
does. -/
def firstPlace (xs : List α) (b : β) : Nat :=
  xs.findIdx fun x => f x = some b

variable {f}

theorem firstPlace_lt_length_iff {xs : List α} {b : β} :
    firstPlace f xs b < xs.length ↔ b ∈ xs.filterMap f := by
  rw [firstPlace, List.findIdx_lt_length, List.mem_filterMap]
  simp only [decide_eq_true_eq]

theorem firstPlace_append_of_mem {xs : List α} {b : β} (h : b ∈ xs.filterMap f) (ys : List α) :
    firstPlace f (xs ++ ys) b = firstPlace f xs b := by
  rw [firstPlace, List.findIdx_append]
  exact if_pos (firstPlace_lt_length_iff.2 h)

theorem length_le_firstPlace_append {xs : List α} {b : β} (h : b ∉ xs.filterMap f) (ys : List α) :
    xs.length ≤ firstPlace f (xs ++ ys) b := by
  have hnone : ¬(xs.findIdx fun x => f x = some b) < xs.length := mt firstPlace_lt_length_iff.1 h
  rw [firstPlace, List.findIdx_append, if_neg hnone]
  exact Nat.le_add_left ..

variable (f)

/-- Without repetition, the values of `f` stand in the order of their first places. -/
theorem pairwise_firstPlace_eraseDups (xs : List α) :
    (xs.filterMap f).eraseDups.Pairwise fun a b => firstPlace f xs a < firstPlace f xs b := by
  induction xs using List.reverseRecOn with
  | nil => exact .nil
  | append_singleton xs x ih =>
    have hfirst : (xs.filterMap f).eraseDups.Pairwise fun a b =>
        firstPlace f (xs ++ [x]) a < firstPlace f (xs ++ [x]) b :=
      ih.imp_of_mem fun ha hb h => by
        rwa [firstPlace_append_of_mem (List.mem_eraseDups.1 ha),
          firstPlace_append_of_mem (List.mem_eraseDups.1 hb)]
    rw [List.filterMap_append]
    cases hx : f x with
    | none => simpa [hx] using hfirst
    | some b =>
      have hlast : [x].filterMap f = [b] := by simp [hx]
      rw [hlast, eraseDups_append_singleton]
      split
      · rwa [List.append_nil]
      · rename_i hb
        rw [List.pairwise_append]
        refine ⟨hfirst, List.pairwise_singleton _ _, fun a ha b' hb' => ?_⟩
        obtain rfl : b' = b := List.mem_singleton.1 hb'
        rw [List.mem_eraseDups] at ha
        rw [firstPlace_append_of_mem ha]
        exact Nat.lt_of_lt_of_le (firstPlace_lt_length_iff.2 ha)
          (length_le_firstPlace_append hb [x])

end FlatQuery
