import FlatQuery.Proofs.Flattening
import FlatQuery.Proofs.Splitting
import Mathlib.Data.List.Basic

/-!
# Paths and dotted keys

A dotted key spells one path, of which no step has a dot: the steps of a key give the key back
(`dotted_splitOn`), and such a path is given back by its key (`splitOn_dotted`). A key comes no
later than the keys it begins (`not_lt_of_prefix`).
-/

namespace FlatQuery.Json

theorem dotted_splitOn (key : String) : dotted (Text.splitOn key '.') = key := by
  rw [← String.toList_inj, dotted, String.toList_intercalate, Text.map_toList_splitOn]
  exact List.intercalate_splitOn '.'

theorem splitOn_dotted {path : List String} (hne : path ≠ [])
    (hsteps : ∀ step ∈ path, '.' ∉ step.toList) : Text.splitOn (dotted path) '.' = path :=
  Text.splitOn_intercalate rfl hne hsteps

theorem splitOn_ne_nil (key : String) : Text.splitOn key '.' ≠ [] := by
  obtain ⟨head, rest, hsplit, -⟩ := Text.exists_splitOn_eq key '.'
  rw [hsplit]
  exact List.cons_ne_nil _ _

theorem not_lt_of_prefix {key longer : String} (h : key.toList <+: longer.toList) :
    ¬longer < key := by
  show ¬longer.toList < key.toList
  exact List.not_lt.2 h.le

end FlatQuery.Json
