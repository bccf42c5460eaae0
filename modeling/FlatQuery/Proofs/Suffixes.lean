import FlatQuery.Field.Operator
import FlatQuery.Proofs.Encoding
import FlatQuery.Proofs.Splitting

/-!
# Operators after fields

Splitting undoes suffixing: a path is taken apart into a field and an operator exactly if it is that
field with two underscores and the word of the operator after it (`split_iff_suffixed`). The words
have no underscore, so the last two underscores of such a path are those before the word, whatever
the field ends in (`baseField_of_suffixed`), and the word stands two bytes after the field.
-/

namespace FlatQuery

/-- The path is the field with the operator after it. -/
def Suffixed (path field : String) (op : Operator) : Prop :=
  field ≠ "" ∧ path = field ++ "__" ++ op.word

namespace Operator

/-! ## Words -/

theorem mem_words_iff {s : String} : s ∈ words ↔ ∃ op : Operator, op.word = s := by
  have hwords : words = all.map word := rfl
  have hall : ∀ op, op ∈ all := by
    intro op
    cases op <;> decide
  simp only [hwords, List.mem_map, hall, true_and]

theorem underscore_notMem_word (op : Operator) : '_' ∉ op.word.toList := by
  cases op <;> decide

theorem ofWord?_word (op : Operator) : ofWord? op.word = some op := by
  cases op <;> decide

end Operator

/-! ## The field -/

theorem Suffixed.toList {path field : String} {op : Operator} (h : Suffixed path field op) :
    path.toList = field.toList ++ '_' :: '_' :: op.word.toList := by
  rw [h.2]
  simp

theorem baseField_of_suffixed {path field : String} {op : Operator} (h : Suffixed path field op) :
    baseField path = field := by
  have hword : Operator.words.contains op.word = true :=
    List.contains_iff_mem.2 (Operator.mem_words_iff.2 ⟨op, rfl⟩)
  have hfield : field.toList.isEmpty = false := by
    rw [List.isEmpty_eq_false_iff, ne_eq, String.toList_eq_nil_iff]
    exact h.1
  rw [baseField, h.toList, Text.cutLastPair_append op.underscore_notMem_word]
  simp only [String.ofList_toList, hword, hfield, Bool.not_false, Bool.and_self, if_true]

/-- A path from which something is taken has an operator after what is left. -/
theorem suffixed_or_baseField_eq (path : String) :
    (∃ op, Suffixed path (baseField path) op) ∨ baseField path = path := by
  unfold baseField
  split
  · rename_i field word hcut
    split
    · rename_i hsuffix
      obtain ⟨hword, hfield⟩ := Bool.and_eq_true_iff.1 hsuffix
      obtain ⟨op, hop⟩ := Operator.mem_words_iff.1 (List.contains_iff_mem.1 hword)
      refine Or.inl ⟨op, ?_, ?_⟩
      · rintro hempty
        rw [← String.toList_eq_nil_iff, String.toList_ofList] at hempty
        rw [hempty] at hfield
        cases hfield
      · rw [← String.toList_inj, Text.cutLastPair_eq_some hcut, hop]
        simp
    · exact Or.inr rfl
  · exact Or.inr rfl

/-! ## The operator -/

theorem Operator.split_of_suffixed {path field : String} {op : Operator}
    (h : Suffixed path field op) : split path = (field, some op) := by
  have hcut : path.toList = (field.toList ++ ['_', '_']) ++ op.word.toList := by
    rw [h.toList]
    simp
  have hlength : (Text.Utf8.encode field.toList).length + 2 =
      (Text.Utf8.encode (field.toList ++ ['_', '_'])).length := by
    rw [Text.Utf8.encode_append, List.length_append]
    rfl
  rw [split, baseField_of_suffixed h, hlength, hcut, Text.Utf8.dropBytes?_encode_append,
    Option.bind_some, String.ofList_toList, ofWord?_word]

/-- Where nothing is taken from a path, two bytes after it there is nothing. -/
theorem Operator.split_of_baseField_eq {path : String} (h : baseField path = path) :
    split path = (path, none) := by
  rw [split, h, Text.Utf8.dropBytes?_eq_none (by omega), Option.bind_none]

/-- A path is split into a field and an operator exactly if it is the one with the other after it,
and is left whole exactly if it has no such form. There is at most one such form, and the field is
the one under which the path is looked up. -/
theorem Operator.split_iff_suffixed (path : String) :
    (∀ field op, split path = (field, some op) ↔ Suffixed path field op) ∧
      (split path = (path, none) ↔ ∀ field op, ¬Suffixed path field op) ∧
      (∀ field op, Suffixed path field op → baseField path = field ∧
        ∀ other op', Suffixed path other op' → other = field ∧ op' = op) ∧
      (split path).1 = baseField path := by
  have hwhole : split path = (path, none) ↔ ∀ field op, ¬Suffixed path field op := by
    constructor
    · intro h field op hsuffixed
      rw [split_of_suffixed hsuffixed] at h
      cases h
    · intro hnone
      rcases suffixed_or_baseField_eq path with ⟨op, hsuffixed⟩ | hbase
      · exact absurd hsuffixed (hnone _ op)
      · exact split_of_baseField_eq hbase
  have hsplit : ∀ field op, split path = (field, some op) ↔ Suffixed path field op := by
    intro field op
    refine ⟨fun h => ?_, split_of_suffixed⟩
    rcases suffixed_or_baseField_eq path with ⟨op', hsuffixed⟩ | hbase
    · rw [split_of_suffixed hsuffixed] at h
      obtain ⟨hfield, hop⟩ := Prod.mk.inj h
      rwa [← hfield, ← Option.some.inj hop]
    · rw [split_of_baseField_eq hbase] at h
      cases h
  refine ⟨hsplit, hwhole, fun field op h => ⟨baseField_of_suffixed h, fun other op' h' => ?_⟩, rfl⟩
  have hsame := (split_of_suffixed h').symm.trans (split_of_suffixed h)
  obtain ⟨hfield, hop⟩ := Prod.mk.inj hsame
  exact ⟨hfield, Option.some.inj hop⟩

/-- The field ends in an underscore and has operators and letters beyond ASCII in it. -/
theorem Operator.split_stacked :
    Suffixed "é__not_界___ne" "é__not_界_" .ne ∧ split "é__not_界___ne" = ("é__not_界_", some .ne) ∧
      baseField "é__not_界___ne" = "é__not_界_" ∧
      ∀ other op', Suffixed "é__not_界___ne" other op' → other = "é__not_界_" ∧ op' = .ne := by
  have h : Suffixed "é__not_界___ne" "é__not_界_" .ne := ⟨by decide, by decide⟩
  obtain ⟨hsplit, -, hunique, -⟩ := split_iff_suffixed "é__not_界___ne"
  exact ⟨h, (hsplit _ _).2 h, hunique _ _ h⟩

end FlatQuery
