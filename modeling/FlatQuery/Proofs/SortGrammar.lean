import FlatQuery.Proofs.DottedPaths
import FlatQuery.Proofs.Rejections

/-!
# The grammar of sort specifications

A sort specification is blank, or a list of pieces between commas. A piece is a field name, and
after a colon it may have a direction: `asc` or `desc` in letters of either case. `SortPiece` says
which key a piece stands for, without a word on how it is read. Reading accepts these
specifications and no others, and makes one order for each piece (`compileSort_accepts`).
-/

namespace FlatQuery

/-! ## Pieces -/

/-- Segments of word characters, none of them empty, with single dots between them. -/
def IsFieldName (field : String) : Prop :=
  ∃ segments : List String, segments ≠ [] ∧
    (∀ segment ∈ segments, segment ≠ "" ∧ ∀ c ∈ segment.toList, Text.isWordChar c = true) ∧
    field = ".".intercalate segments

/-- The word `small` in letters of either case. -/
def SpellsInAnyCase (word small : String) : Prop :=
  List.Forall₂ (fun c letter => c = letter ∨ c = letter.toUpper) word.toList small.toList

/-- What a piece of a specification stands for. -/
inductive SortPiece : String → SortKey → Prop where
  | bare {field : String} (hfield : IsFieldName field) : SortPiece field ⟨field, false⟩
  | ascending {field word : String} (hfield : IsFieldName field)
      (hword : SpellsInAnyCase word "asc") : SortPiece (field ++ ":" ++ word) ⟨field, false⟩
  | descending {field word : String} (hfield : IsFieldName field)
      (hword : SpellsInAnyCase word "desc") : SortPiece (field ++ ":" ++ word) ⟨field, true⟩

/-! ## Letters -/

theorem isLower_iff {c : Char} : c.isLower = true ↔ 97 ≤ c.toNat ∧ c.toNat ≤ 122 :=
  Bool.and_eq_true_iff.trans (and_congr decide_eq_true_iff decide_eq_true_iff)

theorem toNat_toLower (c : Char) :
    c.toLower.toNat = if 65 ≤ c.toNat ∧ c.toNat ≤ 90 then c.toNat + 32 else c.toNat := by
  split
  · rename_i h
    have hval : c.val ≥ 'A'.val ∧ c.val ≤ 'Z'.val := h
    have hlower : c.toLower = ⟨c.val + ('a'.val - 'A'.val), _⟩ := dif_pos hval
    have hfits : c.toNat + 32 < 2 ^ 32 := by omega
    rw [hlower]
    exact (UInt32.toNat_add _ _).trans (Nat.mod_eq_of_lt hfits)
  · rename_i h
    have hval : ¬(c.val ≥ 'A'.val ∧ c.val ≤ 'Z'.val) := h
    exact congrArg Char.toNat (dif_neg hval)

theorem toNat_toUpper {c : Char} (h : c.isLower = true) : c.toUpper.toNat = c.toNat - 32 := by
  have hsmall : 97 ≤ c.toNat ∧ c.toNat ≤ 122 := isLower_iff.1 h
  have hval : 'a'.val ≤ c.val ∧ c.val ≤ 'z'.val := hsmall
  have hupper : c.toUpper = ⟨c.val + ('A'.val - 'a'.val), _⟩ := dif_pos hval
  have hwrap : (c.toNat + (2 ^ 32 - 32)) % 2 ^ 32 = c.toNat - 32 := by omega
  rw [hupper]
  exact (UInt32.toNat_add _ _).trans hwrap

/-- A character has a small letter as its small form iff it is that letter in either case. -/
theorem toLower_eq_iff {c letter : Char} (h : letter.isLower) :
    c.toLower = letter ↔ c = letter ∨ c = letter.toUpper := by
  have hsmall : 97 ≤ letter.toNat ∧ letter.toNat ≤ 122 := isLower_iff.1 h
  rw [← Char.toNat_inj, ← Char.toNat_inj, ← Char.toNat_inj, toNat_toLower, toNat_toUpper h]
  split <;> omega

theorem asciiLower_eq_iff {word small : String}
    (h : small.toList.all Char.isLower) :
    Text.asciiLower word = small ↔ SpellsInAnyCase word small := by
  rw [Text.asciiLower, ← String.toList_inj, String.toList_ofList, SpellsInAnyCase]
  rw [List.all_eq_true] at h
  generalize small.toList = letters at h
  induction word.toList generalizing letters with
  | nil => rw [List.map_nil, List.forall₂_nil_left_iff, eq_comm]
  | cons c cs ih =>
    cases letters with
    | nil => simp
    | cons letter letters =>
      rw [List.forall_mem_cons] at h
      rw [List.map_cons, List.cons.injEq, List.forall₂_cons, toLower_eq_iff h.1, ih letters h.2]

/-- A word of letters is not empty and made of word characters, in whatever case they are. -/
theorem isWord_of_spells {word small : String} (hne : small ≠ "")
    (hsmall : small.toList.all fun letter =>
      Text.isWordChar letter && Text.isWordChar letter.toUpper)
    (h : SpellsInAnyCase word small) :
    word ≠ "" ∧ ∀ c ∈ word.toList, Text.isWordChar c = true := by
  rw [ne_eq, ← String.toList_eq_nil_iff] at hne ⊢
  unfold SpellsInAnyCase at h
  simp only [List.all_eq_true, Bool.and_eq_true] at hsmall
  generalize word.toList = cs, small.toList = letters at h hsmall hne
  constructor
  · rintro rfl
    exact hne (List.forall₂_nil_left_iff.1 h)
  · clear hne
    induction h with
    | nil => simp
    | cons hc _ ih =>
      rw [List.forall_mem_cons] at hsmall ⊢
      refine ⟨?_, ih hsmall.2⟩
      rcases hc with rfl | rfl
      · exact hsmall.1.1
      · exact hsmall.1.2

/-! ## Field names -/

theorem isFieldName_iff {field : String} : isFieldName field.toList = true ↔ IsFieldName field := by
  have hdot : Text.isWordChar '.' = false := by decide
  have hpieces : isFieldName field.toList = true ↔ ∀ segment ∈ Text.splitOn field '.',
      segment ≠ "" ∧ ∀ c ∈ segment.toList, Text.isWordChar c = true := by
    rw [isFieldName, List.all_eq_true, Text.splitOn, List.forall_mem_map]
    simp
  rw [hpieces]
  constructor
  · intro h
    exact ⟨Text.splitOn field '.', Json.splitOn_ne_nil field, h, (Json.dotted_splitOn field).symm⟩
  · rintro ⟨segments, hne, hsegments, rfl⟩
    have hfree : ∀ segment ∈ segments, '.' ∉ segment.toList := by
      intro segment hsegment hmem
      have hword := (hsegments segment hsegment).2 _ hmem
      rw [hdot] at hword
      cases hword
    rw [← Json.dotted, Json.splitOn_dotted hne hfree]
    exact hsegments

theorem IsFieldName.colon_notMem {field : String} (h : IsFieldName field) :
    ':' ∉ field.toList := by
  have hcolon : Text.isWordChar ':' = false := by decide
  obtain ⟨segments, -, hsegments, rfl⟩ := h
  rw [String.toList_intercalate]
  intro hmem
  rcases Text.mem_intercalate hmem with hmem | ⟨cs, hcs, hmem⟩
  · simp at hmem
  · obtain ⟨segment, hsegment, rfl⟩ := List.mem_map.1 hcs
    have hword := (hsegments segment hsegment).2 _ hmem
    rw [hcolon] at hword
    cases hword

/-! ## Reading pieces -/

theorem readSortToken?_of_isFieldName {field : String} (h : IsFieldName field) :
    readSortToken? field = some (field, none) := by
  rw [readSortToken?, Text.cut_eq_none_iff.2 h.colon_notMem]
  exact if_pos (isFieldName_iff.2 h)

theorem readSortToken?_append {field word : String} (hfield : IsFieldName field)
    (hne : word ≠ "") (hword : ∀ c ∈ word.toList, Text.isWordChar c = true) :
    readSortToken? (field ++ ":" ++ word) = some (field, some word) := by
  have htoken : (field ++ ":" ++ word).toList = field.toList ++ ':' :: word.toList := by simp
  have hread : (isFieldName field.toList && !word.toList.isEmpty &&
      word.toList.all Text.isWordChar) = true := by
    simp [isFieldName_iff.2 hfield, hne, List.all_eq_true.2 hword]
  rw [readSortToken?, htoken, Text.cut_append hfield.colon_notMem]
  simp only [if_pos hread, String.ofList_toList]

/-- What is read from a token is a field name, and the word after its colon if it has one. -/
theorem readSortToken?_cases {token field : String} {word : Option String}
    (h : readSortToken? token = some (field, word)) :
    IsFieldName field ∧
      (word = none ∧ token = field ∨ ∃ w, word = some w ∧ token = field ++ ":" ++ w) := by
  unfold readSortToken? at h
  split at h
  · split at h
    · rename_i hfield
      cases h
      exact ⟨isFieldName_iff.1 hfield, Or.inl ⟨rfl, rfl⟩⟩
    · cases h
  · rename_i a b hcut
    split at h
    · rename_i hread
      cases h
      obtain ⟨heq, -⟩ := Text.eq_of_cut hcut
      simp only [Bool.and_eq_true] at hread
      have hfield : IsFieldName (String.ofList a) := by
        rw [← isFieldName_iff, String.toList_ofList]
        exact hread.1.1
      refine ⟨hfield, Or.inr ⟨_, rfl, ?_⟩⟩
      rw [← String.toList_inj, heq]
      simp
    · cases h

theorem readDirection_eq_ok_iff {field word : String} {descending : Bool} :
    readDirection field (some word) = .ok descending ↔
      descending = false ∧ SpellsInAnyCase word "asc" ∨
        descending = true ∧ SpellsInAnyCase word "desc" := by
  rw [← asciiLower_eq_iff (by decide), ← asciiLower_eq_iff (by decide), readDirection]
  split
  · rename_i h
    simp [h, eq_comm]
  · rename_i h
    simp [h, eq_comm]
  · rename_i hasc hdesc
    have hneither : Text.asciiLower word ≠ "asc" ∧ Text.asciiLower word ≠ "desc" := ⟨hasc, hdesc⟩
    simp [hneither]

theorem readSortKey_append {spec field word : String} {descending : Bool}
    (hfield : IsFieldName field) (h : readDirection field (some word) = .ok descending) :
    readSortKey spec (field ++ ":" ++ word) = .ok ⟨field, descending⟩ := by
  have hword : word ≠ "" ∧ ∀ c ∈ word.toList, Text.isWordChar c = true := by
    obtain ⟨-, hspells⟩ | ⟨-, hspells⟩ := readDirection_eq_ok_iff.1 h
    · exact isWord_of_spells (by decide) (by decide) hspells
    · exact isWord_of_spells (by decide) (by decide) hspells
  rw [readSortKey, readSortToken?_append hfield hword.1 hword.2]
  simp only [h, Except.map]

/-- A token is read iff it is a piece of a specification, and to the key that it stands for. -/
theorem readSortKey_eq_ok_iff {spec token : String} {key : SortKey} :
    readSortKey spec token = .ok key ↔ SortPiece token key := by
  constructor
  · intro h
    unfold readSortKey at h
    split at h
    · cases h
    · rename_i field word hread
      obtain ⟨descending, hdirection, rfl⟩ := map_eq_ok_iff.1 h
      obtain ⟨hfield, ⟨rfl, rfl⟩ | ⟨w, rfl, rfl⟩⟩ := readSortToken?_cases hread
      · cases hdirection
        exact .bare hfield
      · obtain ⟨rfl, hword⟩ | ⟨rfl, hword⟩ := readDirection_eq_ok_iff.1 hdirection
        · exact .ascending hfield hword
        · exact .descending hfield hword
  · intro h
    cases h with
    | bare hfield =>
      rw [readSortKey, readSortToken?_of_isFieldName hfield]
      rfl
    | ascending hfield hword =>
      exact readSortKey_append hfield (readDirection_eq_ok_iff.2 (Or.inl ⟨rfl, hword⟩))
    | descending hfield hword =>
      exact readSortKey_append hfield (readDirection_eq_ok_iff.2 (Or.inr ⟨rfl, hword⟩))

/-- A piece stands for one key. -/
theorem SortPiece.unique {token : String} {key other : SortKey} (h : SortPiece token key)
    (hother : SortPiece token other) : key = other := by
  rw [← @readSortKey_eq_ok_iff token] at h hother
  exact Except.ok.inj (h.symm.trans hother)

/-! ## Specifications -/

/-- The keys of a specification are those of its pieces. -/
theorem readSortKeys_eq_ok_iff {spec : String} {keys : List SortKey} :
    readSortKeys spec = .ok keys ↔
      Text.trim spec = "" ∧ keys = [] ∨ Text.trim spec ≠ "" ∧
        List.Forall₂ (fun piece key => SortPiece (Text.trim piece) key)
          (Text.splitOn (Text.trim spec) ',') keys := by
  unfold readSortKeys
  dsimp only
  split
  · rename_i hempty
    rw [String.isEmpty_iff] at hempty
    simp [hempty, eq_comm]
  · rename_i hempty
    rw [String.isEmpty_iff] at hempty
    simp only [mapM_eq_ok_iff, readSortKey_eq_ok_iff, hempty, false_and, false_or, ne_eq,
      not_false_eq_true, true_and]

theorem exists_readSortKeys_iff {spec : String} :
    (∃ keys, readSortKeys spec = .ok keys) ↔ Text.trim spec = "" ∨
      ∀ piece ∈ Text.splitOn (Text.trim spec) ',', ∃ key, SortPiece (Text.trim piece) key := by
  unfold readSortKeys
  dsimp only
  split
  · rename_i hempty
    simp [String.isEmpty_iff.1 hempty]
  · rename_i hempty
    rw [String.isEmpty_iff] at hempty
    simp only [exists_mapM_eq_ok_iff, readSortKey_eq_ok_iff, hempty, false_or]

variable (c : Catalog) (queries : List NestedQuery) (mode : SortMode)

/-- A specification is accepted iff it is blank or all of its pieces are in the grammar, and refused
for its order otherwise. It makes one order for each piece, by the field of the piece, and in its
direction. An autocomplete field is ordered by a field of its own. -/
theorem compileSort_accepts (spec : String) :
    ((∃ clauses, compileSort c queries mode spec = .ok clauses) ↔ Text.trim spec = "" ∨
      ∀ piece ∈ Text.splitOn (Text.trim spec) ',', ∃ key, SortPiece (Text.trim piece) key) ∧
    (∀ clauses, compileSort c queries mode spec = .ok clauses →
      (Text.trim spec = "" → clauses = []) ∧
      (Text.trim spec ≠ "" → List.Forall₂ (fun piece s =>
        (∃ key, SortPiece (Text.trim piece) key) ∧ ∀ key, SortPiece (Text.trim piece) key →
          s.descending = key.descending ∧
          s.field = if c.kind key.field = .autocomplete then "_" ++ key.field else key.field)
        (Text.splitOn (Text.trim spec) ',') clauses)) ∧
    ∀ e, compileSort c queries mode spec = .error e → e.code = "SEARCH_INVALID_SORT" := by
  refine ⟨?_, fun clauses h => ?_, fun e h => ?_⟩
  · rw [compileSort_eq, exists_map_eq_ok_iff, exists_readSortKeys_iff]
  · rw [compileSort_eq] at h
    obtain ⟨keys, hkeys, rfl⟩ := map_eq_ok_iff.1 h
    obtain ⟨hempty, rfl⟩ | ⟨hne, hpieces⟩ := readSortKeys_eq_ok_iff.1 hkeys
    · exact ⟨fun _ => rfl, fun hne => absurd hempty hne⟩
    · refine ⟨fun hempty => absurd hempty hne, fun _ => ?_⟩
      rw [List.forall₂_map_right_iff]
      refine hpieces.imp fun piece key hkey => ⟨⟨key, hkey⟩, fun other hother => ?_⟩
      obtain rfl := hkey.unique hother
      exact ⟨rfl, rfl⟩
  · rw [compileSort_eq, map_eq_error_iff] at h
    exact failsOnly_readSortKeys spec e h

/-- Schools have an alias that is completed as it is typed. -/
def aliasCatalog : Catalog where
  kinds := [("school.alias", .autocomplete)]

/-- An order by the alias first, and by size from large to small. -/
theorem compileSort_aliasCatalog :
    ∃ first second,
      compileSort aliasCatalog [] .byDirection " school.alias ,size:DeSc" = .ok [first, second] ∧
        (first.descending = false ∧ first.field = "_school.alias") ∧
        second.descending = true ∧ second.field = "size" := by
  have halias : SortPiece (Text.trim "school.alias ") ⟨"school.alias", false⟩ :=
    .bare (isFieldName_iff.1 rfl)
  have hsize : SortPiece (Text.trim "size:DeSc") ⟨"size", true⟩ :=
    @SortPiece.descending "size" "DeSc" (isFieldName_iff.1 rfl)
      ((asciiLower_eq_iff (by decide)).1 rfl)
  obtain ⟨haccepts, horders, -⟩ :=
    compileSort_accepts aliasCatalog [] .byDirection " school.alias ,size:DeSc"
  have hpieces : Text.splitOn (Text.trim " school.alias ,size:DeSc") ',' =
      ["school.alias ", "size:DeSc"] := rfl
  rw [hpieces] at haccepts horders
  obtain ⟨clauses, h⟩ := haccepts.2 (Or.inr (List.forall_mem_cons.2
    ⟨⟨_, halias⟩, List.forall_mem_singleton.2 ⟨_, hsize⟩⟩))
  have hall := (horders clauses h).2 (by decide)
  simp only [List.forall₂_cons_left_iff, List.forall₂_nil_left_iff] at hall
  obtain ⟨first, -, hfirst, ⟨second, -, hsecond, rfl, rfl⟩, rfl⟩ := hall
  exact ⟨first, second, h, hfirst.2 _ halias, hsecond.2 _ hsize⟩

end FlatQuery
