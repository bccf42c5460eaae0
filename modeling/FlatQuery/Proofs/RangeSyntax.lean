import FlatQuery.Proofs.Numerals
import FlatQuery.Proofs.ParamTerms

/-!
# Ranges as they are written

An interval is written with two points between its ends, one of which may be left out, and with
blank characters anywhere around its ends (`WrittenInterval`). A range parameter is a list of such
intervals between commas. It is read as exactly these intervals whatever the kind of its field, or
rejected for an end that 64 bits do not hold (`compile_range`). It names a field: without one, the
word of the operator is a field of its own (`not_inRange_nameless`). On some kinds of fields the list is
taken apart before it is known to be a range, and brackets are stripped off its elements; the
intervals are the same afterwards (`WrittenInterval.trimElement`).
-/

namespace FlatQuery

/-! ## Ends -/

/-- What an end is without blank characters around it: empty if it is absent. -/
inductive EndText : String → Option Int → Prop where
  | absent : EndText "" none
  | present {text : String} {n : Int} (h : Number.Numeral text n) : EndText text (some n)

/-- The end of an interval, with blank characters around it. -/
def WrittenEnd (text : String) (bound : Option Int) : Prop :=
  ∃ core, EndText core bound ∧ Text.Padded Text.isBlank core.toList text.toList

variable {text core : String} {bound : Option Int}

theorem Number.Numeral.writtenEnd {n : Int} (h : Number.Numeral text n) :
    WrittenEnd text (some n) :=
  ⟨text, .present h, .refl _ _⟩

theorem writtenEnd_empty : WrittenEnd "" none :=
  ⟨"", .absent, .refl _ _⟩

namespace EndText

theorem isNumeralChar (h : EndText core bound) :
    ∀ c ∈ core.toList, Number.isNumeralChar c = true := by
  cases h with
  | absent => simp
  | present h => exact h.isNumeralChar

/-- An end is read iff 64 bits hold it. -/
theorem readEnd_eq_ok_iff (h : EndText core bound) {path : String} {value : Option Number} :
    Interval.readEnd path core = .ok value ↔
      (∀ n ∈ bound, Number.FitsSigned n) ∧ value = bound.map .int := by
  cases h with
  | absent =>
    rw [Interval.readEnd, if_pos (String.isEmpty_iff.2 rfl)]
    exact ⟨fun heq => ⟨nofun, (Except.ok.inj heq).symm⟩, fun heq => by rw [heq.2]; rfl⟩
  | present h =>
    rename_i n
    have hpoint : core.toList.contains '.' = false := by
      rw [← Bool.not_eq_true, List.contains_iff_mem]
      exact fun hmem => absurd (h.isNumeralChar '.' hmem) (by decide)
    have hbound : (∀ m ∈ some n, Number.FitsSigned m) ↔ Number.FitsSigned n := by
      simp only [Option.mem_some_iff, forall_eq']
    rw [Interval.readEnd, if_neg (by rw [String.isEmpty_iff]; exact h.ne_empty), hpoint,
      h.readInt?, hbound]
    by_cases hfits : Number.FitsSigned n
    · rw [if_pos hfits]
      exact ⟨fun heq => ⟨hfits, (Except.ok.inj heq).symm⟩, fun heq => by rw [heq.2]; rfl⟩
    · rw [if_neg hfits]
      exact ⟨fun heq => (nomatch heq), fun heq => absurd heq.1 hfits⟩

end EndText

namespace WrittenEnd

/-- An end has no other characters than those of numerals and blank ones. -/
theorem notMem (h : WrittenEnd text bound) {c : Char} (hblank : Text.isBlank c = false)
    (hnumeral : Number.isNumeralChar c = false) : c ∉ text.toList := by
  obtain ⟨core, hcore, hpadded⟩ := h
  intro hc
  rcases hpadded.mem hc with h | h
  · exact absurd h (by simp [hblank])
  · exact absurd (hcore.isNumeralChar c h) (by simp [hnumeral])

theorem readEnd_eq_ok_iff (h : WrittenEnd text bound) {path : String} {value : Option Number} :
    Interval.readEnd path (Text.trim text) = .ok value ↔
      (∀ n ∈ bound, Number.FitsSigned n) ∧ value = bound.map .int := by
  obtain ⟨core, hcore, hpadded⟩ := h
  rw [Text.trim, hpadded.stripString fun c hc =>
    Number.not_isBlank_of_isNumeralChar (hcore.isNumeralChar c hc), String.ofList_toList,
    hcore.readEnd_eq_ok_iff]

/-- What is stripped off the front of an end is blank. -/
theorem dropWhile (h : WrittenEnd text bound) :
    WrittenEnd (String.ofList (text.toList.dropWhile isEdge)) bound := by
  obtain ⟨core, hcore, hpadded⟩ := h
  refine ⟨core, hcore, ?_⟩
  rw [String.toList_ofList]
  exact hpadded.dropWhile (fun c hc => isEdge_of_isBlank hc) fun c hc =>
    not_isEdge_of_isNumeralChar (hcore.isNumeralChar c hc)

theorem dropWhile_reverse (h : WrittenEnd text bound) :
    WrittenEnd (String.ofList (text.toList.reverse.dropWhile isEdge).reverse) bound := by
  obtain ⟨core, hcore, hpadded⟩ := h
  refine ⟨core, hcore, ?_⟩
  have hchars : ∀ c ∈ core.toList.reverse, isEdge c = false := fun c hc =>
    not_isEdge_of_isNumeralChar (hcore.isNumeralChar c (List.mem_reverse.1 hc))
  have hdropped := hpadded.reverse.dropWhile (fun c hc => isEdge_of_isBlank hc) hchars
  rw [String.toList_ofList]
  simpa using hdropped.reverse

end WrittenEnd

/-! ## Intervals -/

/-- The ends of an interval of integers. -/
structure Bounds where
  least : Option Int
  greatest : Option Int
deriving DecidableEq, Repr

namespace Bounds

/-- 64 bits hold both ends. -/
def Fits (bounds : Bounds) : Prop :=
  (∀ n ∈ bounds.least, Number.FitsSigned n) ∧ ∀ n ∈ bounds.greatest, Number.FitsSigned n

instance (bounds : Bounds) : Decidable bounds.Fits := inferInstanceAs (Decidable (_ ∧ _))

def interval (bounds : Bounds) : Interval :=
  { least := bounds.least.map .int, greatest := bounds.greatest.map .int }

end Bounds

theorem toList_append_points (a b : String) :
    (a ++ ".." ++ b).toList = a.toList ++ '.' :: '.' :: b.toList := by simp

/-- The text of an interval that has an end. -/
structure WrittenInterval (text : String) (bounds : Bounds) : Prop where
  ends : ∃ a b, text = a ++ ".." ++ b ∧ WrittenEnd a bounds.least ∧ WrittenEnd b bounds.greatest
  bounded : bounds ≠ ⟨none, none⟩

namespace WrittenInterval

variable {bounds : Bounds}

theorem comma_notMem (h : WrittenInterval text bounds) : ',' ∉ text.toList := by
  obtain ⟨⟨a, b, rfl, ha, hb⟩, -⟩ := h
  have hleast : ',' ∉ a.toList := ha.notMem (by decide) (by decide)
  have hgreatest : ',' ∉ b.toList := hb.notMem (by decide) (by decide)
  rw [toList_append_points]
  simp [hleast, hgreatest]

theorem trim_ne_empty (h : WrittenInterval text bounds) : Text.trim text ≠ "" := by
  obtain ⟨⟨a, b, rfl, -, -⟩, -⟩ := h
  have hpoint : Text.isBlank '.' = false := by decide
  rw [Text.trim, Text.stripString, toList_append_points, Text.strip_append_pair hpoint, ne_eq,
    ← String.toList_eq_nil_iff]
  simp

/-- Stripping an interval as an element of a list leaves it the same interval. -/
theorem trimElement (h : WrittenInterval text bounds) :
    WrittenInterval (trimElement text) bounds := by
  obtain ⟨⟨a, b, rfl, ha, hb⟩, hne⟩ := h
  have hpoint : isEdge '.' = false := by decide
  refine ⟨⟨_, _, ?_, ha.dropWhile, hb.dropWhile_reverse⟩, hne⟩
  rw [trimElement_eq, Text.stripString, toList_append_points, Text.strip_append_pair hpoint,
    ← String.toList_inj, toList_append_points]
  simp

/-- The two points are the first that stand side by side. -/
theorem ends_eq {a b : String} {bound : Option Int} (ha : WrittenEnd a bound) :
    Interval.ends (a ++ ".." ++ b) = (Text.trim a, Text.trim b) := by
  have hpoint : '.' ∉ a.toList := ha.notMem (by decide) (by decide)
  rw [Interval.ends, toList_append_points, Text.cutPair_append hpoint]
  simp

theorem read_eq_ok_iff (h : WrittenInterval text bounds) {path : String} {i : Interval} :
    Interval.read path text = .ok i ↔ bounds.Fits ∧ i = bounds.interval := by
  obtain ⟨⟨a, b, rfl, ha, hb⟩, hne⟩ := h
  have hends : ¬((bounds.least.map Number.int).isNone &&
      (bounds.greatest.map Number.int).isNone) = true := by
    obtain ⟨least, greatest⟩ := bounds
    cases least <;> cases greatest <;> simp_all
  rw [Interval.read, ends_eq ha]
  simp only [bind_eq_ok_iff, ha.readEnd_eq_ok_iff, hb.readEnd_eq_ok_iff]
  constructor
  · rintro ⟨-, ⟨hleast, rfl⟩, -, ⟨hgreatest, rfl⟩, h⟩
    rw [if_neg hends] at h
    exact ⟨⟨hleast, hgreatest⟩, (Except.ok.inj h).symm⟩
  · rintro ⟨⟨hleast, hgreatest⟩, rfl⟩
    exact ⟨_, ⟨hleast, rfl⟩, _, ⟨hgreatest, rfl⟩, if_neg hends⟩

end WrittenInterval

/-! ## Lists of intervals -/

variable {path : String} {texts : List String} {bounds : List Bounds} {intervals : List Interval}

theorem mapM_read_eq_ok_iff (h : List.Forall₂ WrittenInterval texts bounds) :
    texts.mapM (Interval.read path) = .ok intervals ↔
      (∀ b ∈ bounds, b.Fits) ∧ intervals = bounds.map Bounds.interval :=
  mapM_eq_ok_iff_of_forall₂ (h.imp fun _ _ hb _ => hb.read_eq_ok_iff)

/-- Intervals joined by commas are the intervals of the text. -/
theorem intervalsOf_intercalate (hne : texts ≠ [])
    (h : List.Forall₂ WrittenInterval texts bounds) :
    intervalsOf path (",".intercalate texts) = texts.mapM (Interval.read path) := by
  have hpiece : ∀ text ∈ texts, ',' ∉ text.toList ∧ (!(Text.trim text).isEmpty) = true := by
    refine forall_mem_left_of_forall₂ h fun text b hb => ⟨hb.comma_notMem, ?_⟩
    rw [Bool.not_eq_true', ← Bool.not_eq_true, String.isEmpty_iff]
    exact hb.trim_ne_empty
  rw [intervalsOf, Text.splitOn_intercalate rfl hne fun text htext => (hpiece text htext).1,
    List.filter_eq_self.2 fun text htext => (hpiece text htext).2]

/-- An interval by itself makes a list of one. -/
theorem WrittenInterval.intervalsOf_eq_ok_iff {b : Bounds} (h : WrittenInterval text b) :
    intervalsOf path text = .ok intervals ↔ b.Fits ∧ intervals = [b.interval] := by
  have hone : intervalsOf path (",".intercalate [text]) = [text].mapM (Interval.read path) :=
    intervalsOf_intercalate (List.cons_ne_nil text []) (.cons h .nil)
  rw [String.intercalate_singleton] at hone
  rw [hone, mapM_read_eq_ok_iff (.cons h .nil), List.forall_mem_singleton, List.map_singleton]

/-! ## Range parameters -/

/-- The value of a range parameter is one text, or one for each interval. Either way the intervals
are the same. -/
theorem exists_operand_range (path : String) (kind : FieldKind) (hne : texts ≠ [])
    (h : List.Forall₂ WrittenInterval texts bounds) :
    ∃ operand lists, readOperand path kind (some .range) (.single (",".intercalate texts)) =
        .ok operand ∧
      lists.flatten = bounds.map Bounds.interval ∧
      ∀ lists', operand.texts.mapM (intervalsOf path) = .ok lists' ↔
        (∀ b ∈ bounds, b.Fits) ∧ lists' = lists := by
  by_cases hlist : kind.isListed = true ∧ (",".intercalate texts).toList.contains ',' = true
  · have hfree : ∀ text ∈ texts, ',' ∉ text.toList :=
      forall_mem_left_of_forall₂ h fun _ _ hb => hb.comma_notMem
    have hread : texts.mapM (readElement path kind (some .range)) =
        .ok (texts.map fun text => .str (trimElement text)) := by
      rw [mapM_eq_ok_iff, List.forall₂_map_right_iff, List.forall₂_same]
      intro text _
      simp [readElement, hlist.1]
    have htexts : (Operand.list (texts.map fun text => .str (trimElement text))).texts =
        texts.map trimElement := by simp [Operand.texts, plainText]
    have htrimmed : List.Forall₂ WrittenInterval (texts.map trimElement) bounds :=
      List.forall₂_map_left_iff.2 (h.imp fun _ _ hb => hb.trimElement)
    rw [readOperand_intercalate hlist.1 (List.contains_iff_mem.1 hlist.2) hfree, readOperand, hread]
    refine ⟨_, bounds.map fun b => [b.interval], rfl, ?_, fun lists' => ?_⟩
    · rw [← List.flatMap_def, ← List.map_eq_flatMap]
    · rw [htexts, mapM_eq_ok_iff_of_forall₂ (htrimmed.imp fun _ _ hb _ => hb.intervalsOf_eq_ok_iff)]
  · rw [readOperand, if_neg hlist]
    refine ⟨_, [bounds.map Bounds.interval], rfl, List.flatten_singleton, fun lists' => ?_⟩
    have hjoined : List.Forall₂ (fun text (bs : List Bounds) => ∀ intervals,
        intervalsOf path text = .ok intervals ↔
          (∀ b ∈ bs, b.Fits) ∧ intervals = bs.map Bounds.interval)
        [",".intercalate texts] [bounds] := by
      refine .cons (fun intervals => ?_) .nil
      rw [intervalsOf_intercalate hne h, mapM_read_eq_ok_iff h]
    rw [Operand.texts, plainText, mapM_eq_ok_iff_of_forall₂ hjoined, List.forall_mem_singleton,
      List.map_singleton]

theorem searchTerm_range_eq_ok_iff {c : Catalog} {flat : Bool} {field : String}
    (hsplit : Operator.split path = (field, some .range))
    (hkind : (c.kind field).isWorded = false) (hne : texts ≠ [])
    (h : List.Forall₂ WrittenInterval texts bounds) {t : Term} :
    Param.searchTerm c flat ⟨path, .single (",".intercalate texts)⟩ = .ok t ↔
      (∀ b ∈ bounds, b.Fits) ∧ t = .inRange field (bounds.map Bounds.interval) := by
  obtain ⟨operand, lists, hoperand, hflat, hlists⟩ :=
    exists_operand_range path (c.kind field) hne h
  have hfilled : ¬lists.flatten.isEmpty = true := by
    rw [hflat, List.isEmpty_iff, List.map_eq_nil_iff]
    exact (ne_nil_iff_of_forall₂ h).1 hne
  rw [searchTerm_of_range hsplit hkind, hoperand, ok_bind, bind_eq_ok_iff]
  simp only [hlists]
  constructor
  · rintro ⟨lists', ⟨hfits, rfl⟩, ht⟩
    rw [if_neg hfilled, hflat] at ht
    exact ⟨hfits, (Except.ok.inj ht).symm⟩
  · rintro ⟨hfits, rfl⟩
    exact ⟨lists, ⟨hfits, rfl⟩, by rw [if_neg hfilled, hflat]⟩

/-- A range parameter asks for exactly the intervals that it is written with, on a field of any kind
that is not searched by its words, of the document or of a subdocument. If 64 bits do not hold some
end, the parameter is rejected. -/
theorem compile_range {c : Catalog} {settings : PlanSettings} {o : Options} {field : String}
    (hfield : field ≠ "") (hname : c.kind field ≠ .name)
    (hautocomplete : c.kind field ≠ .autocomplete) (hdistance : o.distance = none)
    (hsort : o.sort = none) (hne : bounds ≠ [])
    (h : List.Forall₂ WrittenInterval texts bounds) :
    ((∀ b ∈ bounds, b.Fits) →
      (compile c settings
        (.sole (field ++ "__range") (.single (",".intercalate texts)) o)).map Plan.terms =
          .ok [.inRange field (bounds.map Bounds.interval)]) ∧
    ((∃ b ∈ bounds, ¬b.Fits) →
      ∃ e, compile c settings
          (.sole (field ++ "__range") (.single (",".intercalate texts)) o) = .error e ∧
        e.IsBadValue (field ++ "__range")) := by
  have hsplit : Operator.split (field ++ "__range") = (field, some .range) := by
    have hword : "__range" = "__" ++ Operator.range.word := by decide
    rw [hword, ← String.append_assoc, Operator.split_append_word hfield]
  have hkind : (c.kind field).isWorded = false := by
    rw [FieldKind.isWorded_eq_false_iff]
    exact ⟨hname, hautocomplete⟩
  have htexts : texts ≠ [] := (ne_nil_iff_of_forall₂ h).2 hne
  have hterm : ∀ t, Param.searchTerm c o.allPrograms
      ⟨field ++ "__range", .single (",".intercalate texts)⟩ = .ok t ↔
        (∀ b ∈ bounds, b.Fits) ∧ t = .inRange field (bounds.map Bounds.interval) := fun _ =>
    searchTerm_range_eq_ok_iff hsplit hkind htexts h
  refine ⟨fun hfits => ?_, fun hunfit => ?_⟩
  · exact map_terms_compile_of_ok hdistance hsort ((hterm _).2 ⟨hfits, rfl⟩)
  · cases hsearch : Param.searchTerm c o.allPrograms
        ⟨field ++ "__range", .single (",".intercalate texts)⟩ with
    | error e =>
      refine ⟨e, ?_, failsOnly_searchTerm _ e hsearch⟩
      rw [← map_eq_error_iff, map_terms_compile_sole hdistance hsort, hsearch]
      rfl
    | ok t =>
      obtain ⟨b, hb, hunfit⟩ := hunfit
      exact absurd (((hterm t).1 hsearch).1 b hb) hunfit

/-- The least and the greatest integer of 64 bits, and the one after it, on a field of programs. -/
theorem compile_range_extremes :
    (compile { nested := ⟨["programs"], List.pairwise_singleton _ _⟩ } {}
      (.sole "programs.size__range"
        (.single " -9223372036854775808.. 9223372036854775807,5..") {})).map Plan.terms =
      .ok [.inRange "programs.size" [⟨some (.int (-0x8000000000000000)),
        some (.int 0x7fffffffffffffff)⟩, ⟨some (.int 5), none⟩]] ∧
    ∃ e, compile { nested := ⟨["programs"], List.pairwise_singleton _ _⟩ } {}
        (.sole "programs.size__range" (.single "..9223372036854775808") {}) = .error e ∧
      e.IsBadValue "programs.size__range" := by
  have hleast : WrittenEnd " -9223372036854775808" (some (-0x8000000000000000)) :=
    ⟨_, .present (Number.numeral_toString _), [' '], [], List.forall_mem_singleton.2 rfl,
      List.forall_mem_nil _, by decide⟩
  have hgreatest : WrittenEnd " 9223372036854775807" (some 0x7fffffffffffffff) :=
    ⟨_, .present (Number.numeral_toString _), [' '], [], List.forall_mem_singleton.2 rfl,
      List.forall_mem_nil _, by decide⟩
  have hfive : WrittenEnd "5" (some 5) := (Number.numeral_toString 5).writtenEnd
  have hbeyond : WrittenEnd "9223372036854775808" (some 0x8000000000000000) :=
    (Number.numeral_toString 0x8000000000000000).writtenEnd
  have hpath : "programs.size__range" = "programs.size" ++ "__range" := by decide
  have hlist : " -9223372036854775808.. 9223372036854775807,5.." = ",".intercalate
      [" -9223372036854775808" ++ ".." ++ " 9223372036854775807", "5" ++ ".." ++ ""] := by decide
  have hlast : "..9223372036854775808" =
      ",".intercalate ["" ++ ".." ++ "9223372036854775808"] := by decide
  have hwritten : List.Forall₂ WrittenInterval
      [" -9223372036854775808" ++ ".." ++ " 9223372036854775807", "5" ++ ".." ++ ""]
      [⟨some (-0x8000000000000000), some 0x7fffffffffffffff⟩, ⟨some 5, none⟩] :=
    .cons ⟨⟨_, _, rfl, hleast, hgreatest⟩, by decide⟩
      (.cons ⟨⟨_, _, rfl, hfive, writtenEnd_empty⟩, by decide⟩ .nil)
  have hwide : List.Forall₂ WrittenInterval ["" ++ ".." ++ "9223372036854775808"]
      [⟨none, some 0x8000000000000000⟩] :=
    .cons ⟨⟨_, _, rfl, writtenEnd_empty, hbeyond⟩, by decide⟩ .nil
  rw [hpath, hlist, hlast]
  constructor
  · exact (compile_range (by decide) (by decide) (by decide) rfl rfl (by decide) hwritten).1
      (by decide)
  · exact (compile_range (by decide) (by decide) (by decide) rfl rfl (by decide) hwide).2
      ⟨_, List.mem_singleton_self _, by decide⟩

/-- With no field before it the word of the operator is a field itself. What is an interval after a
field is the text that this one equals, and no end of it is too great. -/
theorem not_inRange_nameless :
    ({} : Catalog).kind "" = .string ∧
    (WrittenInterval "1..2" ⟨some 1, some 2⟩ ∧
      (compile {} {} (.sole ("" ++ "__range") (.single "1..2") {})).map Plan.terms =
        .ok [.equals "__range" (.str "1..2")] ∧
      (compile {} {} (.sole ("" ++ "__range") (.single "1..2") {})).map Plan.terms ≠
        .ok [.inRange "" [Bounds.interval ⟨some 1, some 2⟩]]) ∧
    WrittenInterval "..9223372036854775808" ⟨none, some 0x8000000000000000⟩ ∧
      ¬Bounds.Fits ⟨none, some 0x8000000000000000⟩ ∧
      ∃ plan, compile {} {} (.sole ("" ++ "__range") (.single "..9223372036854775808") {}) =
        .ok plan := by
  have hterms : (compile {} {} (.sole ("" ++ "__range") (.single "1..2") {})).map Plan.terms =
      .ok [.equals "__range" (.str "1..2")] := rfl
  have hone : WrittenEnd "1" (some 1) := (Number.numeral_toString 1).writtenEnd
  have htwo : WrittenEnd "2" (some 2) := (Number.numeral_toString 2).writtenEnd
  have hbeyond : WrittenEnd "9223372036854775808" (some 0x8000000000000000) :=
    (Number.numeral_toString 0x8000000000000000).writtenEnd
  refine ⟨by decide, ⟨⟨⟨"1", "2", by decide, hone, htwo⟩, by decide⟩, hterms, ?_⟩,
    ⟨⟨"", _, by decide, writtenEnd_empty, hbeyond⟩, by decide⟩, by decide, _, rfl⟩
  rw [hterms]
  simp

end FlatQuery
