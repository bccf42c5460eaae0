import FlatQuery.Proofs.Numerals
import FlatQuery.Proofs.ParamTerms

/-!
# Lists of integers in brackets

An integer field takes a list of integers in brackets. The comma makes it a list: two or more
integers are read as exactly these, and a single one is the text as it stands, brackets included
(`compile_bracketed`).
-/

namespace FlatQuery

/-! ## Elements -/

/-- A numeral as it stands between the commas of a list. -/
def IsElement (text : String) (n : Int) : Prop :=
  ∃ numeral, Number.Numeral numeral n ∧ Text.Padded isEdge numeral.toList text.toList

variable {text : String} {n : Int}

theorem Number.Written.isElement (h : Number.Written text n) : IsElement text n := by
  obtain ⟨numeral, hnumeral, hpadded⟩ := h
  exact ⟨numeral, hnumeral, hpadded.mono fun c hc => isEdge_of_isBlank hc⟩

namespace IsElement

theorem open_append (h : IsElement text n) : IsElement ("[" ++ text) n := by
  obtain ⟨numeral, hnumeral, hpadded⟩ := h
  refine ⟨numeral, hnumeral, ?_⟩
  rw [String.toList_append]
  exact hpadded.cons (by decide)

theorem append_close (h : IsElement text n) : IsElement (text ++ "]") n := by
  obtain ⟨numeral, hnumeral, hpadded⟩ := h
  refine ⟨numeral, hnumeral, ?_⟩
  rw [String.toList_append]
  exact hpadded.concat (by decide)

theorem comma_notMem (h : IsElement text n) : ',' ∉ text.toList := by
  obtain ⟨numeral, hnumeral, hpadded⟩ := h
  intro hmem
  rcases hpadded.mem hmem with hedge | hcore
  · exact absurd hedge (by decide)
  · exact absurd (hnumeral.isNumeralChar ',' hcore) (by decide)

/-- An element of a list on an integer field is read as its integer, if 64 bits hold that. -/
theorem readElement_eq_ok_iff (h : IsElement text n) {path : String} {op : Option Operator}
    (hop : op ≠ some .range) {value : Json} :
    readElement path .integer op text = .ok value ↔
      Number.FitsSigned n ∧ value = .num (.int n) := by
  obtain ⟨numeral, hnumeral, hpadded⟩ := h
  have htrim : (if FieldKind.integer.isListed then trimElement text else text) = numeral :=
    hnumeral.trimElement hpadded
  rw [readElement, htrim, if_pos ⟨rfl, hop⟩, hnumeral.readInt?]
  by_cases hfits : Number.FitsSigned n
  · rw [if_pos hfits]
    exact ⟨fun heq => ⟨hfits, (Except.ok.inj heq).symm⟩, fun heq => by rw [heq.2]⟩
  · rw [if_neg hfits]
    exact ⟨fun heq => (nomatch heq), fun heq => absurd heq.1 hfits⟩

end IsElement

/-! ## Lists -/

/-- The texts between brackets, joined by commas. -/
def bracketed (texts : List String) : String :=
  "[" ++ ",".intercalate texts ++ "]"

variable {texts : List String} {ns : List Int}

theorem exists_pieces_append_close (hne : texts ≠ []) (h : List.Forall₂ IsElement texts ns) :
    ∃ pieces, List.Forall₂ IsElement pieces ns ∧
      ",".intercalate texts ++ "]" = ",".intercalate pieces := by
  induction h with
  | nil => exact absurd rfl hne
  | @cons text n texts ns hn hns ih =>
    cases hns with
    | nil =>
      refine ⟨[text ++ "]"], .cons hn.append_close .nil, ?_⟩
      rw [String.intercalate_singleton, String.intercalate_singleton]
    | cons hm hms =>
      obtain ⟨pieces, hpieces, heq⟩ := ih (List.cons_ne_nil _ _)
      refine ⟨text :: pieces, .cons hn hpieces, ?_⟩
      have hfilled : pieces ≠ [] := (ne_nil_iff_of_forall₂ hpieces).2 (List.cons_ne_nil _ _)
      rw [String.intercalate_cons_cons, String.append_assoc, heq,
        String.intercalate_cons_of_ne_nil hfilled]

/-- What stands between the commas of a list in brackets are its elements, the brackets with the
first and the last of them. -/
theorem exists_pieces_bracketed (hne : texts ≠ []) (h : List.Forall₂ IsElement texts ns) :
    ∃ pieces, List.Forall₂ IsElement pieces ns ∧ bracketed texts = ",".intercalate pieces := by
  obtain ⟨pieces, hpieces, heq⟩ := exists_pieces_append_close hne h
  rw [bracketed, String.append_assoc, heq]
  cases hpieces with
  | nil => exact absurd rfl ((ne_nil_iff_of_forall₂ h).1 hne)
  | cons hn hns => exact ⟨_, .cons hn.open_append hns, String.intercalate_cons_append.symm⟩

/-- The value of a list in brackets. One integer alone has no comma, and is taken as it stands. -/
def bracketedOperand (texts : List String) (ns : List Int) : Operand :=
  if ns.length = 1 then .scalar (.str (bracketed texts))
  else .list (ns.map fun n => .num (.int n))

theorem readOperand_bracketed (hne : texts ≠ []) (h : List.Forall₂ Number.Written texts ns)
    (hfits : ∀ n ∈ ns, Number.FitsSigned n) {path : String} {op : Option Operator}
    (hop : op ≠ some .range) :
    readOperand path .integer op (.single (bracketed texts)) = .ok (bracketedOperand texts ns) := by
  obtain ⟨pieces, hpieces, heq⟩ := exists_pieces_bracketed hne (h.imp fun _ _ hn => hn.isElement)
  have hread : pieces.mapM (readElement path .integer op) =
      .ok (ns.map fun n => .num (.int n)) :=
    (mapM_eq_ok_iff_of_forall₂
      (hpieces.imp fun _ _ hn _ => hn.readElement_eq_ok_iff hop)).2 ⟨hfits, rfl⟩
  have hfree : ∀ piece ∈ pieces, ',' ∉ piece.toList :=
    forall_mem_left_of_forall₂ hpieces fun _ _ hn => hn.comma_notMem
  rw [bracketedOperand, heq]
  cases hpieces with
  | nil => exact absurd rfl ((ne_nil_iff_of_forall₂ h).1 hne)
  | cons hn hns =>
    cases hns with
    | nil => simp [readOperand, hn.comma_notMem]
    | cons hm hms =>
      rw [readOperand_intercalate rfl (by simp) hfree, readOperand, hread]
      simp [Except.map]

variable {c : Catalog} {settings : PlanSettings} {o : Options} {field : String}

/-- A list of integers in brackets is searched as exactly these integers, on the document or in a
subdocument, and so is its negation on a field that has a name. One integer alone is searched as the
text in brackets. -/
theorem compile_bracketed (hkind : c.kind field = .integer) (hdistance : o.distance = none)
    (hsort : o.sort = none) (hne : texts ≠ []) (h : List.Forall₂ Number.Written texts ns)
    (hfits : ∀ n ∈ ns, Number.FitsSigned n) :
    (Operator.split field = (field, none) →
      (compile c settings (.sole field (.single (bracketed texts)) o)).map Plan.terms =
        .ok [(bracketedOperand texts ns).equality field]) ∧
    (field ≠ "" → ∀ op : Operator, op.isNegation = true →
      (compile c settings
        (.sole (field ++ "__" ++ op.word) (.single (bracketed texts)) o)).map Plan.terms =
        .ok [.negation ((bracketedOperand texts ns).equality field)]) := by
  have hworded : (c.kind field).isWorded = false := by rw [hkind]; rfl
  have hplain : none ≠ some Operator.range := by simp
  refine ⟨fun hsplit => ?_, fun hfield op hop => ?_⟩
  · refine map_terms_compile_of_ok hdistance hsort ?_
    rw [searchTerm_of_equality hsplit hworded, hkind, readOperand_bracketed hne h hfits hplain]
    rfl
  · have hrange := Operator.ne_range_of_isNegation hop
    refine map_terms_compile_of_ok hdistance hsort ?_
    rw [searchTerm_of_negation (Operator.split_append_word hfield op) hop hworded, hkind,
      readOperand_bracketed hne h hfits hrange]
    rfl

/-- The least and the greatest integer of 64 bits, on a field of programs and on its negation. -/
theorem compile_bracketed_extremes :
    (compile { kinds := [("programs.code", .integer)]
               nested := ⟨["programs"], List.pairwise_singleton _ _⟩ } {}
      (.sole "programs.code" (.single "[-9223372036854775808, 9223372036854775807 ]")
        {})).map Plan.terms =
      .ok [.oneOf "programs.code" [.num (.int (-0x8000000000000000)),
        .num (.int 0x7fffffffffffffff)]] ∧
    (compile { kinds := [("programs.code", .integer)]
               nested := ⟨["programs"], List.pairwise_singleton _ _⟩ } {}
      (.sole "programs.code__ne" (.single "[-9223372036854775808, 9223372036854775807 ]")
        {})).map Plan.terms =
      .ok [.negation (.oneOf "programs.code" [.num (.int (-0x8000000000000000)),
        .num (.int 0x7fffffffffffffff)])] := by
  have hvalue : "[-9223372036854775808, 9223372036854775807 ]" =
      bracketed ["-9223372036854775808", " 9223372036854775807 "] := by decide
  have hpath : "programs.code__ne" = "programs.code" ++ "__" ++ Operator.ne.word := by decide
  have hwritten : List.Forall₂ Number.Written ["-9223372036854775808", " 9223372036854775807 "]
      [-0x8000000000000000, 0x7fffffffffffffff] :=
    .cons (Number.numeral_toString _).written
      (.cons ⟨_, Number.numeral_toString _, [' '], [' '], List.forall_mem_singleton.2 rfl,
        List.forall_mem_singleton.2 rfl, by decide⟩ .nil)
  rw [hvalue, hpath]
  exact ⟨(compile_bracketed (by decide) rfl rfl (by simp) hwritten (by decide)).1 (by decide),
    (compile_bracketed (by decide) rfl rfl (by simp) hwritten (by decide)).2 (by decide) .ne rfl⟩

/-- One integer in brackets is not searched as an integer, but as a text. A field without a name
has no negation, as there is no field before the word of the operator. -/
theorem not_integer_bracketed_single :
    (Number.Written "5" 5 ∧
      (compile { kinds := [("id", .integer)] } {}
        (.sole "id" (.single (bracketed ["5"])) {})).map Plan.terms =
        .ok [.equals "id" (.str "[5]")] ∧
      ¬∃ t, (compile { kinds := [("id", .integer)] } {}
          (.sole "id" (.single (bracketed ["5"])) {})).map Plan.terms = .ok [t] ∧
        (t = .equals "id" (.num (.int 5)) ∨ t = .oneOf "id" [.num (.int 5)])) ∧
    List.Forall₂ Number.Written ["1", "2"] [1, 2] ∧
      ({ kinds := [("", .integer)] } : Catalog).kind "" = .integer ∧
      (compile { kinds := [("", .integer)] } {}
        (.sole ("" ++ "__not") (.single (bracketed ["1", "2"])) {})).map Plan.terms =
        .ok [.oneOf "__not" [.str "1", .str "2"]] ∧
      (compile { kinds := [("", .integer)] } {}
        (.sole ("" ++ "__not") (.single (bracketed ["1", "2"])) {})).map Plan.terms ≠
        .ok [.negation (.oneOf "" [.num (.int 1), .num (.int 2)])] := by
  have hterms : (compile { kinds := [("id", .integer)] } {}
      (.sole "id" (.single (bracketed ["5"])) {})).map Plan.terms =
      .ok [.equals "id" (.str "[5]")] := by decide
  have hword : (compile { kinds := [("", .integer)] } {}
      (.sole ("" ++ "__not") (.single (bracketed ["1", "2"])) {})).map Plan.terms =
      .ok [.oneOf "__not" [.str "1", .str "2"]] := by decide
  refine ⟨⟨(Number.numeral_toString 5).written, hterms, ?_⟩, ?_, by decide, hword, ?_⟩
  · rintro ⟨t, ht, hcases⟩
    obtain rfl := List.singleton_inj.1 (Except.ok.inj (hterms.symm.trans ht))
    simp at hcases
  · exact .cons (Number.numeral_toString 1).written
      (.cons (Number.numeral_toString 2).written .nil)
  · rw [hword]
    simp

end FlatQuery
