import FlatQuery.Proofs.Pairs
import FlatQuery.Proofs.ParamTerms

/-!
# Keys that are given again

A key of a listed kind may be given once for each text, or once with the texts joined by commas: the
plan is the same, or the rejection is (`compile_repeated`). The two requests have the same options
(`filter_joinAfter`) and the same parameters but for the value under the key
(`textsOf_joinAfter_self`, `textsOf_joinAfter_of_ne`), and that value is read alike
(`readOperand_intercalate`).
-/

namespace FlatQuery

/-! ## Parameters -/

/-- What stands under a key after its first text stands there once, joined. -/
def joinAfter (key text : String) (after : List (String × String)) : List (String × String) :=
  (key, ",".intercalate (text :: textsOf key after)) :: after.filter fun pair => pair.1 ≠ key

variable {key text : String} {before after : List (String × String)}

theorem textsOf_filter_self (key : String) (pairs : List (String × String)) :
    textsOf key (pairs.filter fun pair => pair.1 ≠ key) = [] := by
  rw [textsOf_eq_nil_iff, List.mem_map]
  rintro ⟨pair, hpair, heq⟩
  simp [heq] at hpair

theorem textsOf_filter_of_ne {key other : String} (h : key ≠ other)
    (pairs : List (String × String)) :
    textsOf key (pairs.filter fun pair => pair.1 ≠ other) = textsOf key pairs := by
  rw [textsOf, List.filter_filter, textsOf]
  congr 2
  funext pair
  by_cases hpair : pair.1 = key
  · simp [hpair, h]
  · simp [hpair]

theorem eraseDups_map_joinAfter :
    ((before ++ joinAfter key text after).map Prod.fst).eraseDups =
      ((before ++ (key, text) :: after).map Prod.fst).eraseDups := by
  have hfilter : (after.filter fun pair => pair.1 ≠ key).map Prod.fst =
      (after.map Prod.fst).filter fun other => other ≠ key := by
    rw [List.filter_map]
    rfl
  rw [joinAfter, List.map_append, List.map_cons, hfilter, eraseDups_append_cons_filter,
    List.map_append, List.map_cons]

theorem textsOf_joinAfter_self (hfirst : key ∉ before.map Prod.fst) :
    textsOf key (before ++ joinAfter key text after) =
      [",".intercalate (text :: textsOf key after)] := by
  rw [textsOf_append, textsOf_eq_nil_iff.2 hfirst, joinAfter, textsOf_cons_self,
    textsOf_filter_self, List.nil_append]

theorem textsOf_joinAfter_of_ne {other : String} (h : other ≠ key) :
    textsOf other (before ++ joinAfter key text after) =
      textsOf other (before ++ (key, text) :: after) := by
  rw [textsOf_append, joinAfter, textsOf_cons_of_ne h.symm, textsOf_filter_of_ne h, textsOf_append,
    textsOf_cons_of_ne h.symm]

variable {c : Catalog} {flat : Bool}

section

variable (hkind : (c.kind (baseField key)).isListed = true)
  (hfirst : key ∉ before.map Prod.fst) (hagain : key ∈ after.map Prod.fst)
  (hfree : ∀ t ∈ text :: textsOf key after, ',' ∉ t.toList)

include hkind hfirst hagain hfree

/-- Under each key stands what makes the same condition. -/
theorem ofParam_joinAfter (other : String) :
    Condition.ofParam c flat
        ⟨other, .ofTexts (textsOf other (before ++ joinAfter key text after))⟩ =
      Condition.ofParam c flat
        ⟨other, .ofTexts (textsOf other (before ++ (key, text) :: after))⟩ := by
  by_cases hother : other = key
  · subst hother
    obtain ⟨second, rest, htexts⟩ : ∃ second rest, textsOf other after = second :: rest :=
      List.exists_cons_of_ne_nil (mt textsOf_eq_nil_iff.1 (not_not_intro hagain))
    have hrepeated : textsOf other (before ++ (other, text) :: after) = text :: second :: rest := by
      rw [textsOf_append, textsOf_eq_nil_iff.2 hfirst, textsOf_cons_self, htexts, List.nil_append]
    have hcomma : ',' ∈ (",".intercalate (text :: second :: rest)).toList := by simp
    rw [textsOf_joinAfter_self hfirst, hrepeated, ofParam_eq, ofParam_eq, Param.operand,
      Param.operand, htexts]
    dsimp only [ParamValue.ofTexts]
    rw [readOperand_intercalate hkind hcomma (htexts ▸ hfree)]
    rfl
  · rw [textsOf_joinAfter_of_ne hother]

theorem classify_joinAfter :
    classify c flat (gather (before ++ joinAfter key text after)) =
      classify c flat (gather (before ++ (key, text) :: after)) := by
  rw [classify, classify, gather, gather, eraseDups_map_joinAfter, List.mapM_map, List.mapM_map]
  congr 2
  funext other
  exact ofParam_joinAfter hkind hfirst hagain hfree other

end

/-! ## Requests -/

theorem ofPairs_eq (pairs : List (String × String)) :
    Request.ofPairs pairs = ((optionPairs pairs).foldlM Options.set {}).map fun o =>
      { params := gather (fieldPairs pairs), options := o } := by
  rw [Request.ofPairs, Request.foldlM_add, foldl_addParam]

/-- Parameters that are classified alike compile alike. -/
theorem compile_congr {settings : PlanSettings} {params params' : List Param} {o : Options}
    (h : classify c o.allPrograms params = classify c o.allPrograms params') :
    compile c settings { params, options := o } =
      compile c settings { params := params', options := o } := by
  rw [compile, compile]
  dsimp only
  rw [h]

/-- Joining makes no difference to a reading that passes over the key. -/
theorem filter_joinAfter {p : String × String → Bool} (h : ∀ pair, pair.1 = key → p pair = false) :
    (before ++ joinAfter key text after).filter p =
      (before ++ (key, text) :: after).filter p := by
  have hskip : ∀ text, ¬p (key, text) = true := fun text => by simp [h (key, text) rfl]
  have hrest : (after.filter fun pair => pair.1 ≠ key).filter p = after.filter p := by
    rw [List.filter_filter]
    refine List.filter_congr fun pair _ => ?_
    by_cases hpair : pair.1 = key
    · rw [h pair hpair, Bool.false_and]
    · rw [decide_eq_true hpair, Bool.and_true]
  rw [List.filter_append, joinAfter, List.filter_cons_of_neg (hskip _), hrest, List.filter_append,
    List.filter_cons_of_neg (hskip _)]

theorem mem_fieldPairs_of_mem (hoption : optionOf? key = none) (hne : key ≠ "")
    (hagain : key ∈ after.map Prod.fst) : key ∈ (fieldPairs after).map Prod.fst := by
  obtain ⟨pair, hpair, rfl⟩ := List.mem_map.1 hagain
  exact List.mem_map_of_mem (List.mem_filter.2 ⟨hpair, by simp [hne, hoption]⟩)

theorem fieldPairs_append_cons (hoption : optionOf? key = none) (hne : key ≠ "") (text : String)
    (before after : List (String × String)) :
    fieldPairs (before ++ (key, text) :: after) =
      fieldPairs before ++ (key, text) :: fieldPairs after := by
  rw [fieldPairs, List.filter_append, List.filter_cons_of_pos (by simp [hne, hoption]), fieldPairs,
    fieldPairs]

theorem fieldPairs_joinAfter (hoption : optionOf? key = none) (hne : key ≠ "")
    (hagain : key ∈ after.map Prod.fst) :
    fieldPairs (before ++ joinAfter key text after) =
      fieldPairs before ++ joinAfter key text (fieldPairs after) := by
  rw [joinAfter, fieldPairs_append_cons hoption hne, joinAfter,
    textsOf_fieldPairs (mem_fieldPairs_of_mem hoption hne hagain), fieldPairs, fieldPairs,
    List.filter_comm]
  rfl

/-- A key of the kinds that are listed, given once for each of two or more texts without commas,
says the same as the key given once, where it came first, with the texts joined by commas. -/
theorem compile_repeated {settings : PlanSettings} (hoption : optionOf? key = none)
    (hkind : c.kind (baseField key) = .string ∨ c.kind (baseField key) = .integer)
    (hfirst : key ∉ before.map Prod.fst) (hagain : key ∈ after.map Prod.fst)
    (hfree : ∀ t ∈ text :: textsOf key after, ',' ∉ t.toList) :
    (Request.ofPairs (before ++ (key, text) :: after) >>= compile c settings) =
      Request.ofPairs (before ++ (key, ",".intercalate (text :: textsOf key after)) ::
        after.filter fun pair => pair.1 ≠ key) >>= compile c settings := by
  have hlisted : (c.kind (baseField key)).isListed = true := by
    rcases hkind with h | h <;> rw [h] <;> rfl
  have hoptions : optionPairs (before ++ joinAfter key text after) =
      optionPairs (before ++ (key, text) :: after) :=
    filter_joinAfter fun pair hpair => by rw [hpair, hoption]; rfl
  rw [← joinAfter, ofPairs_eq, ofPairs_eq, hoptions]
  by_cases hempty : key = ""
  · have hfields : fieldPairs (before ++ joinAfter key text after) =
        fieldPairs (before ++ (key, text) :: after) :=
      filter_joinAfter fun pair hpair => by simp [hpair, hempty]
    rw [hfields]
  · have hagain' := mem_fieldPairs_of_mem hoption hempty hagain
    have hfirst' : key ∉ (fieldPairs before).map Prod.fst := fun h =>
      hfirst (List.map_subset _ (List.filter_subset_self _) h)
    rw [fieldPairs_joinAfter hoption hempty hagain, fieldPairs_append_cons hoption hempty]
    cases (optionPairs (before ++ (key, text) :: after)).foldlM Options.set {} with
    | error e => rfl
    | ok o =>
      refine (compile_congr (classify_joinAfter hlisted hfirst' hagain' ?_)).symm
      rwa [textsOf_fieldPairs hagain']

/-- Codes of programs given in two places, with another field and an option among them. -/
theorem compile_repeated_codes :
    (Request.ofPairs [("page", "2"), ("programs.code__not", "13"), ("state", "NY"),
        ("programs.code__not", " 14")] >>=
      compile { kinds := [("programs.code", .integer)]
                nested := ⟨["programs"], List.pairwise_singleton _ _⟩ } {}) =
      (Request.ofPairs [("page", "2"), ("programs.code__not", "13, 14"), ("state", "NY")] >>=
        compile { kinds := [("programs.code", .integer)]
                  nested := ⟨["programs"], List.pairwise_singleton _ _⟩ } {}) ∧
    (Request.ofPairs [("page", "2"), ("programs.code__not", "13"), ("state", "NY"),
        ("programs.code__not", " 14")] >>=
      compile { kinds := [("programs.code", .integer)]
                nested := ⟨["programs"], List.pairwise_singleton _ _⟩ } {}).map Plan.terms =
      .ok [.equals "state" (.str "NY"),
        .negation (.oneOf "programs.code" [.num (.int 13), .num (.int 14)])] := by
  have hjoined : [("page", "2"), ("programs.code__not", "13, 14"), ("state", "NY")] =
      [("page", "2")] ++ joinAfter "programs.code__not" "13"
        [("state", "NY"), ("programs.code__not", " 14")] := by decide
  have hfirst : "programs.code__not" ∉ [("page", "2")].map Prod.fst := by decide
  have hagain : "programs.code__not" ∈
      [("state", "NY"), ("programs.code__not", " 14")].map Prod.fst := by decide
  have hfree : ∀ t ∈ "13" :: textsOf "programs.code__not"
      [("state", "NY"), ("programs.code__not", " 14")], ',' ∉ t.toList := by decide
  refine ⟨?_, rfl⟩
  rw [hjoined]
  exact compile_repeated (by decide) (Or.inr (by decide)) hfirst hagain hfree

end FlatQuery
