import FlatQuery.Text.Split

/-!
# Pieces of a text

What stands between separators holds none (`notMem_of_mem_splitOn`), and a text without a separator
is its only piece (`splitOn_of_notMem`). The pieces are those of `List.splitOn` on characters
(`map_toList_splitOn`), and the first of them begins the text (`exists_splitOn_eq`). Joined texts
come apart again (`splitOn_intercalate`). A text that is cut is cut at its first separator
(`eq_of_cut`), or at the first or last place where the separator stands twice in a row
(`cutPair_eq_some`, `cutLastPair_eq_some`, `cutPair_append`, `cutLastPair_append`).
-/

namespace FlatQuery.Text

theorem pieces_cons_of_false {p : Char → Bool} {c : Char} (h : p c = false) (cs : List Char) :
    ∃ piece rest, pieces p cs = piece :: rest ∧ pieces p (c :: cs) = (c :: piece) :: rest := by
  cases hpieces : pieces p cs with
  | nil => exact absurd hpieces (pieces_ne_nil p cs)
  | cons piece rest => exact ⟨piece, rest, rfl, by simp [pieces, h, hpieces]⟩

theorem pieces_cons_of_true {p : Char → Bool} {c : Char} (h : p c = true) (cs : List Char) :
    pieces p (c :: cs) = [] :: pieces p cs := by
  rw [pieces, if_pos h]

theorem forall_mem_pieces (p : Char → Bool) (cs : List Char) :
    ∀ piece ∈ pieces p cs, ∀ c ∈ piece, p c = false := by
  induction cs with
  | nil => simp [pieces]
  | cons c cs ih =>
    by_cases h : p c = true
    · rw [pieces_cons_of_true h, List.forall_mem_cons]
      exact ⟨by simp, ih⟩
    · rw [Bool.not_eq_true] at h
      obtain ⟨piece, rest, hpieces, hcons⟩ := pieces_cons_of_false h cs
      rw [hpieces, List.forall_mem_cons] at ih
      rw [hcons, List.forall_mem_cons, List.forall_mem_cons]
      exact ⟨⟨h, ih.1⟩, ih.2⟩

theorem pieces_of_forall {p : Char → Bool} {cs : List Char} (h : ∀ c ∈ cs, p c = false) :
    pieces p cs = [cs] := by
  induction cs with
  | nil => rfl
  | cons c cs ih =>
    rw [List.forall_mem_cons] at h
    obtain ⟨piece, rest, hpieces, hcons⟩ := pieces_cons_of_false h.1 cs
    rw [ih h.2, List.cons.injEq] at hpieces
    rw [hcons, ← hpieces.1, ← hpieces.2]

theorem notMem_of_mem_splitOn {s piece : String} {sep : Char} (h : piece ∈ splitOn s sep) :
    sep ∉ piece.toList := by
  obtain ⟨cs, hcs, rfl⟩ := List.mem_map.1 h
  intro hsep
  rw [String.toList_ofList] at hsep
  simpa using forall_mem_pieces _ _ cs hcs sep hsep

theorem splitOn_of_notMem {s : String} {sep : Char} (h : sep ∉ s.toList) :
    splitOn s sep = [s] := by
  have hnone : ∀ c ∈ s.toList, (c == sep) = false := by
    intro c hc
    rw [beq_eq_false_iff_ne]
    exact fun heq => h (heq ▸ hc)
  rw [splitOn, pieces_of_forall hnone, List.map_singleton, String.ofList_toList]

/-! ## Pieces of a list of characters -/

theorem pieces_eq_splitOnP (p : Char → Bool) (cs : List Char) : pieces p cs = cs.splitOnP p := by
  induction cs with
  | nil => rfl
  | cons c cs ih =>
    rw [List.splitOnP_cons_eq_if_modifyHead, ← ih]
    by_cases h : p c = true
    · rw [if_pos h, pieces_cons_of_true h]
    · rw [if_neg h]
      obtain ⟨piece, rest, hpieces, hcons⟩ := pieces_cons_of_false (by simpa using h) cs
      rw [hcons, hpieces, List.modifyHead_cons]

theorem map_toList_splitOn (s : String) (sep : Char) :
    (splitOn s sep).map String.toList = s.toList.splitOn sep := by
  rw [splitOn, List.splitOn_eq_splitOnP, pieces_eq_splitOnP, List.map_map]
  refine (List.map_congr_left fun cs _ => ?_).trans (List.map_id _)
  exact String.toList_ofList

/-- The first piece of a text is what it begins with. -/
theorem exists_splitOn_eq (s : String) (sep : Char) :
    ∃ head rest, splitOn s sep = head :: rest ∧ head.toList <+: s.toList := by
  have hjoined : [sep].intercalate ((splitOn s sep).map String.toList) = s.toList := by
    rw [map_toList_splitOn, List.intercalate_splitOn]
  cases hsteps : splitOn s sep with
  | nil => exact absurd (List.map_eq_nil_iff.1 hsteps) (pieces_ne_nil _ _)
  | cons head rest =>
    refine ⟨head, rest, rfl, ?_⟩
    rw [hsteps, List.map_cons] at hjoined
    rw [← hjoined]
    cases rest with
    | nil => simp
    | cons next rest =>
      rw [List.map_cons, List.intercalate_cons_cons, List.append_assoc]
      exact List.prefix_append _ _

/-- Texts without separators are the pieces of what they are joined to. -/
theorem splitOn_intercalate {joint : String} {sep : Char} (hjoint : joint.toList = [sep])
    {texts : List String} (hne : texts ≠ []) (hfree : ∀ text ∈ texts, sep ∉ text.toList) :
    splitOn (joint.intercalate texts) sep = texts := by
  rw [← List.map_inj_right fun _ _ => String.toList_inj.1, map_toList_splitOn,
    String.toList_intercalate, hjoint]
  apply List.splitOn_intercalate
  · simpa using hfree
  · simpa using hne

/-! ## Cutting at the first separator -/

theorem cut_eq_none_iff {sep : Char} {cs : List Char} : cut sep cs = none ↔ sep ∉ cs := by
  induction cs with
  | nil => simp [cut]
  | cons c cs ih =>
    unfold cut
    split
    · rename_i h
      simp [h]
    · rename_i h
      rw [Option.map_eq_none_iff, ih, List.mem_cons, or_iff_right (Ne.symm h)]

/-- The text is cut at its first separator. -/
theorem eq_of_cut {sep : Char} {cs a b : List Char} (h : cut sep cs = some (a, b)) :
    cs = a ++ sep :: b ∧ sep ∉ a := by
  induction cs generalizing a with
  | nil => cases h
  | cons c cs ih =>
    unfold cut at h
    split at h
    · rename_i hc
      cases h
      exact ⟨by rw [hc, List.nil_append], List.not_mem_nil⟩
    · rename_i hc
      obtain ⟨⟨a', b'⟩, hcut, heq⟩ := Option.map_eq_some_iff.1 h
      cases heq
      obtain ⟨rfl, hfree⟩ := ih hcut
      exact ⟨rfl, List.not_mem_cons_of_ne_of_not_mem (Ne.symm hc) hfree⟩

theorem cut_append {sep : Char} {a : List Char} (h : sep ∉ a) (b : List Char) :
    cut sep (a ++ sep :: b) = some (a, b) := by
  induction a with
  | nil => simp [cut]
  | cons c a ih =>
    rw [List.mem_cons, not_or] at h
    rw [List.cons_append, cut, if_neg (Ne.symm h.1), ih h.2]
    rfl

theorem cutPair_eq_some {sep : Char} {cs a b : List Char} (h : cutPair sep cs = some (a, b)) :
    cs = a ++ sep :: sep :: b := by
  induction cs generalizing a with
  | nil => cases h
  | cons c cs ih =>
    unfold cutPair at h
    split at h
    · rename_i hpair
      obtain ⟨rfl, hhead⟩ := hpair
      obtain ⟨rest, rfl⟩ := List.head?_eq_some_iff.1 hhead
      cases h
      rfl
    · obtain ⟨⟨a', b'⟩, hcut, heq⟩ := Option.map_eq_some_iff.1 h
      cases heq
      rw [ih hcut]
      rfl

theorem cutLastPair_eq_some {sep : Char} {cs a b : List Char}
    (h : cutLastPair sep cs = some (a, b)) : cs = a ++ sep :: sep :: b := by
  obtain ⟨⟨b', a'⟩, hcut, heq⟩ := Option.map_eq_some_iff.1 h
  cases heq
  have hreverse := congrArg List.reverse (cutPair_eq_some hcut)
  simpa using hreverse

theorem cutPair_append {sep : Char} {a : List Char} (h : sep ∉ a) (b : List Char) :
    cutPair sep (a ++ sep :: sep :: b) = some (a, b) := by
  induction a with
  | nil => simp [cutPair]
  | cons c a ih =>
    rw [List.mem_cons, not_or] at h
    rw [List.cons_append, cutPair, if_neg fun hpair => h.1 hpair.1.symm, ih h.2]
    rfl

theorem cutLastPair_append {sep : Char} {b : List Char} (h : sep ∉ b) (a : List Char) :
    cutLastPair sep (a ++ sep :: sep :: b) = some (a, b) := by
  have hreverse : (a ++ sep :: sep :: b).reverse = b.reverse ++ sep :: sep :: a.reverse := by simp
  rw [cutLastPair, hreverse, cutPair_append (by simpa using h)]
  simp

/-! ## Joining -/

theorem mem_intercalate {α : Type} {sep : List α} {xs : List (List α)} {a : α}
    (h : a ∈ sep.intercalate xs) : a ∈ sep ∨ ∃ x ∈ xs, a ∈ x := by
  induction xs with
  | nil => simp at h
  | cons x xs ih =>
    cases xs with
    | nil => exact Or.inr ⟨x, List.mem_singleton_self x, by simpa using h⟩
    | cons y xs =>
      rw [List.intercalate_cons_cons, List.mem_append, List.mem_append] at h
      rcases h with (h | h) | h
      · exact Or.inr ⟨x, List.mem_cons_self, h⟩
      · exact Or.inl h
      · exact (ih h).imp_right fun ⟨z, hz, ha⟩ => ⟨z, List.mem_cons_of_mem _ hz, ha⟩

end FlatQuery.Text
