import FlatQuery.Text.Split
import Mathlib.Data.List.TakeWhile

/-!
# Stripped texts

`Padded` says what stripping takes away: a text with characters of a class around it is stripped to
what is between them, as long as that has none itself (`Padded.strip`). A text with a pair of
characters that stay, as the dots of an interval do, is stripped on each side of the pair by itself
(`strip_append_pair`).
-/

namespace FlatQuery.Text

/-- The characters `core` with characters of the class `p` around them. -/
def Padded (p : Char → Bool) (core cs : List Char) : Prop :=
  ∃ before after, (∀ c ∈ before, p c = true) ∧ (∀ c ∈ after, p c = true) ∧
    cs = before ++ core ++ after

variable {p q : Char → Bool} {core cs : List Char}

/-! ## Padding -/

namespace Padded

theorem refl (p : Char → Bool) (cs : List Char) : Padded p cs cs :=
  ⟨[], [], by simp, by simp, by simp⟩

theorem mono (h : Padded p core cs) (hpq : ∀ c, p c = true → q c = true) : Padded q core cs := by
  obtain ⟨before, after, hbefore, hafter, rfl⟩ := h
  exact ⟨before, after, fun c hc => hpq c (hbefore c hc), fun c hc => hpq c (hafter c hc), rfl⟩

theorem reverse (h : Padded p core cs) : Padded p core.reverse cs.reverse := by
  obtain ⟨before, after, hbefore, hafter, rfl⟩ := h
  exact ⟨after.reverse, before.reverse, by simpa using hafter, by simpa using hbefore, by simp⟩

theorem cons (h : Padded p core cs) {c : Char} (hc : p c = true) : Padded p core (c :: cs) := by
  obtain ⟨before, after, hbefore, hafter, rfl⟩ := h
  exact ⟨c :: before, after, List.forall_mem_cons.2 ⟨hc, hbefore⟩, hafter, rfl⟩

theorem concat (h : Padded p core cs) {c : Char} (hc : p c = true) : Padded p core (cs ++ [c]) := by
  simpa using (h.reverse.cons hc).reverse

theorem mem (h : Padded p core cs) {c : Char} (hc : c ∈ cs) : p c = true ∨ c ∈ core := by
  obtain ⟨before, after, hbefore, hafter, rfl⟩ := h
  rw [List.mem_append, List.mem_append] at hc
  rcases hc with (hc | hc) | hc
  · exact Or.inl (hbefore c hc)
  · exact Or.inr hc
  · exact Or.inl (hafter c hc)

/-- What is dropped in front is around `core` only. -/
theorem dropWhile (h : Padded p core cs) (hpq : ∀ c, p c = true → q c = true)
    (hcore : ∀ c ∈ core, q c = false) : Padded p core (cs.dropWhile q) := by
  obtain ⟨before, after, hbefore, hafter, rfl⟩ := h
  rw [List.append_assoc, List.dropWhile_append_of_pos fun c hc => hpq c (hbefore c hc)]
  cases core with
  | nil =>
    rw [List.nil_append, List.dropWhile_eq_nil_iff.2 fun c hc => hpq c (hafter c hc)]
    exact .refl p []
  | cons c core =>
    have hc : ¬q c = true := by simp [hcore c List.mem_cons_self]
    rw [List.cons_append, List.dropWhile_cons_of_neg hc]
    exact ⟨[], after, by simp, hafter, rfl⟩

end Padded

/-! ## Stripping -/

theorem dropWhile_of_forall (h : ∀ c ∈ cs, p c = false) : cs.dropWhile p = cs := by
  rw [List.dropWhile_eq_self_iff]
  intro hlength
  rw [h _ (List.getElem_mem hlength)]
  exact Bool.false_ne_true

theorem Padded.strip (h : Padded p core cs) (hcore : ∀ c ∈ core, p c = false) :
    strip p cs = core := by
  obtain ⟨before, after, hbefore, hafter, rfl⟩ := h
  have hafter : ∀ c ∈ after.reverse, p c = true := by simpa using hafter
  have hback : (core ++ after).reverse.dropWhile p = core.reverse := by
    rw [List.reverse_append, List.dropWhile_append_of_pos hafter, dropWhile_of_forall]
    simpa using hcore
  rw [Text.strip, List.append_assoc, List.dropWhile_append_of_pos hbefore]
  cases core with
  | nil =>
    -- nothing stays, so the first pass goes on to the end
    have hnone : after.dropWhile p = [] := List.dropWhile_eq_nil_iff.2 (by simpa using hafter)
    rw [List.nil_append, hnone]
    rfl
  | cons c core =>
    rw [List.cons_append, List.dropWhile_cons_of_neg (by simp [hcore c List.mem_cons_self]),
      ← List.cons_append, hback, List.reverse_reverse]

theorem Padded.stripString {text : String} (h : Padded p core text.toList)
    (hcore : ∀ c ∈ core, p c = false) : stripString p text = String.ofList core := by
  rw [Text.stripString, h.strip hcore]

theorem dropWhile_append_cons {c : Char} (hc : p c = false) (a b : List Char) :
    (a ++ c :: b).dropWhile p = a.dropWhile p ++ c :: b := by
  rw [List.dropWhile_append, List.dropWhile_cons_of_neg (by simp [hc])]
  split
  · rename_i hempty
    rw [List.isEmpty_iff.1 hempty, List.nil_append]
  · rfl

/-- A pair of characters that stay keeps the two sides apart. -/
theorem strip_append_pair {c : Char} (hc : p c = false) (a b : List Char) :
    Text.strip p (a ++ c :: c :: b) =
      a.dropWhile p ++ c :: c :: (b.reverse.dropWhile p).reverse := by
  have hreverse : (a.dropWhile p ++ c :: c :: b).reverse =
      b.reverse ++ c :: c :: (a.dropWhile p).reverse := by simp
  rw [Text.strip, dropWhile_append_cons hc, hreverse, dropWhile_append_cons hc]
  simp

end FlatQuery.Text
