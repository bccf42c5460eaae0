import FlatQuery.Query.Nested
import Mathlib.Data.List.Chain

/-!
# How predicates are built

What the builders of nested predicates can do, case by case. Cutting terms into runs loses and moves
nothing (`flatMap_termRuns`), each run is one of a single place (`IsRun`), and two neighbours could
not be joined (`isChain_termRuns`). Of a predicate, `nestedPredicate_cases` and
`jointPredicate_cases` say which clause it is, and for which terms.
-/

namespace FlatQuery

/-! ## Runs -/

section

variable {t : Term} {ts : List Term} {run : Place × List Term} {runs : List (Place × List Term)}

/-- A term joins the first run, or makes one of its own where it cannot. -/
theorem consRun_cases (t : Term) (runs : List (Place × List Term)) :
    (∃ terms rest, runs = (t.place, terms) :: rest ∧ t.place ≠ .alone ∧
        consRun t runs = (t.place, t :: terms) :: rest) ∨
      ((∀ first ∈ runs.head?, t.place = first.1 → t.place = .alone) ∧
        consRun t runs = (t.place, [t]) :: runs) := by
  match runs with
  | [] => exact Or.inr ⟨by simp, rfl⟩
  | (place, terms) :: rest =>
    unfold consRun
    dsimp only
    split
    · rename_i hjoin
      obtain ⟨rfl, halone⟩ := hjoin
      exact Or.inl ⟨terms, rest, rfl, halone, rfl⟩
    · rename_i hjoin
      refine Or.inr ⟨?_, rfl⟩
      rw [List.head?_cons]
      rintro first ⟨⟩ hplace
      by_contra halone
      exact hjoin ⟨hplace.symm, fun heq => halone (hplace.trans heq)⟩

theorem termRuns_cons (t : Term) (ts : List Term) :
    termRuns (t :: ts) = consRun t (termRuns ts) := rfl

/-! ### Order -/

theorem flatMap_consRun (t : Term) (runs : List (Place × List Term)) :
    (consRun t runs).flatMap Prod.snd = t :: runs.flatMap Prod.snd := by
  obtain ⟨terms, rest, rfl, -, hcons⟩ | ⟨-, hcons⟩ := consRun_cases t runs
  · rw [hcons]
    rfl
  · rw [hcons]
    rfl

/-- The runs are the terms, in their order. -/
theorem flatMap_termRuns (ts : List Term) : (termRuns ts).flatMap Prod.snd = ts := by
  induction ts with
  | nil => rfl
  | cons t ts ih => rw [termRuns_cons, flatMap_consRun, ih]

theorem mem_of_mem_termRuns (hrun : run ∈ termRuns ts) (ht : t ∈ run.2) : t ∈ ts := by
  rw [← flatMap_termRuns ts]
  exact List.mem_flatMap.2 ⟨run, hrun, ht⟩

/-! ### Single runs -/

/-- The terms of a run stand in one place; a term that stands alone is a run by itself. -/
structure IsRun (run : Place × List Term) : Prop where
  filled : run.2 ≠ []
  place : ∀ t ∈ run.2, t.place = run.1
  single : run.1 = .alone → ∃ t, run.2 = [t]

theorem isRun_singleton (t : Term) : IsRun (t.place, [t]) :=
  ⟨List.cons_ne_nil _ _, by simp, fun _ => ⟨t, rfl⟩⟩

theorem IsRun.cons {terms : List Term} (h : IsRun (t.place, terms)) (halone : t.place ≠ .alone) :
    IsRun (t.place, t :: terms) :=
  ⟨List.cons_ne_nil _ _, List.forall_mem_cons.2 ⟨rfl, h.place⟩, fun heq => absurd heq halone⟩

theorem isRun_of_mem_consRun (h : ∀ run ∈ runs, IsRun run) : ∀ run ∈ consRun t runs, IsRun run := by
  obtain ⟨terms, rest, rfl, halone, hcons⟩ | ⟨-, hcons⟩ := consRun_cases t runs
  · rw [List.forall_mem_cons] at h
    rw [hcons, List.forall_mem_cons]
    exact ⟨h.1.cons halone, h.2⟩
  · rw [hcons, List.forall_mem_cons]
    exact ⟨isRun_singleton t, h⟩

theorem isRun_of_mem_termRuns : ∀ run ∈ termRuns ts, IsRun run := by
  induction ts with
  | nil => simp [termRuns]
  | cons t ts ih =>
    rw [termRuns_cons]
    exact isRun_of_mem_consRun ih

/-! ### Neighbours -/

theorem isChain_consRun (h : runs.IsChain fun r s => r.1 = s.1 → r.1 = .alone) :
    (consRun t runs).IsChain fun r s => r.1 = s.1 → r.1 = .alone := by
  obtain ⟨terms, rest, rfl, -, hcons⟩ | ⟨hfirst, hcons⟩ := consRun_cases t runs
  · -- what joins the first run leaves its place as it is
    rw [List.isChain_cons] at h
    rw [hcons, List.isChain_cons]
    exact h
  · rw [hcons, List.isChain_cons]
    exact ⟨hfirst, h⟩

/-- Neighbouring runs stand in different places, unless they are terms that stand alone. -/
theorem isChain_termRuns (ts : List Term) :
    (termRuns ts).IsChain fun r s => r.1 = s.1 → r.1 = .alone := by
  induction ts with
  | nil => exact .nil
  | cons t ts ih =>
    rw [termRuns_cons]
    exact isChain_consRun ih

end

/-! ## Predicates -/

/-- Only a range with one interval has another leaf where it stands alone. -/
theorem filterLeaf_cases (t : Term) :
    t.filterLeaf = t.leaf ∨
      ∃ field interval, t = .inRange field [interval] ∧ t.filterLeaf = .inRange field interval := by
  cases t with
  | inRange field intervals =>
    match intervals with
    | [interval] => exact Or.inr ⟨field, interval, rfl, rfl⟩
    | [] | _ :: _ :: _ => exact Or.inl rfl
  | _ => exact Or.inl rfl

/-- Terms of one kind are all negations or none is. -/
theorem isNegation_of_sameKind {ts : List Term} (h : sameKind ts = true) {t u : Term}
    (ht : t ∈ ts) (hu : u ∈ ts) : t.isNegation = u.isNegation := by
  have hkind : ∀ x : Term, x.isNegation = decide (x.kind = .negation) := by
    intro x
    cases x <;> rfl
  cases ts with
  | nil => cases ht
  | cons first ts =>
    have hall : ∀ x ∈ first :: ts, x.kind = first.kind := by
      simpa [sameKind] using h
    rw [hkind, hkind, hall t ht, hall u hu]

/-- None of the terms needs a filter, and all of them are negated or none is. -/
def Unfiltered (negated : Bool) (ts : List Term) : Prop :=
  ∀ t ∈ ts, t.isNegation = negated ∧ t.needsFilter = false

theorem jointPredicate_cases (ts : List Term) :
    (Unfiltered true ts ∧ jointPredicate ts = .ofMustNot (.listed (ts.map Term.leaf))) ∨
      (Unfiltered false ts ∧ jointPredicate ts = .ofMust (.listed (ts.map Term.leaf))) ∨
      (¬Unfiltered true ts ∧ ((∃ t ∈ ts, t.needsFilter = true) ∨ sameKind ts = false) ∧
        jointPredicate ts = .ofFilter (.listed (filterItems ts))) := by
  have hnegated : (ts.all Term.isNegation && !ts.any Term.needsFilter) = true ↔
      Unfiltered true ts := by
    rw [Bool.and_eq_true, List.all_eq_true, Bool.not_eq_true', List.any_eq_false, ← forall₂_and]
    simp only [Unfiltered, Bool.not_eq_true]
  unfold jointPredicate
  dsimp only
  split
  · rename_i hall
    exact Or.inl ⟨hnegated.1 hall, rfl⟩
  · rename_i hall
    rw [hnegated] at hall
    split
    · rename_i hfilter
      rw [Bool.or_eq_true, List.any_eq_true, Bool.not_eq_true'] at hfilter
      exact Or.inr (Or.inr ⟨hall, hfilter, rfl⟩)
    · rename_i hfilter
      rw [Bool.or_eq_true, not_or, Bool.not_eq_true, Bool.not_eq_true', Bool.not_eq_false,
        List.any_eq_false] at hfilter
      obtain ⟨hfilter, hsame⟩ := hfilter
      have hfilter : ∀ t ∈ ts, t.needsFilter = false := by simpa using hfilter
      refine Or.inr (Or.inl ⟨fun t ht => ⟨?_, hfilter t ht⟩, rfl⟩)
      -- were one term a negation, all of them would be
      by_contra hnegation
      refine hall fun u hu => ⟨?_, hfilter u hu⟩
      rw [isNegation_of_sameKind hsame hu ht]
      simpa using hnegation

theorem nestedPredicate_cases (ts : List Term) :
    (∃ t, ts = [t] ∧ t.needsFilter = true ∧ t.isNegation = false ∧
        nestedPredicate ts = (.filter, t.filterLeaf)) ∨
      (¬(∃ t, ts = [t] ∧ t.needsFilter = true ∧ t.isNegation = false) ∧
        nestedPredicate ts = (.query, jointPredicate ts)) := by
  match ts with
  | [] => exact Or.inr ⟨by simp, rfl⟩
  | [t] =>
    unfold nestedPredicate
    dsimp only
    split
    · rename_i hfilter
      rw [Bool.and_eq_true, Bool.not_eq_true'] at hfilter
      exact Or.inl ⟨t, rfl, hfilter.1, hfilter.2, rfl⟩
    · rename_i hfilter
      rw [Bool.and_eq_true, Bool.not_eq_true'] at hfilter
      refine Or.inr ⟨?_, rfl⟩
      rintro ⟨u, hu, hneeds⟩
      obtain rfl := List.singleton_inj.1 hu
      exact hfilter hneeds
  | t₁ :: t₂ :: ts => exact Or.inr ⟨by simp, rfl⟩

end FlatQuery
