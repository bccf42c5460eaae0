import FlatQuery.Query.Combine
import FlatQuery.Query.Nested

/-!
# When clauses and terms hold

A search puts a clause to each document. What a document answers to a question about one field is
left open (`Atom`); `Clause.holds` says what a tree of clauses makes of the answers, and
`Term.holds` what a term means without any tree. A `Candidate` is a document with its subdocuments,
each of which answers for itself.
-/

namespace FlatQuery

/-! ## Answers of a document -/

/-- A question about one field. -/
inductive Atom where
  | equals (field : String) (value : Json)
  | oneOf (field : String) (values : List Json)
  | inRange (field : String) (interval : Interval)
  | wildcard (field pattern : String)
  | common (field query : String)
  | near (field distance : String) (point : GeoPoint)
deriving DecidableEq, Repr

/-- Truth values for the parts of a clause that are no combinations of others. -/
structure Valuation where
  atom : Atom → Bool
  nested : NestedQuery → Bool

/-! ## Clauses -/

namespace Clause

mutual

/-- Whether a clause holds. A boolean clause without clauses in its slots does, a disjunction of no
clauses does not. -/
def holds (v : Valuation) : Clause → Bool
  | matchAll => true
  | equals field value => v.atom (.equals field value)
  | oneOf field values => v.atom (.oneOf field values)
  | inRange field interval => v.atom (.inRange field interval)
  | any clauses => anyHolds v clauses
  | wildcard field pattern => v.atom (.wildcard field pattern)
  | common field query => v.atom (.common field query)
  | near field distance point => v.atom (.near field distance point)
  | nested path context predicate size => v.nested { path, context, predicate, size }
  | bool must filter mustNot =>
    slotAllHold v must && slotAllHold v filter && !slotAnyHolds v mustNot
termination_by structural c => c

def anyHolds (v : Valuation) : List Clause → Bool
  | [] => false
  | c :: cs => c.holds v || anyHolds v cs
termination_by structural cs => cs

def allHold (v : Valuation) : List Clause → Bool
  | [] => true
  | c :: cs => c.holds v && allHold v cs
termination_by structural cs => cs

def slotAnyHolds (v : Valuation) : Slot Clause → Bool
  | .empty => false
  | .one c => c.holds v
  | .many cs => anyHolds v cs
termination_by structural slot => slot

def slotAllHold (v : Valuation) : Slot Clause → Bool
  | .empty => true
  | .one c => c.holds v
  | .many cs => allHold v cs
termination_by structural slot => slot

end

variable (v : Valuation)

theorem anyHolds_iff (cs : List Clause) : anyHolds v cs = true ↔ ∃ c ∈ cs, c.holds v = true := by
  induction cs with
  | nil => simp [anyHolds]
  | cons c cs ih => simp [anyHolds, ih]

theorem allHold_iff (cs : List Clause) : allHold v cs = true ↔ ∀ c ∈ cs, c.holds v = true := by
  induction cs with
  | nil => simp [allHold]
  | cons c cs ih => simp [allHold, ih]

theorem slotAnyHolds_iff (slot : Slot Clause) :
    slotAnyHolds v slot = true ↔ ∃ c ∈ slot.toList, c.holds v = true := by
  cases slot <;> simp [slotAnyHolds, Slot.toList, anyHolds_iff]

theorem slotAllHold_iff (slot : Slot Clause) :
    slotAllHold v slot = true ↔ ∀ c ∈ slot.toList, c.holds v = true := by
  cases slot <;> simp [slotAllHold, Slot.toList, allHold_iff]

theorem holds_any_iff (cs : List Clause) :
    (any cs).holds v = true ↔ ∃ c ∈ cs, c.holds v = true := by
  rw [holds, anyHolds_iff]

/-- A boolean clause holds iff all that must hold does, and nothing that must not. -/
theorem holds_bool_iff (must filter mustNot : Slot Clause) :
    (bool must filter mustNot).holds v = true ↔
      (∀ c ∈ must.toList, c.holds v = true) ∧ (∀ c ∈ filter.toList, c.holds v = true) ∧
        ∀ c ∈ mustNot.toList, c.holds v = false := by
  rw [holds, Bool.and_eq_true, Bool.and_eq_true, slotAllHold_iff, slotAllHold_iff, and_assoc,
    Bool.not_eq_true', ← Bool.not_eq_true, slotAnyHolds_iff]
  simp

theorem holds_ofMust_iff (slot : Slot Clause) :
    (ofMust slot).holds v = true ↔ ∀ c ∈ slot.toList, c.holds v = true := by
  rw [ofMust, holds_bool_iff]
  simp [Slot.toList]

theorem holds_ofFilter_iff (slot : Slot Clause) :
    (ofFilter slot).holds v = true ↔ ∀ c ∈ slot.toList, c.holds v = true := by
  rw [ofFilter, holds_bool_iff]
  simp [Slot.toList]

theorem holds_ofMustNot_iff (slot : Slot Clause) :
    (ofMustNot slot).holds v = true ↔ ∀ c ∈ slot.toList, c.holds v = false := by
  rw [ofMustNot, holds_bool_iff]
  simp [Slot.toList]

theorem holds_clause (q : NestedQuery) : q.clause.holds v = v.nested q := by
  rw [NestedQuery.clause, holds]

/-! ### Joining -/

/-- An item that wraps a slot says what the slot says, also if it is left out for being empty. -/
theorem forall_mem_slotItem_iff {wrap : Slot Clause → Clause} {slot : Slot Clause} {b : Bool}
    (h : (wrap slot).holds v = true ↔ ∀ c ∈ slot.toList, c.holds v = b) :
    (∀ c ∈ slotItem wrap slot, c.holds v = true) ↔ ∀ c ∈ slot.toList, c.holds v = b := by
  unfold slotItem
  split
  · rename_i hempty
    simp [(Slot.isEmpty_iff_toList slot).1 hempty]
  · simpa using h

/-- What is joined holds iff all of its parts do. -/
theorem holds_combine_iff (standard : Clause) (queries : List NestedQuery) :
    (combine standard queries).holds v = true ↔
      standard.holds v = true ∧ ∀ q ∈ queries, v.nested q = true := by
  have hnested : (∀ c ∈ queries.map NestedQuery.clause, c.holds v = true) ↔
      ∀ q ∈ queries, v.nested q = true := by
    simp [holds_clause]
  unfold combine
  split
  · rename_i hempty
    simp [List.isEmpty_iff.1 hempty]
  · cases standard with
    | matchAll => rw [holds_ofFilter_iff, Slot.toList_ofList, hnested, holds]; simp
    | any clauses =>
      rw [holds_ofFilter_iff, Slot.toList, List.forall_mem_cons, hnested]
    | bool must filter mustNot =>
      rw [holds_ofFilter_iff, Slot.toList, holds_bool_iff]
      simp only [List.forall_mem_append, hnested,
        forall_mem_slotItem_iff v (holds_ofMust_iff v must),
        forall_mem_slotItem_iff v (holds_ofMustNot_iff v mustNot)]
      constructor
      · rintro ⟨⟨⟨hfilter, hqueries⟩, hmust⟩, hmustNot⟩
        exact ⟨⟨hmust, hfilter, hmustNot⟩, hqueries⟩
      · rintro ⟨⟨hmust, hfilter, hmustNot⟩, hqueries⟩
        exact ⟨⟨⟨hfilter, hqueries⟩, hmust⟩, hmustNot⟩
    | _ => rw [holds_bool_iff, Slot.toList_ofList, hnested]; simp [Slot.toList]

end Clause

/-! ## Terms -/

/-- Whether a term holds where questions about fields are answered by `atom`. -/
def Term.holds (atom : Atom → Bool) : Term → Bool
  | equals field value => atom (.equals field value)
  | oneOf field values => atom (.oneOf field values)
  | inRange field intervals => intervals.any fun interval => atom (.inRange field interval)
  | negation inner => !inner.holds atom
  | wildcard field pattern => atom (.wildcard ("_" ++ field) pattern)
  | common field query => atom (.common field query)
  | near field point distance => atom (.near field distance point)

/-! ## Candidates -/

/-- A document that is searched. Its subdocuments have no subdocuments of their own. -/
structure Candidate where
  atom : Atom → Bool
  /-- The subdocuments of each nested path. -/
  subdocuments : String → List (Atom → Bool)

/-- The valuation of a subdocument. -/
def Valuation.ofAtoms (atom : Atom → Bool) : Valuation :=
  { atom, nested := fun _ => false }

/-- A nested clause holds iff one of the subdocuments of its path satisfies its predicate. -/
def Candidate.valuation (d : Candidate) : Valuation :=
  { atom := d.atom
    nested := fun q => (d.subdocuments q.path).any fun sub => q.predicate.holds (.ofAtoms sub) }

end FlatQuery
