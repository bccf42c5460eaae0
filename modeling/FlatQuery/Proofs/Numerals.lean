import FlatQuery.Proofs.Stripping
import FlatQuery.Query.Condition

/-!
# Numerals

A numeral is a number in decimal digits, with a sign or without one (`Numeral`); the text that a
number is printed as is one (`numeral_toString`). It is read as the number that it is, as long as 64
bits hold that (`Numeral.readInt?`). Blank characters around it are not part of it (`Written`), and
neither are brackets where it is an element of a list (`Numeral.trimElement`).
-/

namespace FlatQuery

namespace Number

/-! ## Digits and signs -/

/-- Decimal digits that count `n`; zeros may lead. -/
structure Spells (ds : List Char) (n : Nat) : Prop where
  filled : ds ≠ []
  digits : ∀ c ∈ ds, c.isDigit = true
  value : Nat.ofDigitChars 10 ds 0 = n

/-- The text is the number in decimal digits, with a sign in front of them or without one. -/
inductive Numeral : String → Int → Prop where
  | bare {ds : List Char} {n : Nat} (h : Spells ds n) : Numeral (String.ofList ds) n
  | plus {ds : List Char} {n : Nat} (h : Spells ds n) : Numeral (String.ofList ('+' :: ds)) n
  | minus {ds : List Char} {n : Nat} (h : Spells ds n) : Numeral (String.ofList ('-' :: ds)) (-n)

theorem spells_toDigits (n : Nat) : Spells (Nat.toDigits 10 n) n where
  filled := Nat.toDigits_ne_nil
  digits _ hc := Nat.isDigit_of_mem_toDigits (by decide) (by decide) hc
  value := Nat.ofDigitChars_ten_toDigits

/-- A number is printed as a numeral. -/
theorem numeral_toString (n : Int) : Numeral (toString n) n := by
  rw [Int.toString_eq_repr]
  cases n with
  | ofNat n =>
    have hbare := Numeral.bare (spells_toDigits n)
    rwa [← Nat.repr_eq_ofList_toDigits] at hbare
  | negSucc n =>
    have hminus := Numeral.minus (spells_toDigits (n + 1))
    rwa [String.ofList_cons, ← Nat.repr_eq_ofList_toDigits] at hminus

/-! ## Reading -/

theorem ofDigits_eq (ds : List Char) : ofDigits ds = Nat.ofDigitChars 10 ds 0 := by
  rw [Nat.ofDigitChars_eq_foldl, ofDigits]
  congr 1
  funext n c
  rw [Nat.mul_comm]
  rfl

namespace Spells

variable {ds : List Char} {n : Nat}

theorem readDigits? (h : Spells ds n) : readDigits? ds = some n := by
  have hread : (!ds.isEmpty && ds.all Char.isDigit) = true := by
    simp [h.filled, List.all_eq_true.2 h.digits]
  rw [Number.readDigits?, if_pos hread, ofDigits_eq, h.value]

theorem takeSign (h : Spells ds n) : takeSign ds = (false, ds) := by
  unfold Number.takeSign
  split
  · exact absurd (h.digits '-' List.mem_cons_self) (by decide)
  · exact absurd (h.digits '+' List.mem_cons_self) (by decide)
  · rfl

theorem readInt? (h : Spells ds n) {text : String} {negative : Bool}
    (htake : Number.takeSign text.toList = (negative, ds)) {m : Int}
    (hm : (if negative then -(n : Int) else n) = m) :
    readInt? text = if FitsSigned m then some m else none := by
  rw [Number.readInt?, htake]
  dsimp only
  rw [h.readDigits?, Option.bind_eq_bind, Option.bind_some, hm]

end Spells

variable {text : String} {n : Int}

/-- A numeral is read as its number, if 64 bits hold it. -/
theorem Numeral.readInt? (h : Numeral text n) :
    readInt? text = if FitsSigned n then some n else none := by
  cases h with
  | bare h => exact h.readInt? (by rw [String.toList_ofList, h.takeSign]) rfl
  | plus h => exact h.readInt? (by rw [String.toList_ofList, Number.takeSign]) rfl
  | minus h => exact h.readInt? (by rw [String.toList_ofList, Number.takeSign]) rfl

/-! ## Characters -/

/-- Digits and signs. -/
def isNumeralChar (c : Char) : Bool :=
  c.isDigit || c == '+' || c == '-'

theorem Numeral.isNumeralChar (h : Numeral text n) :
    ∀ c ∈ text.toList, isNumeralChar c = true := by
  have hdigits : ∀ {ds : List Char} {n : Nat}, Spells ds n →
      ∀ c ∈ ds, Number.isNumeralChar c = true := by
    intro ds n h c hc
    simp [Number.isNumeralChar, h.digits c hc]
  cases h with
  | bare h => simpa using hdigits h
  | plus h => simpa [Number.isNumeralChar] using hdigits h
  | minus h => simpa [Number.isNumeralChar] using hdigits h

theorem Numeral.ne_empty (h : Numeral text n) : text ≠ "" := by
  rw [ne_eq, ← String.toList_eq_nil_iff]
  cases h with
  | bare h => simpa using h.filled
  | plus h => simp
  | minus h => simp

theorem not_isBlank_of_isNumeralChar {c : Char} (h : isNumeralChar c = true) :
    Text.isBlank c = false := by
  simp only [isNumeralChar, Bool.or_eq_true, beq_iff_eq] at h
  rcases h with (h | rfl) | rfl
  · have hdigit : 48 ≤ c.toNat ∧ c.toNat ≤ 57 := by
      simpa [Char.isDigit, UInt32.le_iff_toNat_le] using h
    simp [Text.isBlank]
    omega
  · rfl
  · rfl

/-! ## Blank characters around numerals -/

/-- The text is a numeral of the number, with blank characters around it. -/
def Written (text : String) (n : Int) : Prop :=
  ∃ numeral, Numeral numeral n ∧ Text.Padded Text.isBlank numeral.toList text.toList

theorem Numeral.written (h : Numeral text n) : Written text n :=
  ⟨text, h, .refl _ _⟩

end Number

/-! ## Elements of lists -/

/-- Brackets and blank characters, which do not count at the ends of an element. -/
def isEdge (c : Char) : Bool :=
  c == '[' || c == ']' || Text.isBlank c

theorem trimElement_eq (text : String) : trimElement text = Text.stripString isEdge text := rfl

theorem isEdge_of_isBlank {c : Char} (h : Text.isBlank c = true) : isEdge c = true := by
  rw [isEdge, h, Bool.or_true]

theorem not_isEdge_of_isNumeralChar {c : Char} (h : Number.isNumeralChar c = true) :
    isEdge c = false := by
  have hblank := Number.not_isBlank_of_isNumeralChar h
  have hopen : c ≠ '[' := by
    rintro rfl
    exact absurd h (by decide)
  have hclose : c ≠ ']' := by
    rintro rfl
    exact absurd h (by decide)
  simp [isEdge, hblank, hopen, hclose]

/-- A numeral is left of an element in which it stands between brackets and blank characters. -/
theorem Number.Numeral.trimElement {numeral text : String} {n : Int} (h : Number.Numeral numeral n)
    (hpadded : Text.Padded isEdge numeral.toList text.toList) : trimElement text = numeral := by
  rw [trimElement_eq, hpadded.stripString fun c hc =>
    not_isEdge_of_isNumeralChar (h.isNumeralChar c hc), String.ofList_toList]

end FlatQuery
