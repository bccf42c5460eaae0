import Mathlib.Data.List.Forall2

/-!
# Computations that may fail

How a computation that succeeded is taken apart: into its steps (`bind_eq_ok_iff`), and a pass over
a list into one success for each element (`mapM_eq_ok_iff`). A pass succeeds as soon as it does on
each element by itself (`exists_mapM_eq_ok_iff`), so the order of the elements does not matter.
A pass that failed did so at its first element that fails (`mapM_eq_error_iff`). Of a computation
that failed, `FailsOnly` says which errors it can have; the class of errors is carried from the
steps to the whole.
-/

namespace FlatQuery

variable {ε σ α β γ : Type}

theorem ok_bind (a : α) (f : α → Except ε β) : Except.ok a >>= f = f a := rfl

theorem error_bind (e : ε) (f : α → Except ε β) : Except.error e >>= f = .error e := rfl

theorem bind_eq_ok_iff {x : Except ε α} {f : α → Except ε β} {b : β} :
    x >>= f = .ok b ↔ ∃ a, x = .ok a ∧ f a = .ok b := by
  cases x with
  | error e => simp [bind, Except.bind]
  | ok a => simp [bind, Except.bind]

theorem map_eq_ok_iff {x : Except ε α} {f : α → β} {b : β} :
    x.map f = .ok b ↔ ∃ a, x = .ok a ∧ f a = b := by
  cases x <;> simp [Except.map]

theorem exists_map_eq_ok_iff {x : Except ε α} {f : α → β} :
    (∃ b, x.map f = .ok b) ↔ ∃ a, x = .ok a := by
  cases x <;> simp [Except.map]

theorem map_eq_error_iff {x : Except ε α} {f : α → β} {e : ε} :
    x.map f = .error e ↔ x = .error e := by
  cases x <;> simp [Except.map]

/-- A pass over a list succeeds iff it succeeds on each element. -/
theorem mapM_eq_ok_iff {f : α → Except ε β} {xs : List α} {ys : List β} :
    xs.mapM f = .ok ys ↔ List.Forall₂ (fun x y => f x = .ok y) xs ys := by
  induction xs generalizing ys with
  | nil => cases ys <;> simp [pure, Except.pure]
  | cons x xs ih =>
    rw [List.mapM_cons, bind_eq_ok_iff, List.forall₂_cons_left_iff]
    constructor
    · rintro ⟨y, hy, h⟩
      obtain ⟨ys', hys', h⟩ := bind_eq_ok_iff.1 h
      exact ⟨y, ys', hy, ih.1 hys', (Except.ok.inj h).symm⟩
    · rintro ⟨y, ys', hy, hys', rfl⟩
      exact ⟨y, hy, bind_eq_ok_iff.2 ⟨ys', ih.2 hys', rfl⟩⟩

/-- A pass can be made iff each element can be passed by itself. -/
theorem exists_mapM_eq_ok_iff {f : α → Except ε β} {xs : List α} :
    (∃ ys, xs.mapM f = .ok ys) ↔ ∀ x ∈ xs, ∃ y, f x = .ok y := by
  simp only [mapM_eq_ok_iff]
  induction xs with
  | nil => simp
  | cons x xs ih =>
    rw [List.forall_mem_cons, ← ih]
    constructor
    · rintro ⟨ys, h⟩
      obtain ⟨y, ys, hy, hys, rfl⟩ := List.forall₂_cons_left_iff.1 h
      exact ⟨⟨y, hy⟩, ys, hys⟩
    · rintro ⟨⟨y, hy⟩, ys, hys⟩
      exact ⟨y :: ys, .cons hy hys⟩

/-- What comes out of a pass is what comes out of one of the elements. -/
theorem mem_iff_of_forall₂_ok {f : α → Except ε β} {xs : List α} {ys : List β}
    (h : List.Forall₂ (fun x y => f x = .ok y) xs ys) {y : β} :
    y ∈ ys ↔ ∃ x ∈ xs, f x = .ok y := by
  induction h with
  | nil => simp
  | cons hx _ ih => simp [hx, ih, eq_comm (a := y)]

/-- A pass over elements of which it is known when each one succeeds, and with what. -/
theorem mapM_eq_ok_iff_of_forall₂ {f : α → Except ε β} {p : γ → Prop} {g : γ → β} {xs : List α}
    {zs : List γ} (h : List.Forall₂ (fun x z => ∀ y, f x = .ok y ↔ p z ∧ y = g z) xs zs)
    {ys : List β} : xs.mapM f = .ok ys ↔ (∀ z ∈ zs, p z) ∧ ys = zs.map g := by
  induction h generalizing ys with
  | nil => simp [pure, Except.pure, eq_comm]
  | cons hx _ ih =>
    rw [List.mapM_cons, List.forall_mem_cons, List.map_cons]
    simp only [bind_eq_ok_iff, hx, ih, pure, Except.pure, Except.ok.injEq]
    constructor
    · rintro ⟨-, ⟨hz, rfl⟩, -, ⟨hzs, rfl⟩, rfl⟩
      exact ⟨⟨hz, hzs⟩, rfl⟩
    · rintro ⟨⟨hz, hzs⟩, rfl⟩
      exact ⟨_, ⟨hz, rfl⟩, _, ⟨hzs, rfl⟩, rfl⟩

/-- What is done to each result of a pass can be done to all of them at the end. -/
theorem mapM_map_eq (f : α → Except ε β) (g : β → γ) (xs : List α) :
    (xs.mapM fun x => (f x).map g) = (xs.mapM f).map (List.map g) := by
  induction xs with
  | nil => rfl
  | cons x xs ih =>
    rw [List.mapM_cons, List.mapM_cons, ih]
    cases f x with
    | error e => rfl
    | ok y => cases xs.mapM f <;> rfl

/-- What the rule of a pairing says of one side holds of all elements there. -/
theorem forall_mem_right_of_forall₂ {R : α → β → Prop} {p : β → Prop} {xs : List α} {ys : List β}
    (h : List.Forall₂ R xs ys) (hp : ∀ x y, R x y → p y) : ∀ y ∈ ys, p y := by
  induction h with
  | nil => simp
  | cons hxy _ ih => exact List.forall_mem_cons.2 ⟨hp _ _ hxy, ih⟩

theorem forall_mem_left_of_forall₂ {R : α → β → Prop} {p : α → Prop} {xs : List α} {ys : List β}
    (h : List.Forall₂ R xs ys) (hp : ∀ x y, R x y → p x) : ∀ x ∈ xs, p x :=
  forall_mem_right_of_forall₂ h.flip fun y x hxy => hp x y hxy

theorem ne_nil_iff_of_forall₂ {R : α → β → Prop} {xs : List α} {ys : List β}
    (h : List.Forall₂ R xs ys) : xs ≠ [] ↔ ys ≠ [] := by
  cases h <;> simp

theorem forall₂_trans {R : α → β → Prop} {S : β → γ → Prop} {T : α → γ → Prop}
    {xs : List α} {ys : List β} {zs : List γ} (hxy : List.Forall₂ R xs ys)
    (hyz : List.Forall₂ S ys zs) (h : ∀ x y z, R x y → S y z → T x z) : List.Forall₂ T xs zs := by
  induction hxy generalizing zs with
  | nil =>
    obtain rfl := List.forall₂_nil_left_iff.1 hyz
    exact .nil
  | cons hx _ ih =>
    obtain ⟨z, zs, hz, hzs, rfl⟩ := List.forall₂_cons_left_iff.1 hyz
    exact .cons (h _ _ _ hx hz) (ih hzs)

/-! ## Errors -/

/-- A pass that carries a state fails where the first step fails. -/
theorem foldlM_eq_error_iff {f : σ → α → Except ε σ} {s : σ} {xs : List α} {e : ε} :
    xs.foldlM f s = .error e ↔ ∃ before x after s', xs = before ++ x :: after ∧
      before.foldlM f s = .ok s' ∧ f s' x = .error e := by
  constructor
  · induction xs generalizing s with
    | nil => exact fun h => nomatch h
    | cons x xs ih =>
      rw [List.foldlM_cons]
      intro h
      cases hx : f s x with
      | error e' =>
        rw [hx] at h
        exact ⟨[], x, xs, s, rfl, rfl, hx.trans h⟩
      | ok s₁ =>
        rw [hx] at h
        obtain ⟨before, y, after, s', rfl, hbefore, hy⟩ := ih h
        refine ⟨x :: before, y, after, s', rfl, ?_, hy⟩
        rw [List.foldlM_cons, hx]
        exact hbefore
  · rintro ⟨before, x, after, s', rfl, hbefore, hx⟩
    rw [List.foldlM_append, hbefore, ok_bind, List.foldlM_cons, hx, error_bind]

/-- A pass fails with the error of the first element that cannot be passed by itself. -/
theorem mapM_eq_error_iff {f : α → Except ε β} {xs : List α} {e : ε} :
    xs.mapM f = .error e ↔ ∃ before x after, xs = before ++ x :: after ∧
      (∀ y ∈ before, ∃ b, f y = .ok b) ∧ f x = .error e := by
  constructor
  · induction xs with
    | nil => exact fun h => nomatch h
    | cons x xs ih =>
      rw [List.mapM_cons]
      intro h
      cases hx : f x with
      | error e' =>
        rw [hx] at h
        obtain rfl := Except.error.inj h
        exact ⟨[], x, xs, rfl, by simp, hx⟩
      | ok b =>
        rw [hx, ok_bind] at h
        have hrest : xs.mapM f = .error e := by
          cases hxs : xs.mapM f with
          | error e' => rwa [hxs] at h
          | ok bs => rw [hxs] at h; cases h
        obtain ⟨before, y, after, rfl, hbefore, hy⟩ := ih hrest
        exact ⟨x :: before, y, after, rfl, List.forall_mem_cons.2 ⟨⟨b, hx⟩, hbefore⟩, hy⟩
  · rintro ⟨before, x, after, rfl, hbefore, hx⟩
    obtain ⟨bs, hbs⟩ := exists_mapM_eq_ok_iff.2 hbefore
    rw [List.mapM_append, hbs, ok_bind, List.mapM_cons, hx, error_bind, error_bind]

/-- If the computation fails, then with an error of the class `p`. -/
def FailsOnly (p : ε → Prop) (x : Except ε α) : Prop :=
  ∀ e, x = .error e → p e

variable {p q : ε → Prop}

theorem failsOnly_ok (a : α) : FailsOnly p (.ok a : Except ε α) := nofun

theorem failsOnly_error {e : ε} (h : p e) : FailsOnly p (.error e : Except ε α) := by
  intro e' he
  rwa [← Except.error.inj he]

namespace FailsOnly

theorem mono {x : Except ε α} (hx : FailsOnly p x) (h : ∀ e, p e → q e) : FailsOnly q x :=
  fun e he => h e (hx e he)

theorem bind {x : Except ε α} {f : α → Except ε β} (hx : FailsOnly p x)
    (hf : ∀ a, x = .ok a → FailsOnly p (f a)) : FailsOnly p (x >>= f) := by
  cases x with
  | error e => exact failsOnly_error (hx e rfl)
  | ok a => exact hf a rfl

theorem map {x : Except ε α} (hx : FailsOnly p x) (f : α → β) : FailsOnly p (x.map f) := by
  cases x with
  | error e => exact failsOnly_error (hx e rfl)
  | ok a => exact failsOnly_ok (f a)

theorem mapM {f : α → Except ε β} {xs : List α} (h : ∀ x ∈ xs, FailsOnly p (f x)) :
    FailsOnly p (xs.mapM f) := by
  induction xs with
  | nil => exact failsOnly_ok []
  | cons x xs ih =>
    rw [List.forall_mem_cons] at h
    rw [List.mapM_cons]
    exact h.1.bind fun y _ => (ih h.2).bind fun ys _ => failsOnly_ok (y :: ys)

end FailsOnly

end FlatQuery
