import Mathlib.Data.List.Forall2

/-!
# Steps that may fail

A sequence of steps succeeds when each of them does, and otherwise it ends with the error of the
first one that fails (`mapM_cases`).
-/

namespace QueryPipeline

/-- A sequence of two steps succeeds when both do. -/
theorem bind_eq_ok {ε α β : Type} {x : Except ε α} {f : α → Except ε β} {b : β} :
    x >>= f = .ok b ↔ ∃ a, x = .ok a ∧ f a = .ok b := by
  cases x with
  | ok a =>
    constructor
    · intro h
      exact ⟨a, rfl, h⟩
    · rintro ⟨a', h, h'⟩
      cases h
      exact h'
  | error e =>
    constructor
    · intro h
      cases h
    · rintro ⟨a, h, _⟩
      cases h

/-- Two steps, and what is made of their results. -/
theorem both_eq_ok {ε α β γ : Type} {x : Except ε α} {y : Except ε β} {f : α → β → γ} {c : γ} :
    (do
      let a ← x
      let b ← y
      pure (f a b)) = .ok c ↔ ∃ a b, x = .ok a ∧ y = .ok b ∧ c = f a b := by
  simp only [bind_eq_ok]
  constructor
  · rintro ⟨a, ha, b, hb, h⟩
    cases h
    exact ⟨a, b, ha, hb, rfl⟩
  · rintro ⟨a, b, ha, hb, rfl⟩
    exact ⟨a, ha, b, hb, rfl⟩

/-- A success is known by something of its result. -/
theorem map_eq_ok {ε α β : Type} {x : Except ε α} {f : α → β} {b : β} (h : x.map f = .ok b) :
    ∃ a, x = .ok a ∧ f a = b := by
  cases x with
  | ok a => exact ⟨a, rfl, Except.ok.inj h⟩
  | error e => cases h

theorem mapError_bind {ε ε' α β : Type} (h : ε → ε') (r : Except ε α) (g : α → Except ε β) :
    (r >>= g).mapError h = r.mapError h >>= fun a => (g a).mapError h := by
  cases r <;> rfl

/-! ## One step for each item of a list -/

section List

variable {ε α β : Type} {f : α → Except ε β}

theorem mapM_eq_ok_iff {as : List α} {bs : List β} :
    as.mapM f = .ok bs ↔ List.Forall₂ (f · = .ok ·) as bs := by
  induction as generalizing bs with
  | nil =>
    rw [List.mapM_nil, List.forall₂_nil_left_iff]
    constructor
    · intro h
      cases h
      rfl
    · rintro rfl
      rfl
  | cons a as ih =>
    rw [List.mapM_cons, both_eq_ok, List.forall₂_cons_left_iff]
    constructor
    · rintro ⟨b, bs, hb, hbs, rfl⟩
      exact ⟨b, bs, hb, ih.1 hbs, rfl⟩
    · rintro ⟨b, bs, hb, hbs, rfl⟩
      exact ⟨b, bs, hb, ih.2 hbs, rfl⟩

/-- The steps before the first one that fails all succeed. -/
theorem mapM_cases (f : α → Except ε β) (as : List α) :
    (∃ bs, as.mapM f = .ok bs) ∨
    ∃ before a after e, as = before ++ a :: after ∧ (∀ b ∈ before, ∃ c, f b = .ok c) ∧
      f a = .error e ∧ as.mapM f = .error e := by
  induction as with
  | nil => exact .inl ⟨[], rfl⟩
  | cons a as ih =>
    rw [List.mapM_cons]
    cases ha : f a with
    | error e =>
      exact .inr ⟨[], a, as, e, rfl, List.forall_mem_nil _, ha, rfl⟩
    | ok b =>
      rcases ih with ⟨bs, hbs⟩ | ⟨before, a', after, e, rfl, hbefore, ha', hrun⟩
      · rw [hbs]
        exact .inl ⟨b :: bs, rfl⟩
      · rw [hrun]
        have hall := List.forall_mem_cons.2 ⟨⟨b, ha⟩, hbefore⟩
        exact .inr ⟨a :: before, a', after, e, rfl, hall, ha', rfl⟩

/-- Another step in the place of one changes only its own result. -/
theorem mapM_set {as : List α} {bs : List β} (h : as.mapM f = .ok bs) {a : α} {b : β}
    (hab : f a = .ok b) (i : Nat) : (as.set i a).mapM f = .ok (bs.set i b) := by
  rw [mapM_eq_ok_iff] at h ⊢
  induction h generalizing i with
  | nil => exact .nil
  | cons hfirst hrest ih =>
    cases i with
    | zero => exact .cons hab hrest
    | succ i => exact .cons hfirst (ih i)

end List

end QueryPipeline
