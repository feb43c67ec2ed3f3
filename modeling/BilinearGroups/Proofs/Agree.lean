import Mathlib.Logic.Basic

/-!
# Computations that agree

A computation that may fail and has a result came by it through results of its steps. Two
computations agree if they fail for the same reason or both succeed, with results that are related.
Agreement goes through sequences of steps, and two computations that agree with a third one agree
with each other.
-/

namespace BilinearGroups

variable {ε α β γ δ : Type} {R : α → β → Prop} {S : γ → δ → Prop}

/-! ## Results -/

section Results

variable {x : Except ε α} {b : β}

/-- A transformed result comes from a result. -/
theorem exists_of_map_eq_ok {f : α → β} (h : x.map f = .ok b) : ∃ a, x = .ok a ∧ b = f a := by
  cases x with
  | error _ => cases h
  | ok a => exact ⟨a, rfl, (Except.ok.inj h).symm⟩

/-- Another wording of the reasons leaves the results. -/
theorem mapError_eq_ok_iff {ε' : Type} {f : ε → ε'} {a : α} :
    x.mapError f = .ok a ↔ x = .ok a := by
  cases x with
  | error _ => exact iff_of_false nofun nofun
  | ok _ =>
    constructor
    · intro h
      rw [Except.ok.inj h]
    · intro h
      rw [Except.ok.inj h]
      rfl

/-- A result of two computations comes from a result of each. -/
theorem exists_of_bind_eq_ok {f : α → Except ε β} (h : x >>= f = .ok b) :
    ∃ a, x = .ok a ∧ f a = .ok b := by
  cases x with
  | error _ => cases h
  | ok a => exact ⟨a, rfl, h⟩

end Results

/-! ## Agreement -/

/-- The computations fail for the same reason, or both succeed and the results are related. -/
inductive Agree (R : α → β → Prop) : Except ε α → Except ε β → Prop
  /-- Both fail for the same reason. -/
  | error (reason : ε) : Agree R (.error reason) (.error reason)
  /-- Both succeed with related results. -/
  | ok {a : α} {b : β} : R a b → Agree R (.ok a) (.ok b)

namespace Agree

variable {x : Except ε α} {y : Except ε β}

theorem eq_error_or_eq_ok (h : Agree R x y) : (∃ reason, x = .error reason ∧ y = .error reason) ∨
    ∃ a b, x = .ok a ∧ y = .ok b ∧ R a b := by
  cases h with
  | error reason => exact .inl ⟨reason, rfl, rfl⟩
  | ok h => exact .inr ⟨_, _, rfl, rfl, h⟩

theorem bind {f : α → Except ε γ} {g : β → Except ε δ} (h : Agree R x y)
    (hfg : ∀ a b, R a b → Agree S (f a) (g b)) : Agree S (x >>= f) (y >>= g) := by
  cases h with
  | error reason => exact .error reason
  | ok h => exact hfg _ _ h

/-- The results that are related are the results of the first computation. -/
theorem attach (h : Agree R x y) : Agree (fun a b ↦ x = .ok a ∧ R a b) x y := by
  cases h with
  | error reason => exact .error reason
  | ok h => exact .ok ⟨rfl, h⟩

theorem mono {R' : α → β → Prop} (h : Agree R x y) (hR : ∀ a b, R a b → R' a b) :
    Agree R' x y := by
  cases h with
  | error reason => exact .error reason
  | ok h => exact .ok (hR _ _ h)

theorem map {f : α → γ} {g : β → δ} (h : Agree R x y) (hfg : ∀ a b, R a b → S (f a) (g b)) :
    Agree S (x.map f) (y.map g) := by
  cases h with
  | error reason => exact .error reason
  | ok h => exact .ok (hfg _ _ h)

/-- A computation agrees with itself. -/
theorem refl {R : α → α → Prop} (hR : ∀ a, R a a) (x : Except ε α) : Agree R x x := by
  cases x with
  | error reason => exact .error reason
  | ok a => exact .ok (hR a)

/-- Computations that begin with the same check agree if they do where it succeeds. -/
theorem check {z : Except ε Unit} {f : Except ε γ} {g : Except ε δ}
    (h : z = .ok () → Agree S f g) : Agree S (do z; f) (do z; g) := by
  cases z with
  | error reason => exact .error reason
  | ok => exact h rfl

theorem mapError {ε' : Type} (h : Agree R x y) (f : ε → ε') :
    Agree R (x.mapError f) (y.mapError f) := by
  cases h with
  | error reason => exact .error (f reason)
  | ok h => exact .ok h

/-- Computations that agree with a third one agree with each other. -/
theorem both {z : Except ε γ} {R' : β → γ → Prop} {Q : α → γ → Prop} (hx : Agree Q x z)
    (hy : Agree R' y z) : Agree (fun a b ↦ ∃ c, Q a c ∧ R' b c) x y := by
  cases hx with
  | error reason =>
    cases hy
    exact .error reason
  | ok ha =>
    cases hy with
    | ok hb => exact .ok ⟨_, ha, hb⟩

/-- What agrees with a result is a related result. -/
theorem exists_ok {b : β} (h : Agree R x (.ok b)) : ∃ a, x = .ok a ∧ R a b := by
  cases h with
  | ok h => exact ⟨_, rfl, h⟩

end Agree

/-- Related options are both empty, or have related entries. -/
theorem eq_none_or_eq_some {o : Option α} {o' : Option β} (h : Option.Rel R o o') :
    (o = none ∧ o' = none) ∨ ∃ a b, o = some a ∧ o' = some b ∧ R a b := by
  cases h with
  | none => exact .inl ⟨rfl, rfl⟩
  | some h => exact .inr ⟨_, _, rfl, rfl, h⟩

end BilinearGroups
