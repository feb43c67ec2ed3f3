import Mathlib.Algebra.Group.Basic
import Mathlib.Algebra.Group.Hom.Defs
import BilinearGroups.Algebra

/-!
# The law of repeated combination

Running over the binary digits of `n` combines `n` copies of the argument. The law is stated for a
relation between numbers of copies and values (`combineTimes_rel`), so that one induction serves
every use: with equality to a power in a monoid it is the value of `power`, with a property of
values alone it says that the property is kept, and with a map it says that the map commutes with
multiples.
-/

namespace BilinearGroups

variable {α β : Type}

/-- The digits of `n`, put in front of `ds`, leave a value related to `n` to the digits `ds`. -/
private theorem foldl_binaryDigits_go {op : α → α → α} {e a : α} {R : ℕ → α → Prop}
    (zero : R 0 e) (one : R 1 a) (add : ∀ {j k x y}, R j x → R k y → R (j + k) (op x y)) :
    ∀ (fuel n : ℕ) (ds : List Bool), n ≤ fuel →
      ∃ x, R n x ∧ combineDigits op e a (binaryDigits.go fuel n ds) = combineDigits op x a ds := by
  intro fuel
  induction fuel with
  | zero =>
    intro n ds hn
    obtain rfl : n = 0 := by omega
    exact ⟨e, zero, rfl⟩
  | succ fuel ih =>
    intro n ds hn
    rw [binaryDigits.go]
    split_ifs with h0
    · subst h0
      exact ⟨e, zero, rfl⟩
    · obtain ⟨x, hx, hfold⟩ := ih (n / 2) (n.testBit 0 :: ds) (by omega)
      rw [hfold]
      cases hbit : n.testBit 0 with
      | false =>
        have hn2 : n = n / 2 + n / 2 := by
          rw [Nat.testBit_zero, decide_eq_false_iff_not] at hbit
          omega
        exact ⟨op x x, hn2 ▸ add hx hx, rfl⟩
      | true =>
        have hn2 : n = n / 2 + n / 2 + 1 := by
          rw [Nat.testBit_zero, decide_eq_true_eq] at hbit
          omega
        exact ⟨op (op x x) a, hn2 ▸ add (add hx hx) one, rfl⟩

/-- What holds of no copies and of one, and of sums whenever it holds of the parts, holds of `n`
copies. -/
theorem combineTimes_rel {op : α → α → α} {e a : α} {R : ℕ → α → Prop}
    (zero : R 0 e) (one : R 1 a) (add : ∀ {j k x y}, R j x → R k y → R (j + k) (op x y))
    (n : ℕ) : R n (combineTimes op e a n) := by
  obtain ⟨x, hx, hfold⟩ := foldl_binaryDigits_go zero one add n n [] (Nat.le_refl n)
  rw [combineTimes, binaryDigits, hfold]
  exact hx

/-- A property of the argument and of `e` that the operation keeps is one of every combination. -/
theorem combineTimes_mem {op : α → α → α} {e a : α} {p : α → Prop} (he : p e) (ha : p a)
    (hop : ∀ x y, p x → p y → p (op x y)) (n : ℕ) : p (combineTimes op e a n) :=
  combineTimes_rel (R := fun _ x ↦ p x) he ha (fun hx hy ↦ hop _ _ hx hy) n

/-- A map that respects the operation respects repeated combination. -/
theorem map_combineTimes {op : α → α → α} {op' : β → β → β} (f : α → β)
    (hop : ∀ x y, f (op x y) = op' (f x) (f y)) (e a : α) (n : ℕ) :
    f (combineTimes op e a n) = combineTimes op' (f e) (f a) n := by
  have hdigits : ∀ (ds : List Bool) (x : α),
      f (combineDigits op x a ds) = combineDigits op' (f x) (f a) ds := by
    intro ds
    induction ds with
    | nil => intro x; rfl
    | cons d ds ih =>
      intro x
      cases d
      · exact (ih (op x x)).trans (by rw [hop]; rfl)
      · exact (ih (op (op x x) a)).trans (by rw [hop, hop]; rfl)
  exact hdigits (binaryDigits n) e

/-- In a monoid, `power` is the power. -/
@[simp] theorem power_eq_pow [Monoid α] (a : α) (n : ℕ) : power a n = a ^ n :=
  combineTimes_rel (R := fun k x ↦ x = a ^ k) (pow_zero a).symm (pow_one a).symm
    (fun hx hy ↦ by rw [hx, hy, pow_add]) n

/-- In an additive monoid, combining copies by the sum is the multiple. -/
@[simp] theorem combineTimes_add [AddMonoid α] (a : α) (n : ℕ) :
    combineTimes (· + ·) 0 a n = n • a :=
  combineTimes_rel (R := fun k x ↦ x = k • a) (zero_nsmul a).symm (one_nsmul a).symm
    (fun hx hy ↦ by rw [hx, hy, add_nsmul]) n

end BilinearGroups
