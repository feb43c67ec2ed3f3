import Mathlib.AlgebraicGeometry.EllipticCurve.Affine.Point
import Mathlib.Tactic.FieldSimp
import Mathlib.Tactic.LinearCombination
import BilinearGroups.Curve.Point
import BilinearGroups.Proofs.Algebra.Multiple

/-!
# Points of a curve form a group

Over a field, the points that satisfy `y² = x³ + b` are the points of a Weierstrass curve, and the
sum by chord and tangent is the sum of its group. The translation goes from the group to bare pairs
of coordinates (`ofGroup`): in that direction it is a total function, it respects sums, negatives
and multiples, and its image is exactly the set of points on the curve. A law of the group is thus a
law of points on the curve, and a point on the curve stays there under every operation.
-/

namespace BilinearGroups.Point

open WeierstrassCurve.Affine

variable {F : Type} [Field F]

/-- The curve `y² = x³ + b` is smooth: neither the coefficient nor the discriminant of the cubic
vanishes. -/
class SmoothCurve (b : F) : Prop where
  /-- The field does not have characteristic two. -/
  two_ne_zero : (2 : F) ≠ 0
  /-- The field does not have characteristic three. -/
  three_ne_zero : (3 : F) ≠ 0
  /-- The origin does not lie on the curve. -/
  coeff_ne_zero : b ≠ 0

/-- The curve `y² = x³ + b` in Weierstrass form. -/
abbrev weierstrass (b : F) : WeierstrassCurve.Affine F := ⟨0, 0, 0, 0, b⟩

theorem equation_iff_onCurve {b x y : F} :
    (weierstrass b).Equation x y ↔ (affine x y).OnCurve b := by
  rw [equation_iff, OnCurve]
  constructor <;> intro h <;> linear_combination h

theorem nonsingular_iff_onCurve {b x y : F} [hb : SmoothCurve b] :
    (weierstrass b).Nonsingular x y ↔ (affine x y).OnCurve b := by
  rw [← equation_iff_onCurve]
  have h432 : (weierstrass b).Δ = -(2 ^ 4 * 3 ^ 3) * b ^ 2 := by
    simp only [WeierstrassCurve.Δ, WeierstrassCurve.b₂, WeierstrassCurve.b₄, WeierstrassCurve.b₆,
      WeierstrassCurve.b₈]
    ring
  have hΔ : (weierstrass b).Δ ≠ 0 := by
    rw [h432]
    exact mul_ne_zero (neg_ne_zero.mpr (mul_ne_zero (pow_ne_zero 4 hb.two_ne_zero)
      (pow_ne_zero 3 hb.three_ne_zero))) (pow_ne_zero 2 hb.coeff_ne_zero)
  exact ⟨And.left, (equation_iff_nonsingular_of_Δ_ne_zero hΔ).mp⟩

/-! ## The translation -/

variable {b : F}

/-- A point of the group as a point by coordinates. -/
def ofGroup : (weierstrass b).Point → Point F
  | .zero => infinity
  | .some x y _ => affine x y

@[simp] theorem ofGroup_zero : ofGroup (0 : (weierstrass b).Point) = infinity := rfl

@[simp] theorem ofGroup_some {x y : F} (h : (weierstrass b).Nonsingular x y) :
    ofGroup (.some x y h) = affine x y := rfl

theorem ofGroup_injective : Function.Injective (ofGroup : (weierstrass b).Point → Point F) := by
  rintro (_ | ⟨x, y, hP⟩) (_ | ⟨x', y', hQ⟩) h
  · rfl
  · cases h
  · cases h
  · cases h
    rfl

theorem onCurve_ofGroup (A : (weierstrass b).Point) : (ofGroup A).OnCurve b := by
  cases A with
  | zero => trivial
  | some x y h => exact equation_iff_onCurve.mp h.1

theorem exists_ofGroup [SmoothCurve b] {P : Point F} (h : P.OnCurve b) :
    ∃ A : (weierstrass b).Point, ofGroup A = P := by
  cases P with
  | infinity => exact ⟨0, rfl⟩
  | affine x y => exact ⟨.some x y (nonsingular_iff_onCurve.mpr h), rfl⟩

theorem ofGroup_neg (A : (weierstrass b).Point) : ofGroup (-A) = -ofGroup A := by
  cases A with
  | zero => rfl
  | some x y h =>
    show affine x ((weierstrass b).negY x y) = affine x (-y)
    simp [negY]

protected theorem neg_neg (P : Point F) : - -P = P := by
  cases P with
  | infinity => rfl
  | affine x y => exact congrArg (affine x) (InvolutiveNeg.neg_neg y)

/-- The line through two points meets the curve where the group law says. -/
private theorem onLine_eq (slope x y x' : F) :
    onLine slope x y x' = affine ((weierstrass b).addX x x' slope)
      ((weierstrass b).addY x x' y slope) := by
  simp only [onLine, addX, addY, negAddY, negY, affine.injEq]
  constructor <;> ring

variable [DecidableEq F]

theorem ofGroup_add (A B : (weierstrass b).Point) : ofGroup (A + B) = ofGroup A + ofGroup B := by
  match A, B with
  | .zero, B => exact congrArg ofGroup (zero_add B)
  | .some x y h, .zero => exact congrArg ofGroup (add_zero (Point.some x y h))
  | .some x y h, .some x' y' h' =>
    show _ = Point.add (affine x y) (affine x' y')
    rw [Point.add]
    by_cases hx : x = x'
    · subst hx
      by_cases hy : y = (weierstrass b).negY x y'
      · rw [Point.add_of_Y_eq rfl hy, ofGroup_zero, if_neg (not_not.mpr rfl), if_pos]
        have hneg : y = -y' := by simpa [negY] using hy
        rw [hneg]
        by_cases h0 : -y' = y'
        · exact .inr (by rw [neg_neg, h0])
        · exact .inl h0
      · have hyy : y = y' := Y_eq_of_Y_ne h.1 h'.1 rfl hy
        subst hyy
        have hneg : y ≠ -y := by simpa [negY] using hy
        rw [Point.add_some fun hxy ↦ hy hxy.2, ofGroup_some, if_neg (not_not.mpr rfl),
          if_neg (by simpa using hneg), onLine_eq (b := b), slope_of_Y_ne rfl hy]
        have hslope : (3 * x ^ 2 + 2 * (weierstrass b).a₂ * x + (weierstrass b).a₄
            - (weierstrass b).a₁ * y) / (y - (weierstrass b).negY x y)
            = (x * x + x * x + x * x) * (y + y)⁻¹ := by
          simp only [negY]
          ring
        rw [hslope]
    · rw [Point.add_of_X_ne hx, ofGroup_some, if_pos hx, onLine_eq (b := b), slope_of_X_ne hx]
      have hslope : (y - y') / (x - x') = (y' - y) * (x' - x)⁻¹ := by
        rw [← neg_sub y', ← neg_sub x', neg_div_neg_eq, div_eq_mul_inv]
      rw [hslope]

theorem ofGroup_nsmul (n : ℕ) (A : (weierstrass b).Point) :
    ofGroup (n • A) = (ofGroup A).multiple n := by
  rw [← combineTimes_add, map_combineTimes ofGroup ofGroup_add]
  rfl

theorem OnCurve.multiple [SmoothCurve b] {P : Point F} (h : P.OnCurve b) (n : ℕ) :
    (P.multiple n).OnCurve b := by
  obtain ⟨A, rfl⟩ := exists_ofGroup h
  rw [← ofGroup_nsmul]
  exact onCurve_ofGroup _

theorem OnCurve.multiple_multiple [SmoothCurve b] {P : Point F} (h : P.OnCurve b) (m n : ℕ) :
    (P.multiple m).multiple n = P.multiple (n * m) := by
  obtain ⟨A, rfl⟩ := exists_ofGroup h
  rw [← ofGroup_nsmul, ← ofGroup_nsmul, ← ofGroup_nsmul, ← mul_nsmul']

theorem OnCurve.neg_multiple [SmoothCurve b] {P : Point F} (h : P.OnCurve b) (n : ℕ) :
    (-P).multiple n = -P.multiple n := by
  obtain ⟨A, rfl⟩ := exists_ofGroup h
  rw [← ofGroup_neg, ← ofGroup_nsmul, ← ofGroup_nsmul, ← ofGroup_neg, smul_neg]

end BilinearGroups.Point
