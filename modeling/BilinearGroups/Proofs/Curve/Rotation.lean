import Mathlib.Tactic.Abel
import BilinearGroups.Proofs.Curve.GroupLaw

/-!
# Rotations of a curve by a cube root of unity

On a curve `y² = x³ + b` the abscissa may be multiplied by a cube root of unity `c`. A point and
its two images then have the same ordinate, so they lie on one line and their sum is infinity.
Where the rotation acts on a point as the multiple by `-n`, this turns into an equation for `n`
alone: the point is killed by `1 - n + n²` (`multiple_eq_infinity_of_rotate`). An eigenvalue of the
rotation thus says something about the order of the point.

That the rotation respects sums is a fact about the formulas, and so are the facts about the map
`(x, y) ↦ (a σ(x), d σ(y))` for an automorphism `σ` of the field with `a³ = d²` (`twist`).
-/

namespace BilinearGroups.Point

variable {F : Type} [Field F] [DecidableEq F]

/-! ## Twisted maps -/

/-- The map that applies `σ` to the coordinates and multiplies them by `a` and `d`. -/
def twist (σ : F → F) (a d : F) : Point F → Point F
  | infinity => infinity
  | affine x y => affine (a * σ x) (d * σ y)

omit [DecidableEq F] in
theorem twist_neg (σ : F →+* F) (a d : F) (P : Point F) : (-P).twist σ a d = -P.twist σ a d := by
  cases P with
  | infinity => rfl
  | affine x y =>
    show affine _ (d * σ (-y)) = affine _ (-(d * σ y))
    rw [map_neg, mul_neg]

omit [DecidableEq F] in
private theorem twist_onLine {σ : F →+* F} {a d : F} (ha : a ≠ 0) (had : a * a * a = d * d)
    (slope x y x' : F) :
    (onLine slope x y x').twist σ a d
      = onLine (d * a⁻¹ * σ slope) (a * σ x) (d * σ y) (a * σ x') := by
  have ha2 : d * a⁻¹ * (d * a⁻¹) = a := by
    field_simp
    linear_combination -had
  simp only [onLine, twist, map_sub, map_mul, affine.injEq]
  refine ⟨?_, ?_⟩
  · linear_combination -(σ slope * σ slope) * ha2
  · have hda : d * a⁻¹ * a = d := by rw [mul_assoc, inv_mul_cancel₀ ha, mul_one]
    linear_combination (-(σ slope * (σ x + σ x + σ x' - σ slope * σ slope))) * hda
      + d * a⁻¹ * σ slope * σ slope * σ slope * ha2

theorem twist_add {σ : F →+* F} {a d : F} (ha : a ≠ 0) (hd : d ≠ 0) (had : a * a * a = d * d)
    (P Q : Point F) : (P + Q).twist σ a d = P.twist σ a d + Q.twist σ a d := by
  match P, Q with
  | infinity, Q => rfl
  | affine x y, infinity => rfl
  | affine x y, affine x' y' =>
    have hx : a * σ x = a * σ x' ↔ x = x' := by rw [mul_right_inj' ha, σ.injective.eq_iff]
    have hy : ∀ z z', d * σ z = d * σ z' ↔ z = z' := fun z z' ↦ by
      rw [mul_right_inj' hd, σ.injective.eq_iff]
    have hneg : d * σ y = -(d * σ y) ↔ y = -y := by
      rw [← mul_neg, ← map_neg, hy]
    show (Point.add (affine x y) (affine x' y')).twist σ a d
      = Point.add (affine _ _) (affine _ _)
    rw [Point.add, Point.add]
    by_cases hxx : x = x'
    · rw [if_neg (not_not.mpr hxx), if_neg (not_not.mpr (hx.mpr hxx))]
      by_cases hyy : y ≠ y' ∨ y = -y
      · rw [if_pos hyy, if_pos (hyy.imp (mt (hy y y').mp) hneg.mpr)]
        rfl
      · rw [if_neg hyy, if_neg fun h ↦ hyy (h.imp (mt (hy y y').mpr) hneg.mp),
          twist_onLine ha had]
        congr 1
        simp only [map_mul, map_add, map_inv₀]
        have hsum : (d * σ y + d * σ y)⁻¹ = d⁻¹ * (σ y + σ y)⁻¹ := by rw [← mul_add, mul_inv]
        rw [hsum]
        field_simp
        linear_combination -(σ x * σ x * 3 * (σ y + σ y)⁻¹) * had
    · rw [if_pos hxx, if_pos (mt hx.mp hxx), twist_onLine ha had]
      congr 1
      simp only [map_mul, map_sub, map_inv₀, ← mul_sub, mul_inv]
      ring

theorem twist_multiple {σ : F →+* F} {a d : F} (ha : a ≠ 0) (hd : d ≠ 0)
    (had : a * a * a = d * d) (n : ℕ) (P : Point F) :
    (P.multiple n).twist σ a d = (P.twist σ a d).multiple n :=
  map_combineTimes (twist σ a d) (twist_add ha hd had) infinity P n

/-! ## Rotations -/

/-- The map that multiplies abscissae by `c`. -/
def rotate (c : F) : Point F → Point F := twist id c 1

/-- A point and its two rotations lie on a line. -/
theorem add_rotate {b c : F} [hb : SmoothCurve b] (hc : c * c + c + 1 = 0) {P : Point F}
    (h : P.OnCurve b) : P + P.rotate c = -(P.rotate c).rotate c := by
  cases P with
  | infinity => rfl
  | affine x y =>
    have hxy : y * y = x * x * x + b := h
    show Point.add (affine x y) (affine (c * x) (1 * y))
      = affine (c * (c * x)) (-(1 * (1 * y)))
    simp only [one_mul]
    rw [Point.add]
    -- Where the abscissa is zero the three points are one, and the line is the tangent there.
    by_cases hx : x = c * x
    · have hx0 : x = 0 := by
        have hc1 : 1 - c ≠ 0 := by
          intro h1
          apply hb.three_ne_zero
          linear_combination hc + (c + 2) * h1
        refine (mul_eq_zero.mp ?_).resolve_left hc1
        linear_combination hx
      have hy : y ≠ -y := by
        intro hy
        have hy0 : y = 0 := (mul_eq_zero.mp (by linear_combination hy)).resolve_left hb.two_ne_zero
        apply hb.coeff_ne_zero
        rw [hx0, hy0] at hxy
        linear_combination -hxy
      rw [if_neg (not_not.mpr hx), if_neg (by simpa using hy), hx0]
      simp [onLine]
    · rw [if_pos hx]
      simp only [onLine, sub_self, zero_mul, zero_sub, affine.injEq]
      exact ⟨by linear_combination -x * hc, trivial⟩

/-- A point on which the rotation acts as `-n` is killed by `n² - n + 1`. -/
theorem multiple_eq_infinity_of_rotate {b c : F} [SmoothCurve b] (hc : c * c + c + 1 = 0)
    {P : Point F} (h : P.OnCurve b) {n : ℕ} (hn : 0 < n) (hP : P.rotate c = -P.multiple n) :
    P.multiple (n * (n - 1) + 1) = infinity := by
  have hc0 : c ≠ 0 := by
    rintro rfl
    rw [mul_zero, zero_add, zero_add] at hc
    exact one_ne_zero hc
  have hcube : c * c * c = 1 * 1 := by linear_combination (c - 1) * hc
  have htwice : (P.rotate c).rotate c = -(P.rotate c).multiple n := by
    conv_lhs => rw [hP]
    rw [rotate, ← RingHom.coe_id, twist_neg, twist_multiple hc0 one_ne_zero hcube]
  obtain ⟨A, rfl⟩ := exists_ofGroup h
  obtain ⟨B, hB⟩ : ∃ B, ofGroup (b := b) B = (ofGroup A).rotate c :=
    ⟨-(n • A), by rw [ofGroup_neg, ofGroup_nsmul, hP]⟩
  have hBA : B = -(n • A) := ofGroup_injective (by rw [hB, hP, ofGroup_neg, ofGroup_nsmul])
  -- The line through the three points says `A + B = n • B`, where `B = -(n • A)`.
  have hsum : A + B = n • B := by
    apply ofGroup_injective
    rw [ofGroup_add, hB, add_rotate hc h, htwice, ← hB, ← ofGroup_nsmul, ← ofGroup_neg,
      ← ofGroup_neg, neg_neg]
  rw [← ofGroup_nsmul, ← ofGroup_zero]
  congr 1
  -- Natural numbers do not subtract well, so the equation is brought to one of sums.
  obtain ⟨k, rfl⟩ : ∃ k, n = k + 1 := ⟨n - 1, by omega⟩
  have hk : k • A = (k + 1) • ((k + 1) • A) := by
    rw [hBA, smul_neg, succ_nsmul' A k, neg_add, add_neg_cancel_left, ← succ_nsmul'] at hsum
    exact neg_injective hsum
  have hcancel : ((k + 1) * k + 1) • A + k • A = 0 + k • A := by
    calc ((k + 1) * k + 1) • A + k • A = ((k + 1) * (k + 1)) • A := by
          rw [← add_nsmul]
          congr 1
          ring
      _ = 0 + k • A := by rw [mul_nsmul', ← hk, zero_add]
  exact add_right_cancel hcancel

end BilinearGroups.Point
