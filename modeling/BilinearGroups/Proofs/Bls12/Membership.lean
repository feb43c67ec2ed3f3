import BilinearGroups.Proofs.Bls12.TowerFields

/-!
# Membership in the source groups

The members of a source group are the points of its curve that `r` copies sum to infinity. They form
a subgroup, whatever the curve.

The eigenvalue test is sound on the curve: the equation between the endomorphism and a multiple is,
directly or after applying the endomorphism once more, an eigenvalue of a rotation by a cube root of
unity. The eigenvalue is minus the square `u` of the parameter, and `r` is `u² - u + 1`.
-/

namespace BilinearGroups.Bls12

open Point

/-! ## The subgroup -/

namespace SourceCurve

theorem member_infinity {F : Type} [DecidableEq F] [Zero F] [Add F] [Sub F] [Neg F] [Mul F]
    [Inv F] {C : SourceCurve F} : C.Member infinity :=
  ⟨trivial, combineTimes_mem (p := (· = infinity)) rfl rfl (by rintro _ _ rfl rfl; rfl) groupOrder⟩

variable {F : Type} [Field F] [DecidableEq F] {C : SourceCurve F}

theorem member_ofGroup_iff {A : (weierstrass C.b).Point} :
    C.Member (ofGroup A) ↔ groupOrder • A = 0 := by
  rw [Member, ← ofGroup_nsmul, ← ofGroup_zero (b := C.b), ofGroup_injective.eq_iff]
  exact and_iff_right (onCurve_ofGroup A)

variable [SmoothCurve C.b]

/-- A member is a point of the group that the order kills. -/
theorem Member.exists_ofGroup {P : Point F} (h : C.Member P) :
    ∃ A : (weierstrass C.b).Point, ofGroup A = P ∧ groupOrder • A = 0 := by
  obtain ⟨A, rfl⟩ := Point.exists_ofGroup h.1
  exact ⟨A, rfl, member_ofGroup_iff.mp h⟩

theorem Member.neg {P : Point F} (h : C.Member P) : C.Member (-P) := by
  obtain ⟨A, rfl, hA⟩ := h.exists_ofGroup
  rw [← ofGroup_neg, member_ofGroup_iff, smul_neg, hA, neg_zero]

theorem Member.add {P Q : Point F} (hP : C.Member P) (hQ : C.Member Q) : C.Member (P + Q) := by
  obtain ⟨A, rfl, hA⟩ := hP.exists_ofGroup
  obtain ⟨B, rfl, hB⟩ := hQ.exists_ofGroup
  rw [← ofGroup_add, member_ofGroup_iff, smul_add, hA, hB, add_zero]

theorem Member.sub {P Q : Point F} (hP : C.Member P) (hQ : C.Member Q) : C.Member (P - Q) :=
  hP.add hQ.neg

theorem Member.multiple {P : Point F} (h : C.Member P) (n : ℕ) : C.Member (P.multiple n) := by
  obtain ⟨A, rfl, hA⟩ := h.exists_ofGroup
  rw [← ofGroup_nsmul, member_ofGroup_iff, nsmul_left_comm, hA, smul_zero]

end SourceCurve

/-! ## The eigenvalue test -/

namespace G1

instance : SmoothCurve curve.b :=
  ⟨by decide, by decide, by decide⟩

theorem member_generator : curve.Member generator := by
  obtain ⟨A, hA⟩ := exists_ofGroup (show generator.OnCurve curve.b by decide)
  rw [← hA, SourceCurve.member_ofGroup_iff]
  refine groupOrder_nsmul_generator (RingHom.id Fp) ?_
  rw [hA]
  rfl

theorem eigenTest_generator : eigenTest generator = true := by decide +kernel

theorem endomorphism_eq (P : Point Fp) : endomorphism P = P.rotate cubeRoot := by
  cases P with
  | infinity => rfl
  | affine x y =>
    show affine (cubeRoot * x) y = affine (cubeRoot * x) (1 * y)
    rw [one_mul]

/-- On the curve, a point that passes the eigenvalue test has an order that divides `r`. -/
theorem member_of_eigenTest {P : Point Fp} (hP : P.OnCurve curve.b) (h : eigenTest P = true) :
    curve.Member P := by
  refine ⟨hP, ?_⟩
  obtain ⟨-, heigen⟩ : _ ∧ endomorphism P = -(P.multiple parameter).multiple parameter := by
    simpa [eigenTest] using h
  rw [endomorphism_eq, hP.multiple_multiple] at heigen
  rw [groupOrder_eq_square]
  exact multiple_eq_infinity_of_rotate (by decide) hP (by decide) heigen

end G1

namespace G2

instance : SmoothCurve curve.b :=
  ⟨by decide, by decide, by decide⟩

theorem endomorphism_eq (Q : Point Fp2) :
    endomorphism Q = Q.twist Fp2.conjHom abscissaFactor ordinateFactor := by
  cases Q <;> rfl

theorem abscissaFactor_ne_zero : abscissaFactor ≠ 0 := by decide

theorem ordinateFactor_ne_zero : ordinateFactor ≠ 0 := by decide

/-- The two factors are powers of one element, by exponents in proportion two to three. -/
theorem abscissaFactor_cube :
    abscissaFactor * abscissaFactor * abscissaFactor = ordinateFactor * ordinateFactor := by
  decide

/-- The square of the endomorphism is a rotation with a reflection. -/
theorem endomorphism_endomorphism (Q : Point Fp2) :
    endomorphism (endomorphism Q) = -Q.rotate (abscissaFactor * abscissaFactor.conj) := by
  cases Q with
  | infinity => rfl
  | affine x y =>
    have hy : ordinateFactor * ordinateFactor.conj = -1 := by decide
    have hconj : ∀ a b : Fp2, (a * b.conj).conj = a.conj * b := fun a b ↦ by
      rw [← Fp2.conjHom_apply, map_mul, Fp2.conjHom_apply, Fp2.conjHom_apply, Fp2.conj_conj]
    show affine (abscissaFactor * (abscissaFactor * x.conj).conj)
        (ordinateFactor * (ordinateFactor * y.conj).conj)
      = affine (abscissaFactor * abscissaFactor.conj * x) (-(1 * y))
    rw [hconj, hconj, ← mul_assoc, ← mul_assoc, hy, one_mul, neg_one_mul]

/-- Where the endomorphism acts as `-m`, its square acts as `m²`. -/
theorem rotate_of_eigenvalue {Q : Point Fp2} (hQ : Q.OnCurve curve.b) {m : ℕ}
    (h : endomorphism Q = -Q.multiple m) :
    Q.rotate (abscissaFactor * abscissaFactor.conj) = -Q.multiple (m * m) := by
  have hmultiple : endomorphism (Q.multiple m) = (endomorphism Q).multiple m := by
    rw [endomorphism_eq, endomorphism_eq]
    exact twist_multiple abscissaFactor_ne_zero ordinateFactor_ne_zero abscissaFactor_cube m Q
  have htwice : endomorphism (endomorphism Q) = Q.multiple (m * m) := by
    calc endomorphism (endomorphism Q) = endomorphism (-Q.multiple m) := by rw [h]
      _ = -endomorphism (Q.multiple m) := by
          rw [endomorphism_eq, twist_neg, ← endomorphism_eq]
      _ = -(-Q.multiple m).multiple m := by rw [hmultiple, h]
      _ = Q.multiple (m * m) := by
          rw [(hQ.multiple m).neg_multiple, Point.neg_neg, hQ.multiple_multiple]
  rw [← htwice, endomorphism_endomorphism, Point.neg_neg]

/-- On the curve, a point that passes the eigenvalue test has an order that divides `r`. -/
theorem member_of_eigenTest {Q : Point Fp2} (hQ : Q.OnCurve curve.b) (h : eigenTest Q = true) :
    curve.Member Q := by
  refine ⟨hQ, ?_⟩
  have heigen : endomorphism Q = -Q.multiple parameter := by simpa [eigenTest] using h
  rw [groupOrder_eq_square]
  exact multiple_eq_infinity_of_rotate (by decide) hQ (by decide)
    (rotate_of_eigenvalue hQ heigen)

theorem eigenTest_generator : eigenTest generator = true := by decide +kernel

theorem member_generator : curve.Member generator :=
  member_of_eigenTest (by decide) eigenTest_generator

end G2

end BilinearGroups.Bls12
