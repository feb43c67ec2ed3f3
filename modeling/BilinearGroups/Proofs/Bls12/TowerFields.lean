import Mathlib.FieldTheory.Finite.Basic
import Mathlib.NumberTheory.LegendreSymbol.Basic
import BilinearGroups.Proofs.Bls12.Primes
import BilinearGroups.Proofs.Bls12.Tower

/-!
# The tower of extensions as fields

The inverse on each floor divides a conjugate by a norm in the floor below, so it is an inverse as
soon as the norm of a nonzero element is not zero. For the quadratic extension this is because `-1`
is not a square, for the cubic one because `ξ` is not a cube, and for the topmost one because `v` is
not a square.

The last of these is read off the action of powers by `p²` and `p⁶`. The first fixes the quadratic
extension and multiplies `w` by a sixth root of unity, which gives its action on coefficients. The
second, which is the first one three times, fixes the cubic extension with its `p⁶` elements and
sends `w` to `-w`; so it is conjugation, and a square root of `v` below `w` would have to be fixed
and negated at once.
-/

namespace BilinearGroups

theorem Residue.pow_modulus {m : ℕ} [Modulus m] [Fact m.Prime] (a : Residue m) : a ^ m = a :=
  toZModEquiv.injective (by rw [map_pow, ZMod.pow_card])

theorem Residue.card_eq {m : ℕ} [Modulus m] : Nat.card (Residue m) = m := by
  rw [Nat.card_congr toZModEquiv.toEquiv, Nat.card_zmod]

namespace Bls12

theorem Fp.pow_pred {a : Fp} (h : a ≠ 0) : a ^ (fieldOrder - 1) = 1 := by
  have hpow : a ^ (fieldOrder - 1) * a = 1 * a := by
    rw [← pow_succ, one_mul]
    exact Residue.pow_modulus a
  exact mul_right_cancel₀ h hpow

/-! ## The quadratic extension -/

namespace Fp2

/-- The field order leaves remainder 3 by 4. -/
theorem neg_one_not_square (a : Fp) : a * a ≠ -1 := by
  intro h
  have hsquare : IsSquare (-1 : ZMod fieldOrder) :=
    ⟨Residue.toZModEquiv a, by rw [← map_mul, h, map_neg, map_one]⟩
  exact ZMod.exists_sq_eq_neg_one_iff.mp hsquare (by decide)

theorem norm_ne_zero {a : Fp2} (h : a ≠ 0) : a.norm ≠ 0 := by
  intro hnorm
  have hsum : a.c0 * a.c0 + a.c1 * a.c1 = 0 := hnorm
  by_cases h1 : a.c1 = 0
  · rw [h1, mul_zero, add_zero, mul_self_eq_zero] at hsum
    exact h (Fp2.ext hsum h1)
  -- The ratio of the coefficients would be a square root of `-1`.
  · apply neg_one_not_square (a.c0 * a.c1⁻¹)
    field_simp
    linear_combination hsum

instance : Field Fp2 where
  exists_pair_ne := ⟨0, 1, fun h ↦ zero_ne_one (congrArg Fp2.c0 h)⟩
  mul_inv_cancel a ha := by
    show a * scale a.norm⁻¹ a.conj = 1
    rw [scale_eq, mul_left_comm, mul_conj, ← map_mul, inv_mul_cancel₀ (norm_ne_zero ha), map_one]
  inv_zero := by
    show scale (norm 0)⁻¹ (conj 0) = 0
    rw [scale_eq, ← conjHom_apply, map_zero, mul_zero]
  nnqsmul := _
  nnqsmul_def _ _ := rfl
  qsmul := _
  qsmul_def _ _ := rfl

theorem norm_mul (a b : Fp2) : (a * b).norm = a.norm * b.norm := by
  simp only [norm, mul_c0, mul_c1]
  ring

/-- The norm of `1 + u` is two, which is not a cube of a coordinate. -/
theorem xi_not_cube (a : Fp2) : a * a * a ≠ xi := by
  intro h
  have hnorm : a.norm ^ 3 = Residue.ofNat fieldOrder 2 := by
    calc a.norm ^ 3 = (a * a * a).norm := by rw [norm_mul, norm_mul]; ring
      _ = xi.norm := by rw [h]
      _ = Residue.ofNat fieldOrder 2 := by decide
  have hne : a.norm ≠ 0 := fun h0 ↦ by
    rw [h0] at hnorm
    exact absurd hnorm (by decide)
  have hpow : power (Residue.ofNat fieldOrder 2) ((fieldOrder - 1) / 3) ≠ 1 := by decide +kernel
  apply hpow
  have hthree : 3 * ((fieldOrder - 1) / 3) = fieldOrder - 1 := by decide
  rw [power_eq_pow, ← hnorm, ← pow_mul, hthree, Fp.pow_pred hne]

/-- The `p`-th power is conjugation. -/
theorem pow_eq_conj (a : Fp2) : a ^ fieldOrder = a.conj := by
  have hodd : fieldOrder = 2 * (2 * (fieldOrder / 4) + 1) + 1 := by decide
  have hu : u ^ fieldOrder = -u := by
    rw [hodd, pow_succ, pow_mul, sq, u_sq, pow_succ, pow_mul, neg_one_sq, one_pow, one_mul,
      neg_one_mul]
  conv_lhs => rw [eq_ofFp_add a, add_pow_char, mul_pow, ← map_pow, ← map_pow, Residue.pow_modulus,
    Residue.pow_modulus, hu]
  ext <;> simp [conj, u]

/-- An element by its coefficients. -/
private def coefficientsEquiv : Fp2 ≃ Fp × Fp where
  toFun a := (a.c0, a.c1)
  invFun c := ⟨c.1, c.2⟩
  left_inv _ := rfl
  right_inv _ := rfl

instance : Finite Fp2 := Finite.of_equiv _ coefficientsEquiv.symm

theorem card_eq : Nat.card Fp2 = fieldOrder * fieldOrder := by
  rw [Nat.card_congr coefficientsEquiv, Nat.card_prod, Residue.card_eq]

end Fp2

/-! ## The cubic extension -/

namespace Fp6

theorem adjoint_adjoint (a : Fp6) : a.adjoint.adjoint = a.scale a.norm := by
  ext1 <;> simp only [adjoint, norm, scale, Fp2.timesXi_eq] <;> ring

theorem adjoint_ne_zero {a : Fp6} (h : a ≠ 0) : a.adjoint ≠ 0 := by
  intro hadj
  have h0 : a.c0 * a.c0 - Fp2.xi * (a.c1 * a.c2) = 0 := by
    rw [← Fp2.timesXi_eq]
    exact congrArg c0 hadj
  have h1 : Fp2.xi * (a.c2 * a.c2) - a.c0 * a.c1 = 0 := by
    rw [← Fp2.timesXi_eq]
    exact congrArg c1 hadj
  have h2 : a.c1 * a.c1 - a.c0 * a.c2 = 0 := congrArg c2 hadj
  by_cases hc : a.c2 = 0
  · rw [hc, mul_zero, sub_zero, mul_self_eq_zero] at h2
    rw [hc, mul_zero, mul_zero, sub_zero, mul_self_eq_zero] at h0
    exact h (Fp6.ext h0 h2 hc)
  -- The ratio of two coefficients would be a cube root of `ξ`.
  · apply Fp2.xi_not_cube (a.c1 * a.c2⁻¹)
    field_simp
    linear_combination a.c1 * h2 - a.c2 * h1

theorem norm_ne_zero {a : Fp6} (h : a ≠ 0) : a.norm ≠ 0 := by
  intro hnorm
  apply adjoint_ne_zero (adjoint_ne_zero h)
  rw [adjoint_adjoint, hnorm, scale_eq, map_zero, zero_mul]

instance : Field Fp6 where
  exists_pair_ne := ⟨0, 1, fun h ↦ zero_ne_one (congrArg Fp6.c0 h)⟩
  mul_inv_cancel a ha := by
    show a * scale a.norm⁻¹ a.adjoint = 1
    rw [scale_eq, mul_left_comm, mul_adjoint, ← map_mul, inv_mul_cancel₀ (norm_ne_zero ha),
      map_one]
  inv_zero := by
    show scale (norm 0)⁻¹ (adjoint 0) = 0
    rw [scale_eq, show adjoint 0 = 0 by ext1 <;> simp [adjoint, Fp2.timesXi_eq], mul_zero]
  nnqsmul := _
  nnqsmul_def _ _ := rfl
  qsmul := _
  qsmul_def _ _ := rfl

/-- An element by its coefficients. -/
private def coefficientsEquiv : Fp6 ≃ Fp2 × Fp2 × Fp2 where
  toFun a := (a.c0, a.c1, a.c2)
  invFun c := ⟨c.1, c.2.1, c.2.2⟩
  left_inv _ := rfl
  right_inv _ := rfl

instance : Finite Fp6 := Finite.of_equiv _ coefficientsEquiv.symm

theorem card_eq : Nat.card Fp6 = fieldOrder ^ 6 := by
  rw [Nat.card_congr coefficientsEquiv, Nat.card_prod, Nat.card_prod, Fp2.card_eq]
  ring

theorem pow_card (a : Fp6) : a ^ fieldOrder ^ 6 = a := by
  have := Fintype.ofFinite Fp6
  rw [← card_eq, Nat.card_eq_fintype_card, FiniteField.pow_card]

end Fp6

/-! ## The field of the target group -/

namespace Fp12

instance : CharP Fp12 fieldOrder :=
  (RingHom.charP_iff ((ofFp6.comp Fp6.ofFp2).comp Fp2.ofFp)
    ((ofFp6_injective.comp Fp6.ofFp2_injective).comp Fp2.ofFp_injective) fieldOrder).mp
    inferInstance

/-- The quadratic extension inside the field of the target group. -/
private def ofFp2 : Fp2 →+* Fp12 := ofFp6.comp Fp6.ofFp2

private theorem w_pow_six : w ^ 6 = ofFp2 Fp2.xi := by
  calc w ^ 6 = w * w * (w * w) * (w * w) := by ring
    _ = ofFp6 (Fp6.ofFp2 Fp2.xi) := by rw [w_sq, ← map_mul, ← map_mul, Fp6.v_cube]

/-- In terms of `w` an element has its coefficients in the quadratic extension. -/
private theorem ofFp6_eq (b : Fp6) :
    ofFp6 b = ofFp2 b.c0 + ofFp2 b.c1 * w ^ 2 + ofFp2 b.c2 * w ^ 4 := by
  have hfour : w ^ 4 = ofFp6 (Fp6.v * Fp6.v) := by
    rw [show 4 = 2 * 2 from rfl, pow_mul, sq w, w_sq, ← map_pow, sq]
  rw [hfour, sq, w_sq]
  simp only [ofFp2, RingHom.comp_apply, ← map_mul, ← map_add]
  refine congrArg ofFp6 ?_
  ext1 <;> simp [Fp6.v]

/-- The `p²`-th power fixes the quadratic extension. -/
private theorem ofFp2_pow (a : Fp2) : ofFp2 a ^ fieldOrder ^ 2 = ofFp2 a := by
  rw [← map_pow, sq, pow_mul, Fp2.pow_eq_conj, Fp2.pow_eq_conj, Fp2.conj_conj]

/-- The sixth root of unity among the elements of the target group's field. -/
private def root : Fp12 := ofFp2 (Fp2.ofFp sixthRoot)

private theorem root_cube : root ^ 3 = -1 := by
  have hcube : sixthRoot ^ 3 = -1 := by decide
  rw [root, ← map_pow, ← map_pow, hcube, map_neg, map_neg, map_one, map_one]

/-- The `p²`-th power multiplies `w` by the sixth root of unity: it multiplies `w` by a power of `ξ`
that is a power of the norm of `ξ`. -/
private theorem w_pow_sq : w ^ fieldOrder ^ 2 = root * w := by
  -- As `w⁶ = ξ`, the exponent is written as a multiple of six and one.
  have hexp : fieldOrder ^ 2 = 6 * ((fieldOrder + 1) * ((fieldOrder - 1) / 6)) + 1 := by decide
  have hnorm : Fp2.xi.norm ^ ((fieldOrder - 1) / 6) = sixthRoot := by
    rw [← power_eq_pow]
    decide +kernel
  rw [hexp, pow_succ, pow_mul, w_pow_six, ← map_pow, pow_mul, pow_succ, Fp2.pow_eq_conj,
    mul_comm Fp2.xi.conj, Fp2.mul_conj, ← map_pow, hnorm, root]

/-- The image under the `p²`-th power is the `p²`-th power. -/
theorem frobeniusSquared_eq_pow (a : Fp12) : a.frobeniusSquared = a ^ fieldOrder ^ 2 := by
  have hroot : ofFp2 (Fp2.ofFp sixthRoot) = root := rfl
  have hw (n : ℕ) : (w ^ n) ^ fieldOrder ^ 2 = (root * w) ^ n := by
    rw [pow_right_comm, w_pow_sq]
  calc a.frobeniusSquared = ofFp6 a.frobeniusSquared.c0 + ofFp6 a.frobeniusSquared.c1 * w :=
        eq_ofFp6_add _
    _ = ofFp2 a.c0.c0 + ofFp2 a.c0.c1 * (root * w) ^ 2 + ofFp2 a.c0.c2 * (root * w) ^ 4
        + (ofFp2 a.c1.c0 + ofFp2 a.c1.c1 * (root * w) ^ 2 + ofFp2 a.c1.c2 * (root * w) ^ 4)
          * (root * w) := by
      simp only [ofFp6_eq, frobeniusSquared, Fp2.scale_eq, map_mul, map_neg, hroot]
      linear_combination -ofFp2 a.c1.c1 * w ^ 3 * root_cube
    _ = a ^ fieldOrder ^ 2 := by
      conv_rhs => rw [eq_ofFp6_add a, ofFp6_eq, ofFp6_eq]
      simp only [add_pow_char_pow, mul_pow _ _ (fieldOrder ^ 2), ofFp2_pow, hw, w_pow_sq]

/-- The `p⁶`-th power negates `w`, because the cube of the sixth root of unity is `-1`. -/
theorem w_pow : w ^ fieldOrder ^ 6 = -w := by
  have hexp : fieldOrder ^ 6 = fieldOrder ^ 2 * fieldOrder ^ 2 * fieldOrder ^ 2 := by ring
  calc w ^ fieldOrder ^ 6 = root ^ 3 * w := by
        simp only [hexp, pow_mul, w_pow_sq, mul_pow, ofFp2_pow, root]
        ring
    _ = -w := by rw [root_cube, neg_one_mul]

/-- The `p⁶`-th power is conjugation. -/
theorem pow_eq_conj (a : Fp12) : a ^ fieldOrder ^ 6 = a.conj := by
  conv_lhs => rw [eq_ofFp6_add a, add_pow_char_pow, mul_pow, ← map_pow, ← map_pow, Fp6.pow_card,
    Fp6.pow_card, w_pow]
  ext1 <;> simp [conj, w]

/-- Conjugation inverts an element whose order divides `p⁶ + 1`. -/
theorem mul_conj_of_pow {a : Fp12} {n : ℕ} (h : a ^ n = 1) (hn : n ∣ fieldOrder ^ 6 + 1) :
    a * a.conj = 1 := by
  obtain ⟨k, hk⟩ := hn
  rw [← pow_eq_conj, mul_comm, ← pow_succ, hk, pow_mul, h, one_pow]

/-- The `p⁶`-th power would fix `w` if its square were a square in the cubic extension. -/
theorem v_not_square (a : Fp6) : a * a ≠ Fp6.v := by
  intro h
  have hv : Fp6.v ≠ 0 := fun h0 ↦ one_ne_zero (congrArg Fp6.c1 h0)
  have ha : a ≠ 0 := by
    rintro rfl
    exact hv (by rw [← h, zero_mul])
  have hodd : fieldOrder ^ 6 = 2 * ((fieldOrder ^ 6 - 1) / 2) + 1 := by decide
  have hone : a ^ (2 * ((fieldOrder ^ 6 - 1) / 2)) = 1 := by
    apply mul_right_cancel₀ ha
    rw [← pow_succ, ← hodd, Fp6.pow_card, one_mul]
  have hfixed : w ^ fieldOrder ^ 6 = w := by
    rw [hodd, pow_succ, pow_mul, sq, w_sq, ← h, ← map_pow, ← sq, ← pow_mul, hone, map_one, one_mul]
  have hneg : (-1 : Fp) = 1 := by
    have := w_pow.symm.trans hfixed
    exact congrArg (fun b : Fp12 ↦ b.c1.c0.c0) this
  exact absurd hneg (by decide)

theorem norm_ne_zero {a : Fp12} (h : a ≠ 0) : a.norm ≠ 0 := by
  intro hnorm
  rw [norm_eq] at hnorm
  by_cases h1 : a.c1 = 0
  · rw [h1, mul_zero, mul_zero, sub_zero, mul_self_eq_zero] at hnorm
    exact h (Fp12.ext hnorm h1)
  · apply v_not_square (a.c0 * a.c1⁻¹)
    field_simp
    linear_combination hnorm

theorem inv_eq (a : Fp12) : a⁻¹ = ofFp6 a.norm⁻¹ * a.conj := by
  show (⟨a.norm⁻¹ * a.c0, -(a.norm⁻¹ * a.c1)⟩ : Fp12) = _
  ext1 <;> simp [conj]

instance : Field Fp12 where
  exists_pair_ne := ⟨0, 1, fun h ↦ zero_ne_one (congrArg Fp12.c0 h)⟩
  mul_inv_cancel a ha := by
    rw [inv_eq, mul_left_comm, mul_conj, ← map_mul, inv_mul_cancel₀ (norm_ne_zero ha), map_one]
  inv_zero := by
    rw [inv_eq, show conj 0 = 0 by ext1 <;> simp [conj], mul_zero]
  nnqsmul := _
  nnqsmul_def _ _ := rfl
  qsmul := _
  qsmul_def _ _ := rfl

/-- An element by its coefficients. -/
private def coefficientsEquiv : Fp12 ≃ Fp6 × Fp6 where
  toFun a := (a.c0, a.c1)
  invFun c := ⟨c.1, c.2⟩
  left_inv _ := rfl
  right_inv _ := rfl

instance : Finite Fp12 := Finite.of_equiv _ coefficientsEquiv.symm

theorem card_eq : Nat.card Fp12 = fieldOrder ^ 12 := by
  rw [Nat.card_congr coefficientsEquiv, Nat.card_prod, Fp6.card_eq, ← pow_add]

end Fp12

end Bls12

end BilinearGroups
