import BilinearGroups.Proofs.Bls12.Membership

/-!
# Roots and signs of coordinates

A compressed form gives an abscissa and one bit for the ordinate. To come back to the point takes
two things of the field of coordinates (`SourceCurve.LawfulRoots`): a root is found of every square,
and of a nonzero element and its negative exactly one is the larger.

In the quadratic extension the search for a root goes through the norm. If `a = (c + d u)²`, then
the norm of `a` is the square of `n = c² + d²`, and the root `s` that is found of it is `n` or `-n`.
So one of `(a₀ + s) / 2` and `(a₀ - s) / 2` is `c²`, and a root of `c²` leads to a root of `a`
(`exists_rootOfHalfNorm?`).

Points of odd order have an ordinate that is not zero, so that the sign decides between two
different points.
-/

namespace BilinearGroups

/-! ## Residues -/

namespace Residue

variable {m : ℕ} [Modulus m]

/-- The one candidate is the root, if it is a root. -/
theorem sqrt?_eq_some_iff {a s : Residue m} :
    sqrt? a = some s ↔ s = power a ((m + 1) / 4) ∧ s * s = a := by
  rw [sqrt?]
  split_ifs with h
  · rw [Option.some_inj]
    constructor
    · rintro rfl
      exact ⟨rfl, h⟩
    · rintro ⟨rfl, -⟩
      rfl
  · simp only [false_iff, not_and]
    rintro rfl
    exact h

theorem val_neg {a : Residue m} (h : a ≠ 0) : (-a).val = m - a.val := by
  have hval : a.val ≠ 0 := fun h0 ↦ h (Residue.ext h0)
  show (Residue.neg a).val = m - a.val
  rw [Residue.neg, dif_neg hval]

end Residue

namespace Bls12

/-! ## Coordinates -/

namespace Fp

/-- Every square has a root, as the field order leaves remainder 3 by 4. -/
theorem exists_sqrt? (b : Fp) : ∃ s, sqrt? (b * b) = some s := by
  have hexponent : 2 * ((fieldOrder + 1) / 4 + (fieldOrder + 1) / 4) = fieldOrder + 1 := by decide
  have hsquare : power (b * b) ((fieldOrder + 1) / 4) * power (b * b) ((fieldOrder + 1) / 4)
      = b * b := by
    rw [power_eq_pow, ← pow_add, ← sq, ← pow_mul, hexponent, pow_succ, Residue.pow_modulus, sq]
  exact ⟨_, Residue.sqrt?_eq_some_iff.mpr ⟨rfl, hsquare⟩⟩

theorem mul_self_of_sqrt? {a s : Fp} (h : sqrt? a = some s) : s * s = a :=
  (Residue.sqrt?_eq_some_iff.mp h).2

theorem isLarger_neg {a : Fp} (h : a ≠ 0) : (-a).isLarger = !a.isLarger := by
  have hodd : fieldOrder % 2 = 1 := by decide
  have hlt := a.isLt
  rw [isLarger, isLarger, Residue.val_neg h, ← decide_not]
  exact decide_eq_decide.mpr (by omega)

theorem two_ne_zero : (2 : Fp) ≠ 0 := by decide

end Fp

/-! ## The quadratic extension -/

namespace Fp2

theorem checkedRoot?_eq_some_iff {a c d : Fp2} :
    checkedRoot? a c = some d ↔ d = c ∧ d * d = a := by
  rw [checkedRoot?]
  split_ifs with h
  · rw [Option.some_inj]
    constructor
    · rintro rfl
      exact ⟨rfl, h⟩
    · rintro ⟨rfl, -⟩
      rfl
  · simp only [false_iff, not_and]
    rintro rfl
    exact h

theorem mul_self_of_rootOfHalfNorm? {a c : Fp2} {d : Fp} (h : rootOfHalfNorm? a d = some c) :
    c * c = a := by
  rw [rootOfHalfNorm?, Option.bind_eq_bind, Option.bind_eq_some_iff] at h
  obtain ⟨s, -, hroot⟩ := h
  exact (checkedRoot?_eq_some_iff.mp hroot).2

/-- What is returned is a root. -/
theorem mul_self_of_sqrt? {a c : Fp2} (h : sqrt? a = some c) : c * c = a := by
  unfold sqrt? at h
  split_ifs at h with h1
  · cases hroot : Fp.sqrt? a.c0 with
    | some s =>
      rw [hroot] at h
      cases h
      ext
      · simp [Fp.mul_self_of_sqrt? hroot]
      · simp [h1]
    | none =>
      rw [hroot] at h
      obtain ⟨s, -, hs⟩ := Option.bind_eq_some_iff.mp h
      exact (checkedRoot?_eq_some_iff.mp hs).2
  · obtain ⟨s, -, hs⟩ := Option.bind_eq_some_iff.mp h
    dsimp only at hs
    split at hs
    · next c' hroot =>
      cases hs
      exact mul_self_of_rootOfHalfNorm? hroot
    · exact mul_self_of_rootOfHalfNorm? hs

/-- A root of `c²` completes to a root of `(c + d u)²`, if `c` is not zero. -/
theorem exists_rootOfHalfNorm? {b : Fp2} (h : b.c0 ≠ 0) :
    ∃ r, rootOfHalfNorm? (b * b) (b.c0 * b.c0) = some r := by
  obtain ⟨s, hs⟩ := Fp.exists_sqrt? b.c0
  have hsquare : s * s = b.c0 * b.c0 := Fp.mul_self_of_sqrt? hs
  have hs0 : s ≠ 0 := by
    rintro rfl
    rw [zero_mul] at hsquare
    exact mul_ne_zero h h hsquare.symm
  refine ⟨⟨s, (b * b).c1 * (s + s)⁻¹⟩, ?_⟩
  rw [rootOfHalfNorm?, hs]
  refine checkedRoot?_eq_some_iff.mpr ⟨rfl, ?_⟩
  have hdouble : s + s ≠ 0 := by
    rw [← two_mul]
    exact mul_ne_zero Fp.two_ne_zero hs0
  -- The candidate is `s + (c d / s) u`, and `s` is `c` or `-c`.
  have hsign : (b.c0 * b.c1 + b.c1 * b.c0) * (s + s)⁻¹ = b.c0 * b.c1 * s⁻¹ := by
    rw [mul_inv_eq_iff_eq_mul₀ hdouble]
    field_simp
  ext
  · simp only [mul_c0, mul_c1, hsign]
    field_simp
    linear_combination (s * s + b.c1 * b.c1) * hsquare
  · simp only [mul_c1, hsign]
    field_simp

/-- Every square has a root. -/
theorem exists_sqrt? (b : Fp2) : ∃ r, sqrt? (b * b) = some r := by
  unfold sqrt?
  split_ifs with h1
  · -- One coefficient of `b` is zero, and `b²` is a square of a coordinate or the negative of one.
    have hproduct : 2 * (b.c0 * b.c1) = 0 := by
      rw [mul_c1] at h1
      linear_combination h1
    cases hroot : Fp.sqrt? (b * b).c0 with
    | some s => exact ⟨_, rfl⟩
    | none =>
      rcases mul_eq_zero.mp ((mul_eq_zero.mp hproduct).resolve_left Fp.two_ne_zero) with h0 | h0
      · have hneg : -(b * b).c0 = b.c1 * b.c1 := by
          rw [mul_c0, h0]
          ring
        obtain ⟨s, hs⟩ := Fp.exists_sqrt? b.c1
        have hsquare := Fp.mul_self_of_sqrt? hs
        refine ⟨⟨0, s⟩, ?_⟩
        rw [hneg, hs]
        refine checkedRoot?_eq_some_iff.mpr ⟨rfl, ?_⟩
        ext
        · simp [hsquare, h0]
        · simp [h0]
      · have hsquare : (b * b).c0 = b.c0 * b.c0 := by rw [mul_c0, h0, mul_zero, sub_zero]
        obtain ⟨s, hs⟩ := Fp.exists_sqrt? b.c0
        rw [hsquare, hs] at hroot
        cases hroot
  · have h0 : b.c0 ≠ 0 := by
      intro h0
      apply h1
      rw [mul_c1, h0, zero_mul, mul_zero, add_zero]
    have hnorm : (b * b).norm = b.norm * b.norm := norm_mul b b
    obtain ⟨s, hs⟩ := Fp.exists_sqrt? b.norm
    obtain ⟨r, hr⟩ := exists_rootOfHalfNorm? h0
    have htwo : (1 + 1 : Fp) ≠ 0 := by decide
    rw [hnorm, hs]
    dsimp only [Option.bind_eq_bind, Option.bind_some]
    rcases mul_self_eq_mul_self_iff.mp (Fp.mul_self_of_sqrt? hs) with hn | hn
    · have hhalf : (1 + 1)⁻¹ * ((b * b).c0 + s) = b.c0 * b.c0 := by
        rw [inv_mul_eq_iff_eq_mul₀ htwo, hn, mul_c0, norm]
        ring
      exact ⟨r, by rw [hhalf, hr]⟩
    · have hhalf : (1 + 1)⁻¹ * ((b * b).c0 - s) = b.c0 * b.c0 := by
        rw [inv_mul_eq_iff_eq_mul₀ htwo, hn, mul_c0, norm]
        ring
      rw [hhalf, hr]
      split
      · exact ⟨_, rfl⟩
      · exact ⟨r, rfl⟩

theorem isLarger_neg {a : Fp2} (h : a ≠ 0) : (-a).isLarger = !a.isLarger := by
  rw [isLarger, isLarger, neg_c0, neg_c1]
  by_cases h1 : a.c1 = 0
  · have h0 : a.c0 ≠ 0 := fun h0 ↦ h (Fp2.ext h0 h1)
    rw [if_pos h1, if_pos (neg_eq_zero.mpr h1)]
    exact Fp.isLarger_neg h0
  · rw [if_neg h1, if_neg (mt neg_eq_zero.mp h1)]
    exact Fp.isLarger_neg h1

end Fp2

/-! ## Lifting an abscissa -/

namespace SourceCurve

open Point

/-- A root is found of every square, and of a nonzero coordinate and its negative one is the
larger. -/
class LawfulRoots {F : Type} [Field F] [DecidableEq F] (C : SourceCurve F) : Prop where
  mul_self_of_sqrt? : ∀ {a s : F}, C.sqrt? a = some s → s * s = a
  exists_sqrt? : ∀ b : F, ∃ s, C.sqrt? (b * b) = some s
  isLarger_neg : ∀ {a : F}, a ≠ 0 → C.isLarger (-a) = !C.isLarger a

variable {F : Type} [Field F] [DecidableEq F] {C : SourceCurve F}

/-- A member with ordinate zero would be its own negative, and so of even order. -/
theorem Member.ordinate_ne_zero [SmoothCurve C.b] {x y : F} (h : C.Member (affine x y)) :
    y ≠ 0 := by
  rintro rfl
  obtain ⟨A, hA, horder⟩ := h.exists_ofGroup
  have hneg : -A = A := by
    apply ofGroup_injective
    rw [ofGroup_neg, hA]
    exact congrArg (affine x) neg_zero
  have hdouble : 2 • A = 0 := by
    rw [two_nsmul]
    nth_rewrite 1 [← hneg]
    exact neg_add_cancel A
  have hodd : groupOrder = groupOrder / 2 * 2 + 1 := by decide
  have hzero : A = 0 := by
    rwa [hodd, succ_nsmul, mul_nsmul', hdouble, smul_zero, zero_add] at horder
  rw [hzero, ofGroup_zero] at hA
  cases hA

variable [hC : C.LawfulRoots]

/-- The point over an abscissa lies on the curve, and unless its ordinate is zero it is the one
asked for. -/
theorem exists_of_lift? {x : F} {larger : Bool} {P : Point F} (h : C.lift? x larger = some P) :
    ∃ y, P = affine x y ∧ (y ≠ 0 → C.isLarger y = larger) := by
  obtain ⟨s, -, rfl⟩ := Option.map_eq_some_iff.mp h
  refine ⟨_, rfl, fun hy ↦ ?_⟩
  split_ifs at hy ⊢ with hsign
  · exact hsign
  · rw [hC.isLarger_neg (neg_ne_zero.mp hy)]
    exact Bool.not_eq.mpr hsign

/-- A point of the curve with an ordinate that is not zero is found over its abscissa, by its
sign. -/
theorem lift?_eq_some {x y : F} (hcurve : (affine x y).OnCurve C.b) (hy : y ≠ 0) :
    C.lift? x (C.isLarger y) = some (affine x y) := by
  have hequation : y * y = x * x * x + C.b := hcurve
  obtain ⟨s, hs⟩ := hC.exists_sqrt? y
  rw [lift?, ← hequation, hs, Option.map_some]
  rcases mul_self_eq_mul_self_iff.mp (hC.mul_self_of_sqrt? hs) with rfl | rfl
  · rw [if_pos rfl]
  · rw [hC.isLarger_neg hy, if_neg (by simp), neg_neg]

end SourceCurve

instance : G1.curve.LawfulRoots where
  mul_self_of_sqrt? h := by
    dsimp only [G1.curve] at h
    exact Fp.mul_self_of_sqrt? h
  exists_sqrt? b := by
    dsimp only [G1.curve]
    exact Fp.exists_sqrt? b
  isLarger_neg h := Fp.isLarger_neg h

instance : G2.curve.LawfulRoots where
  mul_self_of_sqrt? h := by
    dsimp only [G2.curve] at h
    exact Fp2.mul_self_of_sqrt? h
  exists_sqrt? b := by
    dsimp only [G2.curve]
    exact Fp2.exists_sqrt? b
  isLarger_neg h := Fp2.isLarger_neg h

end Bls12

end BilinearGroups
