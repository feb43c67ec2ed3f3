import Mathlib.Algebra.BigOperators.Group.List.Basic
import Mathlib.Data.List.Prime
import Mathlib.Data.Nat.Prime.Basic
import Mathlib.GroupTheory.OrderOfElement
import Mathlib.NumberTheory.LucasPrimality
import Mathlib.Tactic.NormNum.Prime
import BilinearGroups.Bls12.SourceCurve
import BilinearGroups.Proofs.Algebra.Residue
import BilinearGroups.Proofs.Curve.Rotation

/-!
# The group order and the field order are prime

The group order `r` is small enough for Lucas's test: `r - 1` is a product of small primes, and `7`
has order `r - 1` modulo `r`.

The field order `p` has no such certificate at hand, and the curve supplies another. Were `p`
composite, it would have a prime factor `ℓ` with `ℓ² ≤ p`. The generator of the first source group,
read modulo `ℓ`, is a point of order `r` on a curve over `ℓ` elements, and such a curve has at most
`2ℓ + 1` points; but `r` is far larger. The order follows from two multiples by the parameter, which
rotate the generator. What makes their reduction modulo `ℓ` sound, while nothing is known about `p`
yet, is that every division in their computation is checked (`checkedAdd`): an inverse that was
verified modulo `p` is one modulo `ℓ`.
-/

namespace BilinearGroups

/-! ## Lucas's test -/

/-- A number is prime if `a` has order one less than it, where `factors` lists the primes of that
order and their exponents. -/
theorem Residue.prime_of_order {m : ℕ} [Modulus m] (a : Residue m) (factors : List (ℕ × ℕ))
    (hprime : ∀ f ∈ factors, f.1.Prime)
    (hprod : (factors.map fun f ↦ f.1 ^ f.2).prod = m - 1) (hone : power a (m - 1) = 1)
    (hne : ∀ f ∈ factors, power a ((m - 1) / f.1) ≠ 1) : m.Prime := by
  -- The test speaks of the ring of residues, and the computation of `power`.
  have htransfer : ∀ n, toZModEquiv a ^ n = 1 ↔ power a n = 1 := by
    intro n
    rw [← map_pow, power_eq_pow, map_eq_one_iff _ toZModEquiv.injective]
  refine lucas_primality m (toZModEquiv a) ((htransfer _).mpr hone) fun q hq hdvd ↦ ?_
  rw [← hprod] at hdvd
  -- A prime of `m - 1` divides one of the listed powers, so it is on the list.
  obtain ⟨z, hz, hqz⟩ := (Prime.dvd_prod_iff hq.prime).mp hdvd
  obtain ⟨f, hf, rfl⟩ := List.mem_map.mp hz
  obtain rfl : q = f.1 := (Nat.prime_dvd_prime_iff_eq hq (hprime f hf)).mp (hq.dvd_of_dvd_pow hqz)
  exact fun h ↦ hne f hf ((htransfer _).mp h)

namespace Bls12

/-- The primes of `r - 1` and their exponents. -/
private def orderFactors : List (ℕ × ℕ) :=
  [(2, 32), (3, 1), (11, 1), (19, 1), (10177, 1), (125527, 1), (859267, 1), (906349, 2),
    (2508409, 1), (2529403, 1), (52437899, 1), (254760293, 2)]

theorem groupOrder_prime : groupOrder.Prime := by
  refine Residue.prime_of_order (Residue.ofNat groupOrder 7) orderFactors ?_ (by decide)
    (by decide +kernel) (by decide +kernel)
  simp only [orderFactors, List.forall_mem_cons, List.not_mem_nil, false_imp_iff, implies_true,
    and_true]
  norm_num

instance : Fact groupOrder.Prime := ⟨groupOrder_prime⟩

end Bls12

/-! ## The number of points -/

namespace Point

open WeierstrassCurve.Affine

variable {K : Type} [Field K] {b : K}

/-- The points of a curve by their abscissa and whether their ordinate is a chosen one of the two
that the abscissa has. -/
private noncomputable def label (root : K → K) : (weierstrass b).Point → Option (K × Prop)
  | .zero => none
  | .some x y _ => some (x, y = root x)

/-- A point is determined by its label, if the chosen roots are those of the curve. -/
private theorem exists_label_injective :
    ∃ root : K → K,
      Function.Injective (label root : (weierstrass b).Point → Option (K × Prop)) := by
  classical
  have hroot : ∀ x : K, ∃ s : K, ∀ y, y * y = x * x * x + b → y = s ∨ y = -s := by
    intro x
    by_cases h : ∃ s : K, s * s = x * x * x + b
    · obtain ⟨s, hs⟩ := h
      exact ⟨s, fun y hy ↦ mul_self_eq_mul_self_iff.mp (hy.trans hs.symm)⟩
    · exact ⟨0, fun y hy ↦ absurd ⟨y, hy⟩ h⟩
  -- One square root is chosen for each abscissa that has any; the other one is its negative.
  choose root hroot using hroot
  refine ⟨root, ?_⟩
  rintro (_ | ⟨x, y, hP⟩) (_ | ⟨x', y', hQ⟩) h
  · rfl
  · cases h
  · cases h
  · obtain ⟨rfl, hy⟩ := Prod.mk.inj (Option.some.inj h)
    have hxy := hroot x y (equation_iff_onCurve.mp hP.1)
    have hxy' := hroot x y' (equation_iff_onCurve.mp hQ.1)
    have heq : y = y' := by
      by_cases hs : y = root x
      · exact hs.trans (hy ▸ hs).symm
      · have hs' : y' ≠ root x := fun h' ↦ hs (hy ▸ h')
        rw [hxy.resolve_left hs, hxy'.resolve_left hs']
    subst heq
    rfl

theorem finite_group [Finite K] : Finite (weierstrass b).Point := by
  obtain ⟨root, hinj⟩ := exists_label_injective (b := b)
  exact Finite.of_injective _ hinj

/-- A curve over a finite field has at most two points for each abscissa, and infinity. -/
theorem card_group_le [Finite K] : Nat.card (weierstrass b).Point ≤ 2 * Nat.card K + 1 := by
  obtain ⟨root, hinj⟩ := exists_label_injective (b := b)
  calc Nat.card (weierstrass b).Point ≤ Nat.card (Option (K × Prop)) :=
        Nat.card_le_card_of_injective _ hinj
    _ = 2 * Nat.card K + 1 := by
        rw [Finite.card_option, Nat.card_prod, Nat.card_eq_fintype_card (α := Prop),
          Fintype.card_prop, mul_comm]

/-! ## Checked sums -/

variable {R : Type} [CommRing R] [Inv R] [DecidableEq R]

/-- The points with coordinates mapped to another ring. -/
def map {R S : Type} (f : R → S) : Point R → Point S
  | infinity => infinity
  | affine x y => affine (f x) (f y)

/-- The sum of two points, if the inverse that it needs is one. -/
def checkedAdd : Point R → Point R → Option (Point R)
  | infinity, Q => some Q
  | P, infinity => some P
  | affine x y, affine x' y' =>
    if (x' - x) * (x' - x)⁻¹ = 1 ∨ x = x' ∧ (y = -y' ∨ y = y' ∧ (y + y) * (y + y)⁻¹ = 1) then
      some (affine x y + affine x' y')
    else none

/-- The sum of points that were computed. -/
def checkedSum (P Q : Option (Point R)) : Option (Point R) :=
  P.bind fun P ↦ Q.bind fun Q ↦ checkedAdd P Q

omit [DecidableEq R] in
private theorem map_inv_of_mul {f : R →+* K} {a : R} (h : a * a⁻¹ = 1) : f a⁻¹ = (f a)⁻¹ :=
  eq_inv_of_mul_eq_one_right (by rw [← map_mul, h, map_one])

omit [Inv R] [DecidableEq R] in
private theorem map_onLine (f : R →+* K) (slope x y x' : R) :
    (onLine slope x y x').map f = onLine (f slope) (f x) (f y) (f x') := by
  simp only [onLine, map, map_sub, map_mul]

variable [DecidableEq K]

/-- Checked sums are sums over every field that the ring maps to. -/
theorem map_checkedAdd (f : R →+* K) {P Q S : Point R}
    (h : checkedAdd P Q = some S) : S.map f = P.map f + Q.map f := by
  match P, Q with
  | infinity, Q =>
    cases h
    rfl
  | affine x y, infinity =>
    cases h
    rfl
  | affine x y, affine x' y' =>
    rw [checkedAdd] at h
    split_ifs at h with hcheck
    cases h
    show (Point.add (affine x y) (affine x' y')).map f = Point.add (affine _ _) (affine _ _)
    rw [Point.add, Point.add]
    -- A chord, an opposite pair, a tangent: what was checked tells them apart over `K` as well.
    rcases hcheck with hx | ⟨rfl, rfl | ⟨rfl, hy⟩⟩
    · have hfx : f x' - f x ≠ 0 := by
        intro h0
        have := congrArg f hx
        rw [map_mul, map_sub, h0, zero_mul, map_one] at this
        exact zero_ne_one this
      have hne : f x ≠ f x' := fun he ↦ hfx (by rw [he, sub_self])
      have hne' : x ≠ x' := fun he ↦ hne (congrArg f he)
      rw [if_pos hne, if_pos hne', map_onLine, map_mul, map_inv_of_mul hx, map_sub, map_sub]
    · rw [if_neg (not_not.mpr rfl), if_neg (not_not.mpr rfl), if_pos, if_pos]
      · rfl
      · by_cases h0 : f (-y') = f y'
        · exact .inr (by rw [map_neg, neg_neg, ← map_neg, h0])
        · exact .inl h0
      · by_cases h0 : -y' = y'
        · exact .inr (by rw [neg_neg, h0])
        · exact .inl h0
    · have hfy : f y + f y ≠ 0 := by
        intro h0
        have := congrArg f hy
        rw [map_mul, map_add, h0, zero_mul, map_one] at this
        exact zero_ne_one this
      have hne : f y ≠ -f y := fun he ↦ hfy (by rw [← sub_neg_eq_add, ← he, sub_self])
      have hne' : y ≠ -y := fun he ↦ hne (by rw [← map_neg, ← he])
      rw [if_neg (not_not.mpr rfl), if_neg (not_not.mpr rfl), if_neg (by simpa using hne'),
        if_neg (by simpa using hne), map_onLine, map_mul, map_inv_of_mul hy]
      simp only [map_add, map_mul]

/-- Checked multiples are multiples in the group of every field that the ring maps to. -/
theorem map_checkedMultiple (f : R →+* K) {P : Point R} {A : (weierstrass b).Point}
    (hA : P.map f = ofGroup A) {n : ℕ} {S : Point R}
    (h : combineTimes checkedSum (some infinity) (some P) n = some S) :
    S.map f = ofGroup (n • A) := by
  have hrel : ∀ S, combineTimes checkedSum (some infinity) (some P) n = some S →
      S.map f = ofGroup (n • A) := by
    refine combineTimes_rel (R := fun k o ↦ ∀ S : Point R, o = some S → S.map f = ofGroup (k • A))
      ?_ ?_ ?_ n
    · rintro S ⟨⟩
      rw [zero_nsmul]
      rfl
    · rintro S ⟨⟩
      rw [one_nsmul, hA]
    · intro j k o o' ho ho' S hS
      obtain ⟨Q, rfl, hQ⟩ := Option.bind_eq_some_iff.mp hS
      obtain ⟨Q', rfl, hQQ'⟩ := Option.bind_eq_some_iff.mp hQ
      rw [map_checkedAdd f hQQ', ho Q rfl, ho' Q' rfl, add_nsmul, ofGroup_add]
  exact hrel S h

end Point

/-! ## The field order -/

namespace Bls12

open Point

/-- The group order from the square of the parameter, which is an eigenvalue of a rotation. -/
theorem groupOrder_eq_square :
    groupOrder = parameter * parameter * (parameter * parameter - 1) + 1 := by decide

namespace G1

/-- Multiplied by the parameter twice, with every division checked, the generator is rotated and
reflected. -/
theorem checked_eigenvalue :
    ((combineTimes checkedSum (some infinity) (some generator) parameter).bind fun Q ↦
      combineTimes checkedSum (some infinity) (some Q) parameter)
        = some (-endomorphism generator) := by
  decide +kernel

/-- Read in any field, the generator has an order that divides `r`: there too, it is rotated and
reflected by the square of the parameter. -/
theorem groupOrder_nsmul_generator {K : Type} [Field K] [DecidableEq K] {b : K} [SmoothCurve b]
    (f : Fp →+* K) {A : (weierstrass b).Point} (hA : generator.map f = ofGroup A) :
    groupOrder • A = 0 := by
  obtain ⟨Q, hQ, hS⟩ := Option.bind_eq_some_iff.mp checked_eigenvalue
  -- Both multiples were checked, so they are multiples over the other field too.
  have htwice := map_checkedMultiple f (map_checkedMultiple f hA hQ) hS
  rw [← mul_nsmul, ofGroup_nsmul] at htwice
  have hroot : f cubeRoot * f cubeRoot + f cubeRoot + 1 = 0 := by
    have hcube : cubeRoot * cubeRoot + cubeRoot + 1 = 0 := by decide
    simpa only [map_add, map_mul, map_one, map_zero] using congrArg f hcube
  have hrotate : (ofGroup A).rotate (f cubeRoot)
      = -(ofGroup A).multiple (parameter * parameter) := by
    rw [← htwice, ← hA]
    show affine (f cubeRoot * f _) (1 * f _) = affine (f (cubeRoot * _)) (-f (-_))
    rw [map_mul, map_neg, neg_neg, one_mul]
  apply ofGroup_injective
  rw [ofGroup_nsmul, ofGroup_zero, groupOrder_eq_square]
  exact multiple_eq_infinity_of_rotate hroot (onCurve_ofGroup A) (by decide) hrotate

end G1

/-- The curve stays smooth modulo the primes of the field order. -/
private theorem smoothCurve_of_dvd {q : ℕ} [Fact q.Prime] (hq : q ∣ fieldOrder) :
    SmoothCurve (4 : ZMod q) := by
  have hne : ∀ n : ℕ, n < 5 → 0 < n → (n : ZMod q) ≠ 0 := by
    intro n hn hpos h0
    have hdvd : q ∣ n := (ZMod.natCast_eq_zero_iff n q).mp h0
    have hle : q ≤ n := Nat.le_of_dvd hpos hdvd
    have htwo : 2 ≤ q := (Fact.out : q.Prime).two_le
    have hsmall : ∀ d : ℕ, d < 5 → 2 ≤ d → ¬ d ∣ fieldOrder := by decide
    exact hsmall q (by omega) htwo hq
  exact ⟨hne 2 (by omega) (by omega), hne 3 (by omega) (by omega), hne 4 (by omega) (by omega)⟩

/-- A prime of the field order is too large to be the smallest one of a composite number: modulo the
prime, the curve has a point of order `r`. -/
private theorem groupOrder_le_of_dvd {q : ℕ} [Fact q.Prime] (hq : q ∣ fieldOrder) :
    groupOrder ≤ 2 * q + 1 := by
  have := smoothCurve_of_dvd hq
  let f : Fp →+* ZMod q := (ZMod.castHom hq (ZMod q)).comp (Residue.toZModEquiv : Fp ≃+* ZMod _)
  have hon : (G1.generator.map f).OnCurve (4 : ZMod q) := by
    have hgen : G1.generator.OnCurve (((4 : ℕ) : Fp)) := by decide
    have := congrArg f hgen
    simp only [map_mul, map_add, map_natCast] at this
    exact this
  obtain ⟨A, hA⟩ := exists_ofGroup hon
  have hzero : groupOrder • A = 0 := G1.groupOrder_nsmul_generator f hA.symm
  have hne : A ≠ 0 := by
    rintro rfl
    cases hA
  have : Finite (weierstrass (4 : ZMod q)).Point := finite_group
  calc groupOrder = addOrderOf A := (addOrderOf_eq_prime hzero hne).symm
    _ ≤ Nat.card (weierstrass (4 : ZMod q)).Point := addOrderOf_le_card
    _ ≤ 2 * Nat.card (ZMod q) + 1 := card_group_le
    _ = 2 * q + 1 := by rw [Nat.card_zmod]

theorem fieldOrder_prime : fieldOrder.Prime := by
  by_contra hcomposite
  have : Fact fieldOrder.minFac.Prime := ⟨Nat.minFac_prime (by decide)⟩
  have hsq : fieldOrder.minFac ^ 2 ≤ fieldOrder :=
    Nat.minFac_sq_le_self (by decide) hcomposite
  have hlarge : groupOrder ≤ 2 * fieldOrder.minFac + 1 :=
    groupOrder_le_of_dvd (Nat.minFac_dvd fieldOrder)
  -- The least factor squares to at most `p`, while `r` squares to far more than `4p`.
  have hfour : 4 * fieldOrder < (groupOrder - 1) * (groupOrder - 1) := by decide
  have hhalf : groupOrder - 1 ≤ 2 * fieldOrder.minFac := by omega
  have := Nat.mul_le_mul hhalf hhalf
  nlinarith

instance : Fact fieldOrder.Prime := ⟨fieldOrder_prime⟩

end Bls12

end BilinearGroups
