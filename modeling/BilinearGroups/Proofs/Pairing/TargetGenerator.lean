import Mathlib.RingTheory.RootsOfUnity.PrimitiveRoots
import BilinearGroups.Proofs.Bls12.TargetEncoding
import BilinearGroups.Proofs.Pairing.FinalPower

/-!
# The generator of the target group

The final power moves every field element but zero into the target group: its first part gives an
element whose order divides `p⁴ - p² + 1`, and the exponent of the second part is a multiple of
that number over `r`.

The pairing of the two generators is not one, which has to be computed. As `r` is prime, its order
is then `r`, and every member of the target group is a power of it.
-/

namespace BilinearGroups.Bls12

/-! ## The two parts of the final power -/

/-- The part of the final power with exponent `(p⁶ - 1) (p² + 1)`. -/
def easyPower (f : Fp12) : Fp12 := (f.conj * f⁻¹).frobeniusSquared * (f.conj * f⁻¹)

theorem finalPower_eq (f : Fp12) : finalPower f = easyPower f ^ hardExponent := power_eq_pow _ _

theorem easyPower_zero : easyPower 0 = 0 := by rw [easyPower, inv_zero, mul_zero, mul_zero]

section EasyPower

variable {f : Fp12} (hf : f ≠ 0)

include hf

/-- The first part leaves an element of an order that divides `p⁴ - p² + 1`. -/
theorem easyPower_pow : easyPower f ^ (fieldOrder ^ 4 - fieldOrder ^ 2 + 1) = 1 := by
  have hexp : (fieldOrder ^ 2 + 1) * (fieldOrder ^ 4 - fieldOrder ^ 2 + 1) = fieldOrder ^ 6 + 1 :=
    by decide
  have hconj : f.conj ≠ 0 := by
    rw [← Fp12.pow_eq_conj]
    exact pow_ne_zero _ hf
  have hinv : (f.conj * f⁻¹).conj * (f.conj * f⁻¹) = 1 := by
    rw [Fp12.conj_mul, Fp12.conj_conj, Fp12.conj_inv]
    field_simp
  rw [easyPower, Fp12.frobeniusSquared_eq_pow, ← pow_succ, ← pow_mul, hexp, pow_succ,
    Fp12.pow_eq_conj, hinv]

/-- Conjugation inverts what the first part leaves. -/
theorem easyPower_mul_conj : easyPower f * (easyPower f).conj = 1 :=
  Fp12.mul_conj_of_pow (easyPower_pow hf) (by decide)

theorem targetMember_finalPower : TargetMember (finalPower f) := by
  have hexp : hardExponent * groupOrder = (fieldOrder ^ 4 - fieldOrder ^ 2 + 1) * 3 := by decide
  rw [targetMember_iff, finalPower_eq, ← pow_mul, hexp, pow_mul, easyPower_pow hf, one_pow]

end EasyPower

/-! ## A certificate

Raising to the exponent of the second part digit by digit takes long. Three times that exponent is a
sum of multiples of `r` and of the parameter, whose absolute value `t` has few digits that are one.
-/

/-- The power with exponent `(t + 1)²`. -/
private def raiseNext (a : Fp12) : Fp12 :=
  let b := power a parameter * a
  power b parameter * b

private theorem raiseNext_eq (a : Fp12) :
    raiseNext a = a ^ ((parameter + 1) * (parameter + 1)) := by
  simp only [raiseNext, power_eq_pow, ← pow_succ, ← pow_mul]
  rw [← pow_add, ← Nat.mul_succ]

/-- The exponent `(t + 1)² (t² + p² - 1)`. -/
private def longExponent : ℕ :=
  (parameter + 1) * (parameter + 1) * (parameter ^ 2 + fieldOrder ^ 2 - 1)

/-- The power with exponent `(t + 1)² (t² + p² - 1)` of an element that conjugation inverts. -/
private def raiseLong (a : Fp12) : Fp12 :=
  let b := raiseNext a
  power (power b parameter) parameter * b.frobeniusSquared * b.conj

private theorem raiseLong_eq {a : Fp12} (ha : a * a.conj = 1) : raiseLong a = a ^ longExponent := by
  have hb : raiseNext a * (raiseNext a).conj = 1 := by
    rw [raiseNext_eq, ← Fp12.pow_eq_conj, pow_right_comm, Fp12.pow_eq_conj, ← mul_pow, ha, one_pow]
  have hpred : parameter ^ 2 + fieldOrder ^ 2 = (parameter ^ 2 + fieldOrder ^ 2 - 1).succ := by
    decide
  calc raiseLong a
      = raiseNext a ^ (parameter ^ 2 + fieldOrder ^ 2) * (raiseNext a).conj := by
        simp only [raiseLong, power_eq_pow, Fp12.frobeniusSquared_eq_pow, ← pow_mul, ← sq,
          ← pow_add]
    _ = raiseNext a ^ (parameter ^ 2 + fieldOrder ^ 2 - 1) := by
        conv_lhs => rw [hpred, pow_succ, mul_assoc, hb, mul_one]
    _ = a ^ longExponent := by rw [raiseNext_eq, ← pow_mul, longExponent]

/-- The two sides of an equation that holds if the final power with first part `a` is one. -/
private def certificate (a : Fp12) : Fp12 × Fp12 :=
  let b := raiseLong a
  (raiseNext (power b groupOrder) * power a 9, power (power b parameter) 6)

private theorem certificate_eq {a : Fp12} (ha : a * a.conj = 1) (hone : a ^ hardExponent = 1) :
    (certificate a).1 = (certificate a).2 := by
  have hexp : longExponent * groupOrder * ((parameter + 1) * (parameter + 1)) + 9
      = hardExponent * 3 + longExponent * parameter * 6 := by
    decide
  simp only [certificate, raiseNext_eq, raiseLong_eq ha, power_eq_pow, ← pow_mul]
  rw [← pow_add, hexp, pow_add, pow_mul, hone, one_pow, one_mul]

private theorem certificate_zero : (certificate 0).1 = (certificate 0).2 := by
  have hlong : raiseLong 0 = 0 := by
    rw [raiseLong, raiseNext_eq, zero_pow (by decide), ← Fp12.pow_eq_conj, zero_pow (by decide),
      mul_zero]
  have hnine : (0 : Fp12) ^ 9 = 0 := zero_pow (by decide)
  have hsix : (0 ^ parameter : Fp12) ^ 6 = 0 := by
    rw [← pow_mul]
    exact zero_pow (by decide)
  simp only [certificate, hlong, power_eq_pow, hnine, hsix, mul_zero]

private theorem of_certificate {f : Fp12}
    (h : (certificate (easyPower f)).1 ≠ (certificate (easyPower f)).2) :
    f ≠ 0 ∧ finalPower f ≠ 1 := by
  have hf : f ≠ 0 := by
    rintro rfl
    rw [easyPower_zero] at h
    exact h certificate_zero
  refine ⟨hf, fun hone ↦ h (certificate_eq (easyPower_mul_conj hf) ?_)⟩
  rw [← finalPower_eq, hone]

-- Comparing one coefficient is enough, and the representatives of residues are numbers.
set_option maxRecDepth 100000 in
private theorem certificate_ne :
    (certificate (easyPower (millerLoop G1.generator G2.generator))).1.c0.c0.c0.val
      ≠ (certificate (easyPower (millerLoop G1.generator G2.generator))).2.c0.c0.c0.val := by
  decide +kernel

/-! ## The generator -/

private theorem generators_ne :
    millerLoop G1.generator G2.generator ≠ 0 ∧ targetGenerator ≠ 1 := by
  rw [targetGenerator, pairing]
  exact of_certificate fun h ↦ certificate_ne (congrArg (fun a : Fp12 ↦ a.c0.c0.c0.val) h)

theorem targetMember_targetGenerator : TargetMember targetGenerator := by
  rw [targetGenerator, pairing]
  exact targetMember_finalPower generators_ne.1

theorem orderOf_targetGenerator : orderOf targetGenerator = groupOrder :=
  have : Fact groupOrder.Prime := ⟨groupOrder_prime⟩
  orderOf_eq_prime (targetMember_iff.mp targetMember_targetGenerator) generators_ne.2

/-- Every member of the target group is a power of an element of order `r`. -/
theorem TargetMember.exists_power {f g : Fp12} (hf : TargetMember f)
    (hg : orderOf g = groupOrder) : ∃ n, BilinearGroups.power g n = f := by
  have hroot : IsPrimitiveRoot g groupOrder := by
    rw [← hg]
    exact .orderOf g
  have : NeZero groupOrder := ⟨groupOrder_prime.ne_zero⟩
  obtain ⟨n, -, hn⟩ := hroot.eq_pow_of_pow_eq_one (targetMember_iff.mp hf)
  exact ⟨n, (power_eq_pow g n).trans hn⟩

end BilinearGroups.Bls12
