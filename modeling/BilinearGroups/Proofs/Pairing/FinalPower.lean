import BilinearGroups.Bls12.Pairing
import BilinearGroups.Proofs.Bls12.TowerFields

/-!
# The final power of a product

A product of pairings shares its final power. It is the product of the single pairings because the
final power is multiplicative, on the whole field and not only on the values of Miller loops:
conjugation and the map on coefficients are powers by `p⁶` and `p²`, and inversion and powers are
multiplicative, each for itself.
-/

namespace BilinearGroups.Bls12

namespace Fp12

theorem conj_mul (a b : Fp12) : (a * b).conj = a.conj * b.conj := by
  rw [← pow_eq_conj, ← pow_eq_conj, ← pow_eq_conj, mul_pow]

theorem conj_one : conj 1 = 1 := by rw [← pow_eq_conj, one_pow]

theorem conj_inv (a : Fp12) : a⁻¹.conj = a.conj⁻¹ := by
  rw [← pow_eq_conj, ← pow_eq_conj, inv_pow]

theorem conj_conj (a : Fp12) : a.conj.conj = a := by ext1 <;> simp [conj]

theorem frobeniusSquared_mul (a b : Fp12) :
    (a * b).frobeniusSquared = a.frobeniusSquared * b.frobeniusSquared := by
  rw [frobeniusSquared_eq_pow, mul_pow, ← frobeniusSquared_eq_pow, ← frobeniusSquared_eq_pow]

theorem frobeniusSquared_one : frobeniusSquared 1 = 1 := by rw [frobeniusSquared_eq_pow, one_pow]

end Fp12

/-! ## The final power -/

theorem finalPower_mul (f g : Fp12) : finalPower (f * g) = finalPower f * finalPower g := by
  simp only [finalPower, power_eq_pow, Fp12.conj_mul, mul_inv, Fp12.frobeniusSquared_mul, mul_pow]
  ring

theorem finalPower_one : finalPower 1 = 1 := by
  simp only [finalPower, power_eq_pow, Fp12.conj_one, inv_one, mul_one, Fp12.frobeniusSquared_one,
    one_pow]

/-- The final power of a running product is the running product of the final powers. -/
theorem finalPower_foldl (fs : List Fp12) (f : Fp12) :
    finalPower (fs.foldl (· * ·) f) = (fs.map finalPower).foldl (· * ·) (finalPower f) := by
  induction fs generalizing f with
  | nil => rw [List.map_nil, List.foldl_nil, List.foldl_nil]
  | cons g fs ih => rw [List.foldl_cons, ih, finalPower_mul, List.map_cons, List.foldl_cons]

/-- A product of pairings is the product of the single pairings. -/
theorem pairingProduct_eq_foldl (Ps : List (Point Fp)) (Qs : List (Point Fp2)) :
    pairingProduct Ps Qs = (List.zipWith pairing Ps Qs).foldl (· * ·) 1 := by
  have hmap : (List.zipWith millerLoop Ps Qs).map finalPower = List.zipWith pairing Ps Qs :=
    List.map_zipWith ..
  calc pairingProduct Ps Qs
      = ((List.zipWith millerLoop Ps Qs).map finalPower).foldl (· * ·) (finalPower 1) :=
        finalPower_foldl _ 1
    _ = (List.zipWith pairing Ps Qs).foldl (· * ·) 1 := by rw [hmap, finalPower_one]

end BilinearGroups.Bls12
