import BilinearGroups.Bls12.Fp6

/-!
# The field of the target group

The field `Fp6[w] / (w² - v)`. In terms of `w` alone an element is `a₀ + a₁ w + ⋯ + a₅ w⁵` with
coefficients in the quadratic extension and `w⁶ = ξ`, which is the form in which powers by the field
order act one coefficient at a time.
-/

namespace BilinearGroups.Bls12

/-- The element `c0 + c1 w`. -/
structure Fp12 where
  /-- The constant coefficient. -/
  c0 : Fp6
  /-- The coefficient of `w`. -/
  c1 : Fp6
deriving DecidableEq

namespace Fp12

instance : Zero Fp12 := ⟨⟨0, 0⟩⟩

instance : One Fp12 := ⟨⟨1, 0⟩⟩

instance : Inhabited Fp12 := ⟨1⟩

/-- The product, with `w² = v`. The mixed products come from the product of sums. -/
protected def mul (a b : Fp12) : Fp12 :=
  let s := a.c0 * b.c0
  let t := a.c1 * b.c1
  ⟨s + t.timesV, (a.c0 + a.c1) * (b.c0 + b.c1) - s - t⟩

instance : Mul Fp12 := ⟨Fp12.mul⟩

/-- The conjugate over the cubic extension, which is also the image under the `p⁶`-th power. It
inverts the elements whose order divides `p⁶ + 1`. -/
def conj (a : Fp12) : Fp12 := ⟨a.c0, -a.c1⟩

/-- The product of an element and its conjugate. -/
def norm (a : Fp12) : Fp6 := a.c0 * a.c0 - (a.c1 * a.c1).timesV

/-- The inverse, and zero for zero. -/
protected def inv (a : Fp12) : Fp12 :=
  let d := a.norm⁻¹
  ⟨d * a.c0, -(d * a.c1)⟩

instance : Inv Fp12 := ⟨Fp12.inv⟩

/-! ## The image under the `p²`-th power -/

/-- The sixth root of unity `ξ ^ ((p² - 1) / 6)`, by which the `p²`-th power multiplies `w`. -/
def sixthRoot : Fp :=
  ⟨0x5f19672fdf76ce51ba69c6076a0f77eaddb3a93be6f89688de17d813620a00022e01fffffffeffff, by decide⟩

/-- The image under the `p²`-th power, which fixes the quadratic extension and multiplies the
coefficient of `wⁱ` by the `i`-th power of the sixth root of unity. -/
def frobeniusSquared (a : Fp12) : Fp12 :=
  let z1 := sixthRoot
  let z2 := z1 * z1
  let z4 := z2 * z2
  ⟨⟨a.c0.c0, a.c0.c1.scale z2, a.c0.c2.scale z4⟩,
   ⟨a.c1.c0.scale z1, -a.c1.c1, a.c1.c2.scale (z4 * z1)⟩⟩

/-! ## Coefficients -/

/-- The twelve coefficients in the coordinate field, from the constant one up. -/
def coefficients (a : Fp12) : List Fp := a.c0.coefficients ++ a.c1.coefficients

/-- The element with these twelve coefficients. -/
def ofCoefficients? (cs : List Fp) : Option Fp12 := do
  let c0 ← Fp6.ofCoefficients? (cs.take 6)
  let c1 ← Fp6.ofCoefficients? (cs.drop 6)
  return ⟨c0, c1⟩

end Fp12

end BilinearGroups.Bls12
