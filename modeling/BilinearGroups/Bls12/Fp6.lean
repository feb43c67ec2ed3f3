import BilinearGroups.Bls12.Fp2

/-!
# The cubic extension of the quadratic one

The field `Fp2[v] / (v³ - ξ)` with `ξ = 1 + u`. Its elements are the halves of target group
elements, and the short encoding of a target group element is one element of this field.
-/

namespace BilinearGroups.Bls12

/-- The element `c0 + c1 v + c2 v²`. -/
structure Fp6 where
  /-- The constant coefficient. -/
  c0 : Fp2
  /-- The coefficient of `v`. -/
  c1 : Fp2
  /-- The coefficient of `v²`. -/
  c2 : Fp2
deriving DecidableEq

namespace Fp6

instance : Zero Fp6 := ⟨⟨0, 0, 0⟩⟩

instance : One Fp6 := ⟨⟨1, 0, 0⟩⟩

instance : Inhabited Fp6 := ⟨0⟩

instance : Add Fp6 := ⟨fun a b ↦ ⟨a.c0 + b.c0, a.c1 + b.c1, a.c2 + b.c2⟩⟩

instance : Sub Fp6 := ⟨fun a b ↦ ⟨a.c0 - b.c0, a.c1 - b.c1, a.c2 - b.c2⟩⟩

instance : Neg Fp6 := ⟨fun a ↦ ⟨-a.c0, -a.c1, -a.c2⟩⟩

/-- The product, with `v³ = ξ`. The mixed products come from products of sums. -/
protected def mul (a b : Fp6) : Fp6 :=
  let s := a.c0 * b.c0
  let t := a.c1 * b.c1
  let w := a.c2 * b.c2
  ⟨s + ((a.c1 + a.c2) * (b.c1 + b.c2) - t - w).timesXi,
   (a.c0 + a.c1) * (b.c0 + b.c1) - s - t + w.timesXi,
   (a.c0 + a.c2) * (b.c0 + b.c2) - s - w + t⟩

instance : Mul Fp6 := ⟨Fp6.mul⟩

/-- The product with an element of the quadratic extension. -/
def scale (k : Fp2) (a : Fp6) : Fp6 := ⟨k * a.c0, k * a.c1, k * a.c2⟩

/-- The product with `v`. -/
def timesV (a : Fp6) : Fp6 := ⟨a.c2.timesXi, a.c0, a.c1⟩

/-- The product of the two other conjugates over the quadratic extension. -/
def adjoint (a : Fp6) : Fp6 :=
  ⟨a.c0 * a.c0 - (a.c1 * a.c2).timesXi,
   (a.c2 * a.c2).timesXi - a.c0 * a.c1,
   a.c1 * a.c1 - a.c0 * a.c2⟩

/-- The product of an element and its adjoint, which lies in the quadratic extension. -/
def norm (a : Fp6) : Fp2 :=
  let d := a.adjoint
  a.c0 * d.c0 + (a.c1 * d.c2 + a.c2 * d.c1).timesXi

/-- The inverse, and zero for zero. -/
protected def inv (a : Fp6) : Fp6 := scale a.norm⁻¹ a.adjoint

instance : Inv Fp6 := ⟨Fp6.inv⟩

/-! ## Coefficients -/

/-- The six coefficients in the coordinate field, from the constant one up. -/
def coefficients (a : Fp6) : List Fp := [a.c0.c0, a.c0.c1, a.c1.c0, a.c1.c1, a.c2.c0, a.c2.c1]

/-- The element with these six coefficients. -/
def ofCoefficients? : List Fp → Option Fp6
  | [a, b, c, d, e, f] => some ⟨⟨a, b⟩, ⟨c, d⟩, ⟨e, f⟩⟩
  | _ => none

end Fp6

end BilinearGroups.Bls12
