import BilinearGroups.Bls12.Fp12
import BilinearGroups.Bls12.SourceCurve

/-!
# The pairing of BLS12-381

The pairing of `P` and `Q` starts from a function on the curve with divisor given by the multiples
of `Q`, evaluated at `P`, and a power takes this value into the subgroup of order `r`.
-/

namespace BilinearGroups.Bls12

/-! ## The Miller loop

The loop runs over the digits of the parameter, keeps a multiple `T` of `Q`, and multiplies into its
value the tangent at `T` or the line through `T` and `Q`, evaluated at `P`.

The multiple is kept in homogeneous coordinates `(x : y : z)`, so a step needs no division, and a
line is known only up to a factor in the quadratic extension. Such factors do not survive the final
exponentiation.
-/

namespace Miller

/-- Homogeneous coordinates of a point of the twisted curve. -/
structure Homogeneous where
  (x y z : Fp2)

/-- A line: its value at `(x, y)` is `c + cx x v + cy y v w`. -/
structure Line where
  /-- The constant coefficient. -/
  c : Fp2
  /-- The coefficient of the abscissa. -/
  cx : Fp2
  /-- The coefficient of the ordinate. -/
  cy : Fp2

/-- The value of a line at a pair of coordinates. -/
def Line.eval (l : Line) (x y : Fp) : Fp12 := ⟨⟨l.c, l.cx.scale x, 0⟩, ⟨0, l.cy.scale y, 0⟩⟩

/-- Three times an element. -/
def triple (a : Fp2) : Fp2 := a + a + a

/-- Half of the sum `a + b`. -/
def average (a b : Fp2) : Fp2 := (a + b).scale (1 + 1)⁻¹

/-- Twice a point, and the tangent there. -/
def double (T : Homogeneous) : Homogeneous × Line :=
  let b := T.y * T.y
  let c := T.z * T.z
  let e := G2.curve.b * triple c
  let f := triple e
  let g := average b f
  let h := (T.y + T.z) * (T.y + T.z) - (b + c)
  let i := e - b
  let j := T.x * T.x
  (⟨average (T.x * T.y) 0 * (b - f), g * g - triple (e * e), b * h⟩, ⟨i, triple j, -h⟩)

/-- The sum of a point and the point `(x, y)`, and the line through them. -/
def add (T : Homogeneous) (x y : Fp2) : Homogeneous × Line :=
  let theta := T.y - y * T.z
  let lambda := T.x - x * T.z
  let c := theta * theta
  let d := lambda * lambda
  let e := lambda * d
  let f := T.z * c
  let g := T.x * d
  let h := e + f - (g + g)
  (⟨lambda * h, theta * (g - h) - e * T.y, T.z * e⟩,
   ⟨theta * x - lambda * y, -theta, lambda⟩)

/-- One step of the loop for `P = (px, py)` and `Q = (qx, qy)`, at one digit of the parameter. -/
def step (px py : Fp) (qx qy : Fp2) (s : Fp12 × Homogeneous) (digit : Bool) : Fp12 × Homogeneous :=
  let (T, tangent) := double s.2
  let f := s.1 * s.1 * tangent.eval px py
  if digit then
    let (T, chord) := add T qx qy
    (f * chord.eval px py, T)
  else (f, T)

end Miller

/-- The value of the Miller loop. The parameter is negative, hence the conjugate at the end; a pair
with a point at infinity has the value one. -/
def millerLoop : Point Fp → Point Fp2 → Fp12
  | .affine px py, .affine qx qy =>
    let digits := (binaryDigits parameter).tail
    (digits.foldl (Miller.step px py qx qy) (1, ⟨qx, qy, 1⟩)).1.conj
  | _, _ => 1

/-! ## The final power

The exponent is `3 (p¹² - 1) / r`, which factors as `(p⁶ - 1) (p² + 1)` times `3 (p⁴ - p² + 1) / r`:
the first factor is a conjugation, an inverse and one image under the `p²`-th power, and only the
second is raised digit by digit.

A product of pairings shares the power: the values of the loops are multiplied first.
-/

/-- The part `3 (p⁴ - p² + 1) / r` of the final exponent that is raised digit by digit. -/
def hardExponent : Nat :=
  let square := fieldOrder * fieldOrder
  3 * ((square * square - square + 1) / groupOrder)

/-- The power with exponent `3 (p¹² - 1) / r`. -/
def finalPower (f : Fp12) : Fp12 :=
  let g := f.conj * f⁻¹
  power (g.frobeniusSquared * g) hardExponent

/-- The pairing of two points. -/
def pairing (P : Point Fp) (Q : Point Fp2) : Fp12 := finalPower (millerLoop P Q)

/-- The product of the pairings of corresponding points. -/
def pairingProduct (Ps : List (Point Fp)) (Qs : List (Point Fp2)) : Fp12 :=
  finalPower ((List.zipWith millerLoop Ps Qs).foldl (· * ·) 1)

/-- The pairing of the two generators. -/
def targetGenerator : Fp12 := pairing G1.generator G2.generator

/-- The element belongs to the target group: its order divides `r`. -/
def TargetMember (f : Fp12) : Prop := power f groupOrder = 1

instance (f : Fp12) : Decidable (TargetMember f) := inferInstanceAs (Decidable (_ = _))

end BilinearGroups.Bls12
