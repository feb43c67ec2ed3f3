import BilinearGroups.Curve.Point

/-!
# From a field element to a point

A field element is sent to a curve `y² = x³ + a x + b` with nonzero coefficients by the simplified
map of Shallue, van de Woestijne and Ulas: of two abscissae computed from the element at least one
belongs to a point, and the parity of the ordinate follows the parity of the element. The curves of
the source groups have `a = 0`, where the map is not defined, so the map goes to an isogenous curve,
and an isogeny leads from there to the curve of the group.

The isogeny is given by its kernel. By Vélu's formulas the abscissa of the image is a sum over the
kernel, and the ordinate is the ordinate times the derivative of that sum; a point of the kernel and
its negative share one term, so only the abscissae of the kernel are stored. An isomorphism then
scales the image curve to the curve of the group.
-/

namespace BilinearGroups

/-- A curve `y² = x³ + a x + b` with the data of the simplified map to it and of an isogeny from
it. -/
structure SimplifiedMap (F : Type) where
  /-- The linear coefficient of the curve. -/
  a : F
  /-- The constant coefficient of the curve. -/
  b : F
  /-- The element, not a square, that relates the two abscissae. -/
  z : F
  /-- The abscissae of the points of the kernel of the isogeny, other than infinity. -/
  kernel : List F
  /-- The isomorphism after the isogeny multiplies abscissae by the square of this and ordinates by
  its cube. -/
  scale : F
  /-- A square root of an element. -/
  sqrt? : F → Option F
  /-- The odd one of an element and its negative. -/
  isOdd : F → Bool

namespace SimplifiedMap

variable {F : Type} [DecidableEq F] [Zero F] [One F] [Add F] [Sub F] [Neg F] [Mul F] [Inv F]
variable (M : SimplifiedMap F)

/-- The right side of the equation of the curve. -/
def rhs (x : F) : F := (x * x + M.a) * x + M.b

/-- The point of the curve that belongs to an element, as a pair of coordinates. -/
def point (u : F) : F × F :=
  let zu := M.z * (u * u)
  let t := zu * zu + zu
  let x := if t = 0 then M.b * (M.z * M.a)⁻¹ else -(M.b * M.a⁻¹) * (1 + t⁻¹)
  let matchParity (y : F) : F := if M.isOdd u = M.isOdd y then y else -y
  match M.sqrt? (M.rhs x) with
  | some y => (x, matchParity y)
  | none =>
    let x' := zu * x
    (x', matchParity ((M.sqrt? (M.rhs x')).getD 0))

/-- The contribution of a kernel point and its negative, of abscissa `q`, to the abscissa of the
image of a point of abscissa `x`, and to its derivative. -/
def kernelTerm (x q : F) : F × F :=
  let d := (x - q)⁻¹
  let s := q * q
  let t := (s + s + s + M.a) + (s + s + s + M.a)
  let w := M.rhs q + M.rhs q + M.rhs q + M.rhs q
  let wd := w * d
  ((t + wd) * d, -((t + wd + wd) * (d * d)))

/-- The image of a point under the isogeny. -/
def isogeny (x y : F) : Point F :=
  if x ∈ M.kernel then .infinity
  else
    let terms := M.kernel.map (M.kernelTerm x)
    let image := terms.foldl (fun s t ↦ s + t.1) x
    let derivative := terms.foldl (fun s t ↦ s + t.2) 1
    let s := M.scale * M.scale
    .affine (s * image) (s * M.scale * (y * derivative))

/-- The point of the curve of the group that belongs to an element. -/
def map (u : F) : Point F :=
  let (x, y) := M.point u
  M.isogeny x y

end SimplifiedMap

end BilinearGroups
