import BilinearGroups.Algebra

/-!
# Points of a curve `y² = x³ + b`

A point is the point at infinity or a pair of coordinates. Sums are taken by chord and tangent. The
coefficient `b` does not occur in the formulas: through any point off the origin there is exactly
one curve of the family, and the formulas add on it. Whether a pair lies on the curve that a group
is defined over is therefore a question of its own (`OnCurve`), and it is asked where points are
read.

A point has one representation, so equality of values is equality of points, and an encoding may
depend on the coordinates.
-/

namespace BilinearGroups

/-- The point at infinity, or a pair of coordinates. -/
inductive Point (F : Type) where
  /-- The point at infinity. -/
  | infinity
  /-- The point with these coordinates. -/
  | affine (x y : F)
deriving DecidableEq

namespace Point

variable {F : Type} [DecidableEq F] [Zero F] [Add F] [Sub F] [Neg F] [Mul F] [Inv F]

instance : Inhabited (Point F) := ⟨infinity⟩

/-- The point lies on the curve `y² = x³ + b`. -/
def OnCurve (b : F) : Point F → Prop
  | infinity => True
  | affine x y => y * y = x * x * x + b

instance (b : F) (P : Point F) : Decidable (OnCurve b P) :=
  match P with
  | infinity => isTrue trivial
  | affine x y => inferInstanceAs (Decidable (y * y = x * x * x + b))

/-- The reflection of a point in the axis. -/
protected def neg : Point F → Point F
  | infinity => infinity
  | affine x y => affine x (-y)

instance : Neg (Point F) := ⟨Point.neg⟩

/-- The third intersection of a line of the given slope with the curve through two points with these
abscissae, reflected; the line passes through `(x, y)`. -/
@[specialize] def onLine (slope x y x' : F) : Point F :=
  let x'' := slope * slope - x - x'
  affine x'' (slope * (x - x'') - y)

/-- The sum of two points. -/
@[specialize] protected def add : Point F → Point F → Point F
  | infinity, Q => Q
  | P, infinity => P
  | affine x y, affine x' y' =>
    if x ≠ x' then onLine ((y' - y) * (x' - x)⁻¹) x y x'
    else if y ≠ y' ∨ y = -y then infinity
    else
      let s := x * x
      onLine ((s + s + s) * (y + y)⁻¹) x y x

instance : Add (Point F) := ⟨Point.add⟩

instance : Sub (Point F) := ⟨fun P Q ↦ P + -Q⟩

/-- The sum of `n` copies of a point. -/
@[specialize] def multiple (n : Nat) (P : Point F) : Point F :=
  combineTimes (· + ·) infinity P n

end Point

end BilinearGroups
