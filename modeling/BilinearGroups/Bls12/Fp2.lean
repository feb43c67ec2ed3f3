import BilinearGroups.Bls12.Fields

/-!
# The quadratic extension of the coordinate field

The field `Fp[u] / (u² + 1)`. It is a field because `-1` is not a square modulo the field order. The
second source group has its coordinates here, and the towers above it are built over it with the
element `ξ = 1 + u`, which is neither a square nor a cube.

Square roots are found by the norm: if `(c + d u)² = a + b u` then the norm of the left side is the
square of `c² + d²`, so a root of the norm of `a + b u` gives `c²` up to one choice of sign. Every
candidate is squared before it is returned.
-/

namespace BilinearGroups.Bls12

/-- The element `c0 + c1 u` of the quadratic extension. -/
structure Fp2 where
  /-- The constant coefficient. -/
  c0 : Fp
  /-- The coefficient of `u`. -/
  c1 : Fp
deriving DecidableEq

namespace Fp2

instance : Zero Fp2 := ⟨⟨0, 0⟩⟩

instance : One Fp2 := ⟨⟨1, 0⟩⟩

instance : Inhabited Fp2 := ⟨0⟩

instance : Add Fp2 := ⟨fun a b ↦ ⟨a.c0 + b.c0, a.c1 + b.c1⟩⟩

instance : Sub Fp2 := ⟨fun a b ↦ ⟨a.c0 - b.c0, a.c1 - b.c1⟩⟩

instance : Neg Fp2 := ⟨fun a ↦ ⟨-a.c0, -a.c1⟩⟩

/-- The product, with `u² = -1`. -/
protected def mul (a b : Fp2) : Fp2 :=
  let s := a.c0 * b.c0
  let t := a.c1 * b.c1
  ⟨s - t, (a.c0 + a.c1) * (b.c0 + b.c1) - s - t⟩

instance : Mul Fp2 := ⟨Fp2.mul⟩

/-- The conjugate, which is also the image under the `p`-th power. -/
def conj (a : Fp2) : Fp2 := ⟨a.c0, -a.c1⟩

/-- The product of an element and its conjugate. -/
def norm (a : Fp2) : Fp := a.c0 * a.c0 + a.c1 * a.c1

/-- The product with a coordinate. -/
def scale (k : Fp) (a : Fp2) : Fp2 := ⟨k * a.c0, k * a.c1⟩

/-- The inverse, and zero for zero. -/
protected def inv (a : Fp2) : Fp2 := scale a.norm⁻¹ a.conj

instance : Inv Fp2 := ⟨Fp2.inv⟩

/-- The product with `ξ = 1 + u`. -/
def timesXi (a : Fp2) : Fp2 := ⟨a.c0 - a.c1, a.c0 + a.c1⟩

/-! ## Bytes and signs -/

/-- The number of bytes of an element. -/
def width : Nat := 96

/-- The big-endian bytes of the two coefficients, that of `u` first. -/
def toBytes (a : Fp2) : Bytes := a.c1.toBytes ++ a.c0.toBytes

/-- The element with these big-endian bytes. -/
def ofBytes? (bs : Bytes) : Option Fp2 := do
  let c1 ← Fp.ofBytes? (bs.take Fp.width)
  let c0 ← Fp.ofBytes? (bs.drop Fp.width)
  return ⟨c0, c1⟩

/-- The larger of a nonzero element and its negative, by the coefficient of `u` and then by the
constant one. -/
def isLarger (a : Fp2) : Bool := if a.c1 = 0 then a.c0.isLarger else a.c1.isLarger

/-- The odd one of a nonzero element and its negative, by the constant coefficient and then by that
of `u`. -/
def isOdd (a : Fp2) : Bool := if a.c0 = 0 then a.c1.isOdd else a.c0.isOdd

/-! ## Square roots -/

/-- The element with square `a`, for a candidate that has it. -/
def checkedRoot? (a c : Fp2) : Option Fp2 := if c * c = a then some c else none

/-- The candidate `c + (a.c1 / 2c) u` for the root with constant coefficient `c`, where `c² = d`. -/
def rootOfHalfNorm? (a : Fp2) (d : Fp) : Option Fp2 := do
  let c ← Fp.sqrt? d
  checkedRoot? a ⟨c, a.c1 * (c + c)⁻¹⟩

/-- A square root of an element. An element of the coordinate field has its root there, or is the
square of a multiple of `u`. -/
def sqrt? (a : Fp2) : Option Fp2 :=
  if a.c1 = 0 then
    match Fp.sqrt? a.c0 with
    | some s => some ⟨s, 0⟩
    | none => (Fp.sqrt? (-a.c0)).bind fun s ↦ checkedRoot? a ⟨0, s⟩
  else do
    let s ← Fp.sqrt? a.norm
    let half : Fp := (1 + 1)⁻¹
    match rootOfHalfNorm? a (half * (a.c0 + s)) with
    | some c => some c
    | none => rootOfHalfNorm? a (half * (a.c0 - s))

end Fp2

end BilinearGroups.Bls12
