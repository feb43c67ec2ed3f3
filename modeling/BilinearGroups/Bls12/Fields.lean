import BilinearGroups.Algebra
import BilinearGroups.Bytes

/-!
# The fields of BLS12-381

The curve family fixes everything from one integer, the parameter `x = -0xd201000000010000`:

* the order of the groups is `r = x⁴ - x² + 1`,
* the coordinates lie in the field of `p = (x - 1)² r / 3 + x` elements.

Both are written out as literals, and examples check the literals against the formulas. The
parameter itself is negative and is kept by its absolute value, which is what the loops over its
digits run through.
-/

namespace BilinearGroups.Bls12

/-- The absolute value of the parameter of the curve family. -/
def parameter : Nat := 0xd201000000010000

/-- The number of elements of the field of coordinates. -/
def fieldOrder : Nat :=
  0x1a0111ea397fe69a4b1ba7b6434bacd764774b84f38512bf6730d2a0f6b0f6241eabfffeb153ffffb9feffffffffaaab

/-- The order of the three groups, and the number of scalars. -/
def groupOrder : Nat := 0x73eda753299d7d483339d80809a1d80553bda402fffe5bfeffffffff00000001

/-- The number of points of the curve over the field of coordinates, divided by the group order. -/
def cofactorG1 : Nat := 0x396c8c005555e1568c00aaab0000aaab

/-- The number of points of the twisted curve over the quadratic extension, divided by the group
order. -/
def cofactorG2 : Nat :=
  0x5d543a95414e7f1091d50792876a202cd91de4547085abaa68a205b2e5a7ddfa628f1cb4d9e82ef21537e293a6691ae1616ec6e786f0c70cf1c38e31c7238e5

-- The orders from the parameter, and the points over the field of coordinates from the trace
-- `x + 1`.
example : groupOrder = (parameter * parameter - 1) * (parameter * parameter) + 1 := by decide

example : 3 * (fieldOrder + parameter) = (parameter + 1) * (parameter + 1) * groupOrder := by decide

example : cofactorG1 * groupOrder = fieldOrder + parameter := by decide

instance : Modulus fieldOrder := ⟨by decide⟩

instance : Modulus groupOrder := ⟨by decide⟩

/-- The field of coordinates. -/
abbrev Fp := Residue fieldOrder

/-- The field of scalars. -/
abbrev Fr := Residue groupOrder

/-! ## Coordinates

What the encodings and the hash maps need of a coordinate, beyond arithmetic: its bytes in either
order, its sign and its square roots. A field element of a coordinate field has 48 bytes, and only
representatives below the field order are read.
-/

namespace Fp

/-- The number of bytes of a coordinate. -/
def width : Nat := 48

/-- The big-endian bytes of a coordinate. -/
def toBytes (a : Fp) : Bytes := Bytes.ofNatBE width a.val

/-- The coordinate with these big-endian bytes, if they spell an integer below the field order. -/
def ofBytes? (bs : Bytes) : Option Fp := Residue.ofNat? fieldOrder (Bytes.toNatBE bs)

/-- The little-endian bytes of a coordinate. -/
def toBytesLE (a : Fp) : Bytes := Bytes.ofNatLE width a.val

/-- The coordinate with these little-endian bytes, if they spell an integer below the field
order. -/
def ofBytesLE? (bs : Bytes) : Option Fp := Residue.ofNat? fieldOrder (Bytes.toNatLE bs)

/-- A nonzero coordinate and its negative differ in size; this one is the larger. -/
def isLarger (a : Fp) : Bool := fieldOrder < 2 * a.val

/-- A nonzero coordinate and its negative differ in parity; this one is odd. -/
def isOdd (a : Fp) : Bool := a.val % 2 == 1

/-- A square root of a coordinate. -/
def sqrt? (a : Fp) : Option Fp := Residue.sqrt? a

end Fp

end BilinearGroups.Bls12
