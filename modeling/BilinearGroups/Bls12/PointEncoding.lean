import BilinearGroups.Bls12.SourceCurve

/-!
# Encodings of points

A point is written as its coordinates, or in compressed form as its abscissa and one bit for the
ordinate. Coordinates are below `2 ^ 381`, so three bits of the first byte are free, and they say
what follows: bit `0x80` that the form is compressed, bit `0x40` that the point is at infinity, bit
`0x20` that the ordinate is the larger of two. All bits other than the flags are zero for the point
at infinity.

Reading a compressed form ends with the test for membership. The full form has two readers, which
differ in what they accept beyond the written forms of members:

* `ofUncompressedAnyForm?` also takes a compressed form in the first half of the input, and then
  does not look at the second half;
* `ofUncompressedByEigenvalue?` also takes a pair that lies on no curve of the group but passes the
  eigenvalue test.

On pairs that satisfy the equation of the curve both test the order of the point.
-/

namespace BilinearGroups.Bls12

/-- The flag of a compressed form. -/
def compressedFlag : UInt8 := 0x80

/-- The flag of the point at infinity. -/
def infinityFlag : UInt8 := 0x40

/-- The flag of the larger ordinate. -/
def largerFlag : UInt8 := 0x20

/-- The bits of the first byte that belong to the coordinate. -/
def coordinateMask : UInt8 := 0x1f

/-- The byte carries the flag. -/
def hasFlag (b flag : UInt8) : Bool := b &&& flag != 0

namespace SourceCurve

variable {F : Type} [DecidableEq F] [Zero F] [Add F] [Sub F] [Neg F] [Mul F] [Inv F]
variable (C : SourceCurve F)

/-- The number of bytes of the compressed form. -/
def compressedLength : Nat := C.width

/-- The number of bytes of the full form. -/
def uncompressedLength : Nat := 2 * C.width

/-- The full form: both coordinates, abscissa first. -/
def toUncompressed : Point F → Bytes
  | .infinity => infinityFlag :: Bytes.zeros (C.uncompressedLength - 1)
  | .affine x y => C.toBytes x ++ C.toBytes y

/-- The compressed form: the abscissa, with a flag for the ordinate. -/
def toCompressed : Point F → Bytes
  | .infinity => (compressedFlag ||| infinityFlag) :: Bytes.zeros (C.compressedLength - 1)
  | .affine x y =>
    match C.toBytes x with
    | [] => []
    | b :: bs => (b ||| compressedFlag ||| if C.isLarger y then largerFlag else 0) :: bs

/-- The member of the source group with this compressed form. -/
def ofCompressed? : Bytes → Option (Point F)
  | [] => none
  | b :: bs =>
    if bs.length + 1 ≠ C.compressedLength || !hasFlag b compressedFlag then none
    else if hasFlag b infinityFlag then
      if b :: bs = C.toCompressed .infinity then some .infinity else none
    else do
      let x ← C.ofBytes? ((b &&& coordinateMask) :: bs)
      let P ← C.lift? x (hasFlag b largerFlag)
      if C.Member P then some P else none

/-- The two coordinates of a full form that is neither compressed nor at infinity. -/
def coordinates? (bs : Bytes) : Option (Point F) := do
  let x ← C.ofBytes? (bs.take C.width)
  let y ← C.ofBytes? (bs.drop C.width)
  return .affine x y

/-- Reads a full form, or a compressed form followed by anything. -/
def ofUncompressedAnyForm? : Bytes → Option (Point F)
  | [] => none
  | b :: bs =>
    if bs.length + 1 ≠ C.uncompressedLength then none
    else if hasFlag b compressedFlag then C.ofCompressed? ((b :: bs).take C.width)
    else if hasFlag b infinityFlag || hasFlag b largerFlag then
      if b :: bs = C.toUncompressed .infinity then some .infinity else none
    else do
      let P ← C.coordinates? (b :: bs)
      if C.Member P then some P else none

/-- The test of a reader that does not ask whether a pair lies on the curve. The points of the curve
that pass the eigenvalue test are those of order `r`, so there the order is asked for, as everywhere
else; all other pairs are held to the eigenvalue test itself. -/
def passesSubgroupTest (P : Point F) : Bool :=
  if P.OnCurve C.b then P.multiple groupOrder = .infinity else C.eigenTest P

/-- Reads a full form without asking for the equation of the curve. -/
def ofUncompressedByEigenvalue? : Bytes → Option (Point F)
  | [] => none
  | b :: bs =>
    if bs.length + 1 ≠ C.uncompressedLength then none
    else if hasFlag b compressedFlag || hasFlag b infinityFlag || hasFlag b largerFlag then
      if b :: bs = C.toUncompressed .infinity then some .infinity else none
    else do
      let P ← C.coordinates? (b :: bs)
      if C.passesSubgroupTest P then some P else none

end SourceCurve

end BilinearGroups.Bls12
