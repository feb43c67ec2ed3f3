import BilinearGroups.Backend.Scalars
import BilinearGroups.Bls12.PointEncoding
import BilinearGroups.Bls12.TargetEncoding
import BilinearGroups.Hash.ToCurve

/-!
# The curve backends

The backends over BLS12-381 agree on the groups, on hashing, on the written forms of points and on
the pairing. They differ in which full forms of points they read, in how they form multiples of
points outside the groups, in the encoding of the target group, in how they draw, and in how closely
they report a refused encoding. What they share takes these differences as arguments.
-/

namespace BilinearGroups

namespace Bls12

/-- How closely a refused encoding is reported. -/
inductive Report where
  /-- A wrong length is told from a wrong value. -/
  | lengthAndValue
  /-- Everything is reported as a wrong value. -/
  | valueOnly
deriving DecidableEq

namespace Report

/-- Reads an encoding of a given length. -/
def read {α : Type} (report : Report) (length : Nat) (wrongLength wrongValue : BackendError)
    (reader : Bytes → Option α) (bs : Bytes) : Except BackendError α :=
  if bs.length ≠ length then
    match report with
    | .lengthAndValue => .error wrongLength
    | .valueOnly => .error wrongValue
  else
    match reader bs with
    | some a => .ok a
    | none => .error wrongValue

end Report

/-- The source group of a curve, with a given hash map, a given reader of full forms, a given way of
forming multiples and a given way of drawing. -/
def sourceGroup {F : Type} [DecidableEq F] [Zero F] [Add F] [Sub F] [Neg F] [Mul F] [Inv F]
    (group : Group) (C : SourceCurve F) (hash : (message tag : Bytes) → Point F) (report : Report)
    (reader : Bytes → Option (Point F)) (multiple : Nat → Point F → Point F)
    (random : Draw (Point F)) : SourceGroup Fr (Point F) where
  uncompressedLength := C.uncompressedLength
  compressedLength := C.compressedLength
  identity := .infinity
  generator := C.generator
  add := (· + ·)
  sub := (· - ·)
  neg := (- ·)
  scale k := multiple k.val
  hash message tag := .ok (hash message tag)
  random := random
  toUncompressed := C.toUncompressed
  ofUncompressed := report.read C.uncompressedLength
    (.pointLength group false) (.pointValue group false) reader
  toCompressed := C.toCompressed
  ofCompressed := report.read C.compressedLength
    (.pointLength group true) (.pointValue group true) C.ofCompressed?
  decEq := inferInstance

/-- The target group, with a given generator, a given encoding and a given way of drawing. -/
def targetGroup (generator : Fp12) (length : Nat) (report : Report) (toBytes : Fp12 → Bytes)
    (reader : Bytes → Option Fp12) (random : Draw Fp12) : TargetGroup Fr Fp12 where
  byteLength := length
  identity := 1
  generator := generator
  combine := (· * ·)
  invert := (·⁻¹)
  scale k f := power f k.val
  random := random
  toBytes := toBytes
  ofBytes := report.read length .targetLength .targetValue reader
  decEq := inferInstance

/-- The product of the pairings of corresponding points, for lists of the same length. -/
def pairingProductOfLists (product : List (Point Fp) → List (Point Fp2) → Fp12)
    (Ps : List (Point Fp)) (Qs : List (Point Fp2)) : Except BackendError Fp12 :=
  if Ps.length ≠ Qs.length then .error .pairingLengths else .ok (product Ps Qs)

end Bls12

open Bls12

/-! ## Short target encodings

This backend writes target group elements in the short form of 288 bytes. It reads a compressed
point also where a full form is expected. Points are drawn by encoding random bytes to the curve,
and target group elements by moving a random field element into the group.
-/

namespace Torus

/-- A point drawn as the encoding of 64 random bytes. The bytes are preceded by an empty
augmentation, and the tag is empty; both are sixteen zero bytes. -/
def drawPoint {F : Type} [DecidableEq F] [Zero F] [One F] [Add F] [Sub F] [Neg F] [Mul F] [Inv F]
    (H : CurveHash F) : Draw (Point F) :=
  Draw.map (fun bs ↦ H.encode (Bytes.zeros 16 ++ bs) (Bytes.zeros 16)) (Draw.bytes 64)

/-- A coordinate drawn as its representative, from blocks of six words without the top three
bits. -/
def drawCoordinate : Draw Fp := Draw.residue fieldOrder 6 381

/-- A target group element drawn as the final power of a nonzero field element. -/
def drawTarget : Draw Fp12 :=
  Draw.untilAccepted <| Draw.map
    (fun cs ↦ (Fp12.ofCoefficients? cs).bind fun f ↦ if f = 0 then none else some (finalPower f))
    (drawCoordinate.replicate 12)

/-- The maps into the groups: the hashes, the draws and the pairing. The group operations and the
encodings do not depend on how these are computed. -/
structure Maps where
  /-- The hash into the first source group. -/
  hashG1 : (message tag : Bytes) → Point Fp
  /-- The hash into the second source group. -/
  hashG2 : (message tag : Bytes) → Point Fp2
  /-- A draw from the first source group. -/
  drawG1 : Draw (Point Fp)
  /-- A draw from the second source group. -/
  drawG2 : Draw (Point Fp2)
  /-- A draw from the target group. -/
  drawTarget : Draw Fp12
  /-- The pairing of two points. -/
  pairing : Point Fp → Point Fp2 → Fp12
  /-- The product of the pairings of corresponding points. -/
  pairingProduct : List (Point Fp) → List (Point Fp2) → Fp12

/-- The maps of the standard suites, and the pairing by the Miller loop. -/
def maps : Maps where
  hashG1 := G1.curveHash.hash
  hashG2 := G2.curveHash.hash
  drawG1 := drawPoint G1.curveHash
  drawG2 := drawPoint G2.curveHash
  drawTarget := drawTarget
  pairing := pairing
  pairingProduct := pairingProduct

end Torus

/-- BLS12-381 with target group elements in short form, over given maps into the groups. -/
def torusBackendOver (M : Torus.Maps) : Backend where
  name := "blstrs"
  Scalar := Fr
  G1 := Point Fp
  G2 := Point Fp2
  Target := Fp12
  scalars := plainScalars
  g1 := sourceGroup .g1 G1.curve M.hashG1 .lengthAndValue G1.curve.ofUncompressedAnyForm?
    Point.multiple M.drawG1
  g2 := sourceGroup .g2 G2.curve M.hashG2 .lengthAndValue G2.curve.ofUncompressedAnyForm?
    Point.multiple M.drawG2
  target := targetGroup (M.pairing G1.generator G2.generator) TargetEncoding.shortLength
    .lengthAndValue TargetEncoding.toShort TargetEncoding.ofShort? M.drawTarget
  pairing := M.pairing
  pairingProduct := pairingProductOfLists M.pairingProduct
  identification := none

/-- BLS12-381 with target group elements in short form. -/
def torusBackend : Backend := torusBackendOver Torus.maps

/-! ## Full target encodings

This backend writes target group elements by all their coefficients, in 576 bytes. A full form of a
point need not satisfy the equation of the curve, as long as it passes the eigenvalue test, and in
the first source group multiples are formed by splitting the scalar. Points are drawn by their
abscissa, and target group elements as random powers of the generator.
-/

namespace Coefficient

/-- A coordinate drawn as its multiple by `2 ^ 384`, from blocks of six words without the top three
bits. -/
def drawFp : Draw Fp := Draw.scaledResidue fieldOrder 6 381

/-- An element of the quadratic extension drawn by its coefficients. -/
def drawFp2 : Draw Fp2 := Draw.andThen drawFp fun c0 ↦ Draw.map (fun c1 ↦ ⟨c0, c1⟩) drawFp

/-- A bit drawn from the middle of a word. -/
def drawBit : Draw Bool := Draw.map (fun n ↦ n.testBit 31) (Draw.bits 1 64)

/-- A point drawn by its abscissa and the choice of its ordinate, until the abscissa belongs to a
point, and then moved into the source group. -/
def drawPoint {F : Type} [DecidableEq F] [Zero F] [Add F] [Sub F] [Neg F] [Mul F] [Inv F]
    (C : SourceCurve F) (coordinate : Draw F) : Draw (Point F) :=
  Draw.map (Point.multiple C.cofactor) <| Draw.untilAccepted <|
    Draw.andThen coordinate fun x ↦ Draw.map (C.lift? x) drawBit

/-- A target group element drawn as a power of the generator. -/
def drawTarget : Draw Fp12 :=
  Draw.map (fun k ↦ power targetGenerator k.val) drawScaledScalar

end Coefficient

/-- BLS12-381 with target group elements in full form. -/
def coefficientBackend : Backend where
  name := "arkworks"
  Scalar := Fr
  G1 := Point Fp
  G2 := Point Fp2
  Target := Fp12
  scalars := scaledScalars
  g1 := sourceGroup .g1 G1.curve G1.curveHash.hash .valueOnly G1.curve.ofUncompressedByEigenvalue?
    G1.multipleBySplit (Coefficient.drawPoint G1.curve Coefficient.drawFp)
  g2 := sourceGroup .g2 G2.curve G2.curveHash.hash .valueOnly G2.curve.ofUncompressedByEigenvalue?
    Point.multiple (Coefficient.drawPoint G2.curve Coefficient.drawFp2)
  target := targetGroup targetGenerator TargetEncoding.fullLength .valueOnly TargetEncoding.toFull
    TargetEncoding.ofFull? Coefficient.drawTarget
  pairing := pairing
  pairingProduct := pairingProductOfLists pairingProduct
  identification := none

end BilinearGroups
