import BilinearGroups.Backend.Scalars

/-!
# The exponent model

In this backend every group element is its own discrete logarithm: the groups are the scalars under
addition, with generator one, and the pairing multiplies. The two source groups are the same, so the
pairing is symmetric. It has no strength as a cryptographic group, and it satisfies the laws of a
pairing by the laws of the scalar field, which makes it the model that other backends are compared
with.
-/

namespace BilinearGroups

open Bls12

namespace ExponentModel

/-- The scalars. -/
abbrev scalars : ScalarField Fr := plainScalars

/-- A source group: the scalars under addition. -/
def source : SourceGroup Fr Fr where
  uncompressedLength := scalarWidth
  compressedLength := scalarWidth
  identity := 0
  generator := 1
  add := (· + ·)
  sub := (· - ·)
  neg := (- ·)
  scale k a := a * k
  hash message tag :=
    if tag.toByteArray.validateUTF8 then .ok (scalars.hash message tag) else .error .tagNotText
  random := drawScalar
  toUncompressed := scalars.toBytes
  ofUncompressed := scalars.ofBytes
  toCompressed := scalars.toBytes
  ofCompressed := scalars.ofBytes
  decEq := inferInstance

/-- The target group: the scalars under addition. -/
def target : TargetGroup Fr Fr where
  byteLength := scalarWidth
  identity := 0
  generator := 1
  combine := (· + ·)
  invert := (- ·)
  scale k a := a * k
  random := drawScalar
  toBytes := scalars.toBytes
  ofBytes := scalars.ofBytes
  decEq := inferInstance

/-- The sum of the products of corresponding scalars. -/
def pairingProduct (as bs : List Fr) : Except BackendError Fr :=
  if as.length ≠ bs.length then .error .pairingLengths
  else .ok ((List.zipWith (· * ·) as bs).foldl (· + ·) 0)

end ExponentModel

/-- The symmetric pairing of exponents. -/
def exponentModel : Backend where
  name := "exponent-model"
  Scalar := Fr
  G1 := Fr
  G2 := Fr
  Target := Fr
  scalars := ExponentModel.scalars
  g1 := ExponentModel.source
  g2 := ExponentModel.source
  target := ExponentModel.target
  pairing a b := a * b
  pairingProduct := ExponentModel.pairingProduct
  identification := some ⟨id, id⟩

end BilinearGroups
