import BilinearGroups.Bls12.Fp2
import BilinearGroups.Curve.Point

/-!
# The two source groups

The source groups are the subgroups of order `r` of two curves `y² = x³ + b`: the first over the
coordinate field with `b = 4`, the second over its quadratic extension with `b = 4 ξ`. A
`SourceCurve` gathers what distinguishes them, so that encodings, membership and sampling are
written once.

## Membership, and the eigenvalue test

Membership means that a pair satisfies the equation of the curve and that `r` copies of it sum to
infinity. Each curve also has an endomorphism that acts on the source group as multiplication by a
power of the parameter, and comparing the two actions is a quick test for the subgroup. The formulas
of the comparison make sense for any pair of coordinates, on the curve or not; `eigenTest` is the
comparison by itself.
-/

namespace BilinearGroups.Bls12

/-- A curve `y² = x³ + b` with a generator of its subgroup of order `r`, and what encodings need of
its field of coordinates. -/
structure SourceCurve (F : Type) where
  /-- The coefficient of the equation. -/
  b : F
  /-- The generator of the source group. -/
  generator : Point F
  /-- The number of points of the curve, divided by the group order. -/
  cofactor : Nat
  /-- The number of bytes of a coordinate. -/
  width : Nat
  /-- The big-endian bytes of a coordinate. -/
  toBytes : F → Bytes
  /-- The coordinate with the given big-endian bytes. -/
  ofBytes? : Bytes → Option F
  /-- A square root of a coordinate. -/
  sqrt? : F → Option F
  /-- The larger of a nonzero coordinate and its negative. -/
  isLarger : F → Bool
  /-- The endomorphism of the curve acts on a point as a power of the parameter does. -/
  eigenTest : Point F → Bool

namespace SourceCurve

variable {F : Type} [DecidableEq F] [Zero F] [Add F] [Sub F] [Neg F] [Mul F] [Inv F]

/-- The point belongs to the source group: it lies on the curve and its order divides `r`. -/
def Member (C : SourceCurve F) (P : Point F) : Prop :=
  P.OnCurve C.b ∧ P.multiple groupOrder = .infinity

instance (C : SourceCurve F) (P : Point F) : Decidable (C.Member P) :=
  inferInstanceAs (Decidable (_ ∧ _))

/-- The points of the curve with abscissa `x`, of which the one with the larger ordinate is taken on
request. -/
def lift? (C : SourceCurve F) (x : F) (larger : Bool) : Option (Point F) :=
  (C.sqrt? (x * x * x + C.b)).map fun y ↦
    .affine x (if C.isLarger y = larger then y else -y)

end SourceCurve

/-! ## The curve over the coordinate field -/

namespace G1

/-- The primitive cube root of unity by which the endomorphism multiplies abscissae. -/
def cubeRoot : Fp :=
  ⟨0x5f19672fdf76ce51ba69c6076a0f77eaddb3a93be6f89688de17d813620a00022e01fffffffefffe, by decide⟩

/-- The endomorphism `(x, y) ↦ (βx, y)`. -/
def endomorphism : Point Fp → Point Fp
  | .infinity => .infinity
  | .affine x y => .affine (cubeRoot * x) y

/-- The endomorphism acts as the negated square of the parameter, and the parameter does not fix the
point. -/
def eigenTest (P : Point Fp) : Bool :=
  let Q := P.multiple parameter
  Q ≠ P && endomorphism P = -Q.multiple parameter

/-- The generator of the first source group. -/
def generator : Point Fp :=
  .affine
    ⟨0x17f1d3a73197d7942695638c4fa9ac0fc3688c4f9774b905a14e3a3f171bac586c55e83ff97a1aeffb3af00adb22c6bb,
      by decide⟩
    ⟨0x08b3f481e3aaa0f1a09e30ed741d8ae4fcf5e095d5d00af600db18cb2c04b3edd03cc744a2888ae40caa232946c5e7e1,
      by decide⟩

/-- The curve `y² = x³ + 4` over the coordinate field. -/
def curve : SourceCurve Fp where
  b := Residue.ofNat fieldOrder 4
  generator := generator
  cofactor := cofactorG1
  width := Fp.width
  toBytes := Fp.toBytes
  ofBytes? := Fp.ofBytes?
  sqrt? := Fp.sqrt?
  isLarger := Fp.isLarger
  eigenTest := eigenTest

end G1

/-! ## The twisted curve over the quadratic extension -/

namespace G2

/-- The factor `ξ ^ (-(p - 1) / 3)` of conjugated abscissae under the endomorphism. -/
def abscissaFactor : Fp2 :=
  ⟨0,
   ⟨0x1a0111ea397fe699ec02408663d4de85aa0d857d89759ad4897d29650fb85f9b409427eb4f49fffd8bfd00000000aaad,
      by decide⟩⟩

/-- The factor `ξ ^ (-(p - 1) / 2)` of conjugated ordinates under the endomorphism. -/
def ordinateFactor : Fp2 :=
  ⟨⟨0x135203e60180a68ee2e9c448d77a2cd91c3dedd930b1cf60ef396489f61eb45e304466cf3e67fa0af1ee7b04121bdea2,
      by decide⟩,
   ⟨0x06af0e0437ff400b6831e36d6bd17ffe48395dabc2d3435e77f76e17009241c5ee67992f72ec05f4c81084fbede3cc09,
      by decide⟩⟩

/-- The endomorphism: untwist, raise the coordinates to the `p`-th power and twist back. -/
def endomorphism : Point Fp2 → Point Fp2
  | .infinity => .infinity
  | .affine x y => .affine (abscissaFactor * x.conj) (ordinateFactor * y.conj)

/-- The endomorphism acts as the parameter, which is negative. -/
def eigenTest (Q : Point Fp2) : Bool := endomorphism Q = -Q.multiple parameter

/-- The generator of the second source group. -/
def generator : Point Fp2 :=
  .affine
    ⟨⟨0x024aa2b2f08f0a91260805272dc51051c6e47ad4fa403b02b4510b647ae3d1770bac0326a805bbefd48056c8c121bdb8,
        by decide⟩,
     ⟨0x13e02b6052719f607dacd3a088274f65596bd0d09920b61ab5da61bbdc7f5049334cf11213945d57e5ac7d055d042b7e,
        by decide⟩⟩
    ⟨⟨0x0ce5d527727d6e118cc9cdc6da2e351aadfd9baa8cbdd3a76d429a695160d12c923ac9cc3baca289e193548608b82801,
        by decide⟩,
     ⟨0x0606c4a02ea734cc32acd2b02bc28b99cb3e287e85a763af267492ab572e99ab3f370d275cec1da1aaa9075ff05f79be,
        by decide⟩⟩

/-- The curve `y² = x³ + 4 (1 + u)` over the quadratic extension. -/
def curve : SourceCurve Fp2 where
  b := ⟨Residue.ofNat fieldOrder 4, Residue.ofNat fieldOrder 4⟩
  generator := generator
  cofactor := cofactorG2
  width := Fp2.width
  toBytes := Fp2.toBytes
  ofBytes? := Fp2.ofBytes?
  sqrt? := Fp2.sqrt?
  isLarger := Fp2.isLarger
  eigenTest := eigenTest

end G2

/-! ## Multiples by a split scalar

On the first source group the endomorphism `φ` acts as `-u`, where `u` is the square of the
parameter, so a multiple of a point can be put together from a multiple of the point and one of its
image: whatever the integer `q`,

`k P = (k - q u) P - q φ(P)`.

The product `u (u - 1)` is one less than the group order `r`, so for a scalar `k` the integer
closest to `k (u - 1) / r` leaves two factors of half the length of `k`.

The formulas of `φ` make sense for any pair of coordinates, and its image lies on the same curve
`y² = x³ + b`. Outside the source group `φ` has no reason to act as `-u`, and there the sum on the
right is a point of its own, which depends on how the scalar is split. `splitMultiple` is that sum,
and `multipleBySplit` is the plain multiple on the source group and the sum elsewhere.
-/

namespace G1

/-- The square of the parameter, whose negative is the action of the endomorphism. -/
def eigenvalue : Nat := parameter * parameter

example : groupOrder = eigenvalue * (eigenvalue - 1) + 1 := by decide

/-- The integer closest to `k (u - 1) / r`; the order is odd, so no two are equally close. -/
def splitQuotient (k : Nat) : Nat :=
  (2 * (k * (eigenvalue - 1)) + groupOrder) / (2 * groupOrder)

/-- The sum of `n` copies of a point, or of `-n` copies of its negative. -/
def signedMultiple (n : Int) (P : Point Fp) : Point Fp :=
  if n < 0 then (-P).multiple n.natAbs else P.multiple n.natAbs

/-- The sum `(k - q u) P - q φ(P)`, where `q` is the integer closest to `k (u - 1) / r`. -/
def splitMultiple (k : Nat) (P : Point Fp) : Point Fp :=
  let q := splitQuotient k
  signedMultiple ((k : Int) - (q * eigenvalue : Nat)) P - (endomorphism P).multiple q

/-- The multiple of a point by a split scalar. On the source group this is the sum of `k` copies of
the point. -/
def multipleBySplit (k : Nat) (P : Point Fp) : Point Fp :=
  if curve.Member P then P.multiple k else splitMultiple k P

end G1

end BilinearGroups.Bls12
