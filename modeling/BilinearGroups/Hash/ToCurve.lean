import BilinearGroups.Bls12.SourceCurve
import BilinearGroups.Hash.Sha256
import BilinearGroups.Hash.SimplifiedMap

/-!
# Hashing to the source groups

A message is expanded to uniform bytes, the bytes are read as field elements, each element is mapped
to a point of the curve, and the sum of the points is multiplied into the source group. With two
elements the result is close to uniform (`hash`); with one it reaches only a part of the group
(`encode`).
-/

namespace BilinearGroups

/-! ## Uniform bytes

A message and a domain separation tag are expanded to any number of 32-byte digests. The first
digest covers the message; the others are a chain in which each digest is mixed with that first one,
so no digest of the output is a digest of the message itself.

The tag closes every input, followed by its length in one byte. A tag that is too long for that byte
is replaced by a digest of it.
-/

namespace ExpandMessage

/-- The tag as it closes every input: the tag, or a digest in its place, and its length. -/
def closing (tag : Bytes) : Bytes :=
  let short := if tag.length ≤ 255 then tag
    else Sha256.hash (Bytes.ofText "H2C-OVERSIZE-DST-" ++ tag)
  short ++ [UInt8.ofNat short.length]

/-- The digests from number `i` on, where `first` covers the message and `last` is the digest before
them. -/
def digests (first closing : Bytes) : (count i : Nat) → (last : Bytes) → Bytes
  | 0, _, _ => []
  | count + 1, i, last =>
    let next := Sha256.hash (List.zipWith (· ^^^ ·) first last ++ UInt8.ofNat i :: closing)
    next ++ digests first closing count (i + 1) next

/-- The expansion of a message under a tag to `count` digests of 32 bytes. -/
def expand (message tag : Bytes) (count : Nat) : Bytes :=
  let closing := closing tag
  let first := Sha256.hash
    (Bytes.zeros 64 ++ message ++ Bytes.ofNatBE 2 (32 * count) ++ 0 :: closing)
  digests first closing count 1 (Bytes.zeros 32)

end ExpandMessage

/-! ## From bytes to points -/

namespace Bls12

/-- What hashing to a source group needs. -/
structure CurveHash (F : Type) where
  /-- The map from field elements to points. -/
  map : SimplifiedMap F
  /-- The number of coordinates of a field element. -/
  degree : Nat
  /-- The field element with the given coordinates. -/
  ofCoordinates : List Fp → F
  /-- A multiple of the cofactor of the curve: this many copies of a point lie in the source
  group. -/
  clearing : Nat

namespace CurveHash

variable {F : Type} [DecidableEq F] [Zero F] [One F] [Add F] [Sub F] [Neg F] [Mul F] [Inv F]
variable (H : CurveHash F)

/-- The first `count` field elements that a message gives under a tag. A coordinate is reduced from
64 bytes, so its distance from uniform is negligible. -/
def elements (message tag : Bytes) (count : Nat) : List F :=
  let uniform := ExpandMessage.expand message tag (2 * H.degree * count)
  (Bytes.pieces (64 * H.degree) count uniform).map fun piece ↦
    H.ofCoordinates ((Bytes.pieces 64 H.degree piece).map fun bs ↦
      Residue.ofNat fieldOrder (Bytes.toNatBE bs))

/-- The sum of the points of `count` field elements, moved into the source group. -/
def sumOfPoints (message tag : Bytes) (count : Nat) : Point F :=
  let points := (H.elements message tag count).map H.map.map
  (points.foldl (· + ·) Point.infinity).multiple H.clearing

/-- The hash of a message under a tag. -/
def hash (message tag : Bytes) : Point F := H.sumOfPoints message tag 2

/-- The encoding of a message under a tag as a point. -/
def encode (message tag : Bytes) : Point F := H.sumOfPoints message tag 1

end CurveHash

/-! ## The first source group -/

namespace G1

/-- The curve isogenous to `y² = x³ + 4` by degree 11, and the isogeny. -/
def simplifiedMap : SimplifiedMap Fp where
  a := ⟨0x144698a3b8e9433d693a02c96d4982b0ea985383ee66a8d8e8981aefd881ac98936f8da0e0f97f5cf428082d584c1d,
    by decide⟩
  b := ⟨0x12e2908d11688030018b12e8753eee3b2016c1f0f24f4070a0b9c14fcef35ef55a23215a316ceaa5d1cc48e98e172be0,
    by decide⟩
  z := ⟨11, by decide⟩
  kernel := [
    ⟨0x1665a9c648e78314490a94f654d9b1039ab85847223bfaed9aa54f0f07736d122d1ceca1ac0e9123e753fde16e97c3d7,
      by decide⟩,
    ⟨0x105249b4cac630ce5aa18e6c1189a18c82019b4e12e491fbac012c259ca3a67f638560b8bb416af02a4724385ed0fc8e,
      by decide⟩,
    ⟨0xd7f2d0d03ae035321eed4c1479d13251abf0e9a96479623eb5380b575e319851fb5e5a8b43b9c1a46880f54bf2b2f7c,
      by decide⟩,
    ⟨0x140d41735b10ce710727cd9356905701a2b866b803baa468948b7f423ddcc560c9a8f1cd5f8ed4297c37464fb8bfe4a7,
      by decide⟩,
    ⟨0x10ef325dd1e98bdf0d97a4c6b7f968ed7f31f2fbff088acb39d5319cfc261ea18773405f325612742f0c5d90634bcf4,
      by decide⟩]
  scale := (Residue.ofNat fieldOrder 11)⁻¹
  sqrt? := Fp.sqrt?
  isOdd := Fp.isOdd

/-- Hashing to the first source group. -/
def curveHash : CurveHash Fp where
  map := simplifiedMap
  degree := 1
  ofCoordinates cs := cs.headD 0
  clearing := parameter + 1

end G1

/-! ## The second source group -/

namespace G2

/-- The curve isogenous to `y² = x³ + 4 (1 + u)` by degree 3, and the isogeny. -/
def simplifiedMap : SimplifiedMap Fp2 where
  a := ⟨0, ⟨240, by decide⟩⟩
  b := ⟨⟨1012, by decide⟩, ⟨1012, by decide⟩⟩
  z := -⟨⟨2, by decide⟩, 1⟩
  kernel := [⟨-⟨6, by decide⟩, ⟨6, by decide⟩⟩]
  scale := ⟨-(Residue.ofNat fieldOrder 3)⁻¹, 0⟩
  sqrt? := Fp2.sqrt?
  isOdd := Fp2.isOdd

/-- Hashing to the second source group. -/
def curveHash : CurveHash Fp2 where
  map := simplifiedMap
  degree := 2
  ofCoordinates
    | [c0, c1] => ⟨c0, c1⟩
    | _ => 0
  clearing := cofactorG2 * (3 * (parameter * parameter - 1))

end G2

end Bls12

end BilinearGroups
