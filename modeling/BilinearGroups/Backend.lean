import BilinearGroups.Error
import BilinearGroups.Random
import BilinearGroups.Hash.Blake3

/-!
# Backends

A backend supplies the arithmetic of a pairing: a scalar field, two source groups, a target group
and the pairing itself, each with its encodings, its generator and its way of drawing and hashing.
The rest of the library uses nothing else, so it is the same program over every backend, and what it
does over a backend that satisfies the laws of a pairing follows from those laws alone.

The operations carry no laws. Laws are statements about a backend, and a backend may satisfy some of
them only on part of a type: a type of points can hold pairs that lie on no curve.

Values are compared by equality, so a type of values has one value for each group element.
-/

namespace BilinearGroups

/-! ## Exponents as four words

Powers in the scalar field take their exponent as an integer of 256 bits in four 64-bit limbs, least
significant limb first. The exponent is not reduced: the power runs over all its digits.
-/

/-- An integer of 256 bits, least significant limb first. -/
structure Limbs where
  (l0 l1 l2 l3 : UInt64)
deriving DecidableEq, Repr

namespace Limbs

/-- The integer. -/
def toNat (e : Limbs) : Nat :=
  e.l0.toNat + UInt64.size * (e.l1.toNat + UInt64.size * (e.l2.toNat + UInt64.size * e.l3.toNat))

/-- The limbs with a byte put in its place, that of the base-256 digit number `i`. -/
def withByte (e : Limbs) (i : Nat) (byte : UInt8) : Limbs :=
  let shifted := byte.toUInt64 <<< UInt64.ofNat (8 * (i % 8))
  match i / 8 with
  | 0 => { e with l0 := e.l0 ||| shifted }
  | 1 => { e with l1 := e.l1 ||| shifted }
  | 2 => { e with l2 := e.l2 ||| shifted }
  | 3 => { e with l3 := e.l3 ||| shifted }
  | _ => e

/-- The limbs of an integer given by its big-endian bytes, of which the last 32 count. The bytes are
put in their places one after another, from the last one on. -/
def ofBytesBE (bs : Bytes) : Limbs :=
  (bs.reverse.zipIdx.take 32).foldl (fun e b ↦ e.withByte b.2 b.1) ⟨0, 0, 0, 0⟩

/-- The lowest `n` binary digits of a limb, most significant first. -/
def limbDigits (l : UInt64) : (n : Nat) → List Bool
  | 0 => []
  | n + 1 => l.toNat.testBit n :: limbDigits l n

/-- The 256 binary digits, most significant first. -/
def digits (e : Limbs) : List Bool :=
  limbDigits e.l3 64 ++ limbDigits e.l2 64 ++ limbDigits e.l1 64 ++ limbDigits e.l0 64

/-- The limbs, least significant first. -/
def toList (e : Limbs) : List UInt64 := [e.l0, e.l1, e.l2, e.l3]

end Limbs

/-! ## The operations -/

/-- The operations of a scalar field. -/
structure ScalarField (S : Type) where
  /-- The number of bytes of an encoding. -/
  byteLength : Nat
  /-- The neutral element of the sum. -/
  zero : S
  /-- The neutral element of the product. -/
  one : S
  /-- The sum. -/
  add : S → S → S
  /-- The difference. -/
  sub : S → S → S
  /-- The product. -/
  mul : S → S → S
  /-- The negative. -/
  neg : S → S
  /-- The inverse, which zero does not have. -/
  inv? : S → Option S
  /-- The power with an exponent that is not reduced. -/
  pow : S → Limbs → S
  /-- The encoding of a scalar: its integer value, most significant byte first. -/
  toBytes : S → Bytes
  /-- The scalar with an encoding. -/
  ofBytes : Bytes → Except BackendError S
  /-- The class of a word. -/
  ofUInt64 : UInt64 → S
  /-- The class of an integer given by its 64 little-endian bytes. -/
  reduceWide : Bytes → S
  /-- A scalar drawn uniformly. -/
  random : Draw S
  /-- Scalars can be compared. -/
  decEq : DecidableEq S

/-- The operations of a source group over scalars `S`, whose elements are called points. -/
structure SourceGroup (S P : Type) where
  /-- The number of bytes of a full encoding. -/
  uncompressedLength : Nat
  /-- The number of bytes of a compressed encoding. -/
  compressedLength : Nat
  /-- The neutral element. -/
  identity : P
  /-- The standard generator. -/
  generator : P
  /-- The sum. -/
  add : P → P → P
  /-- The difference. -/
  sub : P → P → P
  /-- The negative. -/
  neg : P → P
  /-- The multiple of a point by a scalar. -/
  scale : S → P → P
  /-- The hash of a message under a domain separation tag. -/
  hash : (message tag : Bytes) → Except BackendError P
  /-- A point drawn at random. -/
  random : Draw P
  /-- The full encoding of a point. -/
  toUncompressed : P → Bytes
  /-- The point with a full encoding. -/
  ofUncompressed : Bytes → Except BackendError P
  /-- The compressed encoding of a point. -/
  toCompressed : P → Bytes
  /-- The point with a compressed encoding. -/
  ofCompressed : Bytes → Except BackendError P
  /-- Points can be compared. -/
  decEq : DecidableEq P

/-- The operations of a target group over scalars `S`. -/
structure TargetGroup (S T : Type) where
  /-- The number of bytes of an encoding. -/
  byteLength : Nat
  /-- The neutral element. -/
  identity : T
  /-- The pairing of the standard generators. -/
  generator : T
  /-- The group operation. -/
  combine : T → T → T
  /-- The inverse. -/
  invert : T → T
  /-- The power of an element by a scalar. -/
  scale : S → T → T
  /-- An element drawn at random. -/
  random : Draw T
  /-- The encoding of an element. -/
  toBytes : T → Bytes
  /-- The element with an encoding. -/
  ofBytes : Bytes → Except BackendError T
  /-- Elements can be compared. -/
  decEq : DecidableEq T

/-- The two source groups of a symmetric pairing are one group; these maps go from either name of it
to the other. -/
structure SourceIdentification (P Q : Type) where
  /-- A point of the first source group as one of the second. -/
  toG2 : P → Q
  /-- A point of the second source group as one of the first. -/
  toG1 : Q → P

/-- The arithmetic of a pairing. -/
structure Backend where
  /-- The name in diagnostic output. -/
  name : String
  /-- The scalars. -/
  Scalar : Type
  /-- The points of the first source group. -/
  G1 : Type
  /-- The points of the second source group. -/
  G2 : Type
  /-- The elements of the target group. -/
  Target : Type
  /-- The operations on scalars. -/
  scalars : ScalarField Scalar
  /-- The operations of the first source group. -/
  g1 : SourceGroup Scalar G1
  /-- The operations of the second source group. -/
  g2 : SourceGroup Scalar G2
  /-- The operations of the target group. -/
  target : TargetGroup Scalar Target
  /-- The pairing of two points. -/
  pairing : G1 → G2 → Target
  /-- The product of the pairings of corresponding points. -/
  pairingProduct : List G1 → List G2 → Except BackendError Target
  /-- How the source groups are one group, if the pairing is symmetric. -/
  identification : Option (SourceIdentification G1 G2)

namespace Backend

variable (B : Backend)

instance : DecidableEq B.Scalar := B.scalars.decEq

instance : DecidableEq B.G1 := B.g1.decEq

instance : DecidableEq B.G2 := B.g2.decEq

instance : DecidableEq B.Target := B.target.decEq

/-- The source groups are one group. -/
def isSymmetric : Bool := B.identification.isSome

end Backend

namespace ScalarField

variable {S : Type} (F : ScalarField S)

/-- The scalar is zero. -/
def isZero (a : S) : Bool :=
  have := F.decEq
  decide (a = F.zero)

/-- The class of a signed word: the absolute value, negated for a negative word. -/
def ofInt64 (n : Int64) : S :=
  let magnitude := F.ofUInt64 (UInt64.ofNat n.toInt.natAbs)
  if n < 0 then F.neg magnitude else magnitude

/-- The integer value of a scalar. -/
def limbs (a : S) : Limbs := Limbs.ofBytesBE (F.toBytes a)

/-- The class of an integer given by 64 little-endian bytes, found by Horner's rule on its 64-bit
digits; the radix is the class of the largest word plus one. -/
def hornerReduce (bs : Bytes) : S :=
  let radix := F.add (F.ofUInt64 (UInt64.ofNat (UInt64.size - 1))) F.one
  (Bytes.pieces 8 8 bs).reverse.foldl
    (fun acc digit ↦ F.add (F.mul acc radix) (F.ofUInt64 (UInt64.ofNat (Bytes.toNatLE digit))))
    F.zero

/-- The hash of a message under a domain separation tag: uniform bytes derived under the tag,
reduced modulo the group order. -/
def hash (message tag : Bytes) : S := F.reduceWide (Blake3.derive tag message)

/-- The big-endian string of the same length with value one more, for a string that is not all
`0xff`. The flag says that a carry is left over. -/
def increment : Bytes → Bytes × Bool
  | [] => ([], true)
  | b :: bs =>
    match increment bs with
    | (bs, true) => ((b + 1) :: bs, b == 0xff)
    | (bs, false) => (b :: bs, false)

/-- The big-endian bytes of the number of scalars: the largest encoding is that of `-1`, and the
order is one more. -/
def orderBytes : Bytes := (increment (F.toBytes (F.neg F.one))).1

end ScalarField

namespace SourceGroup

variable {S P : Type} (G : SourceGroup S P)

/-- The point is the neutral element. -/
def isIdentity (p : P) : Bool :=
  have := G.decEq
  decide (p = G.identity)

end SourceGroup

namespace TargetGroup

variable {S T : Type} (G : TargetGroup S T)

/-- The element is the neutral element. -/
def isIdentity (t : T) : Bool :=
  have := G.decEq
  decide (t = G.identity)

end TargetGroup

end BilinearGroups
