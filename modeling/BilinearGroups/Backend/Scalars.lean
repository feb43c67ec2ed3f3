import BilinearGroups.Backend
import BilinearGroups.Bls12.Fields

/-!
# The scalar field of the backends

All backends use residues modulo the group order, encoded in 32 big-endian bytes. They differ in how
a scalar is drawn and how a wide integer is reduced, which are the arguments here.
-/

namespace BilinearGroups.Bls12

/-- The number of bytes of a scalar. -/
def scalarWidth : Nat := 32

/-- The residue of an encoding, which spells an integer below the group order in 32 bytes. -/
def scalarOfBytes (bs : Bytes) : Except BackendError Fr :=
  if bs.length ≠ scalarWidth then .error .scalarLength
  else
    match Residue.ofNat? groupOrder (Bytes.toNatBE bs) with
    | some a => .ok a
    | none => .error .scalarValue

/-- The field of residues modulo the group order, with a given reduction of wide integers and a
given way of drawing. -/
def residueField (reduceWide : Bytes → Fr) (random : Draw Fr) : ScalarField Fr where
  byteLength := scalarWidth
  zero := 0
  one := 1
  add := (· + ·)
  sub := (· - ·)
  mul := (· * ·)
  neg := (- ·)
  inv? a := if a = 0 then none else some a⁻¹
  pow a e := combineDigits (· * ·) 1 a e.digits
  toBytes a := Bytes.ofNatBE scalarWidth a.val
  ofBytes := scalarOfBytes
  ofUInt64 n := Residue.ofNat groupOrder n.toNat
  reduceWide := reduceWide
  random := random
  decEq := inferInstance

/-- The residue of an integer given by little-endian bytes. -/
def reduceLE (bs : Bytes) : Fr := Residue.ofNat groupOrder (Bytes.toNatLE bs)

/-- A scalar drawn as its representative, from blocks of four words without the top bit. -/
def drawScalar : Draw Fr := Draw.residue groupOrder 4 255

/-- A scalar drawn as its multiple by `2 ^ 256`, from blocks of four words without the top bit. -/
def drawScaledScalar : Draw Fr := Draw.scaledResidue groupOrder 4 255

/-- Scalars that are drawn as they are and reduced digit by digit. -/
def plainScalars : ScalarField Fr :=
  let bare := residueField reduceLE drawScalar
  { bare with reduceWide := bare.hornerReduce }

/-- Scalars that are drawn by a multiple and reduced at once. -/
def scaledScalars : ScalarField Fr := residueField reduceLE drawScaledScalar

end BilinearGroups.Bls12
