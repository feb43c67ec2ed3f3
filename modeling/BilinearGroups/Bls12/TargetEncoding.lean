import BilinearGroups.Bls12.Pairing

/-!
# Encodings of target group elements

An element of the target group is written by its twelve coefficients, or in half of that space. The
short form uses that an element other than one with inverse equal to its conjugate is determined by
`t = (c0 + 1) / c1`, one element of the cubic extension: it is `(t + w) / (t - w)`. The element one
has no such form and is written as zero bytes.

Coefficients are little-endian and below the field order, and both readers test the order of the
element.
-/

namespace BilinearGroups.Bls12

namespace TargetEncoding

/-- The bytes of coefficients, one after the other. -/
def coefficientBytes (cs : List Fp) : Bytes := cs.flatMap Fp.toBytesLE

/-- The coefficients that bytes spell. -/
def coefficients? (count : Nat) (bs : Bytes) : Option (List Fp) :=
  (Bytes.pieces Fp.width count bs).mapM Fp.ofBytesLE?

/-- The element, if its order divides `r`. -/
def member? (f : Fp12) : Option Fp12 := if TargetMember f then some f else none

/-! ## The full form -/

/-- The number of bytes of the full form. -/
def fullLength : Nat := 12 * Fp.width

/-- The full form: all coefficients, from the constant one up. -/
def toFull (f : Fp12) : Bytes := coefficientBytes f.coefficients

/-- The member of the target group with this full form. -/
def ofFull? (bs : Bytes) : Option Fp12 :=
  if bs.length ≠ fullLength then none
  else do member? (← Fp12.ofCoefficients? (← coefficients? 12 bs))

/-! ## The short form -/

/-- The number of bytes of the short form. -/
def shortLength : Nat := 6 * Fp.width

/-- The torus coordinate `(c0 + 1) / c1` of an element, unless it lies in the cubic extension. -/
def torus? (f : Fp12) : Option Fp6 := if f.c1 = 0 then none else some ((f.c0 + 1) * f.c1⁻¹)

/-- The element `(t + w) / (t - w)` with a given torus coordinate. -/
def ofTorus (t : Fp6) : Fp12 := ⟨t, 1⟩ * (⟨t, -1⟩ : Fp12)⁻¹

/-- The short form: the torus coordinate, and zero bytes for one. -/
def toShort? (f : Fp12) : Option Bytes :=
  if f = 1 then some (Bytes.zeros shortLength)
  else (torus? f).map fun t ↦ coefficientBytes t.coefficients

/-- The short form of a member, which always has one. -/
def toShort (f : Fp12) : Bytes := (toShort? f).getD []

/-- The member of the target group with this short form. -/
def ofShort? (bs : Bytes) : Option Fp12 :=
  if bs.length ≠ shortLength then none
  else if bs = Bytes.zeros shortLength then some 1
  else do member? (ofTorus (← Fp6.ofCoefficients? (← coefficients? 6 bs)))

end TargetEncoding

end BilinearGroups.Bls12
