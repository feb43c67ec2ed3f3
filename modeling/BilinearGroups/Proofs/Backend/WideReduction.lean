import BilinearGroups.Proofs.Backend.Instances

/-!
# Reduction of wide integers

Horner's rule on 64-bit digits gives the class of the integer that the bytes spell, in every
commutative ring where words have their classes. In a residue field that is the residue. So the
scalars that are reduced digit by digit and those that are reduced at once agree on all strings of
up to 64 bytes, in particular on what is derived for a hash.
-/

namespace BilinearGroups

open Bls12

/-! ## Digits of 64 bits -/

namespace Bytes

/-- The integer that a piece of eight bytes spells is a word. -/
theorem toNat_ofNat_piece {bs : Bytes} (h : bs.length ≤ 8) :
    (UInt64.ofNat (toNatLE bs)).toNat = toNatLE bs := by
  have hle : 256 ^ bs.length ≤ 2 ^ 64 :=
    (Nat.pow_le_pow_right (by decide : 256 > 0) h : 256 ^ bs.length ≤ 256 ^ 8)
  rw [UInt64.toNat_ofNat', Nat.mod_eq_of_lt ((toNatLE_lt bs).trans_le hle)]

/-- The first eight bytes are the lowest digit to the base `2 ^ 64`. -/
theorem toNatLE_eq_take_add (bs : Bytes) :
    toNatLE bs = toNatLE (bs.take 8) + UInt64.size * toNatLE (bs.drop 8) := by
  conv_lhs => rw [← List.take_append_drop 8 bs, toNatLE_append]
  by_cases h : 8 ≤ bs.length
  · rw [List.length_take_of_le h]
    rfl
  · rw [List.drop_eq_nil_of_le (Nat.le_of_not_le h)]
    simp [toNatLE]

end Bytes

/-! ## Horner's rule -/

namespace ScalarField

variable {S R : Type} [CommRing R] (F : ScalarField S)

/-- The map takes the operations of Horner's rule to those of a commutative ring, and words to their
classes. -/
structure MapsToRing (φ : S → R) : Prop where
  zero : φ F.zero = 0
  one : φ F.one = 1
  add (a b : S) : φ (F.add a b) = φ a + φ b
  mul (a b : S) : φ (F.mul a b) = φ a * φ b
  ofUInt64 (n : UInt64) : φ (F.ofUInt64 n) = (n.toNat : R)

/-- The radix of 64-bit digits: one more than the largest word. -/
def radix : S := F.add (F.ofUInt64 (UInt64.ofNat (UInt64.size - 1))) F.one

/-- Puts a digit below those that are reduced already. -/
def hornerStep (digit : Bytes) (higher : S) : S :=
  F.add (F.mul higher F.radix) (F.ofUInt64 (UInt64.ofNat (Bytes.toNatLE digit)))

theorem hornerReduce_eq (bs : Bytes) :
    F.hornerReduce bs = (Bytes.pieces 8 8 bs).foldr F.hornerStep F.zero := by
  rw [hornerReduce, List.foldl_reverse]
  rfl

variable {F} {φ : S → R}

namespace MapsToRing

variable (hφ : F.MapsToRing φ)

include hφ

theorem map_radix : φ F.radix = (UInt64.size : R) := by
  have hword : (UInt64.ofNat (UInt64.size - 1)).toNat = UInt64.size - 1 := by decide
  rw [radix, hφ.add, hφ.ofUInt64, hφ.one, hword]
  exact (Nat.cast_succ (UInt64.size - 1)).symm

/-- Each step makes the digit the lowest one. -/
theorem map_hornerStep {digit : Bytes} (h : digit.length ≤ 8) (higher : S) :
    φ (F.hornerStep digit higher)
      = (Bytes.toNatLE digit : R) + (UInt64.size : R) * φ higher := by
  rw [hornerStep, hφ.add, hφ.mul, hφ.map_radix, hφ.ofUInt64, Bytes.toNat_ofNat_piece h,
    add_comm, mul_comm]

/-- The steps over all digits give the class of the integer that the bytes spell. -/
theorem map_foldr (n : ℕ) {bs : Bytes} (h : bs.length ≤ 8 * n) :
    φ ((Bytes.pieces 8 n bs).foldr F.hornerStep F.zero) = (Bytes.toNatLE bs : R) := by
  induction n generalizing bs with
  | zero =>
    obtain rfl := List.eq_nil_of_length_eq_zero (Nat.le_zero.mp h)
    rw [Bytes.toNatLE, Nat.cast_zero]
    exact hφ.zero
  | succ n ih =>
    have hrest : (bs.drop 8).length ≤ 8 * n := by
      rw [List.length_drop]
      omega
    rw [Bytes.pieces, List.foldr_cons, hφ.map_hornerStep (List.length_take_le 8 bs), ih hrest,
      Bytes.toNatLE_eq_take_add bs, Nat.cast_add, Nat.cast_mul]

/-- Horner's rule reduces up to 64 bytes. -/
theorem map_hornerReduce {bs : Bytes} (h : bs.length ≤ 64) :
    φ (F.hornerReduce bs) = (Bytes.toNatLE bs : R) := by
  rw [hornerReduce_eq]
  exact hφ.map_foldr 8 h

end MapsToRing

theorem IsResidueField.mapsToRing (hF : F.IsResidueField) : F.MapsToRing F.residue :=
  ⟨hF.zero, hF.one, hF.add, hF.mul, hF.ofUInt64⟩

/-- In a residue field Horner's rule gives the residue of up to 64 bytes. -/
theorem IsResidueField.value_hornerReduce (hF : F.IsResidueField) {bs : Bytes}
    (h : bs.length ≤ 64) : F.value (F.hornerReduce bs) = Bytes.toNatLE bs % groupOrder := by
  rw [hF.value_eq, hF.mapsToRing.map_hornerReduce h]
  rfl

end ScalarField

/-- Digit by digit or at once, up to 64 bytes are reduced to the same scalar. -/
theorem plainScalars_reduceWide {bs : Bytes} (h : bs.length ≤ 64) :
    plainScalars.reduceWide bs = scaledScalars.reduceWide bs := by
  have hfield := residueField_isResidueField reduceLE drawScalar
  have hreduce := hfield.mapsToRing.map_hornerReduce h
  rw [residueField_residue] at hreduce
  exact hreduce

/-! ## Hashes -/

/-- The output of one block has 64 bytes at most. -/
theorem Blake3.length_output_le (flags : UInt32) (key : Chain) (input : Bytes) :
    (output flags key input).length ≤ 64 := by
  unfold output
  dsimp only
  split
  · exact Nat.zero_le _
  · simp [Row.toList]

end BilinearGroups
