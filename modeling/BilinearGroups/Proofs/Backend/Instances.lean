import BilinearGroups.Proofs.Backend.Laws
import BilinearGroups.Proofs.Backend.Readers
import BilinearGroups.Proofs.Pairing.FinalPower

/-!
# Backends with the laws of a pairing

The scalars of all backends are a residue field, whatever their reduction of wide integers and their
way of drawing. The exponent model satisfies every law of a pairing, as each is a law of the scalar
field. That a product of pairings is the product of the single ones is a theorem over all backends,
and so is that the operation of the target group is commutative.
-/

namespace BilinearGroups

open Bls12

/-! ## Scalars -/

section Scalars

variable (reduceWide : Bytes → Fr) (random : Draw Fr)

theorem residueField_value (a : Fr) : (residueField reduceWide random).value a = a.val :=
  (Bytes.toNatBE_eq_iff (Bytes.length_ofNatBE _ _) (a.isLt.trans (by decide))).mpr rfl

/-- Every residue is its own residue. -/
theorem residueField_residue (a : Fr) : (residueField reduceWide random).residue a = a := by
  rw [ScalarField.residue, residueField_value, Residue.ofNat_val]

theorem residueField_isResidueField : (residueField reduceWide random).IsResidueField where
  toBytes a := by
    rw [residueField_residue]
    rfl
  bijective := by
    rw [funext (residueField_residue reduceWide random)]
    exact Function.bijective_id
  zero := residueField_residue ..
  one := residueField_residue ..
  add a b := by
    simp only [residueField_residue]
    rfl
  sub a b := by
    simp only [residueField_residue]
    rfl
  mul a b := by
    simp only [residueField_residue]
    rfl
  neg a := by
    simp only [residueField_residue]
    rfl
  inv? a := by
    rw [funext (residueField_residue reduceWide random), Option.map_id']
    rfl
  pow a e := by
    simp only [residueField_residue]
    dsimp only [residueField]
    rw [Limbs.combineDigits_mul]
  ofUInt64 n := by
    rw [residueField_residue]
    rfl

theorem plainScalars_eq :
    plainScalars = residueField (residueField reduceLE drawScalar).hornerReduce drawScalar := by
  -- Definitional unfolding would run into the digits of the power.
  unfold plainScalars residueField
  with_reducible rfl

theorem plainScalars_residue (a : Fr) : plainScalars.residue a = a := by
  rw [plainScalars_eq, residueField_residue]

theorem plainScalars_isResidueField : plainScalars.IsResidueField := by
  rw [plainScalars_eq]
  exact residueField_isResidueField ..

end Scalars

/-! ## The exponent model -/

namespace ExponentModel

/-- The scalars as a group under addition. -/
def addition : GroupOperations Fr := ⟨0, 1, (· + ·), (- ·)⟩

theorem copies_addition (n : ℕ) (a : Fr) : addition.copies n a = n * a := by
  induction n with
  | zero =>
    rw [Nat.cast_zero, zero_mul]
    rfl
  | succ n ih =>
    rw [GroupOperations.copies, ih, Nat.cast_succ, add_mul, one_mul]
    rfl

theorem addition_isCyclic {member : Fr → Prop} (hmember : ∀ a, member a) :
    addition.IsCyclic member where
  identity := hmember _
  generator := hmember _
  op _ _ := hmember _
  inv _ := hmember _
  op_assoc _ _ _ := add_assoc _ _ _
  identity_op _ := zero_add _
  inv_op _ := neg_add_cancel _
  exists_copies {a} _ := by
    refine ⟨a.val, ?_⟩
    rw [copies_addition]
    exact (mul_one _).trans (Residue.ofNat_val a)
  copies_generator n := by
    rw [copies_addition, ← CharP.cast_eq_zero_iff Fr groupOrder]
    exact iff_of_eq (congrArg (· = 0) (mul_one _))

/-- Every exponent is its own exponent. -/
theorem element_addition (x : Fr) : addition.element x = x := by
  rw [GroupOperations.element, copies_addition]
  exact (mul_one _).trans (Residue.ofNat_val x)

theorem scale_eq_copies (k a : Fr) : a * k = addition.copies (scalars.value k) a := by
  have hvalue : scalars.value k = k.val := by rw [scalars, plainScalars_eq, residueField_value]
  rw [copies_addition, hvalue, mul_comm]
  exact congrArg (· * a) (Residue.ofNat_val k).symm

theorem source_laws : source.Laws scalars ExponentMember where
  cyclic := addition_isCyclic exponentMember
  sub _ _ := sub_eq_add_neg _ _
  scale k a _ := scale_eq_copies k a

theorem target_laws : target.Laws scalars ExponentMember where
  cyclic := addition_isCyclic exponentMember
  scale k a _ := scale_eq_copies k a

end ExponentModel

open ExponentModel

/-- The exponent that a value is. -/
def ExponentModel.exponent : Value exponentModel → Fr
  | .g1 a | .g2 a | .gt a | .zr a => a

theorem exponentMembership_holds (v : Value exponentModel) : exponentMembership.Holds v := by
  cases v with
  | g1 a | g2 a | gt a => exact exponentMember a
  | zr s => exact s.isLt

theorem exponentModel_groupLaws : exponentModel.GroupLaws exponentMembership where
  scalars := plainScalars_isResidueField
  g1 := source_laws
  g2 := source_laws
  target := target_laws

theorem exponentModel_bilinear : exponentModel.Bilinear exponentMembership where
  toGroupLaws := exponentModel_groupLaws
  pairing_mem _ _ := exponentMember _
  pairing_add_left {a b c} _ _ _ := add_mul (R := Fr) a b c
  pairing_add_right {a b c} _ _ _ := mul_add (R := Fr) a b c
  nondegenerate := ⟨(1 : Fr), (1 : Fr), exponentMember _, exponentMember _, by decide⟩
  identification h := by
    cases h
    exact ⟨id, id, fun _ _ ↦ rfl, fun _ _ ↦ rfl, fun _ ↦ rfl, fun _ ↦ rfl⟩

theorem exponentModel_multipliesPairings : exponentModel.MultipliesPairings :=
  fun _ _ hlength ↦ if_neg (not_not.mpr hlength)

theorem exponentModel_isCommutative : exponentModel.IsCommutative where
  assoc := add_assoc (G := Fr)
  comm := add_comm (G := Fr)
  identity := zero_add (M := Fr)

/-- The pairing of exponents is their product. -/
theorem exponentModel_lawful : exponentModel.Lawful exponentMembership where
  toGroupLaws := exponentModel_groupLaws
  pairing_copies m n := by
    show addition.copies m 1 * addition.copies n 1 = addition.copies (m * n) 1
    rw [copies_addition, copies_addition, copies_addition, Nat.cast_mul, mul_one, mul_one, mul_one]
  product := exponentModel_multipliesPairings

/-- The exponent model with its source groups kept apart. -/
def asymmetricModel : Backend := { exponentModel with identification := none }

/-- The elements of the groups of the asymmetric model. -/
def asymmetricMembership : asymmetricModel.Membership where
  g1 := ExponentMember
  g2 := ExponentMember
  gt := ExponentMember
  zr s := s.val < groupOrder

theorem asymmetricModel_lawful : asymmetricModel.Lawful asymmetricMembership where
  scalars := plainScalars_isResidueField
  g1 := source_laws
  g2 := source_laws
  target := target_laws
  pairing_copies := exponentModel_lawful.pairing_copies
  product := exponentModel_lawful.product

/-- The element of the standard context with an exponent. -/
def ExponentModel.elementOf (g : Group) (x : Fr) : Element exponentModel :=
  ⟨.standard _, match g with
    | .g1 => .g1 x
    | .g2 => .g2 x
    | .gt => .gt x
    | .zr => .zr x⟩

/-! ## The curves -/

/-- The backend looks at the lengths before it multiplies. -/
theorem pairingProductOfLists_eq {product : List (Point Fp) → List (Point Fp2) → Fp12}
    {Ps : List (Point Fp)} {Qs : List (Point Fp2)} (hlength : Ps.length = Qs.length) :
    pairingProductOfLists product Ps Qs = .ok (product Ps Qs) :=
  if_neg (not_not.mpr hlength)

theorem torusBackendOver_multipliesPairings {M : Torus.Maps} (h : ∀ Ps Qs,
    M.pairingProduct Ps Qs = (List.zipWith M.pairing Ps Qs).foldl (· * ·) 1) :
    (torusBackendOver M).MultipliesPairings := by
  intro Ps Qs hlength
  exact (pairingProductOfLists_eq hlength).trans (congrArg Except.ok (h Ps Qs))

theorem torusBackend_multipliesPairings : torusBackend.MultipliesPairings :=
  torusBackendOver_multipliesPairings (by
    dsimp only [Torus.maps]
    exact pairingProduct_eq_foldl)

theorem coefficientBackend_multipliesPairings : coefficientBackend.MultipliesPairings := by
  intro Ps Qs hlength
  dsimp only [coefficientBackend]
  exact (pairingProductOfLists_eq hlength).trans
    (congrArg Except.ok (pairingProduct_eq_foldl Ps Qs))

theorem torusBackend_isCommutative : torusBackend.IsCommutative where
  assoc := mul_assoc (G := Fp12)
  comm := mul_comm (G := Fp12)
  identity := one_mul (M := Fp12)

theorem coefficientBackend_isCommutative : coefficientBackend.IsCommutative where
  assoc := mul_assoc (G := Fp12)
  comm := mul_comm (G := Fp12)
  identity := one_mul (M := Fp12)

end BilinearGroups
