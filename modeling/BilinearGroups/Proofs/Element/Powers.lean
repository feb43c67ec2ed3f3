import BilinearGroups.Proofs.Element.AlgebraicLaws

/-!
# Powers of scalars

A scalar is raised to the integer of another one, which is not reduced on the way: the exponent is
taken apart into four words, and the power runs over their digits. So powers of scalars are powers
by integers below the group order `r`, and where a sum of exponents is reduced modulo `r`, one more
factor appears, since the `r`-th power of a scalar is the scalar.

The exponent `-1` is the integer `r - 1`. Raised to it, a scalar other than zero is one; outside the
scalars a power is a multiple, and the multiple by `-1` is the inverse.
-/

namespace BilinearGroups

open Bls12
open ExponentModel (elementOf)

variable {B : Backend} {M : B.Membership} {g : Group}

/-! ## Exponents -/

namespace ScalarField.IsResidueField

variable {S : Type} {F : ScalarField S} (hF : F.IsResidueField)

include hF

/-- The integer of a power is the power of the integer, reduced once. -/
theorem value_pow (a : S) (e : Limbs) :
    F.value (F.pow a e) = F.value a ^ e.toNat % groupOrder := by
  rw [hF.value_eq, hF.value_eq, hF.pow, Residue.val_pow]

theorem value_lt (a : S) : F.value a < groupOrder := by
  rw [hF.value_eq]
  exact (F.residue a).isLt

theorem toNat_limbs_eq_value (a : S) : (F.limbs a).toNat = F.value a := by
  rw [hF.toNat_limbs, hF.value_eq]

end ScalarField.IsResidueField

theorem Bls12.Fr.pow_groupOrder (a : Fr) : a ^ groupOrder = a := by
  apply Residue.toZModEquiv.injective
  rw [map_pow, ZMod.pow_card]

/-- The integer that the encoding of an element spells. -/
def Element.integer (e : Element B) : ℕ := Bytes.toNatBE e.toBytes

namespace Context.Members

variable (hB : B.ModuleLaws M) (c : Context B)

include hB

theorem integer_ofScalar (s : B.Scalar) : (ofScalar hB c s).1.integer = B.scalars.value s := rfl

theorem integer_eq (x : c.Members M .zr) : x.1.integer = (scalarEquiv hB c x).val := by
  obtain ⟨s, rfl⟩ := exists_ofScalar hB c x
  rw [integer_ofScalar, scalarEquiv_ofScalar, hB.scalars.value_eq]

theorem integer_lt (x : c.Members M .zr) : x.1.integer < Bls12.groupOrder := by
  rw [integer_eq hB]
  exact (scalarEquiv hB c x).isLt

theorem integer_add (x y : c.Members M .zr) :
    letI := field hB c
    (x + y).1.integer = (x.1.integer + y.1.integer) % Bls12.groupOrder := by
  let := field hB c
  rw [integer_eq hB, integer_eq hB, integer_eq hB, ← Residue.val_add]
  exact congrArg Residue.val (map_add (scalarRingEquiv hB c) x y)

theorem integer_neg_one :
    letI := field hB c
    (-1 : c.Members M .zr).1.integer + 1 = Bls12.groupOrder := by
  let := field hB c
  have hneg : scalarEquiv hB c (-1) = -1 :=
    (map_neg (scalarRingEquiv hB c) 1).trans (congrArg Neg.neg (map_one (scalarRingEquiv hB c)))
  rw [integer_eq hB, hneg]
  rfl

theorem pow_groupOrder (a : c.Members M .zr) :
    letI := field hB c
    a ^ Bls12.groupOrder = a := by
  let := field hB c
  apply (scalarRingEquiv hB c).injective
  rw [map_pow, Fr.pow_groupOrder]

/-- Scalars are raised to integers. -/
theorem gives_powScalar (a n : c.Members M .zr) :
    letI := field hB c
    c.Gives .zr (Element.powScalar a.1 n.1) (a ^ n.1.integer).1 := by
  let := field hB c
  obtain ⟨s, rfl⟩ := exists_ofScalar hB c a
  obtain ⟨k, rfl⟩ := exists_ofScalar hB c n
  refine gives_scalar hB c ((ofScalar hB c s).2.1.gives_powScalar k) ?_
  rw [integer_ofScalar, hB.scalars.pow, hB.scalars.toNat_limbs_eq_value,
    ← scalarEquiv_ofScalar hB c]
  exact map_pow (scalarRingEquiv hB c) _ _

/-- Where the sum of exponents is reduced, the reduced power lacks one factor. -/
theorem pow_integer_mul (a x y : c.Members M .zr) :
    letI := field hB c
    a ^ x.1.integer * a ^ y.1.integer = if x.1.integer + y.1.integer < Bls12.groupOrder
      then a ^ (x + y).1.integer else a ^ (x + y).1.integer * a := by
  let := field hB c
  rw [← pow_add, integer_add]
  split_ifs with hlt
  · rw [Nat.mod_eq_of_lt hlt]
  · have hx : x.1.integer < Bls12.groupOrder := integer_lt hB c x
    have hy : y.1.integer < Bls12.groupOrder := integer_lt hB c y
    -- The sum is below `2 r`, so that reducing it takes away `r` once.
    have hsum : x.1.integer + y.1.integer =
        (x.1.integer + y.1.integer) % Bls12.groupOrder + Bls12.groupOrder := by
      rw [Nat.mod_eq_sub_mod (Nat.le_of_not_lt hlt), Nat.mod_eq_of_lt (by omega)]
      omega
    rw [hsum, pow_add, pow_groupOrder, ← hsum]

theorem pow_integer_neg_one {a : c.Members M .zr} :
    letI := field hB c
    a ≠ 0 → a ^ (-1 : c.Members M .zr).1.integer = 1 := by
  let := field hB c
  intro ha
  have hmul : a ^ (-1 : c.Members M .zr).1.integer * a = a := by
    rw [← pow_succ, integer_neg_one hB, pow_groupOrder hB]
  exact mul_eq_right₀ ha |>.mp hmul

/-- Outside the scalars a power is a multiple. -/
theorem gives_powScalar_smul (hg : g ≠ .zr) (x : c.Members M .zr) (a : c.Members M g) :
    letI := field hB c
    letI := addCommGroup hB c hg
    letI := module hB c hg
    c.Gives g (Element.powScalar a.1 x.1) (x • a).1 := by
  let := field hB c
  let := addCommGroup hB c hg
  let := module hB c hg
  obtain ⟨k, rfl⟩ := exists_ofScalar hB c x
  obtain ⟨p, rfl⟩ := exists_ofValue a
  have hpower : c.Gives g (Element.powScalar (ofValue c p).1 (ofScalar hB c k).1)
      ⟨c, (Value.of g p.1).multiple k⟩ := by
    rw [← Value.power_of hg]
    exact (ofValue c p).2.1.gives_powScalar k
  intro e he
  rw [hpower e he, ← (computesModule hB c hg).smul (ofScalar hB c k) (ofValue c p) e he]
  exact ((ofValue c p).2.1.gives_mulScalar k e he).symm

/-- Outside the scalars the inverse is the negative. -/
theorem gives_invert_neg (hg : g ≠ .zr) {a : c.Members M g} (ha : a.1.isZero = false) :
    letI := addCommGroup hB c hg
    c.Gives g (Element.invert a.1) (-a).1 := by
  let := field hB c
  let := addCommGroup hB c hg
  let := module hB c hg
  obtain ⟨p, rfl⟩ := exists_ofValue a
  have hp : p.1 ≠ (B.operations g).identity := by
    intro hp
    rw [Element.isZero, show (ofValue c p).1.value = .of g p.1 from rfl,
      Value.isIdentity_of.mpr hp] at ha
    cases ha
  intro e he
  rw [(ofValue c p).2.1.gives_invert (Value.inverse_of hg hp) e he, ← Value.negative_of,
    ← (computesModule hB c hg).neg (ofValue c p) e he]
  exact ((ofValue c p).2.1.gives_neg e he).symm

end Context.Members

/-- Powers of scalars are exact on every backend: a scalar is raised to the integer that four words
spell, the words of an exponent spell its integer below the group order, and so the power of an
element by another is the power by its integer, `0 ^ 0 = 1` included. Powers of one scalar multiply
to the power by the sum of the exponents, with one more factor where the sum is reduced. Raised to
`-1`, a scalar other than zero is one, which is its inverse only if the scalar is one; elements of
the other groups, except the neutral one, are inverted. -/
theorem powers_exact {M : B.Membership} (hM : M.Supported) :
    (∀ (a : B.Scalar) (e : Limbs), B.scalars.value (B.scalars.pow a e) = B.scalars.value a ^
      (e.l0.toNat + 2 ^ 64 * e.l1.toNat + 2 ^ 128 * e.l2.toNat + 2 ^ 192 * e.l3.toNat)
        % groupOrder) ∧
    (∀ n : B.Scalar, B.scalars.value n < groupOrder ∧ B.scalars.value n =
      (B.scalars.limbs n).l0.toNat + 2 ^ 64 * (B.scalars.limbs n).l1.toNat
        + 2 ^ 128 * (B.scalars.limbs n).l2.toNat + 2 ^ 192 * (B.scalars.limbs n).l3.toNat) ∧
    ∀ c : Context B, ∃ _ : Field (c.Members M .zr), c.ComputesField M ∧
      (∀ a n : c.Members M .zr,
        c.Gives .zr (Element.powScalar a.1 n.1) (a ^ n.1.integer).1) ∧
      (∀ a x y : c.Members M .zr, a ^ x.1.integer * a ^ y.1.integer =
        if x.1.integer + y.1.integer < groupOrder then a ^ (x + y).1.integer
        else a ^ (x + y).1.integer * a) ∧
      (∀ a : c.Members M .zr, a ≠ 0 →
        c.Gives .zr (Element.powScalar a.1 (-1 : c.Members M .zr).1) (1 : c.Members M .zr).1 ∧
        (c.Gives .zr (Element.invert a.1) (1 : c.Members M .zr).1 ↔ a = 1)) ∧
      ∀ g, g ≠ .zr → ∀ a : c.Members M g, a.1.isZero = false → ∃ b : c.Members M g,
        c.Gives g (Element.powScalar a.1 (-1 : c.Members M .zr).1) b.1 ∧
        c.Gives g (Element.invert a.1) b.1 := by
  have hB := hM.moduleLaws
  refine ⟨fun a e ↦ ?_, fun n ↦ ⟨hB.scalars.value_lt n, ?_⟩, fun c ↦ ?_⟩
  · rw [← Limbs.toNat_eq_sum]
    exact hB.scalars.value_pow a e
  · rw [← Limbs.toNat_eq_sum, hB.scalars.toNat_limbs_eq_value]
  let := Context.Members.field hB c
  have hfield : c.ComputesField M := Context.Members.computesField hB c
  refine ⟨_, hfield, Context.Members.gives_powScalar hB c, Context.Members.pow_integer_mul hB c,
    fun a ha ↦ ⟨?_, ?_⟩, fun g hg a ha ↦ ?_⟩
  · have hpower := Context.Members.gives_powScalar hB c a (-1)
    rw [Context.Members.pow_integer_neg_one hB c ha] at hpower
    exact hpower
  · rw [← inv_eq_one]
    constructor
    · intro hone
      exact Subtype.ext ((hfield.inv ha).unique hone)
    · intro hone
      rw [← hone]
      exact hfield.inv ha
  · let := Context.Members.addCommGroup hB c hg
    let := Context.Members.module hB c hg
    refine ⟨-a, ?_, Context.Members.gives_invert_neg hB c hg ha⟩
    rw [← neg_one_smul (c.Members M .zr) a]
    exact Context.Members.gives_powScalar_smul hB c hg (-1) a

/-- Raised to `-1`, the scalar two is one, and the generator is its negative. -/
theorem powers_exact_neg_one : exponentMembership.Supported ∧
    (Element.powScalar (elementOf .zr 2) (elementOf .zr (-1))).result (elementOf .zr 0) =
      .ok (elementOf .zr 1) ∧
    (Element.powScalar (elementOf .g1 1) (elementOf .zr (-1))).result (elementOf .g1 0) =
      (Element.invert (elementOf .g1 1)).result (elementOf .g1 0) := by
  obtain ⟨-, -, hpowers⟩ := powers_exact .exponent
  obtain ⟨_, hfield, -, -, hscalars, hgroups⟩ := hpowers (.standard exponentModel)
  have hone : (1 : (Context.standard exponentModel).Members exponentMembership .zr).1 =
      elementOf .zr 1 := hfield.one.unique Context.gives_setOne
  have hneg : (-1 : (Context.standard exponentModel).Members exponentMembership .zr).1 =
      elementOf .zr (-1) := by
    have hgives := hfield.neg 1 _ (ExponentModel.memberOf .zr 0).2.1
    rw [hone] at hgives
    exact (Except.ok.inj hgives).symm
  let two := ExponentModel.memberOf .zr 2
  let generator := ExponentModel.memberOf .g1 1
  have htwo : two ≠ 0 := mt (hfield.isZero_iff two).mpr
    (show ¬(elementOf .zr 2).isZero = true by decide)
  have hgenerator : generator.1.isZero = false :=
    show (elementOf .g1 1).isZero = false by decide
  obtain ⟨b, hpower, hinverse⟩ := hgroups .g1 nofun generator hgenerator
  refine ⟨.exponent, ?_, ?_⟩
  · rw [← hneg, ← hone]
    exact (hscalars two htwo).1 _ (ExponentModel.memberOf .zr 0).2.1
  · rw [← hneg]
    have hreceiver := (ExponentModel.memberOf .g1 0).2.1
    exact (hpower _ hreceiver).trans (hinverse _ hreceiver).symm

end BilinearGroups
