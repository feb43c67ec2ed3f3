import BilinearGroups.Backend.Scalars
import BilinearGroups.Bytes.Digits
import BilinearGroups.Proofs.Algebra.CyclicGroup
import BilinearGroups.Proofs.Backend.Limbs
import BilinearGroups.Proofs.Bls12.Primes
import BilinearGroups.Proofs.Element.Membership

/-!
# The laws of a pairing

The operations of a backend carry no laws; here are the ones that a pairing of groups of prime order
satisfies. The scalars are the residues modulo the group order (`IsResidueField`), and the other
three groups are cyclic of that order, with the scalars acting as multiples (`GroupLaws`).

Of the pairing itself two descriptions are used. It is *bilinear* if it respects sums on either side
and is not trivial; and a backend is *lawful* if its pairing multiplies exponents, so that the
generator of the target group is the pairing of the other two. A product of pairings is a law of its
own (`MultipliesPairings`).

The types of a backend may hold more than the groups, so all laws are about members.
-/

namespace BilinearGroups

open Bls12

/-! ## Scalars -/

namespace ScalarField

variable {S : Type} (F : ScalarField S)

/-- The integer that the encoding of a scalar spells. -/
def value (a : S) : ℕ := Bytes.toNatBE (F.toBytes a)

/-- The class of a scalar modulo the group order. -/
def residue (a : S) : Fr := Residue.ofNat groupOrder (F.value a)

/-- The scalars are the residues modulo the group order, encoded by their least representatives. -/
structure IsResidueField : Prop where
  toBytes (a : S) : F.toBytes a = Bytes.ofNatBE scalarWidth (F.residue a).val
  bijective : Function.Bijective F.residue
  zero : F.residue F.zero = 0
  one : F.residue F.one = 1
  add (a b : S) : F.residue (F.add a b) = F.residue a + F.residue b
  sub (a b : S) : F.residue (F.sub a b) = F.residue a - F.residue b
  mul (a b : S) : F.residue (F.mul a b) = F.residue a * F.residue b
  neg (a : S) : F.residue (F.neg a) = -F.residue a
  inv? (a : S) :
    (F.inv? a).map F.residue = if F.residue a = 0 then none else some (F.residue a)⁻¹
  pow (a : S) (e : Limbs) : F.residue (F.pow a e) = F.residue a ^ e.toNat
  ofUInt64 (n : UInt64) : F.residue (F.ofUInt64 n) = (n.toNat : Fr)

variable {F} (hF : F.IsResidueField)

include hF

theorem IsResidueField.value_eq (a : S) : F.value a = (F.residue a).val := by
  have hfits : (F.residue a).val < 256 ^ scalarWidth := (F.residue a).isLt.trans (by decide)
  exact (Bytes.toNatBE_eq_iff (by rw [hF.toBytes, Bytes.length_ofNatBE]) hfits).mpr (hF.toBytes a)

theorem IsResidueField.isZero_iff (a : S) : F.isZero a = true ↔ F.residue a = 0 := by
  let := F.decEq
  show decide (a = F.zero) = true ↔ _
  rw [decide_eq_true_iff, ← hF.zero, hF.bijective.1.eq_iff]

/-- Every scalar but zero has an inverse. -/
theorem IsResidueField.exists_inv? {a : S} (h : F.residue a ≠ 0) :
    ∃ b, F.inv? a = some b ∧ F.residue b = (F.residue a)⁻¹ := by
  have hinv := hF.inv? a
  rw [if_neg h] at hinv
  exact Option.map_eq_some_iff.mp hinv

/-- Zero is the only scalar without an inverse. -/
theorem IsResidueField.inv?_eq_none_iff {a : S} : F.inv? a = none ↔ a = F.zero := by
  rw [← hF.bijective.1.eq_iff, hF.zero]
  by_cases ha : F.residue a = 0
  · have hinv := hF.inv? a
    rw [if_pos ha, Option.map_eq_none_iff] at hinv
    exact iff_of_true hinv ha
  · obtain ⟨b, hb, -⟩ := hF.exists_inv? ha
    rw [hb]
    exact iff_of_false nofun ha

/-- The inverse of a scalar is one with respect to the product. -/
theorem IsResidueField.mul_inv? {a b : S} (h : F.inv? a = some b) : F.mul a b = F.one := by
  have ha : F.residue a ≠ 0 := by
    intro ha
    have hzero : a = F.zero := hF.bijective.1 (ha.trans hF.zero.symm)
    rw [hF.inv?_eq_none_iff.mpr hzero] at h
    cases h
  obtain ⟨b', hb', hresidue⟩ := hF.exists_inv? ha
  obtain rfl := Option.some.inj (hb'.symm.trans h)
  apply hF.bijective.1
  rw [hF.mul, hresidue, hF.one, mul_inv_cancel₀ ha]

theorem IsResidueField.ofInt64 (n : Int64) : F.residue (F.ofInt64 n) = (n.toInt : Fr) := by
  have hlt := n.toInt_lt
  have hle := n.le_toInt
  have hmagnitude : (UInt64.ofNat n.toInt.natAbs).toNat = n.toInt.natAbs := by
    rw [UInt64.toNat_ofNat']
    omega
  rw [ScalarField.ofInt64, apply_ite F.residue, hF.neg, hF.ofUInt64, hmagnitude]
  split_ifs with hneg
  · have hint : n.toInt < 0 := Int64.lt_iff_toInt_lt.mp hneg
    rw [← Int.cast_natCast, Int.ofNat_natAbs_of_nonpos hint.le, Int.cast_neg, neg_neg]
  · have hint : 0 ≤ n.toInt := Int.not_lt.mp fun h ↦ hneg (Int64.lt_iff_toInt_lt.mpr h)
    rw [← Int.cast_natCast, Int.natAbs_of_nonneg hint]

end ScalarField

/-! ## Groups -/

section Groups

variable {S P T : Type}

/-- The group operations of a source group. -/
def SourceGroup.operations (G : SourceGroup S P) : GroupOperations P :=
  ⟨G.identity, G.generator, G.add, G.neg⟩

/-- The group operations of a target group. -/
def TargetGroup.operations (G : TargetGroup S T) : GroupOperations T :=
  ⟨G.identity, G.generator, G.combine, G.invert⟩

/-- The points are a cyclic group of the order of the scalars, on which the scalars act as
multiples. -/
structure SourceGroup.Laws (G : SourceGroup S P) (F : ScalarField S) (member : P → Prop) :
    Prop where
  cyclic : G.operations.IsCyclic member
  sub {p q : P} : member p → member q → G.sub p q = G.add p (G.neg q)
  scale (k : S) {p : P} : member p → G.scale k p = G.operations.copies (F.value k) p

/-- The target group is a cyclic group of the order of the scalars, on which the scalars act as
powers. -/
structure TargetGroup.Laws (G : TargetGroup S T) (F : ScalarField S) (member : T → Prop) :
    Prop where
  cyclic : G.operations.IsCyclic member
  scale (k : S) {t : T} : member t → G.scale k t = G.operations.copies (F.value k) t

variable {F : ScalarField S}

theorem SourceGroup.Laws.add_element {G : SourceGroup S P} {member : P → Prop}
    (hG : G.Laws F member) (x y : Fr) :
    G.add (G.operations.element x) (G.operations.element y) = G.operations.element (x + y) :=
  hG.cyclic.op_element x y

theorem SourceGroup.Laws.neg_element {G : SourceGroup S P} {member : P → Prop}
    (hG : G.Laws F member) (x : Fr) :
    G.neg (G.operations.element x) = G.operations.element (-x) :=
  hG.cyclic.inv_element x

theorem SourceGroup.Laws.sub_element {G : SourceGroup S P} {member : P → Prop}
    (hG : G.Laws F member) (x y : Fr) :
    G.sub (G.operations.element x) (G.operations.element y) = G.operations.element (x - y) := by
  rw [hG.sub (hG.cyclic.member_element x) (hG.cyclic.member_element y), hG.neg_element,
    hG.add_element, sub_eq_add_neg]

theorem TargetGroup.Laws.combine_element {G : TargetGroup S T} {member : T → Prop}
    (hG : G.Laws F member) (x y : Fr) :
    G.combine (G.operations.element x) (G.operations.element y) = G.operations.element (x + y) :=
  hG.cyclic.op_element x y

theorem TargetGroup.Laws.invert_element {G : TargetGroup S T} {member : T → Prop}
    (hG : G.Laws F member) (x : Fr) :
    G.invert (G.operations.element x) = G.operations.element (-x) :=
  hG.cyclic.inv_element x

variable (hF : F.IsResidueField)

include hF

/-- The integer of the limbs of a scalar is the least representative of its residue. -/
theorem ScalarField.IsResidueField.toNat_limbs (a : S) :
    (F.limbs a).toNat = (F.residue a).val := by
  rw [ScalarField.limbs, hF.toBytes]
  exact Limbs.toNat_ofBytesBE_ofNatBE ((F.residue a).isLt.trans (by decide))

/-- As many copies as a scalar says multiply exponents by it. -/
theorem ScalarField.IsResidueField.copies_element {O : GroupOperations P} {member : P → Prop}
    (hO : O.IsCyclic member) (k : S) (x : Fr) :
    O.copies (F.value k) (O.element x) = O.element (F.residue k * x) := by
  rw [hO.copies_element, hF.value_eq, Residue.natCast_val]

theorem SourceGroup.Laws.scale_element {G : SourceGroup S P} {member : P → Prop}
    (hG : G.Laws F member) (k : S) (x : Fr) :
    G.scale k (G.operations.element x) = G.operations.element (F.residue k * x) := by
  rw [hG.scale k (hG.cyclic.member_element x)]
  exact hF.copies_element hG.cyclic k x

theorem TargetGroup.Laws.scale_element {G : TargetGroup S T} {member : T → Prop}
    (hG : G.Laws F member) (k : S) (x : Fr) :
    G.scale k (G.operations.element x) = G.operations.element (F.residue k * x) := by
  rw [hG.scale k (hG.cyclic.member_element x)]
  exact hF.copies_element hG.cyclic k x

end Groups

/-! ## Backends -/

namespace Backend

variable {B : Backend}

/-- The scalars are a residue field, and the other groups are cyclic of the same prime order. -/
structure GroupLaws (M : B.Membership) : Prop where
  scalars : B.scalars.IsResidueField
  g1 : B.g1.Laws B.scalars M.g1
  g2 : B.g2.Laws B.scalars M.g2
  target : B.target.Laws B.scalars M.gt

/-- A product of pairings is the product of the single pairings. -/
def MultipliesPairings (B : Backend) : Prop :=
  ∀ (ps : List B.G1) (qs : List B.G2), ps.length = qs.length → B.pairingProduct ps qs =
    .ok ((List.zipWith B.pairing ps qs).foldl B.target.combine B.target.identity)

/-- The operation of the target group is that of a commutative monoid, on the whole type. -/
structure IsCommutative (B : Backend) : Prop where
  assoc (s t u : B.Target) :
    B.target.combine (B.target.combine s t) u = B.target.combine s (B.target.combine t u)
  comm (s t : B.Target) : B.target.combine s t = B.target.combine t s
  identity (t : B.Target) : B.target.combine B.target.identity t = t

/-- The maps between the source groups are isomorphisms, and each is the inverse of the other. -/
structure IdentificationLaws (M : B.Membership) (i : SourceIdentification B.G1 B.G2) : Prop where
  toG1_mem {q : B.G2} : M.g2 q → M.g1 (i.toG1 q)
  toG2_mem {p : B.G1} : M.g1 p → M.g2 (i.toG2 p)
  toG1_add {q q' : B.G2} : M.g2 q → M.g2 q' →
    i.toG1 (B.g2.add q q') = B.g1.add (i.toG1 q) (i.toG1 q')
  toG2_add {p p' : B.G1} : M.g1 p → M.g1 p' →
    i.toG2 (B.g1.add p p') = B.g2.add (i.toG2 p) (i.toG2 p')
  toG1_toG2 {p : B.G1} : M.g1 p → i.toG1 (i.toG2 p) = p
  toG2_toG1 {q : B.G2} : M.g2 q → i.toG2 (i.toG1 q) = q

/-- The pairing respects sums on either side and is not trivial. -/
structure Bilinear (M : B.Membership) : Prop extends GroupLaws M where
  pairing_mem {p : B.G1} {q : B.G2} : M.g1 p → M.g2 q → M.gt (B.pairing p q)
  pairing_add_left {p p' : B.G1} {q : B.G2} : M.g1 p → M.g1 p' → M.g2 q →
    B.pairing (B.g1.add p p') q = B.target.combine (B.pairing p q) (B.pairing p' q)
  pairing_add_right {p : B.G1} {q q' : B.G2} : M.g1 p → M.g2 q → M.g2 q' →
    B.pairing p (B.g2.add q q') = B.target.combine (B.pairing p q) (B.pairing p q')
  nondegenerate : ∃ p q, M.g1 p ∧ M.g2 q ∧ B.pairing p q ≠ B.target.identity
  identification {i : SourceIdentification B.G1 B.G2} :
    B.identification = some i → IdentificationLaws M i

/-- The pairing multiplies exponents, and a product of pairings is the product of the single
ones. -/
structure Lawful (M : B.Membership) : Prop extends GroupLaws M where
  pairing_copies (m n : ℕ) :
    B.pairing (B.g1.operations.copies m B.g1.generator) (B.g2.operations.copies n B.g2.generator)
      = B.target.operations.copies (m * n) B.target.generator
  product : B.MultipliesPairings

variable {M : B.Membership}

/-- A bilinear pairing multiplies exponents, up to a fixed factor. -/
theorem Bilinear.exists_pairing_element (hB : B.Bilinear M) : ∃ w : Fr, w ≠ 0 ∧ ∀ x y : Fr,
    B.pairing (B.g1.operations.element x) (B.g2.operations.element y)
      = B.target.operations.element (w * (x * y)) := by
  have hright : ∀ x : Fr, ∃ u : Fr, ∀ y : Fr,
      B.pairing (B.g1.operations.element x) (B.g2.operations.element y)
        = B.target.operations.element (u * y) := fun x ↦
    hB.g2.cyclic.exists_factor hB.target.cyclic (hB.pairing_mem (hB.g1.cyclic.member_element x))
      (hB.pairing_add_right (hB.g1.cyclic.member_element x))
  obtain ⟨w, hw⟩ := hright 1
  have hpairing : ∀ x y : Fr,
      B.pairing (B.g1.operations.element x) (B.g2.operations.element y)
        = B.target.operations.element (w * (x * y)) := by
    intro x y
    -- With the right operand fixed the factor is found where the left one is the generator.
    obtain ⟨u, hu⟩ := hB.g1.cyclic.exists_factor hB.target.cyclic
      (f := fun p ↦ B.pairing p (B.g2.operations.element y))
      (fun hp ↦ hB.pairing_mem hp (hB.g2.cyclic.member_element y))
      (fun hp hp' ↦ hB.pairing_add_left hp hp' (hB.g2.cyclic.member_element y))
    have hfactor : u = w * y := by
      apply hB.target.cyclic.element_injective
      rw [← hw y, hu 1, mul_one]
    rw [hu x, hfactor]
    congr 1
    ring
  refine ⟨w, ?_, hpairing⟩
  rintro rfl
  obtain ⟨p, q, hp, hq, hne⟩ := hB.nondegenerate
  obtain ⟨x, rfl⟩ := hB.g1.cyclic.exists_element hp
  obtain ⟨y, rfl⟩ := hB.g2.cyclic.exists_element hq
  apply hne
  rw [hpairing, zero_mul]
  rfl

/-- In a lawful backend the pairing multiplies exponents. -/
theorem Lawful.pairing_element (hB : B.Lawful M) (x y : Fr) :
    B.pairing (B.g1.operations.element x) (B.g2.operations.element y)
      = B.target.operations.element (x * y) := by
  refine (hB.pairing_copies x.val y.val).trans ((hB.target.cyclic.copies_generator_eq _).trans ?_)
  rw [Nat.cast_mul, Residue.natCast_val, Residue.natCast_val]

end Backend

end BilinearGroups
