import BilinearGroups.Element.Arithmetic
import BilinearGroups.Proofs.Agree
import BilinearGroups.Proofs.Backend.Laws
import BilinearGroups.Proofs.Backend.Limbs

/-!
# Exponents of values

Over a backend with the laws of groups, every value is given by its group and one scalar: a scalar
by itself, any other value by the number of copies of the generator. `HasExponent` says so, and the
operations on values are computed on exponents, each by one formula for the scalars and one for the
three groups.

An operation on values and the formula on exponents fail for the same reason or both succeed, with
results that belong together.
-/

namespace BilinearGroups

open Bls12

/-! ## Exponents -/

variable {B : Backend} {M : B.Membership} {v w : Value B} {g : Group} {x y : Fr}

/-- The value belongs to a group and has an exponent there: it is the scalar, or that many copies of
the generator. -/
inductive Value.HasExponent : Value B → Group → Fr → Prop
  /-- A point of the first source group. -/
  | g1 (x : Fr) : HasExponent (.g1 (B.g1.operations.element x)) .g1 x
  /-- A point of the second source group. -/
  | g2 (x : Fr) : HasExponent (.g2 (B.g2.operations.element x)) .g2 x
  /-- An element of the target group. -/
  | gt (x : Fr) : HasExponent (.gt (B.target.operations.element x)) .gt x
  /-- A scalar. -/
  | zr {s : B.Scalar} {x : Fr} : B.scalars.residue s = x → HasExponent (.zr s) .zr x

/-! ## Operations on exponents -/

namespace Exponent

/-- The exponent of the neutral element of the product. -/
def one : Group → Fr
  | .zr => 1
  | .g1 | .g2 | .gt => 0

/-- The exponent of the generator. -/
def generator : Group → Except Error Fr
  | .zr => .error (.unsupported .generator .zr)
  | .g1 | .g2 | .gt => .ok 1

/-- The result of an operation on scalars with a divisor that is not zero. -/
def combineScalars (op : BinaryOp) (x y : Fr) : Fr :=
  match op with
  | .add => x + y
  | .sub => x - y
  | .mul => x * y
  | .div => x * y⁻¹

/-- The exponent of the result of an operation. -/
def combine (op : BinaryOp) (g : Group) (x y : Fr) : Except Error Fr :=
  if op = .div ∧ y = 0 then .error .notInvertible
  else
    match g with
    | .zr => .ok (combineScalars op x y)
    | .g1 | .g2 | .gt => .ok (if op.invertsSecond then x - y else x + y)

theorem combine_add (g : Group) (x y : Fr) : combine .add g x y = .ok (x + y) := by
  unfold combine
  rw [if_neg (by simp)]
  cases g <;> rfl

/-- The product of target group elements adds exponents. -/
theorem combine_mul_gt (x y : Fr) : combine .mul .gt x y = .ok (x + y) := by
  unfold combine
  rw [if_neg (by simp)]
  rfl

/-- The exponent of the inverse. -/
def inverse (g : Group) (x : Fr) : Except Error Fr :=
  if x = 0 then .error .notInvertible
  else
    match g with
    | .zr => .ok x⁻¹
    | .g1 | .g2 | .gt => .ok (-x)

/-- The exponent of the power. -/
def power (k : Fr) (g : Group) (x : Fr) : Fr :=
  match g with
  | .zr => x ^ k.val
  | .g1 | .g2 | .gt => k * x

end Exponent

namespace Value.HasExponent

theorem group_eq (h : v.HasExponent g x) : v.group = g := by cases h <;> rfl

section Laws

variable (hB : B.GroupLaws M)

include hB

theorem exists_of_holds (h : M.Holds v) : ∃ x, v.HasExponent v.group x := by
  cases v with
  | g1 p =>
    obtain ⟨x, rfl⟩ := hB.g1.cyclic.exists_element h
    exact ⟨x, .g1 x⟩
  | g2 q =>
    obtain ⟨x, rfl⟩ := hB.g2.cyclic.exists_element h
    exact ⟨x, .g2 x⟩
  | gt t =>
    obtain ⟨x, rfl⟩ := hB.target.cyclic.exists_element h
    exact ⟨x, .gt x⟩
  | zr s => exact ⟨_, .zr rfl⟩

/-- Values of one group are equal exactly if their exponents are. -/
theorem eq_iff (hv : v.HasExponent g x) (hw : w.HasExponent g y) : v = w ↔ x = y := by
  cases hv with
  | g1 x =>
    cases hw with
    | g1 y => rw [Value.g1.injEq, hB.g1.cyclic.element_injective.eq_iff]
  | g2 x =>
    cases hw with
    | g2 y => rw [Value.g2.injEq, hB.g2.cyclic.element_injective.eq_iff]
  | gt x =>
    cases hw with
    | gt y => rw [Value.gt.injEq, hB.target.cyclic.element_injective.eq_iff]
  | zr hs =>
    cases hw with
    | zr ht => rw [Value.zr.injEq, ← hs, ← ht, hB.scalars.bijective.1.eq_iff]

theorem isIdentity_iff (h : v.HasExponent g x) : v.isIdentity = true ↔ x = 0 := by
  cases h with
  | g1 x => exact decide_eq_true_iff.trans hB.g1.cyclic.element_eq_identity_iff
  | g2 x => exact decide_eq_true_iff.trans hB.g2.cyclic.element_eq_identity_iff
  | gt x => exact decide_eq_true_iff.trans hB.target.cyclic.element_eq_identity_iff
  | zr hs =>
    rw [← hs]
    exact hB.scalars.isZero_iff _

theorem isOne_iff (h : v.HasExponent g x) : v.isOne = true ↔ x = Exponent.one g := by
  cases h with
  | g1 x => exact isIdentity_iff hB (.g1 x)
  | g2 x => exact isIdentity_iff hB (.g2 x)
  | gt x => exact isIdentity_iff hB (.gt x)
  | zr hs =>
    refine decide_eq_true_iff.trans ?_
    rw [← hB.scalars.bijective.1.eq_iff, hs, hB.scalars.one, Exponent.one]

theorem identity (g : Group) : (Value.identity g : Value B).HasExponent g 0 := by
  cases g with
  | g1 => exact .g1 0
  | g2 => exact .g2 0
  | gt => exact .gt 0
  | zr => exact .zr hB.scalars.zero

theorem one (g : Group) : (Value.one g : Value B).HasExponent g (Exponent.one g) := by
  cases g with
  | g1 => exact .g1 0
  | g2 => exact .g2 0
  | gt => exact .gt 0
  | zr => exact .zr hB.scalars.one

theorem integer (n : Int64) : (Value.zr (B.scalars.ofInt64 n)).HasExponent .zr (n.toInt : Fr) :=
  .zr (hB.scalars.ofInt64 n)

theorem generator (g : Group) :
    Agree (HasExponent · g ·) (Value.generator (B := B) g) (Exponent.generator g) := by
  cases g with
  | g1 =>
    rw [Value.generator, show B.g1.generator = _ from hB.g1.cyclic.element_one.symm]
    exact .ok (.g1 1)
  | g2 =>
    rw [Value.generator, show B.g2.generator = _ from hB.g2.cyclic.element_one.symm]
    exact .ok (.g2 1)
  | gt =>
    rw [Value.generator, show B.target.generator = _ from hB.target.cyclic.element_one.symm]
    exact .ok (.gt 1)
  | zr => exact .error _

/-! ### Arithmetic -/

theorem scalarInverse {s : B.Scalar} (h : B.scalars.residue s ≠ 0) :
    ∃ t, Value.scalarInverse s = .ok t ∧ B.scalars.residue t = (B.scalars.residue s)⁻¹ := by
  obtain ⟨t, ht, hresidue⟩ := hB.scalars.exists_inv? h
  exact ⟨t, by rw [Value.scalarInverse, ht], hresidue⟩

theorem combineScalars {s t : B.Scalar} (hs : B.scalars.residue s = x)
    (ht : B.scalars.residue t = y) (op : BinaryOp) (hdiv : ¬(op = .div ∧ y = 0)) :
    Agree (HasExponent · .zr ·) ((Value.combineScalars op s t).map .zr)
      (.ok (Exponent.combineScalars op x y)) := by
  cases op with
  | add => exact .ok (.zr ((hB.scalars.add s t).trans (congrArg₂ _ hs ht)))
  | sub => exact .ok (.zr ((hB.scalars.sub s t).trans (congrArg₂ _ hs ht)))
  | mul => exact .ok (.zr ((hB.scalars.mul s t).trans (congrArg₂ _ hs ht)))
  | div =>
    subst ht
    obtain ⟨u, hu, hresidue⟩ := scalarInverse hB fun h ↦ hdiv ⟨rfl, h⟩
    rw [Value.combineScalars, hu]
    exact .ok (.zr ((hB.scalars.mul s u).trans (congrArg₂ _ hs hresidue)))

/-- An operation on points or target group elements adds the exponents or subtracts them. -/
theorem combine (hv : v.HasExponent g x) (hw : w.HasExponent g y) (op : BinaryOp) :
    Agree (HasExponent · g ·) (v.combine op w) (Exponent.combine op g x y) := by
  have hrefused : (op = .div ∧ w.isIdentity = true) ↔ (op = .div ∧ y = 0) :=
    and_congr_right fun _ ↦ isIdentity_iff hB hw
  unfold Value.combine Exponent.combine
  by_cases hdiv : op = .div ∧ y = 0
  · rw [if_pos (hrefused.mpr hdiv), if_pos hdiv]
    exact .error _
  rw [if_neg (mt hrefused.mp hdiv), if_neg hdiv]
  cases hv with
  | g1 x =>
    cases hw with
    | g1 y =>
      cases op <;> simp only [BinaryOp.invertsSecond, Bool.false_eq_true, if_true, if_false,
        hB.g1.sub_element, hB.g1.add_element] <;> exact .ok (.g1 _)
  | g2 x =>
    cases hw with
    | g2 y =>
      cases op <;> simp only [BinaryOp.invertsSecond, Bool.false_eq_true, if_true, if_false,
        hB.g2.sub_element, hB.g2.add_element] <;> exact .ok (.g2 _)
  | gt x =>
    cases hw with
    | gt y =>
      cases op <;> simp only [BinaryOp.invertsSecond, Bool.false_eq_true, if_true, if_false,
        hB.target.invert_element, hB.target.combine_element, ← sub_eq_add_neg] <;> exact .ok (.gt _)
  | zr hs =>
    cases hw with
    | zr ht => exact combineScalars hB hs ht op hdiv

theorem inverse (hv : v.HasExponent g x) :
    Agree (HasExponent · g ·) v.inverse (Exponent.inverse g x) := by
  have hrefused := isIdentity_iff hB hv
  unfold Value.inverse Exponent.inverse
  by_cases hzero : x = 0
  · rw [if_pos (hrefused.mpr hzero), if_pos hzero]
    exact .error _
  rw [if_neg (mt hrefused.mp hzero), if_neg hzero]
  cases hv with
  | g1 x =>
    dsimp only
    rw [hB.g1.neg_element]
    exact .ok (.g1 _)
  | g2 x =>
    dsimp only
    rw [hB.g2.neg_element]
    exact .ok (.g2 _)
  | gt x =>
    dsimp only
    rw [hB.target.invert_element]
    exact .ok (.gt _)
  | zr hs =>
    subst hs
    obtain ⟨t, ht, hresidue⟩ := scalarInverse hB hzero
    dsimp only
    rw [ht]
    exact .ok (.zr hresidue)

theorem negative (hv : v.HasExponent g x) : v.negative.HasExponent g (-x) := by
  cases hv with
  | g1 x =>
    rw [Value.negative, hB.g1.neg_element]
    exact .g1 _
  | g2 x =>
    rw [Value.negative, hB.g2.neg_element]
    exact .g2 _
  | gt x =>
    rw [Value.negative, hB.target.invert_element]
    exact .gt _
  | zr hs => exact .zr ((hB.scalars.neg _).trans (congrArg Neg.neg hs))

/-- Scalars multiply exponents in every group. -/
theorem multiple (hv : v.HasExponent g x) (k : B.Scalar) :
    (v.multiple k).HasExponent g (B.scalars.residue k * x) := by
  cases hv with
  | g1 x =>
    rw [Value.multiple, hB.g1.scale_element hB.scalars]
    exact .g1 _
  | g2 x =>
    rw [Value.multiple, hB.g2.scale_element hB.scalars]
    exact .g2 _
  | gt x =>
    rw [Value.multiple, hB.target.scale_element hB.scalars]
    exact .gt _
  | zr hs => exact .zr ((hB.scalars.mul _ k).trans (by rw [hs, mul_comm]))

/-- A power of a scalar is one by an integer, while outside the scalars it is a multiple. -/
theorem power (hv : v.HasExponent g x) (k : B.Scalar) :
    (v.power k).HasExponent g (Exponent.power (B.scalars.residue k) g x) := by
  cases hv with
  | g1 x => exact multiple hB (.g1 x) k
  | g2 x => exact multiple hB (.g2 x) k
  | gt x => exact multiple hB (.gt x) k
  | zr hs =>
    refine .zr ?_
    rw [hB.scalars.pow, hB.scalars.toNat_limbs, hs]
    rfl

end Laws

end Value.HasExponent

end BilinearGroups
