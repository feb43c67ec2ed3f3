import BilinearGroups.Proofs.Element.IntegerMultiples

/-!
# Different forms of one operation

The operations come in several forms. An element can be combined in place, or a fresh element can
take the result of its operands: the two check different things and agree nevertheless, over any
backend, in the element they leave and in the reason for which they fail.

Some operations can also be expressed by others. A difference is a sum with the negative and a
quotient a product with the inverse, in every group. Outside the scalars the vocabulary of products
says nothing new: product, quotient and power are sum, difference and multiple, except that nothing
is divided by the neutral element.
-/

namespace BilinearGroups

open Bls12
open ExponentModel (elementOf)

variable {B : Backend} {M : B.Membership} {c : Context B} {g : Group}

/-! ## Values -/

namespace Value

variable {v w : Value B}

/-- Outside the scalars a product is a sum. -/
theorem combine_mul_eq_add (hv : v.group ≠ .zr) : v.combine .mul w = v.combine .add w := by
  unfold combine
  rw [if_neg nofun, if_neg nofun]
  cases v with
  | zr => exact absurd rfl hv
  | g1 | g2 | gt => cases w <;> rfl

/-- Outside the scalars a quotient is a difference. -/
theorem combine_div_eq_sub (hv : v.group ≠ .zr) (hw : w.isIdentity = false) :
    v.combine .div w = v.combine .sub w := by
  unfold combine
  rw [if_neg (by simp [hw]), if_neg nofun]
  cases v with
  | zr => exact absurd rfl hv
  | g1 | g2 | gt => cases w <;> rfl

/-- Outside the scalars a power is a multiple. -/
theorem power_eq_multiple (hv : v.group ≠ .zr) (k : B.Scalar) : v.power k = v.multiple k := by
  obtain ⟨p, hp⟩ := exists_of (v := v) rfl
  rw [hp]
  exact power_of hv k p

theorem combine_div_eq_error (hw : w.isIdentity = true) :
    v.combine .div w = .error .notInvertible := by
  unfold combine
  exact if_pos ⟨rfl, hw⟩

theorem inverse_eq_error (hv : v.isIdentity = true) : v.inverse = .error .notInvertible := by
  unfold inverse
  exact if_pos hv

end Value

/-! ## Elements -/

namespace Element

variable {e e' a b : Element B}

/-- Run on two elements, the operations leave the same element behind, or they fail for the same
reason and leave both elements as they were. -/
def Update.SameOutcome (u : Update B Unit) (e : Element B) (u' : Update B Unit) (e' : Element B) :
    Prop :=
  (∃ next, u.run e = .ok () next ∧ u'.run e' = .ok () next) ∨
    ∃ reason, u.run e = .error reason e ∧ u'.run e' = .error reason e'

/-- For operations that only replace a value it is enough to compare results. -/
theorem Update.Replaces.sameOutcome {u u' : Update B Unit} {R R' : Element B → Value B → Prop}
    (hu : u.Replaces R) (hu' : u'.Replaces R') (h : u'.result e' = u.result e) :
    u.SameOutcome e u' e' := by
  have hrun := hu.run_eq e
  have hrun' := hu'.run_eq e'
  rw [h] at hrun'
  cases hresult : u.result e with
  | ok next =>
    rw [hresult] at hrun hrun'
    exact .inl ⟨next, hrun, hrun'⟩
  | error reason =>
    rw [hresult] at hrun hrun'
    exact .inr ⟨reason, hrun, hrun'⟩

theorem combineWith_sameOutcome (op : BinaryOp) (e b : Element B) :
    (combineWith op b).SameOutcome e (combine op e b) e.freshLike := by
  refine (combineWith_replaces op b).sameOutcome (combine_replaces op e b) ?_
  rw [combineWith_eq_combine]
  exact combine_withValue (Value.group_identity e.group) op e b

theorem powScalarWith_sameOutcome (e z : Element B) :
    (powScalarWith z).SameOutcome e (powScalar e z) e.freshLike := by
  refine (powScalarWith_replaces z).sameOutcome (powScalar_replaces e z) ?_
  rw [powScalarWith_eq_powScalar]
  exact powScalar_withValue (Value.group_identity e.group) e z

theorem inverted_sameOutcome (e : Element B) : inverted.SameOutcome e (invert e) e.freshLike := by
  refine inverted_replaces.sameOutcome (invert_replaces e) ?_
  rw [inverted_eq_invert]
  exact invert_withValue (Value.group_identity e.group) e

/-! ### Outside the scalars -/

theorem combine_mul_result_eq (ha : a.group ≠ .zr) :
    (combine .mul a b).result e = (combine .add a b).result e := by
  rw [combine_result, combine_result, Value.combine_mul_eq_add ha]

theorem combine_div_result_eq (ha : a.group ≠ .zr) (hb : b.isZero = false) :
    (combine .div a b).result e = (combine .sub a b).result e := by
  rw [combine_result, combine_result, Value.combine_div_eq_sub ha hb]

theorem powScalar_result_eq (ha : a.group ≠ .zr) (z : Element B) :
    (powScalar a z).result e = (mulScalar a z).result e := by
  rw [powScalar_result, mulScalar_result]
  simp only [Value.power_eq_multiple ha]

/-! ### Neutral divisors -/

theorem InGroup.invert_refused (he : e.InGroup c g) (hb : b.InGroup c g) (hzero : b.isZero = true) :
    (invert b).result e = .error .notInvertible := by
  rw [invert_result, he.checkCompatible_eq_ok hb, Value.inverse_eq_error hzero]
  rfl

theorem InGroup.div_refused (he : e.InGroup c g) (ha : a.InGroup c g) (hb : b.InGroup c g)
    (hzero : b.isZero = true) : (combine .div a b).result e = .error .notInvertible := by
  rw [combine_result, he.checkCompatible_eq_ok ha, he.checkCompatible_eq_ok hb,
    Value.combine_div_eq_error hzero]
  rfl

end Element

/-! ## Members -/

namespace Context.Members

variable (hB : B.ModuleLaws M)

include hB

/-- A quotient is the product with the inverse, in every group. -/
theorem exists_quotient (a b : c.Members M g) (hb : b.1.isZero = false) :
    ∃ i d : c.Members M g, c.Gives g (Element.invert b.1) i.1 ∧
      c.Gives g (Element.combine .mul a.1 i.1) d.1 ∧
      c.Gives g (Element.combine .div a.1 b.1) d.1 := by
  let := field hB c
  by_cases hg : g = .zr
  · subst hg
    have hfield : c.ComputesField M := computesField hB c
    have hne : b ≠ 0 := by
      rw [ne_eq, ← hfield.isZero_iff, hb]
      decide
    refine ⟨b⁻¹, a / b, hfield.inv hne, ?_, hfield.div a hne⟩
    rw [div_eq_mul_inv]
    exact hfield.mul a b⁻¹
  · let := addCommGroup hB c hg
    let := module hB c hg
    have hmodule : c.ComputesModule M g := computesModule hB c hg
    have hgroup : a.1.group ≠ .zr := a.2.1.group.trans_ne hg
    refine ⟨-b, a - b, gives_invert_neg hB c hg hb, fun e he ↦ ?_, fun e he ↦ ?_⟩
    · rw [Element.combine_mul_result_eq hgroup, sub_eq_add_neg]
      exact hmodule.add a (-b) e he
    · rw [Element.combine_div_result_eq hgroup hb]
      exact hmodule.sub a b e he

end Context.Members

namespace Element

/-- On every backend an operation in place and the operation on a fresh element agree, whatever the
groups and contexts of the operands: they leave the same element behind, or they fail for the same
reason. Among the members of a group of a context, a quotient is the product with the inverse, and
neither exists for a neutral divisor; a difference is the sum with the negative; outside the scalars
a product is a sum, a quotient a difference and a power a multiple, also where they are refused; and
a square is a product of two factors, a double a sum of two copies and the multiple by two. -/
theorem alternative_forms_agree {M : B.Membership} (hM : M.Supported) :
    (∀ x y : Element B,
      (∀ op, (combineWith op y).SameOutcome x (combine op x y) x.freshLike) ∧
      (powScalarWith y).SameOutcome x (powScalar x y) x.freshLike ∧
      inverted.SameOutcome x (invert x) x.freshLike) ∧
    ∀ (c : Context B) (g : Group) (a b : c.Members M g),
      (b.1.isZero = false → ∃ i d : c.Members M g, c.Gives g (invert b.1) i.1 ∧
        c.Gives g (combine .mul a.1 i.1) d.1 ∧ c.Gives g (combine .div a.1 b.1) d.1) ∧
      (b.1.isZero = true → ∀ e : Element B, e.InGroup c g →
        (invert b.1).result e = .error .notInvertible ∧
        (combine .div a.1 b.1).result e = .error .notInvertible) ∧
      (∃ n d : c.Members M g, c.Gives g (neg b.1) n.1 ∧
        c.Gives g (combine .add a.1 n.1) d.1 ∧ c.Gives g (combine .sub a.1 b.1) d.1) ∧
      (g ≠ .zr → ∀ e : Element B,
        (combine .mul a.1 b.1).result e = (combine .add a.1 b.1).result e ∧
        (b.1.isZero = false →
          (combine .div a.1 b.1).result e = (combine .sub a.1 b.1).result e) ∧
        ∀ z, (powScalar a.1 z).result e = (mulScalar a.1 z).result e) ∧
      (∀ e : Element B, (square a.1).result e = (combine .mul a.1 a.1).result e) ∧
      ∃ d : c.Members M g, c.Gives g (double a.1) d.1 ∧ c.Gives g (combine .add a.1 a.1) d.1 ∧
        c.Gives g (mulInteger a.1 2) d.1 := by
  have hB := hM.moduleLaws
  constructor
  · intro x y
    exact ⟨fun op ↦ combineWith_sameOutcome op x y, powScalarWith_sameOutcome x y,
      inverted_sameOutcome x⟩
  intro c g a b
  obtain ⟨_, hc⟩ := Context.Members.exists_computesSums hB c g
  refine ⟨Context.Members.exists_quotient hB a b, ?_, ⟨-b, a - b, hc.neg b, ?_, hc.sub a b⟩, ?_,
    fun _ ↦ rfl, ⟨a + a, hc.add a a, hc.add a a, ?_⟩⟩
  · intro hzero e he
    exact ⟨he.invert_refused b.2.1 hzero, he.div_refused a.2.1 b.2.1 hzero⟩
  · rw [sub_eq_add_neg]
    exact hc.add a (-b)
  · intro hg e
    have hgroup : a.1.group ≠ .zr := a.2.1.group.trans_ne hg
    exact ⟨combine_mul_result_eq hgroup, combine_div_result_eq hgroup, powScalar_result_eq hgroup⟩
  · rw [← two_zsmul]
    exact hc.mulInteger a 2

/-- A point is divided by the neutral element and added to a scalar, both in vain; and a scalar is
divided in two ways. -/
theorem alternative_forms_agree_samples : exponentMembership.Supported ∧
    (combineWith .div (elementOf .g1 0)).SameOutcome (elementOf .g1 5)
      (combine .div (elementOf .g1 5) (elementOf .g1 0)) (elementOf .g1 0) ∧
    (combineWith .add (elementOf .zr 2)).SameOutcome (elementOf .g1 5)
      (combine .add (elementOf .g1 5) (elementOf .zr 2)) (elementOf .g1 0) ∧
    (∃ i d, (invert (elementOf .zr 3)).result (elementOf .zr 0) = .ok i ∧
      (combine .mul (elementOf .zr 7) i).result (elementOf .zr 0) = .ok d ∧
      (combine .div (elementOf .zr 7) (elementOf .zr 3)).result (elementOf .zr 0) = .ok d) ∧
    (combine .div (elementOf .gt 7) (elementOf .gt 3)).result (elementOf .gt 1) =
      (combine .sub (elementOf .gt 7) (elementOf .gt 3)).result (elementOf .gt 1) := by
  obtain ⟨hplace, hmembers⟩ := alternative_forms_agree .exponent
  refine ⟨.exponent, (hplace _ _).1 _, (hplace _ _).1 _, ?_, ?_⟩
  · obtain ⟨i, d, hi, hmul, hdiv⟩ := (hmembers _ _ (ExponentModel.memberOf .zr 7)
      (ExponentModel.memberOf .zr 3)).1 (show (elementOf .zr 3).isZero = false by decide)
    have hreceiver := (ExponentModel.memberOf .zr 0).2.1
    exact ⟨i.1, d.1, hi _ hreceiver, hmul _ hreceiver, hdiv _ hreceiver⟩
  · obtain ⟨-, -, -, hgroups, -⟩ := hmembers _ _ (ExponentModel.memberOf .gt 7)
      (ExponentModel.memberOf .gt 3)
    exact (hgroups nofun _).2.1 (show (elementOf .gt 3).isZero = false by decide)

end Element

end BilinearGroups
